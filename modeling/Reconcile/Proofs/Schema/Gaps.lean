import Mathlib.Data.List.Basic
import Reconcile.Proofs.Schema.Canonical
import Reconcile.Proofs.Schema.Checks

/-!
# Blocks filled from themselves

A block that is filled from itself carries nothing over, so only defaults can be put in. It stays as
it is exactly if it is complete (`fill_self_iff`), and so does each of its fields
(`lookup_fill_self_iff`).
-/

namespace Reconcile

/-- Whether the values of a type are nested blocks. -/
def FieldType.isNested : FieldType → Bool
  | .block _ _ => true
  | _ => false

theorem FieldType.ne_block {type : FieldType} (h : type.isNested = false) (fields : Schema)
    (singular : Bool) : type ≠ .block fields singular := by
  rintro rfl
  cases h

namespace Schema

variable {schema fields : Schema} {block : Block} {field : Field} {value : Option Json}

/-- A field with a default has a value, and the blocks nested in its value are complete. -/
structure CompleteField (field : Field) (value : Option Json) : Prop where
  here : field.default.isSome → value.isSome
  below : ∀ v, value = some v → ∀ (fields : Schema) (singular : Bool),
    field.type = .block fields singular → ∀ element ∈ v.elements, fields.Complete element

/-- A block is complete if each of its fields is. -/
theorem complete_iff : schema.Complete block ↔
    ∀ field ∈ schema, CompleteField field (block.lookup field.name) := by
  constructor
  · rintro ⟨here, below⟩ field hfield
    exact ⟨here field hfield, below field hfield⟩
  · intro h
    exact .intro (fun field hfield => (h field hfield).here) fun field hfield =>
      (h field hfield).below

/-- A value that is there and is no nested block makes a complete field. -/
theorem completeField_some (hleaf : field.type.isNested = false) (value : Json) :
    CompleteField field (some value) :=
  ⟨fun _ => rfl, fun _ _ fields singular hblock =>
    absurd hblock (FieldType.ne_block hleaf fields singular)⟩

/-! ## Filling from the block itself -/

/-- The elements of a nested block stay as they are if each does that is filled from itself. -/
theorem fillItems_self_iff (fields : Schema) (singular : Bool) (blocks : List Block) :
    fillItems (.block fields singular) (some (.arr (blocks.map .obj))) (blocks.map .obj) =
        blocks.map .obj ↔
      ∀ element ∈ blocks, fill fields (some element) element = element := by
  have helement : ∀ i, elementAt? (some (.arr (blocks.map .obj))) i = blocks[i]? := by
    intro i
    show ((blocks.map Json.obj)[i]?).bind Json.obj? = blocks[i]?
    rw [List.getElem?_map]
    cases blocks[i]? with
    | none => rfl
    | some element => rfl
  have hinjective : Function.Injective Json.obj := fun _ _ h => Json.obj.inj h
  rw [fillItems_block, (List.map_injective_iff.2 hinjective).eq_iff, List.mapIdx_eq_iff]
  constructor
  · intro h element hmem
    obtain ⟨i, hi⟩ := List.getElem?_of_mem hmem
    have hsame := h i
    rw [helement, hi, Option.map_some] at hsame
    exact (Option.some.inj hsame).symm
  · intro h i
    rw [helement]
    cases hi : blocks[i]? with
    | none => rfl
    | some element => exact congrArg some (h element (List.mem_of_getElem? hi)).symm

/-- The value of a field that is filled from itself stays as it is exactly if the field is
complete. -/
theorem fillValue_self_iff (hadmits : ∀ v, value = some v → field.type.Admits v)
    (hbelow : ∀ v, value = some v → ∀ (fields : Schema) (singular : Bool),
      field.type = .block fields singular → ∀ element ∈ v.elements,
        (fill fields (some element) element = element ↔ fields.Complete element)) :
    fillValue field value value = value ↔ CompleteField field value := by
  cases value with
  | none =>
      rw [fillValue_default (.inl rfl), Option.map_eq_none_iff]
      refine ⟨fun hdefault => ⟨fun hsome => ?_, nofun⟩, fun h => ?_⟩
      · rw [hdefault] at hsome
        cases hsome
      · exact Option.not_isSome_iff_eq_none.1 fun hsome => nomatch h.here hsome
  | some v =>
      have hv := hadmits v rfl
      obtain ⟨name, type, presence, default⟩ := field
      cases hv with
      | block fields singular blocks _ =>
          have hsame : fillValue ⟨name, .block fields singular, presence, default⟩
              (some (.arr (blocks.map .obj))) (some (.arr (blocks.map .obj))) =
                some (.arr (blocks.map .obj)) ↔
              ∀ element ∈ blocks, fill fields (some element) element = element := by
            rw [← fillItems_self_iff fields singular blocks]
            exact ⟨fun h => Json.arr.inj (Option.some.inj h), fun h => congrArg (some ∘ Json.arr) h⟩
          have helements := hbelow _ rfl fields singular rfl
          rw [Json.elements_arr] at helements
          rw [hsame]
          constructor
          · intro h
            refine ⟨fun _ => rfl, ?_⟩
            rintro _ ⟨⟩ _ _ ⟨⟩ element helement
            rw [Json.elements_arr] at helement
            exact (helements element helement).1 (h element helement)
          · intro h element helement
            refine (helements element helement).2 (h.below _ rfl fields singular rfl element ?_)
            rw [Json.elements_arr]
            exact helement
      | _ => exact iff_of_true rfl (completeField_some rfl _)

/-- A block that is filled from itself stays as it is exactly if it is complete. -/
theorem fill_self_iff (hschema : schema.WellNamed) (hblock : schema.Accepts block) :
    fill schema (some block) block = block ↔ schema.Complete block := by
  induction hschema generalizing block with
  | @intro schema here _ ih =>
      have hfields : ∀ field ∈ schema,
          (fillValue field (block.lookup field.name) (block.lookup field.name) =
              block.lookup field.name ↔ CompleteField field (block.lookup field.name)) := by
        intro field hfield
        refine fillValue_self_iff (fun v hv => hblock.typed.here hfield hv) ?_
        intro v hv fields singular htype element helement
        exact ih field hfield fields singular htype (hblock.element hfield hv htype helement)
      rw [complete_iff]
      constructor
      · intro h field hfield
        refine (hfields field hfield).1 ?_
        exact (lookup_fill here.1 hfield).symm.trans (congrArg (List.lookup field.name) h)
      · intro h
        have hasc := hblock.covers.ascending
        exact fill_eq_of_fields here.1 hasc hasc (fun _ _ => rfl) fun field hfield =>
          (hfields field hfield).2 (h field hfield)

/-- So does each of its fields. -/
theorem lookup_fill_self_iff (hschema : schema.WellNamed) (hblock : schema.Accepts block)
    (hfield : field ∈ schema) :
    (fill schema (some block) block).lookup field.name = block.lookup field.name ↔
      CompleteField field (block.lookup field.name) := by
  rw [lookup_fill hschema.nodup hfield]
  refine fillValue_self_iff (fun v hv => hblock.typed.here hfield hv) ?_
  intro v hv fields singular htype element helement
  cases hschema with
  | intro _ below =>
      exact fill_self_iff (below field hfield fields singular htype)
        (hblock.element hfield hv htype helement)

/-! ## Complete fields -/

/-- No field has a default. -/
def WithoutDefaults (schema : Schema) : Prop := ∀ field ∈ schema, field.default = none

instance : DecidablePred WithoutDefaults := fun schema =>
  inferInstanceAs (Decidable (∀ field ∈ schema, field.default = none))

/-- Where there are no defaults there are no gaps. -/
theorem complete_of_throughout (h : schema.Throughout WithoutDefaults) (block : Block) :
    schema.Complete block := by
  induction h generalizing block with
  | intro here _ ih =>
      refine .intro (fun field hfield hdefault => ?_) fun field hfield _ _ fields singular htype
        element _ => ih field hfield fields singular htype element
      rw [here field hfield] at hdefault
      cases hdefault

/-- A field without a default is complete if it has no defaults below. -/
theorem completeField_of_throughout (hdefault : field.default = none) {singular : Bool}
    (htype : field.type = .block fields singular) (h : fields.Throughout WithoutDefaults)
    (value : Option Json) : CompleteField field value := by
  refine ⟨fun hsome => ?_, fun _ _ other single hblock element _ => ?_⟩
  · rw [hdefault] at hsome
    cases hsome
  · cases htype.symm.trans hblock
    exact complete_of_throughout h element

/-- A field without a default that is no nested block is complete with and without a value. -/
theorem completeField_leaf (hdefault : field.default = none) (hleaf : field.type.isNested = false)
    (value : Option Json) : CompleteField field value := by
  refine ⟨fun hsome => ?_, fun _ _ fields singular hblock =>
    absurd hblock (FieldType.ne_block hleaf fields singular)⟩
  rw [hdefault] at hsome
  cases hsome

/-- A singular block that is shown, if at all, makes a complete field exactly if its element is
complete. -/
theorem completeField_singular_iff {singular : Bool} (htype : field.type = .block fields singular)
    (hdefault : field.default = none) {child : Option Block} :
    CompleteField field (child.map Block.singular) ↔
      ∀ element, child = some element → fields.Complete element := by
  constructor
  · rintro h element rfl
    exact h.below _ rfl fields singular htype element List.mem_cons_self
  · intro h
    refine ⟨fun hsome => ?_, fun v hv other single hblock element helement => ?_⟩
    · rw [hdefault] at hsome
      cases hsome
    · obtain ⟨shown, hshown, rfl⟩ := Option.map_eq_some_iff.1 hv
      cases htype.symm.trans hblock
      obtain rfl : element = shown := List.mem_singleton.1 helement
      exact h element hshown

/-- A nested block without a default that says nothing makes a complete field. -/
theorem completeField_of_not_isDeclared {singular : Bool}
    (htype : field.type = .block fields singular) (hdefault : field.default = none)
    (hadmits : ∀ v, value = some v → field.type.Admits v)
    (h : Change.isDeclared value = false) : CompleteField field value := by
  refine ⟨fun hsome => ?_, fun v hv other single hblock element helement => ?_⟩
  · rw [hdefault] at hsome
    cases hsome
  · have hv' := hadmits v hv
    rw [htype] at hv'
    cases hv' with
    | block _ _ blocks _ =>
        rw [Json.elements_arr] at helement
        rw [hv] at h
        cases blocks with
        | nil => cases helement
        | cons first rest => cases h

/-- A nested block says something after its elements have been filled if it did before. -/
theorem isDeclared_fill_of_isDeclared (hnodup : (schema.map (·.name)).Nodup)
    (hblock : schema.Accepts block) (hfield : field ∈ schema) {singular : Bool}
    (htype : field.type = .block fields singular) (prior : Option Block)
    (h : Change.isDeclared (block.lookup field.name) = true) :
    Change.isDeclared ((fill schema prior block).lookup field.name) = true := by
  rw [lookup_fill hnodup hfield]
  cases hvalue : block.lookup field.name with
  | none =>
      rw [hvalue] at h
      cases h
  | some value =>
      obtain ⟨blocks, rfl, _⟩ := hblock.exists_blocks hfield htype hvalue
      rw [hvalue] at h
      rw [fillValue, htype, fillItems_block]
      cases blocks with
      | nil => cases h
      | cons first rest =>
          rw [List.mapIdx_cons]
          rfl

end Schema

end Reconcile
