import Mathlib.Data.List.Basic
import Reconcile.Proofs.Block.Nested
import Reconcile.Proofs.Schema.Filling
import Reconcile.Proofs.Schema.Fitting

/-!
# Blocks filled again

Filling a block from nothing gives its absent fields their defaults. Filling the same block from
the result gives the result again (`fill_fill`). A rule for values that the defaults satisfy, and
that filling the elements of a nested block keeps, holds throughout the filled block
(`every_fill`).
-/

namespace Reconcile.Schema

variable {schema : Schema} {block shown : Block} {rule : Field → Json → Prop}

/-- From nothing, the elements of a nested block are filled with defaults only. -/
theorem fillValue_of_none {field : Field} {value : Json} (h : field.type.Admits value) :
    fillValue field none (some value) = some (match field.type with
      | .block fields _ => .arr ((value.elements.map (fill fields none)).map .obj)
      | _ => value) := by
  rw [fillValue_some h]
  cases field.type with
  | block fields singular =>
      have helements : value.elements.mapIdx (fun i element =>
          fill fields (elementAt? none i) element) = value.elements.map (fill fields none) :=
        List.mapIdx_eq_iff.2 fun i => List.getElem?_map
      exact congrArg (fun elements : List Block => some (Json.arr (elements.map .obj))) helements
  | _ => rfl

/-- An absent field that carries nothing over is filled with its default. -/
theorem fillValue_default {field : Field} {before : Option Json}
    (h : before = none ∨ field.presence.carries = false) :
    fillValue field before none = field.default.map Scalar.toJson := by
  have hcarried : (if field.presence.carries then before else none) = none := by
    rcases h with rfl | hcarries
    · exact ite_self none
    · rw [hcarries]
      rfl
  show ((if field.presence.carries then before else none) <|> _) = _
  rw [hcarried]
  rfl

/-- An absent field without a default that carries over is filled with what was there. -/
theorem fillValue_carried {field : Field} (hcarries : field.presence.carries = true)
    (hdefault : field.default = none) (before : Option Json) :
    fillValue field before none = before := by
  show ((if field.presence.carries then before else none) <|> field.default.map Scalar.toJson) = _
  rw [if_pos hcarries, hdefault]
  cases before with
  | none => rfl
  | some value => rfl

/-- A value of a block that was filled from nothing is a default, or was there before, as it is or
with the elements of a nested block filled. -/
theorem cases_of_lookup_fill (hnodup : (schema.map (·.name)).Nodup) (hblock : schema.Accepts block)
    {field : Field} (hfield : field ∈ schema) {value : Json}
    (h : (fill schema none block).lookup field.name = some value) :
    (∃ default, field.default = some default ∧ value = default.toJson) ∨
    (block.lookup field.name = some value ∧
      ∀ fields singular, field.type ≠ .block fields singular) ∨
    ∃ (fields : Schema) (singular : Bool) (blocks : List Block),
      field.type = .block fields singular ∧
      block.lookup field.name = some (.arr (blocks.map .obj)) ∧
      value = .arr ((blocks.map (fill fields none)).map .obj) := by
  rw [lookup_fill hnodup hfield] at h
  cases hown : block.lookup field.name with
  | none =>
      rw [hown] at h
      have hmap : field.default.map Scalar.toJson = some value :=
        (fillValue_default (.inl rfl)).symm.trans h
      obtain ⟨default, hdefault, rfl⟩ := Option.map_eq_some_iff.1 hmap
      exact .inl ⟨default, hdefault, rfl⟩
  | some own =>
      have hadmits := hblock.typed.here hfield hown
      have hfill : fillValue field none (some own) = some value := by
        rw [← h, hown]
        rfl
      rw [fillValue_of_none hadmits, Option.some.injEq] at hfill
      cases htype : field.type with
      | block fields singular =>
          obtain ⟨blocks, rfl, _⟩ := hblock.exists_blocks hfield htype hown
          rw [htype] at hfill
          dsimp only at hfill
          rw [Json.elements_arr] at hfill
          exact .inr (.inr ⟨fields, singular, blocks, rfl, rfl, hfill.symm⟩)
      | _ =>
          rw [htype] at hfill
          exact .inr (.inl ⟨congrArg some hfill, fun _ _ heq => (nomatch heq)⟩)

/-- An element of a nested block of a filled block has been filled itself. -/
theorem exists_unfilled (hnodup : (schema.map (·.name)).Nodup) (hblock : schema.Accepts block)
    {field : Field} (hfield : field ∈ schema) {value : Json}
    (hlookup : (fill schema none block).lookup field.name = some value) {fields : Schema}
    {singular : Bool} (htype : field.type = .block fields singular) {element : Block}
    (helement : element ∈ value.elements) :
    ∃ own unfilled, block.lookup field.name = some own ∧ unfilled ∈ own.elements ∧
      fill fields none unfilled = element := by
  rcases cases_of_lookup_fill hnodup hblock hfield hlookup with
    ⟨default, _, rfl⟩ | ⟨_, hscalar⟩ | ⟨fields', singular', blocks, htype', hown, rfl⟩
  · rw [elements_toJson] at helement
    cases helement
  · exact absurd htype (hscalar fields singular)
  · cases htype.symm.trans htype'
    rw [Json.elements_arr] at helement
    obtain ⟨unfilled, hmem, rfl⟩ := List.mem_map.1 helement
    refine ⟨_, unfilled, hown, ?_, rfl⟩
    rw [Json.elements_arr]
    exact hmem

/-- A field that is still absent once it has been filled was absent before. -/
theorem lookup_eq_none_of_fill (hnodup : (schema.map (·.name)).Nodup) {field : Field}
    (hfield : field ∈ schema) {prior : Option Block}
    (h : (fill schema prior block).lookup field.name = none) : block.lookup field.name = none := by
  rw [lookup_fill hnodup hfield] at h
  cases hvalue : block.lookup field.name with
  | none => rfl
  | some value =>
      rw [hvalue] at h
      cases value with
      | arr items => cases h
      | _ => cases h

/-- A value that is no nested block is left as it is. -/
theorem lookup_fill_of_some (hnodup : (schema.map (·.name)).Nodup) (hblock : schema.Accepts block)
    {field : Field} (hfield : field ∈ schema)
    (htype : ∀ fields singular, field.type ≠ .block fields singular) {value : Json}
    (hvalue : block.lookup field.name = some value) (prior : Option Block) :
    (fill schema prior block).lookup field.name = some value := by
  rw [lookup_fill hnodup hfield, hvalue, fillValue_some (hblock.typed.here hfield hvalue)]
  split
  · rename_i fields singular heq
    exact absurd heq (htype fields singular)
  · rfl

/-- An optional field without a default that is no nested block is left as it is. -/
theorem lookup_fill_of_optional (hnodup : (schema.map (·.name)).Nodup)
    (hblock : schema.Accepts block) {field : Field} (hfield : field ∈ schema)
    (htype : ∀ fields singular, field.type ≠ .block fields singular)
    (hcarries : field.presence.carries = false) (hdefault : field.default = none)
    (prior : Option Block) :
    (fill schema prior block).lookup field.name = block.lookup field.name := by
  cases hvalue : block.lookup field.name with
  | none =>
      rw [lookup_fill hnodup hfield, hvalue, fillValue_default (.inr hcarries), hdefault]
      rfl
  | some value => exact lookup_fill_of_some hnodup hblock hfield htype hvalue prior

/-- A text without a default is as it was where nothing is filled in from before. -/
theorem text?_fill (hnodup : (schema.map (·.name)).Nodup) {field : Field} (hfield : field ∈ schema)
    (hdefault : field.default = none) :
    Block.text? (fill schema none block) field.name = Block.text? block field.name := by
  rw [Block.text?, Block.text?, lookup_fill hnodup hfield]
  cases block.lookup field.name with
  | none =>
      show ((fillValue field none none).bind Json.str?).filter _ = _
      rw [fillValue_default (.inl rfl), hdefault]
      rfl
  | some value =>
      cases value with
      | arr items => rfl
      | _ => rfl

/-- The first element of a nested block is filled from the first element that was there. -/
theorem child?_fill (hnodup : (schema.map (·.name)).Nodup) {name : String} {fields : Schema}
    {singular : Bool} {child : Block} (htype : schema.typeOf? name = some (.block fields singular))
    (hchild : Block.child? block name = some child) (prior : Option Block) :
    Block.child? (fill schema prior block) name =
      some (fill fields (prior.bind (Block.child? · name)) child) := by
  obtain ⟨field, hfield, rfl, hfieldType⟩ := exists_of_typeOf? htype
  have hbefore : elementAt? (prior.bind (·.lookup field.name)) 0 =
      prior.bind (Block.child? · field.name) := by
    cases prior with
    | none => rfl
    | some before =>
        show (before.lookup field.name).bind (fun value => value.arr?.bind fun items =>
          items[0]?.bind Json.obj?) = (before.lookup field.name).bind fun value =>
            value.arr?.bind fun items => items.head?.bind Json.obj?
        simp only [List.head?_eq_getElem?]
  obtain ⟨items, hitems⟩ := Block.child?_eq_some_iff.1 hchild
  rw [← hbefore, Block.child?, lookup_fill hnodup hfield, hitems, fillValue, hfieldType, fillItems,
    List.mapIdx_cons]
  rfl

/-- A nested block that is not there is not filled in, unless it carries over. -/
theorem child?_fill_eq_none (hnodup : (schema.map (·.name)).Nodup) (hblock : schema.Accepts block)
    {field : Field} (hfield : field ∈ schema) {fields : Schema} {singular : Bool}
    (htype : field.type = .block fields singular) (hcarries : field.presence.carries = false)
    (hdefault : field.default = none) (h : Block.child? block field.name = none)
    (prior : Option Block) : Block.child? (fill schema prior block) field.name = none := by
  rw [Block.child?, lookup_fill hnodup hfield]
  cases hvalue : block.lookup field.name with
  | none =>
      rw [fillValue_default (.inr hcarries), hdefault]
      rfl
  | some value =>
      obtain ⟨blocks, rfl, _⟩ := hblock.exists_blocks hfield htype hvalue
      cases blocks with
      | nil =>
          rw [List.map_nil, fillValue, htype]
          rfl
      | cons first rest =>
          cases h.symm.trans (Block.child?_eq_some_iff.2 ⟨rest.map .obj, hvalue⟩)

/-- The first element of a filled nested block is one that was there. -/
theorem exists_child_of_fill (hnodup : (schema.map (·.name)).Nodup) {name : String}
    {fields : Schema} {singular : Bool} {child : Block}
    (htype : schema.typeOf? name = some (.block fields singular))
    (h : Block.child? (fill schema none block) name = some child) :
    ∃ unfilled, Block.child? block name = some unfilled ∧ child = fill fields none unfilled := by
  obtain ⟨field, hfield, rfl, hfieldType⟩ := exists_of_typeOf? htype
  obtain ⟨items, hitems⟩ := Block.child?_eq_some_iff.1 h
  rw [lookup_fill hnodup hfield] at hitems
  cases hown : block.lookup field.name with
  | none =>
      -- A default is no array.
      rw [hown] at hitems
      rcases fillValue_none hitems with hcarried | ⟨default, -, hvalue⟩
      · cases hcarried
      · cases default with
        | int i => cases hvalue
        | bool b => cases hvalue
        | text s => cases hvalue
  | some own =>
      rw [hown] at hitems
      cases own with
      | arr values =>
          rw [fillValue, hfieldType, fillItems] at hitems
          cases values with
          | nil => cases hitems
          | cons first rest =>
              rw [List.mapIdx_cons] at hitems
              cases first with
              | obj unfilled =>
                  cases hitems
                  refine ⟨unfilled, ?_, rfl⟩
                  rw [Block.child?, hown]
                  rfl
              | _ => cases hitems
      | _ => cases hitems

/-- A singular block is filled from the singular block that was there. -/
theorem fillValue_singular {field : Field} {fields : Schema} {singular : Bool}
    (htype : field.type = .block fields singular) (before child : Block) :
    fillValue field (some (Block.singular before)) (some (Block.singular child)) =
      some (Block.singular (fill fields (some before) child)) := by
  obtain ⟨name, type, presence, default⟩ := field
  cases htype
  rfl

/-- A block whose elements are filled is filled again from its own elements. -/
theorem fillValue_filled {field : Field} {value : Option Json}
    (hadmits : ∀ v, value = some v → field.type.Admits v)
    (hagain : ∀ v, value = some v → ∀ fields singular, field.type = .block fields singular →
      ∀ element ∈ v.elements,
        fill fields (some (fill fields none element)) element = fill fields none element) :
    fillValue field (fillValue field none value) value = fillValue field none value := by
  cases value with
  | none =>
      rw [fillValue_default (.inl rfl)]
      -- What was filled in is the default, and it is what would be filled in again.
      cases hcarries : field.presence.carries with
      | false => exact fillValue_default (.inr hcarries)
      | true =>
          show ((if field.presence.carries then field.default.map Scalar.toJson else none) <|>
            field.default.map Scalar.toJson) = _
          rw [if_pos hcarries]
          cases field.default with
          | none => rfl
          | some default => rfl
  | some v =>
      have hv := hadmits v rfl
      rw [fillValue_of_none hv, fillValue_some hv]
      cases htype : field.type with
      | block fields singular =>
          have helements : v.elements.mapIdx (fun i element => fill fields (elementAt?
              (some (.arr ((v.elements.map (fill fields none)).map .obj))) i) element) =
                v.elements.map (fill fields none) := by
            refine List.mapIdx_eq_iff.2 fun i => ?_
            rw [List.getElem?_map]
            cases helement : v.elements[i]? with
            | none => rfl
            | some element =>
                have hbefore : elementAt? (some (.arr ((v.elements.map (fill fields none)).map
                    .obj))) i = some (fill fields none element) := by
                  show (((v.elements.map (fill fields none)).map Json.obj)[i]?).bind Json.obj? = _
                  rw [List.getElem?_map, List.getElem?_map, helement]
                  rfl
                show some _ = some _
                rw [hbefore]
                exact congrArg some (hagain v rfl fields singular htype element
                  (List.mem_of_getElem? helement)).symm
          exact congrArg (fun elements : List Block => some (Json.arr (elements.map .obj)))
            helements
      | _ => rfl

/-- A block is filled to the block that it is filled from if each of its fields is. -/
theorem fill_eq_of_fields (hnodup : (schema.map (·.name)).Nodup)
    (hasc : Entries.Ascending block) (hshown : Entries.Ascending shown)
    (hrest : ∀ k, k ∉ schema.map (·.name) → shown.lookup k = block.lookup k)
    (hfields : ∀ field ∈ schema,
      fillValue field (shown.lookup field.name) (block.lookup field.name) =
        shown.lookup field.name) :
    fill schema (some shown) block = shown := by
  refine Entries.Ascending.ext (ascending_fill hasc) hshown fun k => ?_
  by_cases hk : k ∈ schema.map (·.name)
  · obtain ⟨field, hfield, rfl⟩ := List.mem_map.1 hk
    rw [lookup_fill hnodup hfield]
    exact hfields field hfield
  · rw [lookup_fill_of_not_mem hk, hrest k hk]

/-- Filling a block from its own filled form changes nothing any more. -/
theorem fill_fill (hschema : schema.WellNamed) (hblock : schema.Accepts block) :
    fill schema (some (fill schema none block)) block = fill schema none block := by
  induction hschema generalizing block with
  | @intro schema here _ ih =>
      refine fill_eq_of_fields here.1 hblock.covers.ascending
        (ascending_fill hblock.covers.ascending) (fun k => lookup_fill_of_not_mem) ?_
      intro field hfield
      rw [lookup_fill here.1 hfield]
      refine fillValue_filled (fun v hv => hblock.typed.here hfield hv) ?_
      intro v hv fields singular htype element helement
      exact ih field hfield fields singular htype (hblock.element hfield hv htype helement)

/-- A field that is filled from what it has been filled with keeps it. -/
theorem fillValue_again (hschema : schema.WellNamed) (hblock : schema.Accepts block) {field : Field}
    (hfield : field ∈ schema)
    (h : shown.lookup field.name = (fill schema none block).lookup field.name) :
    fillValue field (shown.lookup field.name) (block.lookup field.name) =
      shown.lookup field.name := by
  cases hschema with
  | intro here below =>
      rw [h, lookup_fill here.1 hfield]
      refine fillValue_filled (fun v hv => hblock.typed.here hfield hv) ?_
      intro v hv fields singular htype element helement
      exact fill_fill (below field hfield fields singular htype)
        (hblock.element hfield hv htype helement)

/-- A rule for the values of a block holds throughout its filled form. -/
theorem every_fill (hschema : schema.WellNamed)
    (hdefaults : schema.Throughout fun fields => ∀ field ∈ fields, ∀ default,
      field.default = some default → rule field default.toJson)
    (hfilled : ∀ (field : Field) (fields : Schema) (singular : Bool) (blocks : List Block),
      field.type = .block fields singular → rule field (.arr (blocks.map .obj)) →
        rule field (.arr ((blocks.map (fill fields none)).map .obj)))
    (hblock : schema.Accepts block) (h : schema.Every rule block) :
    schema.Every rule (fill schema none block) := by
  induction hschema generalizing block with
  | @intro schema here _ ih =>
      cases hdefaults with
      | intro hdefault hbelow =>
          refine .intro (fun field hfield value hlookup => ?_) ?_
          · rcases cases_of_lookup_fill here.1 hblock hfield hlookup with
              ⟨default, hfieldDefault, rfl⟩ | ⟨hown, _⟩ |
              ⟨fields, singular, blocks, htype, hown, rfl⟩
            · exact hdefault field hfield default hfieldDefault
            · exact h.here hfield hown
            · exact hfilled field fields singular blocks htype (h.here hfield hown)
          · intro field hfield value hlookup fields singular htype element helement
            obtain ⟨_, unfilled, hown, hunfilled, rfl⟩ :=
              exists_unfilled here.1 hblock hfield hlookup htype helement
            exact ih field hfield fields singular htype
              (hbelow field hfield fields singular htype)
              (hblock.element hfield hown htype hunfilled)
              (h.inside hfield hown htype hunfilled)

end Reconcile.Schema
