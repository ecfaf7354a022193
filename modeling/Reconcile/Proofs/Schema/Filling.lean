import Mathlib.Data.List.Basic
import Reconcile.Proofs.Dict.Bindings
import Reconcile.Proofs.Schema.Conformance
import Reconcile.Schema.Normal

/-!
# Filled blocks

`lookup_fill` says what a field of a block holds once the gaps are filled, field by field. From it
follows that a block which a schema accepts is still accepted after its gaps have been filled from
another one, if the defaults of the schema have the types of their fields (`fill_accepts`).
-/

namespace Reconcile.Schema

variable {schema : Schema} {block : Block} {prior : Option Block}

/-- What a field holds after its gap has been filled. -/
def fillValue (field : Field) (before value : Option Json) : Option Json :=
  match value with
  | none =>
    (if field.presence.carries then before else none) <|> field.default.map Scalar.toJson
  | some (.arr items) => some (.arr (fillItems field.type before items))
  | some other => some other

theorem fillField_eq (field : Field) (prior : Option Block) (block : Block) :
    fillField field prior block =
      match block.lookup field.name with
      | none => Block.put block field.name
          (fillValue field (prior.bind (·.lookup field.name)) none)
      | some (.arr items) => Entries.insert field.name
          (.arr (fillItems field.type (prior.bind (·.lookup field.name)) items)) block
      | some _ => block := by
  obtain ⟨name, type, presence, default⟩ := field
  rw [fillField]
  rfl

theorem lookup_fillField (field : Field) (k : String) :
    (fillField field prior block).lookup k =
      if k = field.name then
        fillValue field (prior.bind (·.lookup field.name)) (block.lookup field.name)
      else block.lookup k := by
  rw [fillField_eq]
  by_cases hk : k = field.name
  · subst hk
    rw [if_pos rfl]
    split
    · rename_i hnone
      rw [Block.lookup_put, if_pos rfl, hnone]
      cases fillValue field (prior.bind (·.lookup field.name)) none with
      | none => rfl
      | some value => rfl
    · rename_i items harr
      rw [Entries.lookup_insert, if_pos rfl, harr]
      rfl
    · rename_i value hnot hvalue
      rw [hvalue]
      cases value with
      | arr items => exact absurd rfl (hnot items)
      | _ => rfl
  · rw [if_neg hk]
    split
    · rw [Block.lookup_put, if_neg hk]
    · rw [Entries.lookup_insert, if_neg hk]
    · rfl

theorem ascending_fillField (h : Entries.Ascending block) (field : Field) :
    Entries.Ascending (fillField field prior block) := by
  rw [fillField_eq]
  split
  · cases fillValue field (prior.bind (·.lookup field.name)) none with
    | none => exact h
    | some value => exact h.insert _ _
  · exact h.insert _ _
  · exact h

theorem ascending_fill (h : Entries.Ascending block) :
    Entries.Ascending (fill schema prior block) := by
  induction schema generalizing block with
  | nil => exact h
  | cons field fields ih => exact ih (ascending_fillField h field)

/-- Fields that the schema does not know are left alone. -/
theorem lookup_fill_of_not_mem {k : String} (h : k ∉ schema.map (·.name)) :
    (fill schema prior block).lookup k = block.lookup k := by
  induction schema generalizing block with
  | nil => rfl
  | cons field fields ih =>
      rw [List.map_cons, List.mem_cons, not_or] at h
      rw [fill, ih h.2, lookup_fillField, if_neg h.1]

/-- Every field is filled on its own. -/
theorem lookup_fill (hnodup : (schema.map (·.name)).Nodup) {field : Field}
    (hfield : field ∈ schema) : (fill schema prior block).lookup field.name =
      fillValue field (prior.bind (·.lookup field.name)) (block.lookup field.name) := by
  induction schema generalizing block with
  | nil => cases hfield
  | cons first fields ih =>
      obtain ⟨hfirst, hrest⟩ := List.nodup_cons.1 hnodup
      rw [fill]
      rcases List.mem_cons.1 hfield with rfl | hmem
      · rw [lookup_fill_of_not_mem hfirst, lookup_fillField, if_pos rfl]
      · have hne : field.name ≠ first.name :=
          ne_of_mem_of_not_mem (List.mem_map_of_mem hmem) hfirst
        rw [ih hrest hmem, lookup_fillField, if_neg hne]

/-- The elements of a nested block are filled each from the one with its index. -/
theorem fillItems_block (fields : Schema) (singular : Bool) (before : Option Json)
    (blocks : List Block) :
    fillItems (.block fields singular) before (blocks.map .obj) =
      (blocks.mapIdx fun i element => fill fields (elementAt? before i) element).map .obj := by
  rw [fillItems]
  refine List.ext_getElem? fun i => ?_
  simp only [List.getElem?_mapIdx, List.getElem?_map, Option.map_map]
  rfl

theorem mem_elements_of_elementAt? {value : Json} {i : Nat} {element : Block}
    (h : elementAt? (some value) i = some element) : element ∈ value.elements := by
  obtain ⟨items, hitems, h⟩ := Option.bind_eq_some_iff.1 h
  obtain ⟨item, hitem, hobj⟩ := Option.bind_eq_some_iff.1 h
  rw [Json.elements, hitems]
  exact List.mem_filterMap.2 ⟨item, List.mem_of_getElem? hitem, hobj⟩

/-! ## Filled blocks are accepted -/

/-- A default of the type of its field has no elements. -/
theorem elements_toJson (default : Scalar) : default.toJson.elements = [] := by
  cases default with
  | int i => rfl
  | bool b => rfl
  | text s => rfl

/-- A value that is there has its elements filled and nothing else. -/
theorem fillValue_some {field : Field} {value : Json} (h : field.type.Admits value)
    (before : Option Json) : fillValue field before (some value) =
      some (match field.type with
        | .block fields _ => .arr ((value.elements.mapIdx fun i element =>
            fill fields (elementAt? before i) element).map .obj)
        | _ => value) := by
  obtain ⟨name, type, presence, default⟩ := field
  cases h with
  | text s => rfl
  | int i hlow hhigh => rfl
  | bool b => rfl
  | textList items => rfl
  | textMap texts => rfl
  | block fields singular blocks hcovers =>
      rw [Json.elements_arr]
      show some (Json.arr (fillItems (.block fields singular) before (blocks.map .obj))) = _
      rw [fillItems_block]

/-- Where nothing is carried over, an absent value is the default. -/
theorem fillValue_none {field : Field} {before : Option Json} {value : Json}
    (h : fillValue field before none = some value) :
    before = some value ∨ ∃ default, field.default = some default ∧ value = default.toJson := by
  have hdefault : field.default.map Scalar.toJson = some value →
      ∃ default, field.default = some default ∧ value = default.toJson := by
    intro hmap
    obtain ⟨default, hfield, rfl⟩ := Option.map_eq_some_iff.1 hmap
    exact ⟨default, hfield, rfl⟩
  unfold fillValue at h
  by_cases hcarries : field.presence.carries = true
  · rw [if_pos hcarries] at h
    cases before with
    | some carried => exact .inl h
    | none => exact .inr (hdefault h)
  · rw [if_neg hcarries] at h
    exact .inr (hdefault h)

/-- The element of a fitting value that another one is filled from is accepted. -/
theorem accepts_elementAt? {type : FieldType} {before : Option Json}
    (hbefore : ∀ value, before = some value → type.Fits value) {fields : Schema}
    {singular : Bool} (htype : type = .block fields singular) {i : Nat} {element : Block}
    (h : elementAt? before i = some element) : fields.Accepts element := by
  cases before with
  | none => cases h
  | some value =>
      exact (hbefore value rfl).2 fields singular htype element (mem_elements_of_elementAt? h)

/-- What a field holds once its gap has been filled is its own value with its elements filled, the
value that was there before, or the default. Each of them fits. -/
theorem fits_fillValue {field : Field} {before own : Option Json} {value : Json}
    (hbefore : ∀ value, before = some value → field.type.Fits value)
    (hown : ∀ value, own = some value → field.type.Fits value)
    (hdefault : ∀ default, field.default = some default → field.type.Admits default.toJson)
    (hfill : ∀ (fields : Schema) (singular : Bool), field.type = .block fields singular →
      ∀ prior element, (∀ before, prior = some before → fields.Accepts before) →
        fields.Accepts element → fields.Accepts (fill fields prior element))
    (h : fillValue field before own = some value) : field.type.Fits value := by
  cases own with
  | none =>
      rcases fillValue_none h with hcarried | ⟨default, hfield, rfl⟩
      · exact hbefore value hcarried
      · refine ⟨hdefault default hfield, fun _ _ _ element helement => ?_⟩
        rw [elements_toJson] at helement
        cases helement
  | some own =>
      obtain ⟨hadmits, hnested⟩ := hown own rfl
      rw [fillValue_some hadmits, Option.some.injEq] at h
      subst h
      cases htype : field.type with
      | block fields singular =>
          refine FieldType.fits_blocks (fun element helement => ?_) singular
          obtain ⟨i, hi, rfl⟩ := List.mem_mapIdx.1 helement
          exact hfill fields singular htype _ _
            (fun _ hprior => accepts_elementAt? hbefore htype hprior)
            (hnested fields singular htype _ (List.getElem_mem hi))
      | _ =>
          rw [htype] at hadmits
          exact ⟨hadmits, fun _ _ heq => nomatch heq⟩

/-- Filling adds no name that the schema does not have. -/
theorem covers_fill (h : schema.Covers block) : schema.Covers (fill schema prior block) := by
  refine .of_lookup (ascending_fill h.ascending) fun key hkey => ?_
  rw [lookup_fill_of_not_mem hkey]
  exact Entries.lookup_eq_none_iff.2 fun hmem => hkey (h.known key hmem)

/-- A block whose gaps have been filled from an accepted one is accepted. -/
theorem fill_accepts (hschema : schema.WellNamed) (hdefaults : schema.Throughout TypedDefaults)
    (hprior : ∀ before, prior = some before → schema.Accepts before)
    (hblock : schema.Accepts block) : schema.Accepts (fill schema prior block) := by
  induction hschema generalizing prior block with
  | @intro schema here _ ih =>
      cases hdefaults with
      | intro typed below =>
          refine accepts_of_fits (covers_fill hblock.covers) fun field hfield value hvalue => ?_
          rw [lookup_fill here.1 hfield] at hvalue
          refine fits_fillValue ?_ (fun _ hown => hblock.fits hfield hown) (typed field hfield) ?_
            hvalue
          · intro carried hcarried
            obtain ⟨before, hbefore, hheld⟩ := Option.bind_eq_some_iff.1 hcarried
            exact (hprior before hbefore).fits hfield hheld
          · intro fields singular htype prior element hprior helement
            exact ih field hfield fields singular htype (below field hfield fields singular htype)
              hprior helement

end Reconcile.Schema
