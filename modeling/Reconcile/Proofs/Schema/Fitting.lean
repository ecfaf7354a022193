import Mathlib.Data.List.Basic
import Reconcile.Proofs.Block.Fields
import Reconcile.Proofs.Block.Nested
import Reconcile.Proofs.Schema.Conformance

/-!
# Blocks made of fitting fields

A block that is made of fields is accepted if each field that has a value is one of the schema and
the value is of its type (`accepts_ofFields`). There is one lemma for each way of writing a value.
-/

namespace Reconcile

namespace Schema

variable {schema : Schema} {name : String}

/-- The type of the field with a name. -/
def typeOf? (schema : Schema) (name : String) : Option FieldType :=
  (schema.find? fun field => field.name = name).map (·.type)

/-- A value, if it is there, is that of a field of the schema. -/
def Fits (schema : Schema) (name : String) (value : Option Json) : Prop :=
  ∀ v, value = some v → ∃ type, schema.typeOf? name = some type ∧ type.Fits v

/-- The type of a name is that of a field. -/
theorem exists_of_typeOf? {type : FieldType} (h : schema.typeOf? name = some type) :
    ∃ field ∈ schema, field.name = name ∧ field.type = type := by
  obtain ⟨field, hfind, rfl⟩ := Option.map_eq_some_iff.1 h
  exact ⟨field, List.mem_of_find?_eq_some hfind, by simpa using List.find?_some hfind, rfl⟩

/-- The first element of a nested block of an accepted block is accepted. -/
theorem Accepts.child {block child : Block} (h : schema.Accepts block)
    (hchild : Block.child? block name = some child) {fields : Schema} {singular : Bool}
    (htype : schema.typeOf? name = some (.block fields singular)) : fields.Accepts child := by
  obtain ⟨items, hitems⟩ := Block.child?_eq_some_iff.1 hchild
  obtain ⟨field, hfield, rfl, hfieldType⟩ := exists_of_typeOf? htype
  exact h.element hfield hitems hfieldType List.mem_cons_self

/-- A block made of fitting fields is accepted. -/
theorem accepts_ofFields {fields : List (String × Option Json)}
    (hschema : (schema.map (·.name)).Nodup) (hnodup : (fields.map (·.1)).Nodup)
    (h : ∀ e ∈ fields, schema.Fits e.1 e.2) : schema.Accepts (Block.ofFields fields) := by
  have hfits : ∀ name value, (Block.ofFields fields).lookup name = some value →
      ∃ field ∈ schema, field.name = name ∧ field.type.Fits value := by
    intro name value hvalue
    rw [Block.lookup_ofFields hnodup, Option.join_eq_some_iff] at hvalue
    obtain ⟨type, htype, hfit⟩ := h _ (Entries.mem_of_lookup_eq_some hvalue) value rfl
    obtain ⟨field, hfield, hname, rfl⟩ := exists_of_typeOf? htype
    exact ⟨field, hfield, hname, hfit⟩
  have hvalue : ∀ field ∈ schema, ∀ value,
      (Block.ofFields fields).lookup field.name = some value → field.type.Fits value := by
    intro field hfield value hlookup
    obtain ⟨other, hother, hname, hfit⟩ := hfits field.name value hlookup
    rwa [List.inj_on_of_nodup_map hschema hother hfield hname] at hfit
  refine accepts_of_fits (.of_lookup (Block.ascending_ofFields fields) fun key hkey => ?_) hvalue
  cases hlookup : (Block.ofFields fields).lookup key with
  | none => rfl
  | some value =>
      obtain ⟨field, hfield, rfl, _⟩ := hfits key value hlookup
      exact absurd (List.mem_map_of_mem hfield) hkey

/-- A field without a value fits. -/
theorem fits_none : schema.Fits name none := fun _ h => nomatch h

/-- A text that was written fits its field. -/
theorem fits_text (h : schema.typeOf? name = some .text) (value : Option String) :
    schema.Fits name (Block.ofText? value) := by
  intro v hv
  obtain ⟨s, _, rfl⟩ := Option.map_eq_some_iff.1 hv
  exact ⟨_, h, .text s, fun _ _ h => nomatch h⟩

/-- A truth value that was written fits its field. -/
theorem fits_bool (h : schema.typeOf? name = some .bool) (value : Option Bool) :
    schema.Fits name (Block.ofBool? value) := by
  intro v hv
  obtain ⟨b, _, rfl⟩ := Option.map_eq_some_iff.1 hv
  exact ⟨_, h, .bool b, fun _ _ h => nomatch h⟩

/-- An integer of 32 bits that was written fits its field. -/
theorem fits_int32 (h : schema.typeOf? name = some .int) (value : Option Int32) :
    schema.Fits name (Block.ofInt? (value.map Int32.toInt)) := by
  intro v hv
  rw [Block.ofInt?, Option.map_map] at hv
  obtain ⟨i, _, rfl⟩ := Option.map_eq_some_iff.1 hv
  have hlow : -2 ^ 31 ≤ i.toInt := i.minValue_le_toInt
  have hhigh : i.toInt ≤ 2 ^ 31 - 1 := i.toInt_le
  refine ⟨_, h, .int _ ?_ ?_, fun _ _ h => nomatch h⟩
  · rw [Json.minInt64]
    omega
  · rw [Json.maxInt64]
    omega

/-- An integer of 64 bits that was written fits its field. -/
theorem fits_int64 (h : schema.typeOf? name = some .int) (value : Option Int64) :
    schema.Fits name (Block.ofInt? (value.map Int64.toInt)) := by
  intro v hv
  rw [Block.ofInt?, Option.map_map] at hv
  obtain ⟨i, _, rfl⟩ := Option.map_eq_some_iff.1 hv
  exact ⟨_, h, .int _ i.minValue_le_toInt i.toInt_le, fun _ _ h => nomatch h⟩

/-- A map of texts that was written fits its field. -/
theorem fits_texts (h : schema.typeOf? name = some .textMap) (d : Dict String) :
    schema.Fits name (Block.ofTexts? d) := by
  intro v hv
  unfold Block.ofTexts? at hv
  split at hv
  · cases hv
  · cases hv
    exact ⟨_, h, .textMap d, fun _ _ h => nomatch h⟩

/-- A list of texts that was written fits its field. -/
theorem fits_textList (h : schema.typeOf? name = some .textList) (items : List String) :
    schema.Fits name (Block.ofTextList? items) := by
  intro v hv
  unfold Block.ofTextList? at hv
  split at hv
  · cases hv
  · cases hv
    exact ⟨_, h, .textList items, fun _ _ h => nomatch h⟩

/-- Accepted elements make a fitting nested block. -/
theorem fits_blocks {fields : Schema} {singular : Bool}
    (h : schema.typeOf? name = some (.block fields singular)) {blocks : List Block}
    (hblocks : ∀ element ∈ blocks, fields.Accepts element) :
    schema.Fits name (some (.arr (blocks.map .obj))) := by
  rintro v ⟨⟩
  exact ⟨_, h, FieldType.fits_blocks hblocks singular⟩

/-- A repeated block that was written fits its field if its elements are accepted. -/
theorem fits_children {fields : Schema} {singular : Bool}
    (h : schema.typeOf? name = some (.block fields singular)) {blocks : List Block}
    (hblocks : ∀ element ∈ blocks, fields.Accepts element) :
    schema.Fits name (Block.ofChildren? blocks) := by
  unfold Block.ofChildren?
  split
  · exact fits_none
  · exact fits_blocks h hblocks

/-- A singular block that was written fits its field if its element is accepted. -/
theorem fits_singular {fields : Schema} {singular : Bool}
    (h : schema.typeOf? name = some (.block fields singular)) {child : Option Block}
    (hchild : ∀ block, child = some block → fields.Accepts block) :
    schema.Fits name (child.map Block.singular) := by
  cases child with
  | none => exact fits_none
  | some block =>
      have hblocks : ∀ element ∈ [block], fields.Accepts element := by
        intro element helement
        rw [List.mem_singleton.1 helement]
        exact hchild block rfl
      exact fits_blocks h hblocks

end Schema

end Reconcile
