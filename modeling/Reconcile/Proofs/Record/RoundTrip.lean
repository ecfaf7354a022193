import Reconcile.Proofs.Record.Recorded
import Reconcile.Proofs.Schema.Checks

/-!
# Trees survive their records

A record keeps everything of a tree that conforms to its schema (`recorded_eq_self`). So the tree is
read back from the attributes that were written for it (`ofAttributes_toAttributes`).
-/

namespace Reconcile.Schema

/-- An array has no more items than a machine word can count, and a map leaves the key of its
counter free. -/
def Storable (field : Field) (value : Json) : Prop :=
  match field.type with
  | .textList | .block _ _ => (value.arr?.getD []).length ≤ Decimal.maxNat64
  | .textMap => (value.obj?.getD []).lookup "%" = none
  | .text | .int | .bool => True

instance (field : Field) (value : Json) : Decidable (Storable field value) := by
  unfold Storable
  split <;> infer_instance

variable {schema : Schema} {block : Block}

/-! ## What is kept of a tree that conforms -/

/-- The texts of a list of texts are its items. -/
theorem filterMap_str? (items : List String) :
    (items.map Json.str).filterMap Json.str? = items := by
  simp [List.filterMap_map, Function.comp_def, Json.str?]

/-- A map of texts that leaves the key of its counter free has no text under it. -/
theorem Storable.get?_eq_none {name : String} {presence : Presence} {default : Option Scalar}
    {texts : Dict String}
    (h : Storable ⟨name, .textMap, presence, default⟩ (Json.ofTexts texts)) :
    texts.get? "%" = none := by
  have hlookup := Entries.lookup_map_value Json.str texts.entries "%"
  exact Option.map_eq_none_iff.1 (hlookup.symm.trans h)

/-- An array that can be stored is bounded, and so is what is no array. -/
theorem Storable.bounded {field : Field} {value : Json} (hadmits : field.type.Admits value)
    (h : Storable field value) : Bounded field value := by
  obtain ⟨name, type, presence, default⟩ := field
  cases hadmits with
  | textList items => exact h
  | block fields singular blocks hcovers => exact h
  | _ => exact Nat.zero_le _

/-- A value of the type of its field is kept as it is, if the blocks in it are. -/
theorem recordedValue_of_admits {field : Field} {value : Json}
    (hadmits : field.type.Admits value) (hstorable : Storable field value)
    (hblock : ∀ fields singular, field.type = .block fields singular →
      ∀ element ∈ value.elements, recorded fields element = element) :
    recordedValue field.type value = some value := by
  obtain ⟨name, type, presence, default⟩ := field
  cases hadmits with
  | text s => rfl
  | int i hlow hhigh =>
      rw [recordedValue, Json.int64?_int hlow hhigh, Option.map_some,
        Int64.toInt_ofInt_of_le hlow (by rw [Json.maxInt64] at hhigh; omega)]
  | bool b => rfl
  | textList items => rw [recordedValue, Json.arr?, Option.getD_some, filterMap_str?]
  | textMap texts =>
      rw [recordedValue, Json.ofTexts, Json.obj?, Option.map_some,
        keptTexts_entries hstorable.get?_eq_none]
      rfl
  | block fields singular blocks hcovers =>
      rw [Json.elements_arr] at hblock
      rw [recordedValue, Json.elements_arr,
        List.map_congr_left (hblock fields singular rfl), List.map_id']

/-- A block that a schema accepts is kept as it is. -/
theorem recorded_eq_self (hschema : schema.WellNamed) (haccepts : schema.Accepts block)
    (hstorable : schema.Every Storable block) : recorded schema block = block := by
  induction hschema generalizing block with
  | @intro schema here _ ih =>
      have hcovers := covers_recorded schema block
      refine hcovers.ascending.ext haccepts.covers.ascending fun k => ?_
      by_cases hk : k ∈ schema.map (·.name)
      · obtain ⟨field, hfield, rfl⟩ := List.mem_map.1 hk
        rw [lookup_recorded here.1 hfield]
        cases hvalue : block.lookup field.name with
        | none => rfl
        | some value =>
            refine recordedValue_of_admits (haccepts.typed.here hfield hvalue)
              (hstorable.here hfield hvalue) fun fields singular htype element helement => ?_
            exact ih field hfield fields singular htype
              (haccepts.element hfield hvalue htype helement)
              (hstorable.inside hfield hvalue htype helement)
      · rw [lookup_recorded_of_not_mem hk, haccepts.lookup_eq_none hk]

/-- A block that a schema accepts can be counted. -/
theorem bounded_of_storable (haccepts : schema.Accepts block)
    (hstorable : schema.Every Storable block) : schema.Every Bounded block := by
  have hboth := haccepts.typed.and hstorable
  exact hboth.mono fun field value h => h.2.bounded h.1

/-- A block is held by the attributes that it was written to, if the keys of its fields were
vacant. -/
theorem write_holdsBlock {start : String} {out : Attributes} (hschema : schema.WellNamed)
    (haccepts : schema.Accepts block) (hstorable : schema.Every Storable block)
    (hvacant : ∀ field ∈ schema, Vacant out (start ++ field.name)) :
    HoldsBlock (write schema start block out) schema start block := by
  have hheld := write_records hschema (bounded_of_storable haccepts hstorable) hvacant
  rwa [recorded_eq_self hschema haccepts hstorable] at hheld

/-! ## The round trip -/

/-- What was written for a block into empty attributes is read back. -/
theorem read_write (hschema : schema.WellNamed) (haccepts : schema.Accepts block)
    (hstorable : schema.Every Storable block) :
    read schema (write schema "" block Dict.empty) "" [] = .ok block :=
  (write_holdsBlock hschema haccepts hstorable fun _ _ _ _ => rfl).read_eq

/-- A tree that conforms to a schema is read back from its attributes, whatever the keys of its
maps look like. -/
theorem ofAttributes_toAttributes (hschema : schema.WellNamed) (haccepts : schema.Accepts block)
    (hstorable : schema.Every Storable block) :
    ofAttributes schema (toAttributes schema (.obj block)) = .ok (.obj block) := by
  show (read schema (write schema "" block Dict.empty) "" []).map Json.obj = _
  rw [read_write hschema haccepts hstorable]
  rfl

/-- Entries whose keys look like counters and paths of other fields are read back as entries. -/
theorem ofAttributes_toAttributes_lookalikes :
    let fields : Schema := [.textMap "labels" .optional, .int "size" .optional]
    let schema : Schema := [.textMap "labels" .optional, .repeated "parts" fields .optional,
      .textList "tags" .optional]
    let labels : Json := .obj [("#", .str "7"), ("0", .str "a"), ("parts.0.size", .str "b")]
    let block : Block := [("labels", labels),
      ("parts", .arr [.obj [("labels", labels), ("size", .int (-3))], .obj []]), ("tags", .arr [])]
    ofAttributes schema (toAttributes schema (.obj block)) = .ok (.obj block) :=
  ofAttributes_toAttributes (by decide) (by decide) (by decide)

end Reconcile.Schema
