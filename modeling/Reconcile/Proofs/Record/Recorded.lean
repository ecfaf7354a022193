import Reconcile.Proofs.Block.Readers
import Reconcile.Proofs.Record.Located
import Reconcile.Proofs.Record.Reading

/-!
# What a record keeps of a tree

A value that is not of the type of its field is written as far as it goes: a list keeps its texts,
a nested block its objects, a map the texts whose key is not that of its counter, and of any other
value nothing is kept. `recorded` is the block that is left in this way, and what is written for a
block holds the block that is recorded of it (`write_records`).
-/

namespace Reconcile.Schema

/-- The texts of a map that a record keeps: one under the key of the counter is taken for it. -/
def keptTexts (entries : Json.Fields) : Dict String := (Json.texts entries).erase "%"

mutual

/-- What a record keeps of a block. -/
def recorded : Schema → Block → Block
  | [], _ => []
  | field :: fields, block => recordedField field block (recorded fields block)

/-- What a record keeps of the value of a field, beside the fields that are there. -/
def recordedField : Field → Block → Block → Block
  | ⟨name, type, _, _⟩, block, rest =>
    match block.lookup name with
    | some value => Block.put rest name (recordedValue type value)
    | none => rest

/-- What a record keeps of a value. -/
def recordedValue : FieldType → Json → Option Json
  | .text, value => value.str?.map .str
  | .int, value => value.int64?.map fun i => .int i.toInt
  | .bool, value => value.bool?.map .bool
  | .textList, value => some (.arr (((value.arr?.getD []).filterMap Json.str?).map .str))
  | .textMap, value => value.obj?.map fun entries => Json.ofTexts (keptTexts entries)
  | .block fields _, value =>
    some (.arr ((value.elements.map fun element => recorded fields element).map .obj))

end

/-- An array has no more items than a machine word can count. -/
def Bounded (_field : Field) (value : Json) : Prop :=
  (value.arr?.getD []).length ≤ Decimal.maxNat64

variable {schema : Schema} {block : Block} {value : Json} {key start : String} {out : Attributes}

/-- The texts of a bounded array can be counted. -/
theorem length_texts_le (hbound : (value.arr?.getD []).length ≤ Decimal.maxNat64) :
    ((value.arr?.getD []).filterMap Json.str?).length ≤ Decimal.maxNat64 :=
  Nat.le_trans (List.length_filterMap_le _ _) hbound

/-- The elements of a bounded array can be counted. -/
theorem length_elements_le (hbound : (value.arr?.getD []).length ≤ Decimal.maxNat64) :
    value.elements.length ≤ Decimal.maxNat64 :=
  Nat.le_trans (List.length_filterMap_le _ _) hbound

/-! ## The texts of a map -/

theorem get?_keptTexts (entries : Json.Fields) (k : String) :
    (keptTexts entries).get? k = if k = "%" then none else (Json.texts entries).get? k :=
  Dict.get?_erase _ _ _

/-- A map of texts is kept as it is, if it leaves the key of its counter free. -/
theorem keptTexts_entries {texts : Dict String} (hreserved : texts.get? "%" = none) :
    keptTexts (texts.entries.map fun (k, s) => (k, .str s)) = texts := by
  refine Dict.ext_get? fun k => ?_
  rw [get?_keptTexts, Block.texts_entries]
  split
  · rename_i heq
    rw [heq, hreserved]
  · rfl

/-! ## The fields that are kept -/

theorem recordedField_eq (field : Field) (block rest : Block) : recordedField field block rest =
    Block.put rest field.name ((block.lookup field.name).bind (recordedValue field.type)) := by
  obtain ⟨name, type, presence, default⟩ := field
  rw [recordedField]
  cases block.lookup name with
  | none => rfl
  | some value => rfl

theorem ascending_recorded (schema : Schema) (block : Block) :
    Entries.Ascending (recorded schema block) := by
  induction schema with
  | nil => exact List.Pairwise.nil
  | cons field fields ih =>
      rw [recorded, recordedField_eq]
      exact Block.ascending_put ih _ _

/-- Nothing is kept under a name that is no field's. -/
theorem lookup_recorded_of_not_mem {k : String} (h : k ∉ schema.map (·.name)) :
    (recorded schema block).lookup k = none := by
  induction schema with
  | nil => rfl
  | cons field fields ih =>
      rw [List.map_cons, List.mem_cons, not_or] at h
      rw [recorded, recordedField_eq, Block.lookup_put, if_neg h.1, ih h.2]

/-- Under the name of a field there is what is kept of its value. -/
theorem lookup_recorded (hnodup : (schema.map (·.name)).Nodup) {field : Field}
    (hfield : field ∈ schema) : (recorded schema block).lookup field.name =
      (block.lookup field.name).bind (recordedValue field.type) := by
  induction schema with
  | nil => cases hfield
  | cons first fields ih =>
      obtain ⟨hname, hnodup⟩ := List.nodup_cons.1 hnodup
      rw [recorded, recordedField_eq, Block.lookup_put]
      rcases List.mem_cons.1 hfield with rfl | hfield
      · rw [if_pos rfl, lookup_recorded_of_not_mem hname]
        simp
      · have hne : field.name ≠ first.name := fun heq =>
          hname (List.mem_map.2 ⟨field, hfield, heq⟩)
        rw [if_neg hne, ih hnodup hfield]

/-- What is kept holds fields of the schema only. -/
theorem covers_recorded (schema : Schema) (block : Block) :
    schema.Covers (recorded schema block) :=
  .of_lookup (ascending_recorded schema block) fun _ => lookup_recorded_of_not_mem

/-! ## What is written holds what is kept -/

/-- A list of texts is held by the attributes that it was written to. -/
theorem writeTextList_holds {items : List String} (hbound : items.length ≤ Decimal.maxNat64) :
    HoldsValue (writeTextList key items out) .textList key (.arr (items.map .str)) := by
  exact .textList hbound (get?_writeTextList_length hbound key out) fun i s hs =>
    get?_writeTextList_item hs

/-- A map is held as it is recorded by the attributes that it was written to, if its key was
vacant. -/
theorem writeTextMap_records (entries : Json.Fields) (hvacant : Vacant out key) :
    HoldsValue (writeTextMap key entries out) .textMap key
      (Json.ofTexts (keptTexts entries)) := by
  refine .textMap ?_ ?_ fun k hk => ?_
  · rw [get?_keptTexts, if_pos rfl]
  · rw [sizeKey_eq, get?_writeTextMap, if_pos rfl, Option.isSome_or]
    exact Bool.or_true _
  · rw [get?_writeTextMap, if_neg hk, hvacant _ (.member key k), Option.or_none, get?_keptTexts,
      if_neg hk]

/-- The elements of a nested block are held as they are recorded. -/
theorem writeBlocks_records {fields : Schema} (singular : Bool)
    (hbound : (value.arr?.getD []).length ≤ Decimal.maxNat64)
    (hblock : ∀ i element, value.elements[i]? = some element →
      HoldsBlock (write fields (elementPrefix key i) element out) fields (elementPrefix key i)
        (recorded fields element)) :
    HoldsValue (writeValue (.block fields singular) key value out) (.block fields singular) key
      (.arr ((value.elements.map fun element => recorded fields element).map .obj)) := by
  have hlength := length_elements_le hbound
  -- Each element finds below its key what it would find if it alone had been written.
  have hheld : ∀ i element, (value.elements.map fun element => recorded fields element)[i]? =
      some element → HoldsBlock (writeValue (.block fields singular) key value out) fields
        (elementPrefix key i) element := by
    intro i element helement
    rw [List.getElem?_map, Option.map_eq_some_iff] at helement
    obtain ⟨original, horiginal, rfl⟩ := helement
    exact (hblock i original horiginal).congr fun field _ k hk =>
      get?_writeBlocks_element horiginal hk.of_elementPrefix
  refine .block (by rwa [List.length_map]) ?_ (fun element helement => ?_)
    (fun i element helement => (hheld i element helement).present)
    fun i element helement => (hheld i element helement).absent
  · rw [get?_writeBlocks_length hlength, List.length_map]
  · obtain ⟨original, -, rfl⟩ := List.mem_map.1 helement
    exact covers_recorded fields original

/-- What is written for a value holds what is recorded of it, if the same is true of the blocks in
it. -/
theorem writeValue_records {type : FieldType}
    (hbound : (value.arr?.getD []).length ≤ Decimal.maxNat64) (hvacant : Vacant out key)
    (hblock : ∀ fields singular, type = .block fields singular → ∀ i element,
      value.elements[i]? = some element →
        HoldsBlock (write fields (elementPrefix key i) element out) fields (elementPrefix key i)
          (recorded fields element)) :
    HoldsField (writeValue type key value out) type key (recordedValue type value) := by
  cases type with
  | text =>
      rw [writeValue, recordedValue]
      cases value.str? with
      | none => exact hvacant
      | some s => exact .text (get?_insert_self _ _ _)
  | int =>
      rw [writeValue, recordedValue]
      cases value.int64? with
      | none => exact hvacant
      | some i =>
          have hhigh := i.toInt_lt
          exact .int i.le_toInt (by rw [Json.maxInt64]; omega) (get?_insert_self _ _ _)
  | bool =>
      rw [writeValue, recordedValue]
      cases value.bool? with
      | none => exact hvacant
      | some b => exact .bool (get?_insert_self _ _ _)
  | textList =>
      rw [writeValue, recordedValue]
      exact writeTextList_holds (length_texts_le hbound)
  | textMap =>
      rw [writeValue, recordedValue]
      cases value.obj? with
      | none => exact hvacant
      | some entries => exact writeTextMap_records entries hvacant
  | block fields singular =>
      exact writeBlocks_records singular hbound (hblock fields singular rfl)

/-- What is written for a block holds what is recorded of it, if the keys of its fields were
vacant. -/
theorem write_records (hschema : schema.WellNamed) (hbound : schema.Every Bounded block)
    (hvacant : ∀ field ∈ schema, Vacant out (start ++ field.name)) :
    HoldsBlock (write schema start block out) schema start (recorded schema block) := by
  induction hschema generalizing start block out with
  | @intro schema here _ ih =>
      refine holdsBlock_iff.2 ⟨covers_recorded schema block, fun field hfield => ?_⟩
      rw [lookup_recorded here.1 hfield]
      cases hvalue : block.lookup field.name with
      | none =>
          exact (hvacant field hfield).congr fun k hk => get?_write_of_none here hfield hvalue hk
      | some value =>
          refine HoldsField.congr ?_ fun k hk => get?_write_of_some here hfield hvalue hk
          refine writeValue_records (hbound.here hfield hvalue) (hvacant field hfield) ?_
          intro fields singular htype i element helement
          refine ih field hfield fields singular htype
            (hbound.inside hfield hvalue htype (List.mem_of_getElem? helement)) ?_
          exact fun inner _ k hk => hvacant field hfield k hk.of_elementPrefix.of_member

/-- A tree is written as the block at its root, and any other value as one without fields. -/
theorem toAttributes_eq_write (schema : Schema) (tree : Tree) :
    toAttributes schema tree = write schema "" (tree.obj?.getD []) Dict.empty := by
  have hempty : write schema "" [] Dict.empty = Dict.empty := by
    rw [write_eq_foldl]
    exact foldl_unchanged id fun field _ out => writeField_of_none rfl
  cases tree with
  | obj block => rfl
  | _ => exact hempty.symm

/-- What is read from the attributes of a tree is what is recorded of it, whether the tree conforms
to the schema or not. -/
theorem ofAttributes_toAttributes_recorded (hschema : schema.WellNamed) (tree : Tree)
    (hbound : schema.Every Bounded (tree.obj?.getD [])) :
    ofAttributes schema (toAttributes schema tree) =
      .ok (.obj (recorded schema (tree.obj?.getD []))) := by
  have hvacant : ∀ field ∈ schema, Vacant Dict.empty ("" ++ field.name) := fun _ _ _ _ => rfl
  rw [ofAttributes, toAttributes_eq_write, (write_records hschema hbound hvacant).read_eq]
  rfl

end Reconcile.Schema
