import Reconcile.Proofs.Record.Counters

/-!
# What is read is written as it was

A tree need not conform to its schema to be written. What is read of it is what was recorded, and
its counters say how many elements and entries these are, but for a map: its counter counts the
entries that are no texts too, and a text under the key of the counter takes its place.
`toAttributes_stable_iff` says that a map whose counter is wrong in this way is the only thing that
keeps a tree from being written again as it was.
-/

namespace Reconcile.Schema

/-- An array or an object has no more items or entries than a machine word can count. -/
def Countable (field : Field) (value : Json) : Prop :=
  Bounded field value ∧ (value.obj?.getD []).length ≤ Decimal.maxNat64

/-- What stands under the key of the counter of a map is the number of its entries that are kept. -/
def SizedTexts (entries : Json.Fields) : Prop :=
  ((Json.texts entries).get? "%").getD (toString entries.length) =
    toString (keptTexts entries).entries.length

/-- A map has a counter that is true. -/
def Sized (field : Field) (value : Json) : Prop :=
  match field.type with
  | .textMap => SizedTexts (value.obj?.getD [])
  | .text | .int | .bool | .textList | .block _ _ => True

instance (field : Field) (value : Json) : Decidable (Countable field value) :=
  inferInstanceAs (Decidable ((value.arr?.getD []).length ≤ Decimal.maxNat64 ∧
    (value.obj?.getD []).length ≤ Decimal.maxNat64))

instance : DecidablePred SizedTexts := fun entries =>
  inferInstanceAs (Decidable (((Json.texts entries).get? "%").getD (toString entries.length) =
    toString (keptTexts entries).entries.length))

instance (field : Field) (value : Json) : Decidable (Sized field value) :=
  match field with
  | ⟨_, .textMap, _, _⟩ => inferInstanceAs (Decidable (SizedTexts (value.obj?.getD [])))
  | ⟨_, .text, _, _⟩ | ⟨_, .int, _, _⟩ | ⟨_, .bool, _, _⟩ | ⟨_, .textList, _, _⟩
  | ⟨_, .block _ _, _, _⟩ => .isTrue trivial

/-- The counters are there, each with the number that it stands for. -/
def Truthful (attributes : Attributes) (counted : List (String × Nat)) : Prop :=
  ∀ counter ∈ counted, attributes.get? counter.1 = some (toString counter.2)

variable {schema fields : Schema} {singular : Bool} {block : Block} {value : Json}
  {key start : String} {out : Attributes}

/-! ## Counters that are true -/

/-- The counter of a map is there, or a text that has its key. -/
theorem get?_writeTextMap_size {entries : Json.Fields}
    (hcount : entries.length ≤ Decimal.maxNat64) :
    (writeTextMap key entries out).get? (sizeKey key) =
      some (((Json.texts entries).get? "%").getD (toString entries.length)) := by
  rw [sizeKey_eq, get?_writeTextMap, if_pos rfl, Decimal.word_of_le hcount]
  cases (Json.texts entries).get? "%" with
  | none => rfl
  | some s => rfl

/-- The counters of a nested block are true if those of its elements are. -/
theorem truthful_writeBlocks_iff (hcount : (value.arr?.getD []).length ≤ Decimal.maxNat64) :
    Truthful (writeValue (.block fields singular) key value out)
        (countersValue (.block fields singular) key value) ↔
      ∀ i element, value.elements[i]? = some element →
        Truthful (write fields (elementPrefix key i) element out)
          (counters fields (elementPrefix key i) element) := by
  constructor
  · intro h i element helement counter hcounter
    rw [← get?_writeBlocks_element helement (under_of_mem_counters hcounter)]
    exact h counter (mem_countersBlock_iff.2 (.inr ⟨i, element, helement, hcounter⟩))
  · intro h counter hcounter
    rcases mem_countersBlock_iff.1 hcounter with rfl | ⟨i, element, helement, hmem⟩
    · exact get?_writeBlocks_length (length_elements_le hcount) fields singular key out
    · rw [get?_writeBlocks_element helement (under_of_mem_counters hmem)]
      exact h i element helement counter hmem

/-- The counters of a value are true if the maps in it are sized. -/
theorem truthful_writeValue_iff {field : Field} (hcount : Countable field value)
    (hblock : ∀ fields singular, field.type = .block fields singular → ∀ i element,
      value.elements[i]? = some element →
        (Truthful (write fields (elementPrefix key i) element out)
          (counters fields (elementPrefix key i) element) ↔ Every Sized fields element)) :
    Truthful (writeValue field.type key value out) (countersValue field.type key value) ↔
      Sized field value ∧ ∀ fields singular, field.type = .block fields singular →
        ∀ element ∈ value.elements, Every Sized fields element := by
  obtain ⟨name, type, presence, default⟩ := field
  cases type with
  | text => simp [Truthful, countersValue, Sized]
  | int => simp [Truthful, countersValue, Sized]
  | bool => simp [Truthful, countersValue, Sized]
  | textList =>
      simp [Truthful, countersValue, Sized, writeValue,
        get?_writeTextList_length (length_texts_le hcount.1)]
  | textMap =>
      have hentries := hcount.2
      cases hobj : value.obj? with
      | none =>
          have hempty : SizedTexts [] := by decide
          simp [Truthful, countersValue, Sized, hobj, hempty]
      | some entries =>
          rw [hobj, Option.getD_some] at hentries
          simp [Truthful, countersValue, Sized, SizedTexts, writeValue, hobj,
            get?_writeTextMap_size hentries]
  | block fields singular =>
      rw [truthful_writeBlocks_iff hcount.1]
      constructor
      · rintro h
        refine ⟨trivial, fun fields singular htype element helement => ?_⟩
        obtain ⟨i, hi⟩ := List.mem_iff_getElem?.1 helement
        cases htype
        exact (hblock fields singular rfl i element hi).1 (h i element hi)
      · rintro ⟨-, h⟩ i element helement
        exact (hblock fields singular rfl i element helement).2
          (h fields singular rfl element (List.mem_of_getElem? helement))

/-- What is written for a block has true counters exactly if the maps in it are sized. -/
theorem truthful_write_iff (hschema : schema.WellNamed) (hcount : schema.Every Countable block) :
    Truthful (write schema start block out) (counters schema start block) ↔
      schema.Every Sized block := by
  induction hschema generalizing start block out with
  | @intro schema here _ ih =>
      have hvalue : ∀ field ∈ schema, ∀ value, block.lookup field.name = some value →
          (Truthful (writeValue field.type (start ++ field.name) value out)
              (countersValue field.type (start ++ field.name) value) ↔
            Sized field value ∧ ∀ fields singular, field.type = .block fields singular →
              ∀ element ∈ value.elements, Every Sized fields element) := by
        intro field hfield value hvalue
        refine truthful_writeValue_iff (hcount.here hfield hvalue) ?_
        intro fields singular htype i element helement
        exact ih field hfield fields singular htype
          (hcount.inside hfield hvalue htype (List.mem_of_getElem? helement))
      constructor
      · intro h
        refine every_of_fields fun field hfield value hlookup => ?_
        refine (hvalue field hfield value hlookup).1 fun counter hcounter => ?_
        rw [← get?_write_of_some here hfield hlookup (under_of_mem_countersType hcounter)]
        exact h counter (mem_counters_iff.2 ⟨field, hfield, value, hlookup, hcounter⟩)
      · intro h counter hcounter
        obtain ⟨field, hfield, value, hlookup, hmem⟩ := mem_counters_iff.1 hcounter
        rw [get?_write_of_some here hfield hlookup (under_of_mem_countersType hmem)]
        refine (hvalue field hfield value hlookup).2 ⟨h.here hfield hlookup, ?_⟩ counter hmem
        exact fun fields singular htype element => h.inside hfield hlookup htype

/-- The counter of a map has another key than that of a list. -/
theorem lengthKey_ne_sizeKey (key other : String) : lengthKey key ≠ sizeKey other := by
  intro h
  have hlast := congrArg (fun s : String => s.toList.getLast?) h
  simp [lengthKey, sizeKey] at hlast

/-- The counters of a list or a nested block are true, if those in its elements are. -/
theorem get?_writeValue_lengthKey {type : FieldType} {k : String} {n : Nat}
    (hbound : (value.arr?.getD []).length ≤ Decimal.maxNat64)
    (h : (lengthKey k, n) ∈ countersValue type key value)
    (hblock : ∀ fields singular, type = .block fields singular → ∀ i element,
      value.elements[i]? = some element →
        (lengthKey k, n) ∈ counters fields (elementPrefix key i) element →
          (write fields (elementPrefix key i) element out).get? (lengthKey k) =
            some (toString n)) :
    (writeValue type key value out).get? (lengthKey k) = some (toString n) := by
  cases type with
  | text => cases h
  | int => cases h
  | bool => cases h
  | textList =>
      obtain ⟨hkey, rfl⟩ := Prod.mk.inj (List.mem_singleton.1 h)
      rw [hkey, writeValue, get?_writeTextList_length (length_texts_le hbound)]
  | textMap =>
      rw [countersValue] at h
      cases hobj : value.obj? with
      | none =>
          rw [hobj] at h
          cases h
      | some entries =>
          rw [hobj] at h
          exact absurd (Prod.mk.inj (List.mem_singleton.1 h)).1 (lengthKey_ne_sizeKey _ _)
  | block fields singular =>
      rcases mem_countersBlock_iff.1 h with heq | ⟨i, element, helement, hmem⟩
      · obtain ⟨hkey, rfl⟩ := Prod.mk.inj heq
        rw [hkey, get?_writeBlocks_length (length_elements_le hbound)]
      · rw [get?_writeBlocks_element helement (under_of_mem_counters hmem)]
        exact hblock fields singular rfl i element helement hmem

/-- The counters of lists and nested blocks are true, whatever the maps are. -/
theorem get?_write_lengthKey {k : String} {n : Nat} (hschema : schema.WellNamed)
    (hbound : schema.Every Bounded block) (h : (lengthKey k, n) ∈ counters schema start block) :
    (write schema start block out).get? (lengthKey k) = some (toString n) := by
  induction hschema generalizing start block out with
  | @intro schema here _ ih =>
      obtain ⟨field, hfield, value, hvalue, hmem⟩ := mem_counters_iff.1 h
      rw [get?_write_of_some here hfield hvalue (under_of_mem_countersType hmem)]
      refine get?_writeValue_lengthKey (hbound.here hfield hvalue) hmem ?_
      intro fields singular htype i element helement
      exact ih field hfield fields singular htype
        (hbound.inside hfield hvalue htype (List.mem_of_getElem? helement))

/-! ## What is recorded -/

theorem length_keptTexts_le (entries : Json.Fields) :
    (keptTexts entries).entries.length ≤ entries.length :=
  calc (keptTexts entries).entries.length
      ≤ (Json.texts entries).entries.length := List.length_filter_le _ _
    _ ≤ entries.length := Nat.le_trans (Dict.length_ofList_le _) (List.length_filterMap_le _ _)

theorem keptTexts_keptTexts (entries : Json.Fields) :
    keptTexts ((keptTexts entries).entries.map fun (k, s) => (k, .str s)) = keptTexts entries :=
  keptTexts_entries (by rw [get?_keptTexts, if_pos rfl])

/-- What is recorded of a value can be counted, and the maps in it are sized. -/
theorem sized_of_recordedValue {field : Field} {kept : Json} (hcount : Countable field value)
    (h : recordedValue field.type value = some kept) : Countable field kept ∧ Sized field kept := by
  obtain ⟨name, type, presence, default⟩ := field
  cases type with
  | text =>
      obtain ⟨s, -, rfl⟩ := Option.map_eq_some_iff.1 h
      exact ⟨⟨Nat.zero_le _, Nat.zero_le _⟩, trivial⟩
  | int =>
      obtain ⟨i, -, rfl⟩ := Option.map_eq_some_iff.1 h
      exact ⟨⟨Nat.zero_le _, Nat.zero_le _⟩, trivial⟩
  | bool =>
      obtain ⟨b, -, rfl⟩ := Option.map_eq_some_iff.1 h
      exact ⟨⟨Nat.zero_le _, Nat.zero_le _⟩, trivial⟩
  | textList =>
      obtain rfl := Option.some.inj h
      refine ⟨⟨?_, Nat.zero_le _⟩, trivial⟩
      show (List.map Json.str _).length ≤ Decimal.maxNat64
      rw [List.length_map]
      exact length_texts_le hcount.1
  | textMap =>
      obtain ⟨entries, hobj, rfl⟩ := Option.map_eq_some_iff.1 h
      have hentries := hcount.2
      rw [hobj, Option.getD_some] at hentries
      refine ⟨⟨Nat.zero_le _, ?_⟩, ?_⟩
      · show (List.map _ (keptTexts entries).entries).length ≤ Decimal.maxNat64
        rw [List.length_map]
        exact Nat.le_trans (length_keptTexts_le entries) hentries
      · show SizedTexts ((keptTexts entries).entries.map fun x => (x.1, .str x.2))
        rw [SizedTexts, keptTexts_keptTexts, Block.texts_entries, get?_keptTexts, if_pos rfl,
          Option.getD_none, List.length_map]
  | block fields singular =>
      obtain rfl := Option.some.inj h
      refine ⟨⟨?_, Nat.zero_le _⟩, trivial⟩
      show (List.map Json.obj _).length ≤ Decimal.maxNat64
      rw [List.length_map, List.length_map]
      exact length_elements_le hcount.1

/-- A rule that holds of what is kept of every value holds throughout what is recorded. -/
theorem every_recorded {rule other : Field → Json → Prop} (hschema : schema.WellNamed)
    (hkept : ∀ field value kept, rule field value → recordedValue field.type value = some kept →
      other field kept) (h : schema.Every rule block) :
    schema.Every other (recorded schema block) := by
  induction hschema generalizing block with
  | @intro schema here _ ih =>
      refine .intro (fun field hfield kept hlookup => ?_) ?_
      · rw [lookup_recorded here.1 hfield, Option.bind_eq_some_iff] at hlookup
        obtain ⟨value, hvalue, hrecorded⟩ := hlookup
        exact hkept field value kept (h.here hfield hvalue) hrecorded
      · intro field hfield kept hlookup fields singular htype element helement
        rw [lookup_recorded here.1 hfield, Option.bind_eq_some_iff] at hlookup
        obtain ⟨value, hvalue, hrecorded⟩ := hlookup
        rw [htype, recordedValue] at hrecorded
        obtain rfl := Option.some.inj hrecorded
        rw [Json.elements_arr] at helement
        obtain ⟨original, horiginal, rfl⟩ := List.mem_map.1 helement
        exact ih field hfield fields singular htype (h.inside hfield hvalue htype horiginal)

/-- What is recorded of a value has its counters, if the same is true of the blocks in it. -/
theorem countersValue_recordedValue {type : FieldType} (key : String) (value : Json)
    (hblock : ∀ fields singular, type = .block fields singular → ∀ start element,
      counters fields start (recorded fields element) = counters fields start element) :
    (recordedValue type value).elim [] (countersValue type key) = countersValue type key value := by
  cases type with
  | text =>
      rw [recordedValue]
      cases value.str? <;> rfl
  | int =>
      rw [recordedValue]
      cases value.int64? <;> rfl
  | bool =>
      rw [recordedValue]
      cases value.bool? <;> rfl
  | textList =>
      simp only [recordedValue, Option.elim_some, countersValue, Json.arr?, Option.getD_some,
        filterMap_str?]
  | textMap =>
      rw [recordedValue, countersValue]
      cases value.obj? with
      | none => rfl
      | some entries =>
          show [(sizeKey key, (keptTexts (List.map _ _)).entries.length)] = _
          rw [keptTexts_keptTexts]
  | block fields singular =>
      simp only [recordedValue, Option.elim_some, countersValue, Json.elements_arr,
        List.length_map, List.zipIdx_map, List.flatMap_map]
      refine congrArg _ (List.flatMap_congr fun x _ => ?_)
      exact hblock fields singular rfl _ x.1

/-- What is recorded has the counters of what was written. -/
theorem counters_recorded (hschema : schema.WellNamed) (start : String) (block : Block) :
    counters schema start (recorded schema block) = counters schema start block := by
  induction hschema generalizing start block with
  | @intro schema here _ ih =>
      rw [counters_eq_flatMap, counters_eq_flatMap]
      refine List.flatMap_congr fun field hfield => ?_
      rw [lookup_recorded here.1 hfield]
      cases block.lookup field.name with
      | none => rfl
      | some value => exact countersValue_recordedValue _ value (ih field hfield)

/-- A map is written as what is recorded of it if it is sized. -/
theorem writeTextMap_keptTexts {entries : Json.Fields}
    (hcount : entries.length ≤ Decimal.maxNat64)
    (hsized : SizedTexts entries) :
    writeTextMap key ((keptTexts entries).entries.map fun (k, s) => (k, .str s)) out =
      writeTextMap key entries out := by
  refine Dict.ext_get? fun k => ?_
  by_cases hk : ∃ member, k = memberKey key member
  · obtain ⟨member, rfl⟩ := hk
    by_cases hmember : member = "%"
    · have hkept := Nat.le_trans (length_keptTexts_le entries) hcount
      rw [hmember, ← sizeKey_eq, get?_writeTextMap_size (by rwa [List.length_map]),
        get?_writeTextMap_size hcount, Block.texts_entries, get?_keptTexts, if_pos rfl,
        Option.getD_none, List.length_map, ← hsized]
    · rw [get?_writeTextMap, get?_writeTextMap, Block.texts_entries, get?_keptTexts,
        if_neg hmember, if_neg hmember, if_neg hmember]
  · push Not at hk
    rw [get?_writeTextMap_frame hk, get?_writeTextMap_frame hk]

/-- A value is written as what is recorded of it if it is sized, if the same is true of the blocks
in it. -/
theorem writeValue_recordedValue {field : Field} (hcount : Countable field value)
    (hsized : Sized field value)
    (hblock : ∀ fields singular, field.type = .block fields singular → ∀ element ∈ value.elements,
      ∀ start out, write fields start (recorded fields element) out =
        write fields start element out) :
    (recordedValue field.type value).elim out (fun kept => writeValue field.type key kept out) =
      writeValue field.type key value out := by
  obtain ⟨name, type, presence, default⟩ := field
  cases type with
  | text =>
      rw [recordedValue, writeValue]
      cases value.str? <;> rfl
  | int =>
      rw [recordedValue, writeValue]
      cases value.int64? with
      | none => rfl
      | some i =>
          simp only [Option.map_some, Option.elim_some, writeValue, Wire.int64?_toInt]
  | bool =>
      rw [recordedValue, writeValue]
      cases value.bool? <;> rfl
  | textList =>
      simp only [recordedValue, Option.elim_some, writeValue, Json.arr?, Option.getD_some,
        filterMap_str?]
  | textMap =>
      have hentries := hcount.2
      rw [recordedValue, writeValue]
      cases hobj : value.obj? with
      | none => rfl
      | some entries =>
          have htexts : SizedTexts (value.obj?.getD []) := hsized
          rw [hobj, Option.getD_some] at hentries htexts
          exact writeTextMap_keptTexts hentries htexts
  | block fields singular =>
      simp only [recordedValue, Option.elim_some, writeValue_elements, Json.elements_arr,
        List.length_map, List.zipIdx_map, List.foldl_map]
      refine List.foldl_ext _ _ _ fun out x hx => ?_
      exact hblock fields singular rfl x.1 (List.fst_mem_of_mem_zipIdx hx) _ out

/-- A block is written as what is recorded of it if the maps in it are sized. -/
theorem write_recorded (hschema : schema.WellNamed) (hcount : schema.Every Countable block)
    (hsized : schema.Every Sized block) (start : String) (out : Attributes) :
    write schema start (recorded schema block) out = write schema start block out := by
  induction hschema generalizing start block out with
  | @intro schema here _ ih =>
      rw [write_eq_foldl, write_eq_foldl]
      refine List.foldl_ext _ _ _ fun out field hfield => ?_
      rw [writeField_eq, writeField_eq, lookup_recorded here.1 hfield]
      cases hvalue : block.lookup field.name with
      | none => rfl
      | some value =>
          refine writeValue_recordedValue (hcount.here hfield hvalue) (hsized.here hfield hvalue) ?_
          intro fields singular htype element helement
          exact ih field hfield fields singular htype (hcount.inside hfield hvalue htype helement)
            (hsized.inside hfield hvalue htype helement)

/-! ## Stability -/

/-- Whatever a tree is, what is read of it has the counters that were written, and those of lists
and nested blocks are true. It is written again as the tree was exactly if the maps of the tree are
sized, and then only are all counters true. -/
theorem toAttributes_stable_iff (hschema : schema.WellNamed) (tree : Tree)
    (hcount : schema.Every Countable (tree.obj?.getD [])) :
    ∃ shown, ofAttributes schema (toAttributes schema tree) = .ok (.obj shown) ∧
      counters schema "" shown = counters schema "" (tree.obj?.getD []) ∧
      (∀ key n, (lengthKey key, n) ∈ counters schema "" shown →
        (toAttributes schema tree).get? (lengthKey key) = some (toString n)) ∧
      (toAttributes schema (.obj shown) = toAttributes schema tree ↔
        schema.Every Sized (tree.obj?.getD [])) ∧
      (Truthful (toAttributes schema tree) (counters schema "" shown) ↔
        schema.Every Sized (tree.obj?.getD [])) := by
  have hbound : schema.Every Bounded (tree.obj?.getD []) := hcount.mono fun _ _ h => h.1
  have hcounters := counters_recorded hschema "" (tree.obj?.getD [])
  have htruthful : Truthful (toAttributes schema tree)
      (counters schema "" (recorded schema (tree.obj?.getD []))) ↔
      schema.Every Sized (tree.obj?.getD []) := by
    rw [hcounters, toAttributes_eq_write]
    exact truthful_write_iff hschema hcount
  refine ⟨recorded schema (tree.obj?.getD []),
    ofAttributes_toAttributes_recorded hschema tree hbound, hcounters, fun key n hcounter => ?_,
    ⟨fun hsame => ?_, fun hsized => ?_⟩, htruthful⟩
  · rw [hcounters] at hcounter
    rw [toAttributes_eq_write]
    exact get?_write_lengthKey hschema hbound hcounter
  · -- What was recorded has true counters, and these are the ones that were written.
    have hrecorded := every_recorded hschema (fun field value kept => sized_of_recordedValue) hcount
    rw [← htruthful, ← hsame]
    exact (truthful_write_iff hschema (hrecorded.mono fun _ _ h => h.1)).2
      (hrecorded.mono fun _ _ h => h.2)
  · rw [toAttributes_eq_write schema tree]
    exact write_recorded hschema hcount hsized "" Dict.empty

/-- A tree in which a number stands among the texts of a list, a text among the elements of a block
and a list in the place of a number. -/
theorem toAttributes_stable_mistyped :
    let fields : Schema := [.int "size" .optional, .textList "tags" .optional]
    let schema : Schema := [.textMap "labels" .optional, .repeated "parts" fields .optional]
    let tree : Tree := .obj [("labels", .obj [("a", .str "b")]), ("parts", .arr [.str "x", .obj
      [("size", .arr []), ("tags", .arr [.str "y", .int 1, .str "z"])]]), ("rest", .null)]
    ∃ shown, ofAttributes schema (toAttributes schema tree) = .ok (.obj shown) ∧
      toAttributes schema (.obj shown) = toAttributes schema tree ∧
      Truthful (toAttributes schema tree) (counters schema "" shown) := by
  intro fields schema tree
  have hschema : schema.WellNamed := by decide
  obtain ⟨shown, hread, -, -, hsame, htruthful⟩ := toAttributes_stable_iff hschema tree (by decide)
  have hsized : schema.Every Sized (tree.obj?.getD []) := by decide
  exact ⟨shown, hread, hsame.2 hsized, htruthful.2 hsized⟩

/-- An entry that is no text is counted but not written, so that the map is read as an empty one,
for which another number is written. -/
theorem toAttributes_miscounted :
    let schema : Schema := [.textMap "labels" .optional]
    let tree : Tree := .obj [("labels", .obj [("a", .int 1)])]
    let shown : Block := [("labels", .obj [])]
    schema.WellNamed ∧ ofAttributes schema (toAttributes schema tree) = .ok (.obj shown) ∧
      (toAttributes schema tree).get? "labels.%" = some "1" ∧
      counters schema "" shown = [("labels.%", 0)] ∧
      toAttributes schema (.obj shown) ≠ toAttributes schema tree := by
  decide

end Reconcile.Schema
