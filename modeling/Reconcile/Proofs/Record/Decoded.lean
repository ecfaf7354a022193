import Mathlib.Data.List.Basic
import Reconcile.Proofs.Block.Fields
import Reconcile.Proofs.Record.RoundTrip

/-!
# Trees that were read from attributes

Whatever attributes say, a tree that is read from them conforms to the schema and can be written
again: `accepts_of_read`. Counters that are missing, too great or stale decide how many elements
there are, and keys that are those of no field are passed over, but what comes out is typed. So a
tree that was read once is read again from what is written for it (`ofAttributes_stable`).
-/

namespace Reconcile.Schema

variable {attributes : Attributes} {schema : Schema} {key start : String}

/-! ## The fields of a block -/

/-- A block that is read has under the name of each field what is read below its key, and under no
other name anything else than before. -/
theorem lookup_of_read {acc block : Block} (hnodup : (schema.map (·.name)).Nodup)
    (hacc : Entries.Ascending acc) (hread : read schema attributes start acc = .ok block) :
    Entries.Ascending block ∧
      (∀ k, k ∉ schema.map (·.name) → block.lookup k = acc.lookup k) ∧
      ∀ field ∈ schema, ∃ value,
        readValue field.type attributes (start ++ field.name) = .ok value ∧
          block.lookup field.name = value.or (acc.lookup field.name) := by
  induction schema generalizing acc with
  | nil =>
      obtain rfl := Except.ok.inj hread
      exact ⟨hacc, fun _ _ => rfl, fun field hfield => (nomatch hfield)⟩
  | cons field fields ih =>
      obtain ⟨name, type, presence, default⟩ := field
      obtain ⟨hname, hnodup⟩ := List.nodup_cons.1 hnodup
      rw [read, Steps.bind_eq_ok_iff] at hread
      obtain ⟨value, hvalue, hrest⟩ := hread
      obtain ⟨hasc, hother, hfields⟩ := ih hnodup (Block.ascending_put hacc name value) hrest
      refine ⟨hasc, fun k hk => ?_, fun field hfield => ?_⟩
      · rw [List.map_cons, List.mem_cons, not_or] at hk
        rw [hother k hk.2, Block.lookup_put, if_neg hk.1]
      · rcases List.mem_cons.1 hfield with rfl | hfield
        · refine ⟨value, hvalue, ?_⟩
          rw [hother name hname, Block.lookup_put, if_pos rfl]
          cases value with
          | none => rfl
          | some v => rfl
        · obtain ⟨v, hv, hlookup⟩ := hfields field hfield
          have hne : field.name ≠ name := fun h => hname (List.mem_map.2 ⟨field, hfield, h⟩)
          exact ⟨v, hv, by rw [hlookup, Block.lookup_put, if_neg hne]⟩

/-- A block that is read from nothing holds fields of the schema only. -/
theorem covers_of_read {block : Block} (hnodup : (schema.map (·.name)).Nodup)
    (hread : read schema attributes start [] = .ok block) : schema.Covers block := by
  obtain ⟨hasc, hother, -⟩ := lookup_of_read hnodup List.Pairwise.nil hread
  exact .of_lookup hasc hother

/-- A value of a block that is read from nothing was read below its own key. -/
theorem readValue_of_read {block : Block} (hnodup : (schema.map (·.name)).Nodup)
    (hread : read schema attributes start [] = .ok block) {field : Field} (hfield : field ∈ schema)
    {value : Json} (hvalue : block.lookup field.name = some value) :
    readValue field.type attributes (start ++ field.name) = .ok (some value) := by
  obtain ⟨v, hv, hlookup⟩ := (lookup_of_read hnodup List.Pairwise.nil hread).2.2 field hfield
  rw [hvalue, List.lookup_nil, Option.or_none] at hlookup
  rw [hv, hlookup]

/-! ## The value of a field -/

/-- A length is a machine word, whether it was counted or inferred. -/
theorem readLength_le {n : Nat} (h : readLength attributes key = .ok (some n)) :
    n ≤ Decimal.maxNat64 := by
  unfold readLength at h
  split at h
  · split at h
    · rename_i m hm
      obtain rfl := Option.some.inj (Except.ok.inj h)
      exact Decimal.le_of_natUpTo? hm
    · cases h
  · obtain ⟨i, -, rfl⟩ := Option.map_eq_some_iff.1 (Except.ok.inj h)
    exact Decimal.word_le (i + 1)

theorem readInt_typed {value : Json} (h : readInt attributes key = .ok (some value)) :
    FieldType.int.Admits value := by
  unfold readInt at h
  split at h
  · cases h
  · split at h
    · rename_i i hi
      obtain rfl := Option.some.inj (Except.ok.inj h)
      obtain ⟨hlow, hhigh⟩ := Decimal.bounds_of_intIn? hi
      exact .int i hlow hhigh
    · cases h

theorem readBool_typed {value : Json} (h : readBool attributes key = .ok (some value)) :
    FieldType.bool.Admits value := by
  unfold readBool at h
  split at h
  · cases h
  · split at h
    · obtain rfl := Option.some.inj (Except.ok.inj h)
      exact .bool true
    · split at h
      · obtain rfl := Option.some.inj (Except.ok.inj h)
        exact .bool false
      · cases h

/-- A list of texts has no more of them than was said. -/
theorem exists_readTextList_eq (attributes : Attributes) (key : String) (n : Nat) :
    ∃ items : List String, readTextList attributes key n = .arr (items.map .str) ∧
      items.length ≤ n := by
  refine ⟨(List.range n).filterMap fun i => attributes.get? (memberKey key (toString i)), ?_, ?_⟩
  · rw [readTextList, List.map_filterMap]
  · calc
      _ ≤ (List.range n).length := List.length_filterMap_le _ _
      _ = n := List.length_range

/-- The entry that the counter of a map would be is none of the map. -/
theorem exists_of_readTextMap {value : Json} (h : readTextMap attributes key = some value) :
    ∃ texts : Dict String, value = Json.ofTexts texts ∧ texts.get? "%" = none := by
  rw [readTextMap] at h
  simp only [Option.ite_none_left_eq_some, Option.some.injEq] at h
  obtain ⟨-, rfl⟩ := h
  refine ⟨_, rfl, ?_⟩
  rw [Dict.get?_ofList, Entries.lookup_eq_none_iff]
  intro hmem
  obtain ⟨⟨k, s⟩, hmember, rfl⟩ := List.mem_map.1 hmem
  exact (mem_members_iff.1 (List.mem_reverse.1 hmember)).1 rfl

/-- The elements of a nested block are as many as was said, and each was read as a block. -/
theorem exists_of_readValue_block {fields : Schema} {singular : Bool} {value : Json}
    (h : readValue (.block fields singular) attributes key = .ok (some value)) :
    ∃ blocks : List Block, value = .arr (blocks.map .obj) ∧
      blocks.length ≤ Decimal.maxNat64 ∧
      ∀ element ∈ blocks, ∃ i, read fields attributes (elementPrefix key i) [] = .ok element := by
  rw [readValue, Steps.bind_eq_ok_iff] at h
  obtain ⟨length, hlength, h⟩ := h
  cases length with
  | none => cases h
  | some n =>
      obtain ⟨blocks, hblocks, h⟩ := Steps.bind_eq_ok_iff.1 h
      obtain rfl := Option.some.inj (Except.ok.inj h)
      refine ⟨blocks, rfl, ?_, fun element helement => ?_⟩
      · rw [← (Steps.mapM_eq_ok_iff.1 hblocks).length_eq, List.length_range]
        exact readLength_le hlength
      · obtain ⟨i, -, hi⟩ := Steps.exists_of_mem_mapM hblocks helement
        exact ⟨i, hi⟩

/-- A value that is read is of the type of its field and can be written again, if the blocks that
are read hold fields of their schemas only. -/
theorem readValue_typed {field : Field} {value : Json}
    (h : readValue field.type attributes key = .ok (some value))
    (hblock : ∀ fields singular, field.type = .block fields singular → ∀ start element,
      read fields attributes start [] = .ok element → Covers fields element) :
    field.type.Admits value ∧ Storable field value := by
  obtain ⟨name, type, presence, default⟩ := field
  cases type with
  | text =>
      obtain ⟨s, -, rfl⟩ := Option.map_eq_some_iff.1 (Except.ok.inj h)
      exact ⟨.text s, trivial⟩
  | int => exact ⟨readInt_typed h, trivial⟩
  | bool => exact ⟨readBool_typed h, trivial⟩
  | textList =>
      obtain ⟨length, hlength, h⟩ := Steps.bind_eq_ok_iff.1 h
      obtain ⟨n, rfl, rfl⟩ := Option.map_eq_some_iff.1 (Except.ok.inj h)
      obtain ⟨items, hitems, hle⟩ := exists_readTextList_eq attributes key n
      rw [hitems]
      refine ⟨.textList items, ?_⟩
      show (items.map Json.str).length ≤ Decimal.maxNat64
      rw [List.length_map]
      exact Nat.le_trans hle (readLength_le hlength)
  | textMap =>
      obtain ⟨texts, rfl, hreserved⟩ := exists_of_readTextMap (Except.ok.inj h)
      refine ⟨.textMap texts, ?_⟩
      show List.lookup "%" (texts.entries.map _) = none
      rw [Entries.lookup_map_value, Option.map_eq_none_iff]
      exact hreserved
  | block fields singular =>
      obtain ⟨blocks, rfl, hle, hread⟩ := exists_of_readValue_block h
      refine ⟨.block fields singular blocks fun element helement => ?_, ?_⟩
      · obtain ⟨i, hi⟩ := hread element helement
        exact hblock fields singular rfl _ element hi
      · show (blocks.map Json.obj).length ≤ Decimal.maxNat64
        rw [List.length_map]
        exact hle

/-! ## The whole tree -/

/-- Every value of a block that is read is of the type of its field and can be written again. -/
theorem every_of_read {block : Block} (hschema : schema.WellNamed)
    (hread : read schema attributes start [] = .ok block) :
    schema.Every (fun field value => field.type.Admits value ∧ Storable field value) block := by
  induction hschema generalizing start block with
  | @intro schema here below ih =>
      refine .intro (fun field hfield value hvalue => ?_)
        (fun field hfield value hvalue fields singular htype element helement => ?_)
      · refine readValue_typed (readValue_of_read here.1 hread hfield hvalue) ?_
        intro fields singular htype start element helement
        cases below field hfield fields singular htype with
        | intro inner _ => exact covers_of_read inner.1 helement
      · have hvalue := readValue_of_read here.1 hread hfield hvalue
        rw [htype] at hvalue
        obtain ⟨blocks, rfl, -, hblocks⟩ := exists_of_readValue_block hvalue
        rw [Json.elements_arr] at helement
        obtain ⟨i, hi⟩ := hblocks element helement
        exact ih field hfield fields singular htype hi

/-- A block that is read from attributes is accepted by the schema. -/
theorem accepts_of_read {block : Block} (hschema : schema.WellNamed)
    (hread : read schema attributes start [] = .ok block) : schema.Accepts block := by
  exact ⟨covers_of_read hschema.nodup hread, (every_of_read hschema hread).mono fun _ _ h => h.1⟩

/-- A block that is read from attributes can be written again. -/
theorem storable_of_read {block : Block} (hschema : schema.WellNamed)
    (hread : read schema attributes start [] = .ok block) : schema.Every Storable block :=
  (every_of_read hschema hread).mono fun _ _ h => h.2

/-- A tree that was read from attributes is read from those that are written for it. -/
theorem ofAttributes_stable {tree : Tree} (hschema : schema.WellNamed)
    (hread : ofAttributes schema attributes = .ok tree) :
    ofAttributes schema (toAttributes schema tree) = .ok tree := by
  obtain ⟨block, hblock, rfl⟩ := Steps.map_eq_ok_iff.1 hread
  show (read schema (write schema "" block Dict.empty) "" []).map Json.obj = _
  rw [read_write hschema (accepts_of_read hschema hblock) (storable_of_read hschema hblock)]
  rfl

end Reconcile.Schema
