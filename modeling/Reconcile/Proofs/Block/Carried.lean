import Mathlib.Data.List.Basic
import Reconcile.Metadata.Declaration
import Reconcile.Proofs.Block.Restored
import Reconcile.Proofs.Metadata.Wire
import Reconcile.Proofs.Schema.Carried

/-!
# Values that are read and written on the wire

Every reader of blocks finds a value of the type that it looks for, and what is written of it on the
wire is this value again (`Schema.Written`). A value of another type is read as absent, so something
else is written or nothing. There is one lemma for each reader.
-/

namespace Reconcile

/-- An integer of 32 bits is an integer of a field. -/
theorem FieldType.admits_int32 (i : Int32) : FieldType.int.Admits (.int i.toInt) := by
  have hlow : -2 ^ 31 ≤ i.toInt := i.minValue_le_toInt
  have hhigh : i.toInt ≤ 2 ^ 31 - 1 := i.toInt_le
  refine .int _ ?_ ?_
  · rw [Json.minInt64]
    omega
  · rw [Json.maxInt64]
    omega

/-- A list that is left out where it is empty is written if it is not. -/
theorem Declaration.map_nonEmpty? {α β : Type} {items : List α} (encode : List α → β)
    (hne : items ≠ []) : (nonEmpty? items).map encode = some (encode items) := by
  cases items with
  | nil => exact absurd rfl hne
  | cons item rest => rfl

namespace Schema.Written

variable {block : Block} {key path : String}

/-- An integer of a field is read as itself. -/
theorem exists_int? {v : Json} (hvalue : block.lookup key = some v)
    (h : FieldType.int.Admits v) : ∃ n, Block.int? block key = some n ∧ v = .int n.toInt := by
  cases h with
  | int i hlow hhigh =>
      refine ⟨Int64.ofInt i, ?_, ?_⟩
      · rw [Block.int?, hvalue]
        exact Json.int64?_int hlow hhigh
      · rw [Int64.toInt_ofInt_of_le hlow (by rw [Json.maxInt64] at hhigh; omega)]

/-- An optional text is written as it is read. -/
theorem text (block : Block) (key : String) :
    Written .text (block.lookup key) (Wire.text (Block.text? block key)) := by
  refine ⟨fun v hvalue hset hadmits => ?_, fun w hw => ?_⟩
  · cases hadmits with
    | text s =>
        have hne : some s ≠ some "" := by
          rintro ⟨⟩
          cases hset
        rw [Block.text?_of_lookup (hvalue : _ = Block.ofText? (some s)) hne]
        rfl
  · obtain ⟨s, _, rfl⟩ := Option.map_eq_some_iff.1 hw
    exact .text s

/-- A required text is written as it is read. -/
theorem requiredText {s : String} (h : Declaration.requiredText block key path = .ok s) :
    Written .text (block.lookup key) (Wire.text (some s)) := by
  have hread := text block key
  unfold Declaration.requiredText at h
  split at h
  · rename_i found hfound
    cases h
    rwa [hfound] at hread
  · cases h

/-- An optional integer is written as it is read. -/
theorem int64 (block : Block) (key : String) :
    Written .int (block.lookup key) (Wire.int64 (Block.int? block key)) := by
  refine ⟨fun v hvalue _ hadmits => ?_, fun w hw => ?_⟩
  · obtain ⟨n, hread, rfl⟩ := exists_int? hvalue hadmits
    rw [hread]
    rfl
  · obtain ⟨n, _, rfl⟩ := Option.map_eq_some_iff.1 hw
    exact .int _ n.minValue_le_toInt n.toInt_le

/-- An integer that fits 32 bits is written as the one that was read. -/
theorem int32 {i : Int32} (path : String) (h : ∀ n, Block.int? block key = some n →
    Declaration.int32 n path = .ok i) :
    Written .int (block.lookup key) (Wire.int32 (some i)) := by
  refine ⟨fun v hvalue _ hadmits => ?_, fun w hw => ?_⟩
  · obtain ⟨n, hread, rfl⟩ := exists_int? hvalue hadmits
    rw [← Declaration.toInt_of_int32 (h n hread)]
    rfl
  · cases hw
    exact FieldType.admits_int32 i

/-- An integer with a default is written as it is read. -/
theorem int32D {default i : Int32} (h : Declaration.int32D block key default path = .ok i) :
    Written .int (block.lookup key) (Wire.int32 (some i)) := by
  refine int32 path fun n hread => ?_
  rw [Declaration.int32D, hread] at h
  exact h

/-- A required integer is written as it is read, if it fits. -/
theorem requiredInt {n : Int64} {i : Int32} (h : Declaration.requiredInt block key path = .ok n)
    (hfits : Declaration.int32 n path = .ok i) :
    Written .int (block.lookup key) (Wire.int32 (some i)) := by
  refine int32 path fun m hread => ?_
  rw [Declaration.requiredInt, hread] at h
  cases h
  exact hfits

/-- An optional integer that fits is written as it is read. -/
theorem int32? {value : Option Int32} (h : Declaration.int32? block key path = .ok value) :
    Written .int (block.lookup key) (Wire.int32 value) := by
  cases value with
  | some i =>
      refine int32 path fun n hread => ?_
      rw [Declaration.int32?, hread] at h
      obtain ⟨j, hfits, hj⟩ := Steps.map_eq_ok_iff.1 h
      cases hj
      exact hfits
  | none =>
      refine ⟨fun v hvalue _ hadmits => ?_, fun w hw => by cases hw⟩
      obtain ⟨n, hread, _⟩ := exists_int? hvalue hadmits
      rw [Declaration.int32?, hread] at h
      obtain ⟨j, _, hj⟩ := Steps.map_eq_ok_iff.1 h
      cases hj

/-- A truth value with a default is written as it is read. -/
theorem bool (block : Block) (key : String) (default : Bool) :
    Written .bool (block.lookup key)
      (Wire.bool (some ((Block.bool? block key).getD default))) := by
  refine ⟨fun v hvalue _ hadmits => ?_, fun w hw => ?_⟩
  · cases hadmits with
    | bool b =>
        rw [Block.bool?, hvalue]
        rfl
  · cases hw
    exact .bool _

/-- A map of texts is written as it is read. -/
theorem texts (block : Block) (key : String) :
    Written .textMap (block.lookup key)
      (Wire.texts (ObjectMeta.nonEmpty? (Block.texts block key))) := by
  refine ⟨fun v hvalue hset hadmits => ?_, fun w hw => ?_⟩
  · cases hadmits with
    | textMap d =>
        have hne : ¬ d.isEmpty = true := by
          intro hempty
          rw [Dict.isEmpty_iff.1 hempty] at hset
          cases hset
        have hread : Block.texts block key = d := by
          rw [Block.texts, hvalue]
          exact Block.texts_entries d
        rw [hread, ObjectMeta.nonEmpty?, if_neg hne]
        rfl
  · obtain ⟨d, _, rfl⟩ := Option.map_eq_some_iff.1 hw
    exact .textMap d

/-- A list of texts is written, with and without leaving out an empty one. -/
theorem textList {found : Option (List String)}
    (h : found = some (Block.textList block key) ∨
      found = Declaration.nonEmpty? (Block.textList block key)) :
    Written .textList (block.lookup key) (Wire.textList found) := by
  refine ⟨fun v hvalue hset hadmits => ?_, fun w hw => ?_⟩
  · cases hadmits with
    | textList items =>
        have hread : Block.textList block key = items := by
          rw [Block.textList, hvalue]
          simp [Json.arr?, Json.str?, List.filterMap_map, Function.comp_def]
        have hfound : found = some items := by
          rw [hread] at h
          cases items with
          | nil => cases hset
          | cons item rest => exact h.elim id id
        rw [hfound]
        rfl
  · obtain ⟨items, _, rfl⟩ := Option.map_eq_some_iff.1 hw
    exact .textList items

end Schema.Written

end Reconcile
