import Mathlib.Data.List.Basic
import Reconcile.Proofs.Dict.Bindings
import Reconcile.Text.Decimal
import Reconcile.Wire

/-!
# Values that can be recorded

A record counts the entries of a map under the key `%` and the items of an array in a machine word.
`Json.recordable` says of a value and of everything in it that this leaves room for what it holds.
The wire form of an object tells in this way whether the maps and the lists of the object do.
-/

namespace Reconcile.Json

mutual

/-- Whether no object in a value binds the key of the counters and no array has more items than a
word counts. -/
def recordable : Json → Bool
  | .arr items => decide (items.length ≤ Decimal.maxNat64) && recordableItems items
  | .obj fields => (fields.lookup "%").isNone && recordableFields fields
  | _ => true

/-- Whether every value of a list can be recorded. -/
def recordableItems : List Json → Bool
  | [] => true
  | item :: items => recordable item && recordableItems items

/-- Whether every value of an object can be recorded. -/
def recordableFields : List (String × Json) → Bool
  | [] => true
  | (_, value) :: fields => recordable value && recordableFields fields

end

theorem recordableItems_iff {items : List Json} :
    recordableItems items = true ↔ ∀ item ∈ items, item.recordable = true := by
  induction items with
  | nil => simp [recordableItems]
  | cons item items ih => simp [recordableItems, ih]

theorem recordableFields_iff {fields : Fields} :
    recordableFields fields = true ↔ ∀ e ∈ fields, e.2.recordable = true := by
  induction fields with
  | nil => simp [recordableFields]
  | cons e fields ih => simp [recordableFields, ih]

/-- An array can be recorded if its length can be counted and each item can be recorded. -/
theorem recordable_arr_iff {items : List Json} : (arr items).recordable = true ↔
    items.length ≤ Decimal.maxNat64 ∧ ∀ item ∈ items, item.recordable = true := by
  rw [recordable, Bool.and_eq_true, decide_eq_true_eq, recordableItems_iff]

/-- An object can be recorded if no key is a percent sign and each value can be recorded. -/
theorem recordable_obj_iff {fields : Fields} : (obj fields).recordable = true ↔
    fields.lookup "%" = none ∧ ∀ e ∈ fields, e.2.recordable = true := by
  rw [recordable, Bool.and_eq_true, Option.isNone_iff_eq_none, recordableFields_iff]

/-! ## Members of wire forms -/

section Members

variable {value : Json} (h : value.recordable = true)

include h

/-- A member of a value that can be recorded can be recorded. -/
theorem recordable_member {key : String} {member : Json}
    (hmember : (value.obj?.getD []).lookup key = some member) : member.recordable = true := by
  cases value with
  | obj fields => exact (recordable_obj_iff.1 h).2 _ (Entries.mem_of_lookup_eq_some hmember)
  | _ => cases hmember

/-- What was written for a field of a value that can be recorded can be recorded. -/
theorem recordable_of_field {α : Type} {key : String} {encode : α → Json} {field : Option α}
    (hfield : (value.obj?.getD []).lookup key = field.map encode) {a : α} (ha : field = some a) :
    (encode a).recordable = true :=
  recordable_member h (hfield.trans (congrArg (Option.map encode) ha))

/-- A map of texts that can be recorded leaves the key of its counter free. -/
theorem get?_recordable {key : String} {texts : Option (Dict String)}
    (htexts : (value.obj?.getD []).lookup key = Wire.texts texts) :
    (texts.getD Dict.empty).get? "%" = none := by
  cases texts with
  | none => rfl
  | some d =>
      have hd := recordable_obj_iff.1 (recordable_member h htexts)
      have hlookup : (d.get? "%").map Json.str = none :=
        (Entries.lookup_map_value Json.str d.entries "%").symm.trans hd.1
      exact Option.map_eq_none_iff.1 hlookup

/-- A list that can be recorded has no more items than a word counts, and each can be recorded. -/
theorem items_recordable {α : Type} {key : String} {encode : α → Json} {items : Option (List α)}
    (hitems : (value.obj?.getD []).lookup key = items.map (Wire.array encode)) :
    (items.getD []).length ≤ Decimal.maxNat64 ∧
      ∀ item ∈ items.getD [], (encode item).recordable = true := by
  cases items with
  | none => exact ⟨Nat.zero_le _, fun _ hitem => nomatch hitem⟩
  | some items =>
      obtain ⟨hlength, hall⟩ := recordable_arr_iff.1 (recordable_member h hitems)
      rw [List.length_map] at hlength
      exact ⟨hlength, fun item hitem => hall _ (List.mem_map_of_mem hitem)⟩

end Members

end Reconcile.Json
