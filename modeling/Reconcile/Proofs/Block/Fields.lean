import Mathlib.Data.List.Basic
import Reconcile.Proofs.Dict.Bindings
import Reconcile.Wire

/-!
# Blocks made of fields

A block that is made of fields with distinct names has those that have a value, in the order of
their names. `lookup_ofFields` says what it holds under a name, which is all there is to know of it
(`Entries.Ascending.ext`).
-/

namespace Reconcile

namespace Block

variable {fields : List (String × Option Json)} {block : Block}

/-- Putting a value keeps the keys ascending. -/
theorem ascending_put (h : Entries.Ascending block) (key : String) (value : Option Json) :
    Entries.Ascending (put block key value) := by
  cases value with
  | none => exact h
  | some v => exact h.insert key v

/-- A block made of fields has ascending keys. -/
theorem ascending_ofFields (fields : List (String × Option Json)) :
    Entries.Ascending (ofFields fields) :=
  List.foldlRecOn _ _ List.Pairwise.nil fun _ h e _ => ascending_put h e.1 e.2

/-- Fields with distinct names set each its own key. -/
theorem lookup_foldl_put (hnodup : (fields.map (·.1)).Nodup) (block : Block) (k : String) :
    (fields.foldl (fun block (key, value) => put block key value) block).lookup k =
      (fields.lookup k).join.or (block.lookup k) := by
  induction fields generalizing block with
  | nil => rfl
  | cons field rest ih =>
      obtain ⟨key, value⟩ := field
      obtain ⟨hkey, hrest⟩ := List.nodup_cons.1 hnodup
      rw [List.foldl_cons, ih hrest, lookup_put, List.lookup_cons]
      by_cases hk : k = key
      · subst hk
        rw [Entries.lookup_eq_none_iff.2 hkey, if_pos rfl, BEq.rfl]
        cases value with
        | none => rfl
        | some v => rfl
      · rw [if_neg hk, beq_eq_false_iff_ne.2 hk]

/-- A block made of fields with distinct names holds the value of each. -/
theorem lookup_ofFields (hnodup : (fields.map (·.1)).Nodup) (k : String) :
    (ofFields fields).lookup k = (fields.lookup k).join := by
  rw [ofFields, lookup_foldl_put hnodup, List.lookup_nil, Option.or_none]

/-- Making a block of fields whose value for one name is another. -/
theorem insert_ofFields {fields' : List (String × Option Json)}
    (hnodup : (fields.map (·.1)).Nodup) (hnodup' : (fields'.map (·.1)).Nodup) {key : String}
    {value : Json} (hkey : fields'.lookup key = some (some value))
    (hother : ∀ k, k ≠ key → fields'.lookup k = fields.lookup k) :
    Entries.insert key value (ofFields fields) = ofFields fields' := by
  refine Entries.Ascending.ext ((ascending_ofFields fields).insert key value)
    (ascending_ofFields fields') fun k => ?_
  rw [Entries.lookup_insert, lookup_ofFields hnodup, lookup_ofFields hnodup']
  by_cases hk : k = key
  · rw [if_pos hk, hk, hkey]
    rfl
  · rw [if_neg hk, hother k hk]

end Block

end Reconcile
