import Mathlib.Data.List.Basic
import Reconcile.Proofs.Dict.Bindings
import Reconcile.Proofs.Text.Written
import Reconcile.Record.Flat

/-!
# The keys of a flat record

The attributes of a value have the value's key or a key below it, one that goes on with a point.
Keys that go on with different segments lead to different values: `Under.disjoint` says that no
key is below two of them, however the keys of a map are chosen.
-/

namespace Reconcile.Schema

/-- `Under key k` says that `k` is the key or one below it. -/
def Under (key k : String) : Prop := k = key ∨ ∃ rest, k = key ++ "." ++ rest

theorem Under.refl (key : String) : Under key key := .inl rfl

theorem Under.member (key rest : String) : Under key (memberKey key rest) := .inr ⟨rest, rfl⟩

theorem lengthKey_eq (key : String) : lengthKey key = memberKey key "#" := by
  rw [lengthKey, memberKey, String.append_assoc]
  rfl

theorem sizeKey_eq (key : String) : sizeKey key = memberKey key "%" := by
  rw [sizeKey, memberKey, String.append_assoc]
  rfl

/-- A key below a member of a value is below the value. -/
theorem Under.of_member {key segment k : String} (h : Under (memberKey key segment) k) :
    Under key k := by
  rcases h with rfl | ⟨rest, rfl⟩
  · exact .inr ⟨segment, rfl⟩
  · exact .inr ⟨segment ++ "." ++ rest, by simp [memberKey, String.append_assoc]⟩

/-- A key that begins as the keys within an element is below that element. -/
theorem Under.of_elementPrefix {key name k : String} {i : Nat}
    (h : Under (elementPrefix key i ++ name) k) : Under (memberKey key (toString i)) k := by
  rcases h with rfl | ⟨rest, rfl⟩
  · exact .inr ⟨name, rfl⟩
  · exact .inr ⟨name ++ "." ++ rest, by simp [elementPrefix, String.append_assoc]⟩

/-- What follows a known beginning in a key is below the name that follows it. -/
theorem Under.exists_rest {start name k : String} (h : Under (start ++ name) k) :
    ∃ rest, k = start ++ rest ∧ Under name rest := by
  rcases h with rfl | ⟨rest, rfl⟩
  · exact ⟨name, rfl, .refl name⟩
  · exact ⟨name ++ "." ++ rest, by simp only [String.append_assoc], .inr ⟨rest, rfl⟩⟩

/-- What follows a known beginning in a key shows the segment that it goes on with. -/
theorem Under.takeWhile {start segment k : String} (hdot : '.' ∉ segment.toList)
    (h : Under (start ++ segment) k) :
    ∃ rest, k.toList = start.toList ++ rest ∧ rest.takeWhile (· ≠ '.') = segment.toList := by
  have hall : ∀ c ∈ segment.toList, decide (c ≠ '.') = true := by
    intro c hc
    rw [decide_eq_true_eq]
    rintro rfl
    exact hdot hc
  rcases h with rfl | ⟨rest, rfl⟩
  · refine ⟨segment.toList, String.toList_append, ?_⟩
    have hnil : (segment.toList ++ []).takeWhile (· ≠ '.') =
        segment.toList ++ [].takeWhile (· ≠ '.') := List.takeWhile_append_of_pos hall
    simpa using hnil
  · refine ⟨segment.toList ++ '.' :: rest.toList, by simp [String.toList_append], ?_⟩
    rw [List.takeWhile_append_of_pos hall, List.takeWhile_cons_of_neg (by simp),
      List.append_nil]

/-- No key is below two that go on with different segments. -/
theorem Under.disjoint {start segment other k : String} (hdot : '.' ∉ segment.toList)
    (hotherDot : '.' ∉ other.toList) (hne : segment ≠ other) (h : Under (start ++ segment) k) :
    ¬ Under (start ++ other) k := by
  intro hother
  obtain ⟨rest, hk, hrest⟩ := h.takeWhile hdot
  obtain ⟨rest', hk', hrest'⟩ := hother.takeWhile hotherDot
  have heq : rest = rest' := List.append_cancel_left (hk.symm.trans hk')
  exact hne (String.toList_inj.1 (by rw [← hrest, heq, hrest']))

/-- Keys that begin with different names are apart. -/
theorem Under.disjoint_root {name other k : String} (hdot : '.' ∉ name.toList)
    (hotherDot : '.' ∉ other.toList) (hne : name ≠ other) (h : Under name k) : ¬ Under other k := by
  rw [← String.empty_append (s := name)] at h
  rw [← String.empty_append (s := other)]
  exact h.disjoint hdot hotherDot hne

/-- No key is below two different members of a value. -/
theorem Under.disjoint_member {key segment other k : String} (hdot : '.' ∉ segment.toList)
    (hotherDot : '.' ∉ other.toList) (hne : segment ≠ other) (h : Under (memberKey key segment) k) :
    ¬ Under (memberKey key other) k :=
  Under.disjoint hdot hotherDot hne h

/-- A member has another key than its value. -/
theorem memberKey_ne (key member : String) : memberKey key member ≠ key := by
  intro h
  have hlength := congrArg (fun s : String => s.toList.length) h
  simp [memberKey] at hlength

/-- Members of a value have different keys. -/
theorem memberKey_inj {key a b : String} (h : memberKey key a = memberKey key b) : a = b := by
  have hchars := congrArg String.toList h
  rw [memberKey, memberKey, String.toList_append, String.toList_append] at hchars
  rw [String.toList_append, String.toList_append] at hchars
  exact String.toList_inj.1 (List.append_cancel_left hchars)

/-- The numeral of an index is a segment. -/
theorem dot_not_mem_index (i : Nat) : '.' ∉ (toString i).toList :=
  Decimal.not_mem_toString (by decide) i

/-- The numeral of an index is not the name of a counter. -/
theorem index_ne_counter (i : Nat) : toString i ≠ "#" := by
  intro h
  exact Decimal.not_mem_toString (c := '#') (by decide) i (by rw [h]; decide)

/-- Two elements of a list share no key. -/
theorem Under.disjoint_index {key k : String} {i j : Nat} (hne : i ≠ j)
    (h : Under (memberKey key (toString i)) k) : ¬ Under (memberKey key (toString j)) k :=
  h.disjoint_member (dot_not_mem_index i) (dot_not_mem_index j) fun heq =>
    hne (Decimal.toString_inj heq)

/-- The counter of a list lies below none of its elements. -/
theorem not_under_lengthKey (key : String) (i : Nat) :
    ¬ Under (memberKey key (toString i)) (lengthKey key) := by
  intro h
  refine h.disjoint_member (dot_not_mem_index i) (by decide) (index_ne_counter i) ?_
  rw [lengthKey_eq]
  exact .refl _

/-- The counter of a list lies below the list. -/
theorem Under.lengthKey (key : String) : Under key (lengthKey key) := by
  rw [lengthKey_eq]
  exact .member _ _

/-- The counter of a map lies below the map. -/
theorem Under.sizeKey (key : String) : Under key (sizeKey key) := by
  rw [sizeKey_eq]
  exact .member _ _

end Reconcile.Schema
