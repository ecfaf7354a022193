import Mathlib.Data.List.Basic
import Reconcile.Json.Printer
import Reconcile.Text.Decimal
import Reconcile.Text.Split

/-!
# Reading back what was written

A text that begins with a known beginning is that beginning and a rest, a separated text gains one
piece with every separator, and a number is read from its own numeral. `Decimal.natUpTo?_toString`
and `Decimal.intIn?_toString` are the two laws of numerals: what is within the bounds of its field
survives. No number, with or without a fraction, is written as the empty text.
-/

namespace Reconcile

namespace Text

/-- Dropping a beginning leaves what was appended to it. -/
theorem dropPrefix?_eq_some_iff {start s rest : String} :
    dropPrefix? start s = some rest ↔ s = start ++ rest := by
  rw [dropPrefix?, Option.map_eq_some_iff]
  constructor
  · rintro ⟨cs, hcs, rfl⟩
    apply String.toList_inj.1
    rw [String.toList_append, String.toList_ofList]
    exact (List.append_eq_of_isPrefixOf?_eq_some hcs).symm
  · rintro rfl
    refine ⟨rest.toList, ?_, String.ofList_toList⟩
    rw [List.isPrefixOf?_eq_some_iff_append_eq, String.toList_append]

/-- A sequence without the separator is one piece. -/
theorem pieces_eq_singleton {sep : Char} {cs : List Char} (h : sep ∉ cs) :
    pieces sep cs = [cs] := by
  induction cs with
  | nil => rfl
  | cons c cs ih =>
      rw [List.mem_cons, not_or] at h
      rw [pieces, if_neg (Ne.symm h.1), ih h.2]

/-- A separator adds the pieces of what follows it. -/
theorem pieces_append (sep : Char) (cs rest : List Char) :
    pieces sep (cs ++ sep :: rest) = pieces sep cs ++ pieces sep rest := by
  induction cs with
  | nil =>
      rw [List.nil_append, pieces.eq_2, if_pos rfl]
      rfl
  | cons c cs ih =>
      rw [List.cons_append, pieces, pieces, ih]
      by_cases hc : c = sep
      · rw [if_pos hc, if_pos hc, List.cons_append]
      · rw [if_neg hc, if_neg hc]
        cases hp : pieces sep cs with
        | nil => exact absurd hp (pieces_ne_nil sep cs)
        | cons p ps => rfl

end Text

namespace Decimal

/-- The digits of a number are read as that number. -/
theorem digits?_toDigits (n : Nat) : digits? (Nat.toDigits 10 n) = some n := by
  have hdigits : (Nat.toDigits 10 n).all Char.isDigit :=
    List.all_eq_true.2 fun c hc => Nat.isDigit_of_mem_toDigits (by decide) (by decide) hc
  rw [digits?, if_pos ⟨Nat.toDigits_ne_nil, hdigits⟩]
  have hvalue := Nat.ofDigitChars_ten_toDigits (n := n)
  rw [Nat.ofDigitChars_eq_foldl] at hvalue
  rw [hvalue]

/-- Leading zeros do not change the number of a numeral. -/
theorem digits?_replicate_zero (zeros n : Nat) :
    digits? (List.replicate zeros '0' ++ Nat.toDigits 10 n) = some n := by
  induction zeros with
  | zero => exact digits?_toDigits n
  | succ zeros ih =>
      have hne : List.replicate zeros '0' ++ Nat.toDigits 10 n ≠ [] :=
        List.append_ne_nil_of_right_ne_nil _ Nat.toDigits_ne_nil
      -- A zero in front neither adds to the number nor spoils the digits.
      have hzero : ∀ cs, cs ≠ [] → digits? ('0' :: cs) = digits? cs := by
        intro cs hcs
        simp only [digits?, List.foldl_cons, List.all_cons, ne_eq, hcs, reduceCtorEq]
        rfl
      rw [List.replicate_succ, List.cons_append, hzero _ hne, ih]

/-- The numeral of a number holds digits only. -/
theorem isDigit_of_mem_toString {n : Nat} {c : Char} (h : c ∈ (toString n).toList) :
    c.isDigit := by
  rw [Nat.toString_eq_ofList_toDigits, String.toList_ofList] at h
  exact Nat.isDigit_of_mem_toDigits (by decide) (by decide) h

/-- A character that is no digit does not occur in the numeral of a number. -/
theorem not_mem_toString {c : Char} (h : c.isDigit = false) (n : Nat) :
    c ∉ (toString n).toList := by
  intro hmem
  rw [isDigit_of_mem_toString hmem] at h
  exact Bool.false_ne_true h.symm

/-- The numeral of a number does not begin with a sign. -/
theorem toDigits_ne_sign {c : Char} (h : c.isDigit = false) (n : Nat) (cs : List Char) :
    Nat.toDigits 10 n ≠ c :: cs := by
  intro heq
  refine not_mem_toString h n ?_
  rw [Nat.toString_eq_ofList_toDigits, String.toList_ofList, heq]
  exact List.mem_cons_self

/-- A number within a bound is read from its numeral. -/
theorem natUpTo?_toString {bound n : Nat} (h : n ≤ bound) :
    natUpTo? bound (toString n) = some n := by
  rw [natUpTo?, Nat.toString_eq_ofList_toDigits, String.toList_ofList]
  split
  · rename_i cs heq
    exact absurd heq (toDigits_ne_sign (by decide) n cs)
  · rw [digits?_toDigits, Option.filter_some, if_pos (by simpa using h)]

/-- Different numbers have different numerals. -/
theorem toString_inj {m n : Nat} (h : toString m = toString n) : m = n := by
  rw [Nat.toString_eq_ofList_toDigits, Nat.toString_eq_ofList_toDigits, String.ofList_inj] at h
  exact Option.some.inj (by rw [← digits?_toDigits m, h, digits?_toDigits n])

/-- An integer between two bounds is read from its numeral. -/
theorem intIn?_toString {low high i : Int} (hlow : low ≤ i) (hhigh : i ≤ high) :
    intIn? low high (toString i) = some i := by
  rcases Int.lt_or_le i 0 with hneg | hpos
  · have hchars : (toString i).toList = '-' :: Nat.toDigits 10 (-i).toNat := by
      rw [Int.toString_eq_repr, Int.repr_eq_if, if_neg (by omega), String.toList_append,
        Nat.toList_repr]
      rfl
    have hvalue : -Int.ofNat (-i).toNat = i := by simp; omega
    simp only [intIn?, hchars, digits?_toDigits, Option.map_some, hvalue]
    simp [hlow, hhigh]
  · have hchars : (toString i).toList = Nat.toDigits 10 i.toNat := by
      rw [Int.toString_eq_repr, Int.repr_eq_if, if_pos hpos, Nat.toList_repr]
    have hvalue : Int.ofNat i.toNat = i := by simp; omega
    rw [intIn?, hchars]
    split
    · rename_i cs heq
      exact absurd heq (toDigits_ne_sign (by decide) _ cs)
    · rename_i cs heq
      exact absurd heq (toDigits_ne_sign (by decide) _ cs)
    · rw [digits?_toDigits, Option.map_some, hvalue]
      simp [hlow, hhigh]

/-- No integer has an empty numeral. -/
theorem toString_ne_empty (i : Int) : toString i ≠ "" := by
  intro hempty
  have hread := intIn?_toString (Int.le_refl i) (Int.le_refl i)
  rw [hempty] at hread
  cases hread

end Decimal

namespace Json

/-- A magnitude is written with a point or an exponent. -/
theorem FloatLayout.render_ne_empty (layout : FloatLayout) (digits : Nat) (exponent : Int) :
    layout.render digits exponent ≠ "" := by
  unfold render
  simp only [ne_eq, ← String.toList_eq_nil_iff]
  split_ifs <;> simp

theorem floatText_ne_empty (x : Binary64) : floatText x ≠ "" := by
  intro hempty
  obtain ⟨_, hrender⟩ := String.append_eq_empty_iff.1 hempty
  exact FloatLayout.render_ne_empty _ _ _ hrender

end Json

end Reconcile
