/-!
# Decimal numerals

Integers are read from ASCII decimal digits with an optional sign. Leading zeros are accepted,
blanks are not, and a numeral beyond the bounds of its field is refused. Only the digits `0` to
`9` count, whatever other decimal digits a text holds.
-/

namespace Reconcile.Decimal

/-- The greatest number of 64 bits without a sign, `2 ^ 64 - 1`. -/
def maxNat64 : Nat := 18446744073709551615

/-- What a machine word of 64 bits keeps of a number. -/
def word (n : Nat) : Nat := n % (maxNat64 + 1)

/-- A word is a number of 64 bits. -/
theorem word_le (n : Nat) : word n ≤ maxNat64 :=
  Nat.le_of_lt_succ (Nat.mod_lt n (Nat.succ_pos maxNat64))

/-- A machine word holds every number within its bound. -/
theorem word_of_le {n : Nat} (h : n ≤ maxNat64) : word n = n :=
  Nat.mod_eq_of_lt (Nat.lt_succ_of_le h)

/-- The number of a non-empty sequence of decimal digits. -/
def digits? (cs : List Char) : Option Nat :=
  if cs ≠ [] ∧ cs.all Char.isDigit then
    some (cs.foldl (fun n c => 10 * n + (c.toNat - '0'.toNat)) 0)
  else none

/-- The number of a numeral with an optional plus sign, at most `bound`. -/
def natUpTo? (bound : Nat) (s : String) : Option Nat :=
  let digits :=
    match s.toList with
    | '+' :: cs => cs
    | cs => cs
  (digits? digits).filter (· ≤ bound)

/-- A numeral that is read is within its bound. -/
theorem le_of_natUpTo? {bound n : Nat} {s : String} (h : natUpTo? bound s = some n) :
    n ≤ bound :=
  of_decide_eq_true (Option.filter_eq_some_iff.1 h).2

/-- The number of a numeral with an optional sign, between `low` and `high`. -/
def intIn? (low high : Int) (s : String) : Option Int :=
  let value : Option Int :=
    match s.toList with
    | '+' :: cs => (digits? cs).map Int.ofNat
    | '-' :: cs => (digits? cs).map fun n => -Int.ofNat n
    | cs => (digits? cs).map Int.ofNat
  value.filter fun i => low ≤ i ∧ i ≤ high

/-- A numeral that is read is within its bounds. -/
theorem bounds_of_intIn? {low high i : Int} {s : String} (h : intIn? low high s = some i) :
    low ≤ i ∧ i ≤ high :=
  of_decide_eq_true (Option.filter_eq_some_iff.1 h).2

end Reconcile.Decimal
