/-!
# Numbers with a fraction

A JSON number that is written with a point or an exponent denotes a binary64 value. `ofDecimal?`
rounds a decimal numeral to the nearest such value, a tie going to the even significand, and
`shortest` finds the shortest decimal numeral that rounds back, the nearest one where there are
several. Both work in exact integer arithmetic. Powers are written as `Nat.pow`, so that they do
not depend on the instance of `^` that is in scope.
-/

namespace Reconcile

/-- A finite binary64 value, given by its bit pattern. -/
structure Binary64 where
  bits : UInt64
  deriving DecidableEq, Inhabited

namespace Binary64

/-- Whether the sign bit is set. -/
def isNegative (x : Binary64) : Bool := x.bits >>> 63 == 1

/-- The significand `m` and the exponent `q` of the magnitude `m * 2 ^ q`. -/
def parts (x : Binary64) : Nat × Int :=
  let fraction : Nat := x.bits.toNat % Nat.pow 2 52
  let biased : Nat := x.bits.toNat / Nat.pow 2 52 % Nat.pow 2 11
  if biased = 0 then (fraction, -1074) else (fraction + Nat.pow 2 52, (biased : Int) - 1075)

/-- The value with the given sign and magnitude `m * 2 ^ q`, for `m < 2 ^ 53` and `-1074 ≤ q`,
where `q` exceeds `-1074` only if `2 ^ 52 ≤ m`. -/
def ofParts (negative : Bool) (m : Nat) (q : Int) : Binary64 :=
  let magnitude :=
    if m < Nat.pow 2 52 then m else (q + 1075).toNat * Nat.pow 2 52 + (m - Nat.pow 2 52)
  ⟨UInt64.ofNat (magnitude + if negative then Nat.pow 2 63 else 0)⟩

/-- The integer nearest to `num / den`, the even one of two. -/
def roundHalfEven (num den : Nat) : Nat :=
  let quotient := num / den
  let remainder := num % den
  if 2 * remainder < den then quotient
  else if 2 * remainder > den then quotient + 1
  else quotient + quotient % 2

/-- The number of decimal digits of a positive number, and 1 for zero. -/
def digitCount (n : Nat) : Nat := (Nat.toDigits 10 n).length

/-- The fraction `n * base ^ e` as numerator and denominator. -/
def scaled (n base : Nat) (e : Int) : Nat × Nat :=
  if 0 ≤ e then (n * Nat.pow base e.toNat, 1) else (n, Nat.pow base (-e).toNat)

/-- The value nearest to `digits * 10 ^ exponent`, or nothing where the magnitude exceeds every
finite value. -/
def ofDecimal? (negative : Bool) (digits : Nat) (exponent : Int) : Option Binary64 :=
  let position := (digitCount digits : Int) + exponent
  if digits = 0 ∨ position < -330 then some (ofParts negative 0 (-1074))
  else if position > 310 then none
  else
    let (num, den) := scaled digits 10 exponent
    let estimate := (num.log2 : Int) - den.log2 - 53
    let significand (q : Int) : Nat × Nat :=
      if 0 ≤ q then (num, den * Nat.pow 2 q.toNat) else (num * Nat.pow 2 (-q).toNat, den)
    let (n₀, d₀) := significand estimate
    let exact := if n₀ / d₀ < Nat.pow 2 53 then estimate else estimate + 1
    let q := max exact (-1074)
    let (n, d) := significand q
    let m := roundHalfEven n d
    let (m, q) := if m = Nat.pow 2 53 then (Nat.pow 2 52, q + 1) else (m, q)
    if q > 971 then none else some (ofParts negative m q)

/-- The multiple of `10 ^ g` that is nearest to the middle of an interval, among the two beside
the middle that lie in it. The bounds and the middle are numerators over `den`. -/
def gridPoint? (low middle high den : Nat) (closed : Bool) (g : Int) : Option Nat :=
  let scale (num : Nat) : Nat × Nat :=
    if 0 ≤ g then (num, den * Nat.pow 10 g.toNat) else (num * Nat.pow 10 (-g).toNat, den)
  let (lowNum, d) := scale low
  let (num, _) := scale middle
  let (highNum, _) := scale high
  let inside (c : Nat) : Bool :=
    if closed then lowNum ≤ c * d && c * d ≤ highNum else lowNum < c * d && c * d < highNum
  let below := num / d
  let above := below + 1
  match inside below, inside above with
  | true, true =>
    let remainder := num % d
    if 2 * remainder < d then some below
    else if 2 * remainder > d then some above
    else some (below + below % 2)
  | true, false => some below
  | false, true => some above
  | false, false => none

/-- The first hit on the grids of `10 ^ g`, `10 ^ (g - 1)` and so on, with its exponent. -/
def firstGridPoint (low middle high den : Nat) (closed : Bool) : Nat → Int → Nat × Int
  | 0, g => (middle / den, g)
  | steps + 1, g =>
    match gridPoint? low middle high den closed g with
    | some c => (c, g)
    | none => firstGridPoint low middle high den closed steps (g - 1)

/-- The decimal numeral `(digits, exponent)` with the fewest digits that rounds to the magnitude
of `x`, and of those the nearest. -/
def shortest (x : Binary64) : Nat × Int :=
  let (m, q) := x.parts
  if m = 0 then (0, 0)
  else
    let lowGap := if m = Nat.pow 2 52 ∧ q > -1074 then 1 else 2
    let (unit, den) := scaled 1 2 (q - 2)
    let middle := 4 * m * unit
    let start : Int :=
      if den ≤ middle then digitCount (middle / den) else 1 - (digitCount (den / middle) : Int)
    firstGridPoint ((4 * m - lowGap) * unit) middle ((4 * m + 2) * unit) den (m % 2 = 0) 24 start

end Binary64

end Reconcile
