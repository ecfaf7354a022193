import Reconcile.Json.Parser

/-!
# YAML scalars

A plain scalar is null, a truth value, an integer, a float or a text, decided by its spelling
alone. `resolve?` tries these in turn. An integer may be written in decimal, hexadecimal, octal or
binary, but decimal digits after a leading zero are a text. A tag overrides the spelling.
-/

namespace Reconcile.Yaml

/-- The kinds of values that a tag can ask for. -/
inductive Tag where
  | null
  | bool
  | int
  | float
  | text
  deriving DecidableEq

namespace Scalar

/-- Whether a text spells null. -/
def isNull (s : String) : Bool := s ∈ ["", "~", "null", "Null", "NULL"]

/-- The truth value that a text spells. -/
def bool? (s : String) : Option Bool :=
  if s ∈ ["true", "True", "TRUE"] then some true
  else if s ∈ ["false", "False", "FALSE"] then some false
  else none

/-- Whether digits follow a leading zero, after an optional sign, and nothing else does. -/
def isPaddedNumber (cs : List Char) : Bool :=
  let digits :=
    match cs with
    | '-' :: cs | '+' :: cs => cs
    | cs => cs
  digits.head? = some '0' && digits.length > 1 && digits.all Char.isDigit

/-- The number of a non-empty sequence of digits of a base. -/
def ofDigits? (base : Nat) (cs : List Char) : Option Nat :=
  if cs = [] then none
  else
    cs.foldlM (fun n c => do
      let d ← Json.hexDigit? c
      if d < base then some (base * n + d) else none) 0

/-- The number of an integer without sign, in the base that its beginning names. -/
def magnitude? (cs : List Char) : Option Nat :=
  match cs with
  | '0' :: 'x' :: digits => ofDigits? 16 digits
  | '0' :: 'o' :: digits => ofDigits? 8 digits
  | '0' :: 'b' :: digits => ofDigits? 2 digits
  | digits => ofDigits? 10 digits

/-- The integer that a text spells. -/
def int? (s : String) : Option Int :=
  if isPaddedNumber s.toList then none
  else
    match s.toList with
    | '-' :: cs => (magnitude? cs).map fun n => -Int.ofNat n
    | '+' :: cs => (magnitude? cs).map Int.ofNat
    | cs => (magnitude? cs).map Int.ofNat

/-- The least integer that a long numeral can stand for before it is read as a float,
`-2 ^ 127`. -/
def minWide : Int := -170141183460469231731687303715884105728

/-- The greatest integer that a long numeral can stand for before it is read as a float,
`2 ^ 128 - 1`. -/
def maxWide : Int := 340282366920938463463374607431768211455

/-- The exponent of a decimal fraction, zero where none is written. -/
def exponentOf? (cs : List Char) : Option Int :=
  match cs with
  | [] => some 0
  | 'e' :: '-' :: digits | 'E' :: '-' :: digits => (ofDigits? 10 digits).map fun n => -Int.ofNat n
  | 'e' :: '+' :: digits | 'E' :: '+' :: digits => (ofDigits? 10 digits).map Int.ofNat
  | 'e' :: digits | 'E' :: digits => (ofDigits? 10 digits).map Int.ofNat
  | _ => none

/-- The value of a decimal fraction without sign. Digits may be missing on one side of the
point. -/
def fraction? (negative : Bool) (cs : List Char) : Option Binary64 := do
  let whole := cs.takeWhile Char.isDigit
  let (places, cs) :=
    match cs.dropWhile Char.isDigit with
    | '.' :: cs => (cs.takeWhile Char.isDigit, cs.dropWhile Char.isDigit)
    | cs => ([], cs)
  let digits ← ofDigits? 10 (whole ++ places)
  let exponent ← exponentOf? cs
  Binary64.ofDecimal? negative digits (exponent - places.length)

/-- Whether a text spells an infinity or what is not a number. -/
def isNotFinite (s : String) : Bool :=
  s ∈ [".inf", ".Inf", ".INF", "+.inf", "+.Inf", "+.INF", "-.inf", "-.Inf", "-.INF",
    ".nan", ".NaN", ".NAN", "+.nan", "+.NaN", "+.NAN"]

/-- The float that a text spells. JSON has no value for one that is not finite but null. -/
def float? (s : String) : Option Json :=
  if isNotFinite s then some .null
  else
    match s.toList with
    | '-' :: cs => (fraction? true cs).map .float
    | '+' :: cs => (fraction? false cs).map .float
    | cs => (fraction? false cs).map .float

/-- The value of an integer, which has to fit. -/
def ofInt? (i : Int) : Option Json :=
  if Json.minInt64 ≤ i ∧ i ≤ Decimal.maxNat64 then some (.int i) else none

/-- The value of a plain scalar. There is none for an integer that does not fit. -/
def resolve? (s : String) : Option Json :=
  if isNull s then some .null
  else
    match bool? s with
    | some b => some (.bool b)
    | none =>
      match (int? s).filter fun i => minWide ≤ i ∧ i ≤ maxWide with
      | some i => ofInt? i
      | none =>
        if isPaddedNumber s.toList then some (.str s)
        else some ((float? s).getD (.str s))

/-- The value of a scalar with a tag, which the scalar has to spell. -/
def ofTag? (tag : Tag) (s : String) : Option Json :=
  match tag with
  | .null => if isNull s && s ≠ "" then some .null else none
  | .bool => (bool? s).map .bool
  | .int => (int? s).bind ofInt?
  | .float => float? s
  | .text => some (.str s)

end Scalar

end Reconcile.Yaml
