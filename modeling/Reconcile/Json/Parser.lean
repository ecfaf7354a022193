import Reconcile.Json.Basic
import Reconcile.Text.Decimal

/-!
# Reading JSON text

`Json.parseWritten?` reads one JSON value that fills the whole text but for blanks, with the fields
of objects as they are written, and `Json.parse?` puts them into the order of their keys; of two
fields of one key the later one counts. Integers beyond 64 bits and minus zero become numbers with
a fraction, a number too large for one is refused, and so are lone surrogates, raw control
characters in strings and more than 127 levels of nesting.

The readers of the parts take the characters that are left and return those that they leave. They
recurse on a bound for the number of steps, and `parseWritten?` gives one that no text exceeds.
-/

namespace Reconcile.Json

/-- Whether a character may stand between the tokens of a text. -/
def isBlank (c : Char) : Bool := c = ' ' || c = '\n' || c = '\t' || c = '\r'

/-- The characters after leading blanks. -/
def skipBlanks (cs : List Char) : List Char := cs.dropWhile isBlank

/-- The value of a hexadecimal digit. -/
def hexDigit? (c : Char) : Option Nat :=
  if c.isDigit then some (c.toNat - '0'.toNat)
  else if 'a' ≤ c ∧ c ≤ 'f' then some (c.toNat - 'a'.toNat + 10)
  else if 'A' ≤ c ∧ c ≤ 'F' then some (c.toNat - 'A'.toNat + 10)
  else none

/-- The number that four hexadecimal digits denote. -/
def hexUnit? : List Char → Option (Nat × List Char)
  | a :: b :: c :: d :: rest => do
    let a ← hexDigit? a
    let b ← hexDigit? b
    let c ← hexDigit? c
    let d ← hexDigit? d
    some (((a * 16 + b) * 16 + c) * 16 + d, rest)
  | _ => none

/-- The character that a code unit after a backslash and `u` denotes, alone or with the low
surrogate that follows it. -/
def unicodeEscape? (cs : List Char) : Option (Char × List Char) := do
  let (unit, rest) ← hexUnit? cs
  if 0xd800 ≤ unit ∧ unit < 0xdc00 then
    match rest with
    | '\\' :: 'u' :: rest =>
      let (low, rest) ← hexUnit? rest
      if 0xdc00 ≤ low ∧ low < 0xe000 then
        some (Char.ofNat (0x10000 + (unit - 0xd800) * 0x400 + (low - 0xdc00)), rest)
      else none
    | _ => none
  else if 0xdc00 ≤ unit ∧ unit < 0xe000 then none
  else some (Char.ofNat unit, rest)

/-- The character that an escape denotes, after its backslash. -/
def escape? : List Char → Option (Char × List Char)
  | '"' :: rest => some ('"', rest)
  | '\\' :: rest => some ('\\', rest)
  | '/' :: rest => some ('/', rest)
  | 'b' :: rest => some ('\x08', rest)
  | 'f' :: rest => some ('\x0c', rest)
  | 'n' :: rest => some ('\n', rest)
  | 'r' :: rest => some ('\r', rest)
  | 't' :: rest => some ('\t', rest)
  | 'u' :: rest => unicodeEscape? rest
  | _ => none

/-- The rest of a string after its opening quote; `read` holds the characters so far, the last
one first. -/
def stringRest? : Nat → List Char → List Char → Option (String × List Char)
  | 0, _, _ => none
  | _ + 1, _, [] => none
  | steps + 1, read, c :: cs =>
    if c = '"' then some (String.ofList read.reverse, cs)
    else if c = '\\' then
      match escape? cs with
      | some (e, rest) => stringRest? steps (e :: read) rest
      | none => none
    else if c.toNat < 0x20 then none
    else stringRest? steps (c :: read) cs

/-- The number that decimal digits denote. -/
def digitsValue (cs : List Char) : Nat :=
  cs.foldl (fun n c => 10 * n + (c.toNat - '0'.toNat)) 0

/-- The digits of an exponent with its sign, if one is there. -/
def exponent? : List Char → Option (Option Int × List Char)
  | e :: cs =>
    if e = 'e' ∨ e = 'E' then
      let (negative, cs) :=
        match cs with
        | '-' :: cs => (true, cs)
        | '+' :: cs => (false, cs)
        | cs => (false, cs)
      let digits := cs.takeWhile Char.isDigit
      if digits = [] then none
      else
        let n : Int := digitsValue digits
        some (some (if negative then -n else n), cs.dropWhile Char.isDigit)
    else some (none, e :: cs)
  | [] => some (none, [])

/-- The digits after a point, if one is there. -/
def fraction? : List Char → Option (Option (List Char) × List Char)
  | '.' :: cs =>
    let digits := cs.takeWhile Char.isDigit
    if digits = [] then none else some (some digits, cs.dropWhile Char.isDigit)
  | cs => some (none, cs)

/-- The value of an integer numeral. -/
def integer? (negative : Bool) (n : Nat) : Option Json :=
  if negative ∧ n = 0 then (Binary64.ofDecimal? true 0 0).map .float
  else
    let i : Int := if negative then -n else n
    if minInt64 ≤ i ∧ i ≤ Decimal.maxNat64 then some (.int i)
    else (Binary64.ofDecimal? negative n 0).map .float

/-- A number. -/
def number? (cs : List Char) : Option (Json × List Char) := do
  let (negative, cs) :=
    match cs with
    | '-' :: cs => (true, cs)
    | cs => (false, cs)
  let whole := cs.takeWhile Char.isDigit
  let cs := cs.dropWhile Char.isDigit
  if whole = [] ∨ (whole.head? = some '0' ∧ whole.length ≠ 1) then none
  let (fraction, cs) ← fraction? cs
  let (exponent, cs) ← exponent? cs
  match fraction, exponent with
  | none, none => (integer? negative (digitsValue whole)).map (·, cs)
  | _, _ =>
    let places := fraction.getD []
    let value ← Binary64.ofDecimal? negative (digitsValue (whole ++ places))
      (exponent.getD 0 - places.length)
    some (.float value, cs)

mutual

/-- A value with at most `depth` levels of nesting. -/
def value? : Nat → Nat → List Char → Option (Json × List Char)
  | 0, _, _ => none
  | steps + 1, depth, cs =>
    match skipBlanks cs with
    | 'n' :: 'u' :: 'l' :: 'l' :: rest => some (.null, rest)
    | 't' :: 'r' :: 'u' :: 'e' :: rest => some (.bool true, rest)
    | 'f' :: 'a' :: 'l' :: 's' :: 'e' :: rest => some (.bool false, rest)
    | '"' :: rest => (stringRest? (rest.length + 1) [] rest).map fun (s, rest) => (.str s, rest)
    | '[' :: rest =>
      match depth with
      | 0 => none
      | depth + 1 =>
        match skipBlanks rest with
        | ']' :: rest => some (.arr [], rest)
        | rest => (items? steps depth rest).map fun (items, rest) => (.arr items, rest)
    | '{' :: rest =>
      match depth with
      | 0 => none
      | depth + 1 =>
        match skipBlanks rest with
        | '}' :: rest => some (.obj [], rest)
        | rest => (fields? steps depth rest).map fun (fields, rest) => (.obj fields, rest)
    | rest => number? rest

/-- The items of an array up to its end, one at least. -/
def items? : Nat → Nat → List Char → Option (List Json × List Char)
  | 0, _, _ => none
  | steps + 1, depth, cs => do
    let (item, rest) ← value? steps depth cs
    match skipBlanks rest with
    | ',' :: rest => do
      let (items, rest) ← items? steps depth rest
      some (item :: items, rest)
    | ']' :: rest => some ([item], rest)
    | _ => none

/-- The fields of an object up to its end, one at least. -/
def fields? : Nat → Nat → List Char → Option (List (String × Json) × List Char)
  | 0, _, _ => none
  | steps + 1, depth, cs => do
    match skipBlanks cs with
    | '"' :: rest => do
      let (key, rest) ← stringRest? (rest.length + 1) [] rest
      match skipBlanks rest with
      | ':' :: rest => do
        let (value, rest) ← value? steps depth rest
        match skipBlanks rest with
        | ',' :: rest => do
          let (fields, rest) ← fields? steps depth rest
          some ((key, value) :: fields, rest)
        | '}' :: rest => some ([(key, value)], rest)
        | _ => none
      | _ => none
    | _ => none

end

/-- The greatest number of arrays and objects that may enclose each other. -/
def maxDepth : Nat := 127

/-- The value of a JSON text, with the fields of objects as they are written. -/
def parseWritten? (text : String) : Option Json := do
  let cs := text.toList
  let (value, rest) ← value? (2 * cs.length + 2) maxDepth cs
  if skipBlanks rest = [] then some value else none

/-- The value of a JSON text. -/
def parse? (text : String) : Option Json := (parseWritten? text).map ordered

end Reconcile.Json
