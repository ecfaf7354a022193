import Reconcile.Json.Basic

/-!
# JSON text

A value is printed without blanks by `Json.render`, the form of patch documents and stored
attributes, and with one item a line by `Json.renderIndented`, the form shown to people. Strings
escape the quote, the backslash and the control characters below the space; everything else is
written as it is.
-/

namespace Reconcile.Json

/-- The lower-case hexadecimal digits of a number, four at least. -/
def hex4 (n : Nat) : String :=
  let digits := Nat.toDigits 16 n
  String.ofList (List.replicate (4 - digits.length) '0' ++ digits)

/-- How one character of a string is written. -/
def escapeChar (c : Char) : String :=
  if c = '"' then "\\\""
  else if c = '\\' then "\\\\"
  else if c = '\n' then "\\n"
  else if c = '\r' then "\\r"
  else if c = '\t' then "\\t"
  else if c = '\x08' then "\\b"
  else if c = '\x0c' then "\\f"
  else if c.toNat < 0x20 then "\\u" ++ hex4 c.toNat
  else String.singleton c

/-- A string between quotes. -/
def quote (s : String) : String :=
  "\"" ++ String.join (s.toList.map escapeChar) ++ "\""

/-- Where a number with a fraction is written without an exponent: its point stands at most
`maxLeading` digits after the first digit, and at most `maxZeros` zeros follow the point before
the first digit. -/
structure FloatLayout where
  maxLeading : Int
  maxZeros : Int

/-- Numbers from `1e-5` up to `1e16` are written without an exponent. -/
def floatLayout : FloatLayout := ⟨16, 4⟩

/-- The text of the magnitude `digits * 10 ^ exponent`, which always shows that it is no integer
of its own: a point or an exponent is there. -/
def FloatLayout.render (layout : FloatLayout) (digits : Nat) (exponent : Int) : String :=
  let text := Nat.toDigits 10 digits
  let point := (text.length : Int) + exponent
  if 0 ≤ exponent ∧ point ≤ layout.maxLeading then
    String.ofList (text ++ List.replicate exponent.toNat '0') ++ ".0"
  else if 0 < point ∧ point ≤ layout.maxLeading then
    String.ofList (text.take point.toNat ++ '.' :: text.drop point.toNat)
  else if -layout.maxZeros ≤ point ∧ point ≤ 0 then
    String.ofList ('0' :: '.' :: List.replicate (-point).toNat '0' ++ text)
  else
    let mantissa :=
      match text with
      | [d] => [d]
      | d :: ds => d :: '.' :: ds
      | [] => []
    String.ofList mantissa ++ "e" ++ toString (point - 1)

/-- The text of a number with a fraction: the fewest digits that read back. -/
def floatText (x : Binary64) : String :=
  let (digits, exponent) := x.shortest
  (if x.isNegative then "-" else "") ++ floatLayout.render digits exponent

mutual

/-- The text of a value without blanks. -/
def render : Json → String
  | .null => "null"
  | .bool b => if b then "true" else "false"
  | .int i => toString i
  | .float x => floatText x
  | .str s => quote s
  | .arr items => "[" ++ renderItems items ++ "]"
  | .obj fields => "\x7b" ++ renderFields fields ++ "\x7d"

/-- The texts of values with commas between them. -/
def renderItems : List Json → String
  | [] => ""
  | [item] => render item
  | item :: items => render item ++ "," ++ renderItems items

/-- The texts of fields with commas between them. -/
def renderFields : List (String × Json) → String
  | [] => ""
  | [(key, value)] => quote key ++ ":" ++ render value
  | (key, value) :: fields => quote key ++ ":" ++ render value ++ "," ++ renderFields fields

end

/-- A new line with two blanks for each level of nesting. -/
def newLine (level : Nat) : String := "\n" ++ String.ofList (List.replicate (2 * level) ' ')

mutual

/-- The text of a value at a level of nesting, one item or field a line. -/
def renderAt (level : Nat) : Json → String
  | .arr [] => "[]"
  | .arr items => "[" ++ renderItemsAt (level + 1) items ++ newLine level ++ "]"
  | .obj [] => "\x7b\x7d"
  | .obj fields => "\x7b" ++ renderFieldsAt (level + 1) fields ++ newLine level ++ "\x7d"
  | .null => "null"
  | .bool b => if b then "true" else "false"
  | .int i => toString i
  | .float x => floatText x
  | .str s => quote s

/-- The lines of values, commas between them. -/
def renderItemsAt (level : Nat) : List Json → String
  | [] => ""
  | [item] => newLine level ++ renderAt level item
  | item :: items => newLine level ++ renderAt level item ++ "," ++ renderItemsAt level items

/-- The lines of fields, commas between them. -/
def renderFieldsAt (level : Nat) : List (String × Json) → String
  | [] => ""
  | [(key, value)] => newLine level ++ quote key ++ ": " ++ renderAt level value
  | (key, value) :: fields =>
    newLine level ++ quote key ++ ": " ++ renderAt level value ++ ","
      ++ renderFieldsAt level fields

end

/-- The text of a value, one item or field a line. -/
def renderIndented (value : Json) : String := renderAt 0 value

end Reconcile.Json
