import Reconcile.Text.Printable

/-!
# Quoted text in messages

A message shows a text of unknown content between double quotes. The quote, the backslash and a
few control characters get a short escape, every other character that is not printable is written
by its hexadecimal code point in braces, and printable characters stand for themselves.
-/

namespace Reconcile.Text

/-- How a quoted text shows one character. -/
def showChar (c : Char) : String :=
  if c = '"' then "\\\""
  else if c = '\\' then "\\\\"
  else if c = '\n' then "\\n"
  else if c = '\t' then "\\t"
  else if c = '\r' then "\\r"
  else if c = '\x00' then "\\0"
  else if isPrintable c then String.singleton c
  else "\\u\x7b" ++ String.ofList (Nat.toDigits 16 c.toNat) ++ "\x7d"

/-- A text between quotes, as messages show it. -/
def quoted (s : String) : String :=
  "\"" ++ String.join (s.toList.map showChar) ++ "\""

end Reconcile.Text
