import Reconcile.Json.Basic
import Reconcile.Text.Decimal
import Reconcile.Text.Split

/-!
# JSON pointers

A pointer is a sequence of tokens, each the key of a field or the index of an item. As text, every
token follows a slash, with `~0` for a tilde and `~1` for a slash. `resolve?` finds the value that
a pointer addresses and `update?` changes it in place. `unescape_escape` says that escaping loses
nothing and `slash_not_mem_escape` that an escaped token is one token.
-/

namespace Reconcile.Json.Pointer

/-- The characters of a token as a pointer text holds them. -/
def escapeChars : List Char → List Char
  | [] => []
  | c :: cs =>
    if c = '~' then '~' :: '0' :: escapeChars cs
    else if c = '/' then '~' :: '1' :: escapeChars cs
    else c :: escapeChars cs

/-- The characters of a token that a pointer text denotes. A tilde before any other character
stands for itself. -/
def unescapeChars : List Char → List Char
  | '~' :: '0' :: cs => '~' :: unescapeChars cs
  | '~' :: '1' :: cs => '/' :: unescapeChars cs
  | c :: cs => c :: unescapeChars cs
  | [] => []

/-- A token as a pointer text holds it. -/
def escape (token : String) : String := String.ofList (escapeChars token.toList)

/-- The token that a part of a pointer text denotes. -/
def unescape (part : String) : String := String.ofList (unescapeChars part.toList)

/-- The pointer text that leads one token further. -/
def child (pointer token : String) : String := pointer ++ "/" ++ escape token

/-- The tokens of a pointer text, which is empty or begins with a slash. -/
def tokens? (pointer : String) : Option (List String) :=
  match pointer.toList with
  | [] => some []
  | '/' :: cs => some ((Text.pieces '/' cs).map fun part => String.ofList (unescapeChars part))
  | _ => none

/-- The index that a token denotes: decimal digits without a sign or a needless zero. -/
def index? (token : String) : Option Nat :=
  match token.toList with
  | '+' :: _ => none
  | '0' :: _ :: _ => none
  | _ => Decimal.natUpTo? Decimal.maxNat64 token

/-- The value that tokens lead to. -/
def resolve? : List String → Json → Option Json
  | [], value => some value
  | token :: tokens, .obj fields => (fields.lookup token).bind (resolve? tokens)
  | token :: tokens, .arr items =>
    (index? token).bind fun i => items[i]?.bind (resolve? tokens)
  | _ :: _, _ => none

/-- The value in which `change` has been applied to the value that tokens lead to. -/
def update? (change : Json → Option Json) : List String → Json → Option Json
  | [], value => change value
  | token :: tokens, .obj fields => do
    let value ← fields.lookup token
    let changed ← update? change tokens value
    some (.obj (Entries.insert token changed fields))
  | token :: tokens, .arr items => do
    let i ← index? token
    let value ← items[i]?
    let changed ← update? change tokens value
    some (.arr (items.set i changed))
  | _ :: _, _ => none

/-- The value that a pointer text addresses. -/
def find? (pointer : String) (document : Json) : Option Json :=
  (tokens? pointer).bind fun tokens => resolve? tokens document

/-- Escaped characters have no slash among them. -/
theorem slash_not_mem_escapeChars (cs : List Char) : '/' ∉ escapeChars cs := by
  induction cs with
  | nil => simp [escapeChars]
  | cons c cs ih =>
    simp only [escapeChars]
    split
    · simp [ih]
    · split
      · simp [ih]
      · rename_i hne
        simp [ih, Ne.symm hne]

/-- Escaped characters are turned back into what they stand for. -/
theorem unescapeChars_escapeChars (cs : List Char) : unescapeChars (escapeChars cs) = cs := by
  induction cs with
  | nil => rfl
  | cons c cs ih =>
    simp only [escapeChars]
    split
    · rename_i heq
      simp [unescapeChars, ih, heq]
    · split
      · rename_i heq
        simp [unescapeChars, ih, heq]
      · rename_i hne _
        rw [unescapeChars.eq_def]
        split
        · rename_i heq
          simp only [List.cons.injEq] at heq
          exact absurd heq.1 hne
        · rename_i heq
          simp only [List.cons.injEq] at heq
          exact absurd heq.1 hne
        · rename_i heq
          simp only [List.cons.injEq] at heq
          rw [← heq.1, ← heq.2, ih]
        · rename_i heq
          simp at heq

/-- An escaped token has no slash in it. -/
theorem slash_not_mem_escape (token : String) : '/' ∉ (escape token).toList := by
  simp [escape, slash_not_mem_escapeChars]

/-- An escaped token is turned back into what it stands for. -/
theorem unescape_escape (token : String) : unescape (escape token) = token := by
  simp [escape, unescape, unescapeChars_escapeChars]

end Reconcile.Json.Pointer
