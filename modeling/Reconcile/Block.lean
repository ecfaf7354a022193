import Reconcile.Json.Basic
import Reconcile.Text.Decimal
import Reconcile.Text.Split

/-!
# Configuration trees

A configuration tree is a JSON value, as a rule an object: a block of named fields. A nested block
is an array of objects, which holds at most one where the block is singular. The readers here see
only values of the kind that they look for, and an empty text counts as absent. The writers leave
out what is absent or empty, so that a block holds no field that says nothing.
-/

namespace Reconcile

/-- A configuration tree. -/
abbrev Tree := Json

/-- The fields of one block. -/
abbrev Block := Json.Fields

namespace Tree

/-- The index that a segment of a path denotes. -/
def index? (segment : String) : Option Nat := Decimal.natUpTo? Decimal.maxNat64 segment

/-- The value that the segments of a path lead to: keys of fields and indices of items. -/
def find? : List String → Tree → Option Tree
  | [], tree => some tree
  | segment :: path, .arr items => (index? segment).bind fun i => items[i]?.bind (find? path)
  | segment :: path, .obj fields => (fields.lookup segment).bind (find? path)
  | _ :: _, _ => none

/-- The segments of a path text, which are separated by points. -/
def path (text : String) : List String := Text.split '.' text

end Tree

namespace Block

/-- The first element of a nested block. -/
def child? (block : Block) (key : String) : Option Block := do
  let items ← (← block.lookup key).arr?
  (← items.head?).obj?

/-- The elements of a nested block. -/
def children (block : Block) (key : String) : List Block :=
  match (block.lookup key).bind Json.arr? with
  | some items => items.filterMap Json.obj?
  | none => []

/-- A text that is not empty. -/
def text? (block : Block) (key : String) : Option String :=
  ((block.lookup key).bind Json.str?).filter (· ≠ "")

/-- An integer of 64 bits. -/
def int? (block : Block) (key : String) : Option Int64 := (block.lookup key).bind Json.int64?

/-- A boolean. -/
def bool? (block : Block) (key : String) : Option Bool := (block.lookup key).bind Json.bool?

/-- The texts of an object, by their keys. -/
def texts (block : Block) (key : String) : Dict String :=
  match (block.lookup key).bind Json.obj? with
  | some fields => Json.texts fields
  | none => Dict.empty

/-- The texts of an array. -/
def textList (block : Block) (key : String) : List String :=
  match (block.lookup key).bind Json.arr? with
  | some items => items.filterMap Json.str?
  | none => []

/-- The value of an integer. -/
def ofInt? (value : Option Int) : Option Json := value.map .int

/-- The value of a text. -/
def ofText? (value : Option String) : Option Json := value.map .str

/-- The value of a boolean. -/
def ofBool? (value : Option Bool) : Option Json := value.map .bool

/-- The value of a singular block with the given fields. -/
def singular (block : Block) : Json := .arr [.obj block]

/-- The value of a map of texts, which an empty one does not have. -/
def ofTexts? (d : Dict String) : Option Json :=
  if d.isEmpty then none else some (Json.ofTexts d)

/-- The value of a list of texts, which an empty one does not have. -/
def ofTextList? (items : List String) : Option Json :=
  if items.isEmpty then none else some (.arr (items.map .str))

/-- The value of a repeated block, which one without elements does not have. -/
def ofChildren? (blocks : List Block) : Option Json :=
  if blocks.isEmpty then none else some (.arr (blocks.map .obj))

/-- The block with a field set, if there is a value to set it to. -/
def put (block : Block) (key : String) (value : Option Json) : Block :=
  match value with
  | some v => Entries.insert key v block
  | none => block

/-- The block of those of the given fields that have a value. -/
def ofFields (fields : List (String × Option Json)) : Block :=
  fields.foldl (fun block (key, value) => put block key value) []

end Block

/-- The first element of a nested block at the root of a tree. -/
def Tree.block? (tree : Tree) (key : String) : Option Block :=
  tree.obj?.bind (Block.child? · key)

namespace Block

/-- Putting a value under a key changes this key only, and nothing if there is no value. -/
theorem lookup_put (block : Block) (key k : String) (value : Option Json) :
    (put block key value).lookup k = if k = key then value <|> block.lookup k
      else block.lookup k := by
  cases value with
  | none => simp [put]
  | some v =>
    simp only [put, Entries.lookup_insert]
    split <;> simp

end Block

end Reconcile
