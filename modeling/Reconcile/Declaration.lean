import Reconcile.Block
import Reconcile.Failure

/-!
# What a configuration has to declare

The rules that every kind of object shares: the tree is an object, required blocks are there, and
integers fit the 32 bits that the API gives them.
-/

namespace Reconcile.Declaration

/-- The fields of a tree, which has to be an object. -/
def root (tree : Tree) : Except Failure Block :=
  match tree.obj? with
  | some block => .ok block
  | none => .error (.malformed .notObject)

/-- The first element of a nested block, which has to be there; `path` names it in the failure. -/
def requiredBlock (block : Block) (key path : String) : Except Failure Block :=
  match Block.child? block key with
  | some child => .ok child
  | none => .error (.malformed (.blockRequired path))

/-- The text of a field, which has to be there. -/
def requiredText (block : Block) (key path : String) : Except Failure String :=
  match Block.text? block key with
  | some s => .ok s
  | none => .error (.malformed (.fieldRequired path key))

/-- The integer of a field, which has to be there. -/
def requiredInt (block : Block) (key path : String) : Except Failure Int64 :=
  match Block.int? block key with
  | some i => .ok i
  | none => .error (.malformed (.fieldRequired path key))

/-- An integer that has to fit 32 bits. -/
def int32 (value : Int64) (path : String) : Except Failure Int32 :=
  if Json.minInt32 ≤ value.toInt ∧ value.toInt ≤ Json.maxInt32 then .ok (Int32.ofInt value.toInt)
  else .error (.malformed (.outOfRange path value.toInt))

/-- The integer of a field, which has to fit 32 bits, or a default where it is absent. -/
def int32D (block : Block) (key : String) (default : Int32) (path : String) :
    Except Failure Int32 :=
  match Block.int? block key with
  | some i => int32 i path
  | none => .ok default

/-- The integer of a field, if it is there, which has to fit 32 bits. -/
def int32? (block : Block) (key path : String) : Except Failure (Option Int32) :=
  match Block.int? block key with
  | some i => (int32 i path).map some
  | none => .ok none

/-- A list, if it is not empty. -/
def nonEmpty? {α : Type} (items : List α) : Option (List α) :=
  if items.isEmpty then none else some items

/-- What `expand` makes of the elements of a nested block, each of which it gives its path. -/
def children {α : Type} (block : Block) (key path : String)
    (expand : String → Block → Except Failure α) : Except Failure (List α) :=
  (Block.children block key).zipIdx.mapM fun (child, i) =>
    expand (path ++ "." ++ toString i) child

end Reconcile.Declaration
