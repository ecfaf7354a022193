import Reconcile.Block

/-!
# Schemas of configuration trees

A schema lists the fields of a block. Each field has a name, a type, a rule for who sets it, and
perhaps a default. A block type carries the schema of its elements.
-/

namespace Reconcile

/-- Who sets a field. -/
inductive Presence where
  /-- The user has to set the field. -/
  | required
  /-- The user may set the field. -/
  | optional
  /-- The user may set the field; otherwise it takes the observed value. -/
  | optionalComputed
  /-- Only the observed state sets the field. -/
  | computed
  deriving DecidableEq, Inhabited

/-- Whether an absent field takes the value that was there before. -/
def Presence.carries : Presence → Bool
  | .optionalComputed | .computed => true
  | .required | .optional => false

/-- The value of an absent field that is not carried over. -/
inductive Scalar where
  | int (value : Int)
  | bool (value : Bool)
  | text (value : String)
  deriving DecidableEq

/-- The value of a default in a tree. -/
def Scalar.toJson : Scalar → Json
  | .int i => .int i
  | .bool b => .bool b
  | .text s => .str s

/-- A field whose type is described by `τ`. -/
structure FieldOf (τ : Type) where
  name : String
  type : τ
  presence : Presence
  default : Option Scalar
  deriving Inhabited

/-- The type of a field's value. -/
inductive FieldType where
  | text
  | int
  | bool
  | textList
  | textMap
  | block (fields : List (FieldOf FieldType)) (singular : Bool)
  deriving Inhabited

/-- A field of a block. -/
abbrev Field := FieldOf FieldType

/-- The fields of a block. -/
abbrev Schema := List Field

namespace Field

/-- A field that holds a text. -/
def text (name : String) (presence : Presence) : Field := ⟨name, .text, presence, none⟩

/-- A field that holds an integer. -/
def int (name : String) (presence : Presence) : Field := ⟨name, .int, presence, none⟩

/-- A field that holds a boolean. -/
def bool (name : String) (presence : Presence) : Field := ⟨name, .bool, presence, none⟩

/-- A field that holds a list of texts. -/
def textList (name : String) (presence : Presence) : Field := ⟨name, .textList, presence, none⟩

/-- A field that holds texts by their keys. -/
def textMap (name : String) (presence : Presence) : Field := ⟨name, .textMap, presence, none⟩

/-- A field that holds one block. -/
def single (name : String) (fields : Schema) (presence : Presence) : Field :=
  ⟨name, .block fields true, presence, none⟩

/-- A field that holds any number of blocks. -/
def repeated (name : String) (fields : Schema) (presence : Presence) : Field :=
  ⟨name, .block fields false, presence, none⟩

/-- The field with a default. -/
def withDefault (field : Field) (value : Scalar) : Field := { field with default := some value }

end Field

end Reconcile
