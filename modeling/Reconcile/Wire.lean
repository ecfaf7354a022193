import Reconcile.Block

/-!
# Typed objects as JSON

The API server speaks of objects in JSON. A typed object is read field by field: a field that is
absent or null has no value, a field of another type makes the whole object unreadable, and fields
that are not known are skipped. What is absent is not written.
-/

namespace Reconcile.Wire

/-- The value of a field, if it is there and not null. -/
def field? {α : Type} (decode : Json → Option α) (fields : Json.Fields) (key : String) :
    Option (Option α) :=
  match fields.lookup key with
  | none => some none
  | some .null => some none
  | some value => (decode value).map some

/-- The value of a field, or a default where it has none. -/
def fieldD {α : Type} (decode : Json → Option α) (default : α) (fields : Json.Fields)
    (key : String) : Option α :=
  (field? decode fields key).map (·.getD default)

/-- A field that, if it is there, holds the given text. -/
def constant? (fields : Json.Fields) (key text : String) : Option Unit :=
  match fields.lookup key with
  | none => some ()
  | some value => if value = .str text then some () else none

/-- The items of an array, each of which has to be readable. -/
def list? {α : Type} (decode : Json → Option α) (value : Json) : Option (List α) := do
  (← value.arr?).mapM decode

/-- The texts of an object, each of whose fields has to be a text. -/
def texts? (value : Json) : Option (Dict String) := do
  let entries ← (← value.obj?).mapM fun (k, v) => v.str?.map (k, ·)
  some (Dict.ofList entries)

/-- The object with those of the given fields that have a value. -/
def object (fields : List (String × Option Json)) : Json := .obj (Block.ofFields fields)

/-- The value of a text. -/
def text (value : Option String) : Option Json := value.map .str

/-- The value of a boolean. -/
def bool (value : Option Bool) : Option Json := value.map .bool

/-- The value of an integer of 32 bits. -/
def int32 (value : Option Int32) : Option Json := value.map fun i => .int i.toInt

/-- The value of an integer of 64 bits. -/
def int64 (value : Option Int64) : Option Json := value.map fun i => .int i.toInt

/-- The value of a map of texts. -/
def texts (value : Option (Dict String)) : Option Json := value.map Json.ofTexts

/-- The array of the values of items. -/
def array {α : Type} (encode : α → Json) (items : List α) : Json := .arr (items.map encode)

/-- The value of a list of texts. -/
def textList (value : Option (List String)) : Option Json := value.map (array .str)

end Reconcile.Wire
