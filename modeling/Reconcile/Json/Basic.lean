import Reconcile.Dict.Basic
import Reconcile.Json.Binary64

/-!
# JSON values

A JSON value distinguishes integers from numbers with a fraction, and lists the fields of an
object in ascending order of their keys. `Json.Ordered` says that this holds at every level; the
reader and every operation of the library keep it. Fields are read with `List.lookup` and written
with `Entries.insert`.
-/

namespace Reconcile

/-- A JSON value. An integer lies between `-2 ^ 63` and `2 ^ 64 - 1`; any other number is a
binary64 value. -/
inductive Json where
  | null
  | bool (value : Bool)
  | int (value : Int)
  | float (value : Binary64)
  | str (value : String)
  | arr (items : List Json)
  | obj (fields : List (String × Json))
  deriving Inhabited

namespace Json

/-- The fields of an object. -/
abbrev Fields := List (String × Json)

mutual

/-- Whether two values are the same. -/
def same : Json → Json → Bool
  | .null, .null => true
  | .bool a, .bool b => a == b
  | .int a, .int b => a == b
  | .float a, .float b => a == b
  | .str a, .str b => a == b
  | .arr a, .arr b => sameItems a b
  | .obj a, .obj b => sameFields a b
  | _, _ => false

/-- Whether two lists hold the same values in the same order. -/
def sameItems : List Json → List Json → Bool
  | [], [] => true
  | a :: as, b :: bs => same a b && sameItems as bs
  | _, _ => false

/-- Whether two objects hold the same fields in the same order. -/
def sameFields : List (String × Json) → List (String × Json) → Bool
  | [], [] => true
  | (k, a) :: as, (l, b) :: bs => k == l && same a b && sameFields as bs
  | _, _ => false

end

mutual

/-- The test for sameness decides equality. -/
theorem same_iff : ∀ a b : Json, same a b = true ↔ a = b
  | a, b => by
    cases a <;> cases b <;> simp [same]
    case arr.arr as bs => exact sameItems_iff as bs
    case obj.obj as bs => exact sameFields_iff as bs

theorem sameItems_iff : ∀ as bs : List Json, sameItems as bs = true ↔ as = bs
  | [], [] => by simp [sameItems]
  | [], _ :: _ => by simp [sameItems]
  | _ :: _, [] => by simp [sameItems]
  | a :: as, b :: bs => by simp [sameItems, same_iff a b, sameItems_iff as bs]

theorem sameFields_iff : ∀ as bs : List (String × Json), sameFields as bs = true ↔ as = bs
  | [], [] => by simp [sameFields]
  | [], _ :: _ => by simp [sameFields]
  | _ :: _, [] => by simp [sameFields]
  | (k, a) :: as, (l, b) :: bs => by
    simp [sameFields, same_iff a b, sameFields_iff as bs, and_assoc]

end

instance : DecidableEq Json := fun a b => decidable_of_iff _ (same_iff a b)

mutual

/-- The keys of every object ascend. -/
def Ordered : Json → Prop
  | .arr items => OrderedItems items
  | .obj fields => Entries.Ascending fields ∧ OrderedFields fields
  | _ => True

/-- Every value of a list is ordered. -/
def OrderedItems : List Json → Prop
  | [] => True
  | item :: items => Ordered item ∧ OrderedItems items

/-- Every value of an object is ordered. -/
def OrderedFields : List (String × Json) → Prop
  | [] => True
  | (_, value) :: fields => Ordered value ∧ OrderedFields fields

end

/-- The least and the greatest integer of 64 bits with a sign, `-2 ^ 63` and `2 ^ 63 - 1`. -/
def minInt64 : Int := -9223372036854775808

@[inherit_doc minInt64]
def maxInt64 : Int := 9223372036854775807

/-- The least and the greatest integer of 32 bits with a sign, `-2 ^ 31` and `2 ^ 31 - 1`. -/
def minInt32 : Int := -2147483648

@[inherit_doc minInt32]
def maxInt32 : Int := 2147483647

/-- The fields of an object. -/
def obj? : Json → Option Fields
  | .obj fields => some fields
  | _ => none

/-- The items of an array. -/
def arr? : Json → Option (List Json)
  | .arr items => some items
  | _ => none

/-- The text of a string. -/
def str? : Json → Option String
  | .str s => some s
  | _ => none

/-- The value of a boolean. -/
def bool? : Json → Option Bool
  | .bool b => some b
  | _ => none

/-- The value of an integer that has 64 bits with a sign. -/
def int64? : Json → Option Int64
  | .int i => if minInt64 ≤ i ∧ i ≤ maxInt64 then some (Int64.ofInt i) else none
  | _ => none

/-- The value of an integer that has 32 bits with a sign. -/
def int32? : Json → Option Int32
  | .int i => if minInt32 ≤ i ∧ i ≤ maxInt32 then some (Int32.ofInt i) else none
  | _ => none

/-- The object that binds each text of a dictionary to a string. -/
def ofTexts (d : Dict String) : Json := .obj (d.entries.map fun (k, v) => (k, .str v))

/-- The bindings of an object whose values are strings. -/
def texts (fields : Fields) : Dict String :=
  Dict.ofList (fields.filterMap fun (k, v) => v.str?.map (k, ·))

mutual

/-- The value with the fields of every object in the order of their keys; of two fields of one key
the later one counts. -/
def ordered : Json → Json
  | .arr items => .arr (orderedItems items)
  | .obj fields => .obj (Dict.ofList (orderedFields fields)).entries
  | other => other

/-- The values of a list, each with its fields in order. -/
def orderedItems : List Json → List Json
  | [] => []
  | item :: items => ordered item :: orderedItems items

/-- The fields of an object, each value with its fields in order. -/
def orderedFields : List (String × Json) → List (String × Json)
  | [] => []
  | (key, value) :: fields => (key, ordered value) :: orderedFields fields

end

end Json

end Reconcile
