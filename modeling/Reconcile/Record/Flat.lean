import Reconcile.Failure
import Reconcile.Record.Basic
import Reconcile.Schema.Basic

/-!
# Trees as attributes

`Schema.toAttributes` writes a tree as attributes and `Schema.ofAttributes` reads it back. A key is
the path of a value, such as `spec.0.replicas`. The key of a list or a block with `.#` after it
holds the number of its elements, and that of a map with `.%` after it the number of its entries.
Fields that the schema does not know are not written. A reader without a counter takes the greatest
index that it finds. Numbers of elements are machine words.
-/

namespace Reconcile.Schema

/-- The key of the counter of a list or a block. -/
def lengthKey (key : String) : String := key ++ ".#"

/-- The key of the counter of a map. -/
def sizeKey (key : String) : String := key ++ ".%"

/-- The key of an element or an entry. -/
def memberKey (key member : String) : String := key ++ "." ++ member

/-- What the keys within an element begin with. -/
def elementPrefix (key : String) (i : Nat) : String := memberKey key (toString i) ++ "."

/-- The attributes with one more, if there is a value for it. -/
def writeScalar (key : String) (value : Option String) (out : Attributes) : Attributes :=
  match value with
  | some s => out.insert key s
  | none => out

/-- The attributes with those of a list of texts. -/
def writeTextList (key : String) (items : List String) (out : Attributes) : Attributes :=
  items.zipIdx.foldl (fun out (s, i) => out.insert (memberKey key (toString i)) s)
    (out.insert (lengthKey key) (toString (Decimal.word items.length)))

/-- The attributes with those of a map; entries that are no texts are counted but not written. -/
def writeTextMap (key : String) (fields : Json.Fields) (out : Attributes) : Attributes :=
  fields.foldl (fun out (k, v) => writeScalar (memberKey key k) v.str? out)
    (out.insert (sizeKey key) (toString (Decimal.word fields.length)))

mutual

/-- The attributes with those of a block whose keys begin with `start`. -/
def write : Schema → String → Block → Attributes → Attributes
  | [], _, _, out => out
  | field :: fields, start, block, out =>
    write fields start block (writeField field start block out)

/-- The attributes with those of one field of a block. -/
def writeField : Field → String → Block → Attributes → Attributes
  | ⟨name, type, _, _⟩, start, block, out =>
    match block.lookup name with
    | some value => writeValue type (start ++ name) value out
    | none => out

/-- The attributes with those of a value; a value of another type than its field's is left out. -/
def writeValue : FieldType → String → Json → Attributes → Attributes
  | .text, key, value, out => writeScalar key value.str? out
  | .int, key, value, out => writeScalar key (value.int64?.map fun i => toString i.toInt) out
  | .bool, key, value, out => writeScalar key (value.bool?.map toString) out
  | .textList, key, value, out =>
    writeTextList key ((value.arr?.getD []).filterMap Json.str?) out
  | .textMap, key, value, out =>
    match value.obj? with
    | some fields => writeTextMap key fields out
    | none => out
  | .block fields _, key, value, out =>
    let elements := (value.arr?.getD []).filterMap Json.obj?
    elements.zipIdx.foldl (fun out (element, i) => write fields (elementPrefix key i) element out)
      (out.insert (lengthKey key) (toString (Decimal.word elements.length)))

end

/-- The attributes of a tree. -/
def toAttributes (schema : Schema) (tree : Tree) : Attributes :=
  match tree with
  | .obj block => schema.write "" block Dict.empty
  | _ => Dict.empty

/-- The failure of an attribute whose text is not of the type of its field. -/
def attributeType (key expected actual : String) : Failure :=
  .malformed (.attributeType key expected actual)

/-- The integer of an attribute. -/
def readInt (attributes : Attributes) (key : String) : Except Failure (Option Json) :=
  match attributes.get? key with
  | none => .ok none
  | some s =>
    match Decimal.intIn? Json.minInt64 Json.maxInt64 s with
    | some i => .ok (some (.int i))
    | none => .error (attributeType key "integer" s)

/-- The boolean of an attribute. -/
def readBool (attributes : Attributes) (key : String) : Except Failure (Option Json) :=
  match attributes.get? key with
  | none => .ok none
  | some s =>
    if s = "true" then .ok (some (.bool true))
    else if s = "false" then .ok (some (.bool false))
    else .error (attributeType key "boolean" s)

/-- One more than the greatest index among the keys below a key. -/
def inferredLength? (attributes : Attributes) (key : String) : Option Nat :=
  let indices := attributes.keys.filterMap fun k =>
    (Text.dropPrefix? (memberKey key "") k).bind fun rest =>
      (Text.split '.' rest).head?.bind Tree.index?
  indices.max?.map fun i => Decimal.word (i + 1)

/-- The number of elements of a list or a block, if it is there. -/
def readLength (attributes : Attributes) (key : String) : Except Failure (Option Nat) :=
  match attributes.get? (lengthKey key) with
  | some s =>
    match Decimal.natUpTo? Decimal.maxNat64 s with
    | some n => .ok (some n)
    | none => .error (attributeType (lengthKey key) "count" s)
  | none => .ok (inferredLength? attributes key)

/-- The texts of a list that is said to have `n` of them; a missing one is skipped. -/
def readTextList (attributes : Attributes) (key : String) (n : Nat) : Json :=
  .arr ((List.range n).filterMap fun i =>
    (attributes.get? (memberKey key (toString i))).map .str)

/-- The map below a key, if it is there. -/
def readTextMap (attributes : Attributes) (key : String) : Option Json :=
  let entries := attributes.entries.filterMap fun (k, v) =>
    ((Text.dropPrefix? (memberKey key "") k).filter (· ≠ "%")).map (·, v)
  if entries.isEmpty && !attributes.contains (sizeKey key) then none
  else some (Json.ofTexts (Dict.ofList entries))

mutual

/-- The block whose keys begin with `start`, on top of the fields already read. -/
def read : Schema → Attributes → String → Block → Except Failure Block
  | [], _, _, block => .ok block
  | ⟨name, type, _, _⟩ :: fields, attributes, start, block => do
    let value ← readValue type attributes (start ++ name)
    read fields attributes start (Block.put block name value)

/-- The value of a type below a key, if it is there. -/
def readValue : FieldType → Attributes → String → Except Failure (Option Json)
  | .text, attributes, key => .ok ((attributes.get? key).map .str)
  | .int, attributes, key => readInt attributes key
  | .bool, attributes, key => readBool attributes key
  | .textList, attributes, key => do
    let length ← readLength attributes key
    pure (length.map (readTextList attributes key))
  | .textMap, attributes, key => .ok (readTextMap attributes key)
  | .block fields _, attributes, key => do
    match ← readLength attributes key with
    | none => pure none
    | some n =>
      let blocks ← (List.range n).mapM fun i => read fields attributes (elementPrefix key i) []
      pure (some (.arr (blocks.map .obj)))

end

/-- The tree of attributes. -/
def ofAttributes (schema : Schema) (attributes : Attributes) : Except Failure Tree :=
  (schema.read attributes "" []).map .obj

end Reconcile.Schema
