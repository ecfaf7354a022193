import Reconcile.Json.Pointer
import Reconcile.Json.Printer

/-!
# Edits of a JSON document

An edit adds, replaces or removes the value that a pointer addresses. It travels as an object with
the fields `op`, `path` and, unless it removes, `value`. `Edit.perform?` carries it out as JSON
Patch prescribes: a value can be added only where its parent is there, and replaced or removed
only where it is there itself. `ofJson?_toJson` says that the wire form loses nothing.
-/

namespace Reconcile.Json

/-- One change of a document at the place that the pointer text `path` addresses. -/
inductive Edit where
  | add (path : String) (value : Json)
  | replace (path : String) (value : Json)
  | remove (path : String)
  deriving DecidableEq, Inhabited

namespace Edit

/-- The pointer text of the place that an edit changes. -/
def path : Edit → String
  | .add path _ => path
  | .replace path _ => path
  | .remove path => path

/-- The wire form of an edit. -/
def toJson : Edit → Json
  | .add path value => .obj [("op", .str "add"), ("path", .str path), ("value", value)]
  | .replace path value => .obj [("op", .str "replace"), ("path", .str path), ("value", value)]
  | .remove path => .obj [("op", .str "remove"), ("path", .str path)]

/-- The edit of a wire form; fields that it does not need are ignored. -/
def ofFields? (fields : Fields) : Option Edit := do
  let op ← (← fields.lookup "op").str?
  let path ← (← fields.lookup "path").str?
  if op = "remove" then some (.remove path)
  else
    let value ← fields.lookup "value"
    if op = "add" then some (.add path value)
    else if op = "replace" then some (.replace path value)
    else none

@[inherit_doc ofFields?]
def ofJson? (value : Json) : Option Edit := value.obj?.bind ofFields?

/-- The edits of an array of wire forms. -/
def listOfJson? (value : Json) : Option (List Edit) := do
  (← value.arr?).mapM ofJson?

/-- The array of the wire forms of edits. -/
def listToJson (edits : List Edit) : Json := .arr (edits.map toJson)

/-- The text of a patch document that holds edits. -/
def document (edits : List Edit) : String := (listToJson edits).render

/-- A container with `value` at the place that a token names in it. An array takes the value in
front of the item with the index, or at its end for the index after its last and for a dash. -/
def addMember? (token : String) (value : Json) : Json → Option Json
  | .obj fields => some (.obj (Entries.insert token value fields))
  | .arr items =>
    if token = "-" then some (.arr (items ++ [value]))
    else
      ((Pointer.index? token).filter (· ≤ items.length)).map fun i =>
        .arr (items.insertIdx i value)
  | _ => none

/-- A container without the value at the place that a token names in it. -/
def removeMember? (token : String) : Json → Option Json
  | .obj fields =>
    (fields.lookup token).map fun _ => .obj (Entries.erase token fields)
  | .arr items =>
    ((Pointer.index? token).filter (· < items.length)).map fun i => .arr (items.eraseIdx i)
  | _ => none

/-- The document with a value added. -/
def addAt? (tokens : List String) (value document : Json) : Option Json :=
  match tokens.getLast? with
  | none => some value
  | some token => Pointer.update? (addMember? token value) tokens.dropLast document

/-- The document with a value removed, which cannot be the whole document. -/
def removeAt? (tokens : List String) (document : Json) : Option Json :=
  match tokens.getLast? with
  | none => none
  | some token => Pointer.update? (removeMember? token) tokens.dropLast document

/-- The document with a value replaced. -/
def replaceAt? (tokens : List String) (value document : Json) : Option Json :=
  Pointer.update? (fun _ => some value) tokens document

/-- The document that an edit makes of a document, if the edit can be carried out. -/
def perform? (edit : Edit) (document : Json) : Option Json := do
  let tokens ← Pointer.tokens? edit.path
  match edit with
  | .add _ value => addAt? tokens value document
  | .replace _ value => replaceAt? tokens value document
  | .remove _ => removeAt? tokens document

/-- The document that edits make of a document one after another. -/
def performAll? (edits : List Edit) (document : Json) : Option Json :=
  edits.foldlM (fun doc edit => edit.perform? doc) document

/-- An edit is read from its JSON form. -/
theorem ofJson?_toJson (edit : Edit) : ofJson? edit.toJson = some edit := by
  cases edit <;> simp [toJson, ofJson?, ofFields?, obj?, str?, List.lookup_cons]

end Edit

end Reconcile.Json
