import Reconcile.Json.Edit

/-!
# JSON Patch documents

A patch document is an array of operations: edits, moves, copies and tests. `Patch.apply` carries
them out in order and reports the first one that fails, with its position and its path; a
document is changed by all operations or by none.
-/

namespace Reconcile.Json

/-- One operation of a patch document. -/
inductive Operation where
  | edit (edit : Edit)
  | move (source path : String)
  | copy (source path : String)
  | test (path : String) (value : Json)
  deriving DecidableEq, Inhabited

/-- Why an operation cannot be carried out. -/
inductive PatchFault where
  | invalidPath
  | invalidSource
  | insideItself
  | testFailed
  deriving DecidableEq

/-- The first operation of a patch document that cannot be carried out. -/
structure PatchFailure where
  position : Nat
  path : String
  fault : PatchFault
  deriving DecidableEq

/-- The wording of a fault. -/
def PatchFault.message : PatchFault → String
  | .invalidPath => "path is invalid"
  | .invalidSource => "\"from\" path is invalid"
  | .insideItself => "cannot move the value inside itself"
  | .testFailed => "value did not match"

/-- The wording of a failure. -/
def PatchFailure.message (failure : PatchFailure) : String :=
  "Operation '/" ++ toString failure.position ++ "' failed at path '" ++ failure.path ++ "': "
    ++ failure.fault.message

namespace Operation

/-- The pointer text of the place that an operation changes or tests. -/
def path : Operation → String
  | .edit e => e.path
  | .move _ path => path
  | .copy _ path => path
  | .test path _ => path

/-- The wire form of an operation. -/
def toJson : Operation → Json
  | .edit e => e.toJson
  | .move source path =>
    .obj [("from", .str source), ("op", .str "move"), ("path", .str path)]
  | .copy source path =>
    .obj [("from", .str source), ("op", .str "copy"), ("path", .str path)]
  | .test path value => .obj [("op", .str "test"), ("path", .str path), ("value", value)]

/-- The operation of a wire form; fields that it does not need are ignored. -/
def ofFields? (fields : Fields) : Option Operation := do
  let op ← (← fields.lookup "op").str?
  let path ← (← fields.lookup "path").str?
  if op = "move" then some (.move (← (← fields.lookup "from").str?) path)
  else if op = "copy" then some (.copy (← (← fields.lookup "from").str?) path)
  else if op = "test" then some (.test path (← fields.lookup "value"))
  else (Edit.ofFields? fields).map .edit

/-- The operations of an array of wire forms. -/
def listOfJson? (value : Json) : Option (List Operation) := do
  (← value.arr?).mapM fun item => item.obj?.bind ofFields?

/-- The value that a pointer text addresses, which must be there. -/
def read (fault : PatchFault) (pointer : String) (document : Json) : Except PatchFault Json :=
  match Pointer.find? pointer document with
  | some value => .ok value
  | none => .error fault

/-- An edit, whose only fault is its path. -/
def edited (e : Edit) (document : Json) : Except PatchFault Json :=
  match e.perform? document with
  | some changed => .ok changed
  | none => .error .invalidPath

/-- The document that an operation makes of a document. -/
def apply (operation : Operation) (document : Json) : Except PatchFault Json :=
  match operation with
  | .edit e => edited e document
  | .move source path => do
    if (Text.dropPrefix? (source ++ "/") path).isSome then throw .insideItself
    let value ← read .invalidSource source document
    match Edit.perform? (.remove source) document with
    | some rest => edited (.add path value) rest
    | none => .error .invalidSource
  | .copy source path => do
    let value ← read .invalidSource source document
    edited (.add path value) document
  | .test path value => do
    if (← read .invalidPath path document) = value then pure document else throw .testFailed

/-- The document that operations make of a document, the first of them having a position. -/
def applyFrom (position : Nat) : List Operation → Json → Except PatchFailure Json
  | [], document => .ok document
  | operation :: rest, document =>
    match operation.apply document with
    | .ok changed => applyFrom (position + 1) rest changed
    | .error fault => .error ⟨position, operation.path, fault⟩

/-- The document that the operations of a patch make of a document. -/
def applyAll (operations : List Operation) (document : Json) : Except PatchFailure Json :=
  applyFrom 0 operations document

end Operation

end Reconcile.Json
