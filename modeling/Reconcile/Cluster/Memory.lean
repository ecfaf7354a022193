import Reconcile.Cluster.Api
import Reconcile.Identity

/-!
# A cluster in memory

`Memory.api` is a control API over objects that are held in memory. It names and numbers objects
as a server does, applies patch documents, records the calls that it gets, and fails those that it
has been told to. A reaction may change an object each time it is read, as a controller in the
cluster would.
-/

namespace Reconcile

/-- What happens to an object each time it is read. -/
inductive Reaction (α : Type) where
  /-- Nothing. -/
  | still
  /-- The same change every time. -/
  | always (change : α → α)
  /-- One change after another, and nothing once they are used up. -/
  | script (changes : List (α → α))

/-- The object after a reaction, and the reaction that is left. -/
def Reaction.apply {α : Type} (reaction : Reaction α) (object : α) : α × Reaction α :=
  match reaction with
  | .still => (object, .still)
  | .always change => (change object, .always change)
  | .script [] => (object, .script [])
  | .script (change :: changes) => (change object, .script changes)

/-- A cluster in memory. -/
structure Memory (α : Type) where
  /-- The objects by namespace and name. -/
  objects : List ((String × String) × α) := []
  /-- The calls so far, the last one first. -/
  calls : List Call := []
  /-- The failures of calls that do not succeed any more. -/
  failures : List (CallKind × Failure) := []
  /-- The last number that was given to a version of an object. -/
  serial : Nat := 0
  reaction : Reaction α := .still

namespace Memory

variable {α : Type}

/-- The object of a namespace and a name. -/
def find? (m : Memory α) (ns name : String) : Option α := m.objects.lookup (ns, name)

/-- The cluster with an object in its place. -/
def insert (m : Memory α) (ns name : String) (object : α) : Memory α :=
  { m with objects := ((ns, name), object) :: m.objects.filter (·.1 ≠ (ns, name)) }

/-- The cluster without an object. -/
def erase (m : Memory α) (ns name : String) : Memory α :=
  { m with objects := m.objects.filter (·.1 ≠ (ns, name)) }

/-- The cluster with one more call on record. -/
def record (m : Memory α) (call : Call) : Memory α := { m with calls := call :: m.calls }

/-- The failure of a kind of call that does not succeed any more. -/
def failure? (m : Memory α) (call : CallKind) : Option Failure := m.failures.lookup call

/-- The cluster with calls of one kind failing, unless they already do. -/
def failing (m : Memory α) (call : CallKind) (failure : Failure) : Memory α :=
  { m with failures := m.failures ++ [(call, failure)] }

/-- The cluster with the next number given away. -/
def advance (m : Memory α) : Memory α := { m with serial := m.serial + 1 }

/-- The failure of a call for an object that is not there. -/
def absent (kind : Kind α) (ns name : String) : Failure :=
  .notFound kind.name (Identity.join ns name)

/-- The name of a new object: the requested one, or the beginning of one with a number. -/
def nameFor (requested : String) (generateName : Option String) (serial : Nat) : String :=
  match requested.isEmpty, generateName with
  | true, some start => start ++ toString serial
  | _, _ => requested

/-- Create an object in a namespace. -/
def create (kind : Kind α) (ns : String) (object : α) (m : Memory α) :
    Except Failure α × Memory α :=
  let metadata := kind.metadata object
  let requested := metadata.name.getD ""
  let m := m.record (.create ns requested)
  match m.failure? .create with
  | some failure => (.error failure, m)
  | none =>
    let m := m.advance
    let name := nameFor requested metadata.generateName m.serial
    if (m.find? ns name).isSome then
      (.error (.callFailed .create kind.name (.alreadyExists (Identity.join ns name))), m)
    else
      let created := kind.withMetadata object { metadata with
        name := some name
        ns := some ns
        uid := some ("mock-uid-" ++ toString m.serial)
        resourceVersion := some (toString m.serial)
        generation := some 1 }
      (.ok created, m.insert ns name created)

/-- Read an object, to which the cluster may have reacted. -/
def get (kind : Kind α) (ns name : String) (m : Memory α) : Except Failure α × Memory α :=
  let m := m.record (.get ns name)
  match m.failure? .get with
  | some failure => (.error failure, m)
  | none =>
    match m.find? ns name with
    | none => (.error (absent kind ns name), m)
    | some object =>
      let (changed, reaction) := m.reaction.apply object
      (.ok changed, { m.insert ns name changed with reaction := reaction })

/-- The object that a patch document makes of an object. -/
def patched (kind : Kind α) (object : α) (document : Json) : Except Failure α := do
  let operations ←
    match Json.Operation.listOfJson? document with
    | some operations => pure operations
    | none => throw (.unmarshalable "not a patch document")
  let changed ←
    match Json.Operation.applyAll operations (kind.toJson object) with
    | .ok changed => pure changed
    | .error failure => throw (.callFailed .patch kind.name (.patchRejected failure))
  match kind.ofJson? changed with
  | some object => pure object
  | none => throw (.unmarshalable ("not a " ++ kind.name))

/-- Change an object by a patch document, by all of its operations or by none. -/
def patch (kind : Kind α) (ns name : String) (document : Json) (m : Memory α) :
    Except Failure α × Memory α :=
  let m := m.record (.patch ns name document)
  match m.failure? .patch with
  | some failure => (.error failure, m)
  | none =>
    match m.find? ns name with
    | none => (.error (absent kind ns name), m)
    | some object =>
      match patched kind object document with
      | .error failure => (.error failure, m)
      | .ok changed =>
        let m := m.advance
        let metadata := kind.metadata changed
        let stored := kind.withMetadata changed { metadata with
          generation := some (metadata.generation.getD 0 + 1)
          resourceVersion := some (toString m.serial) }
        (.ok stored, m.insert ns name stored)

/-- Delete an object. -/
def delete (kind : Kind α) (ns name : String) (propagation : Propagation) (m : Memory α) :
    Except Failure Unit × Memory α :=
  let m := m.record (.delete ns name propagation)
  match m.failure? .delete with
  | some failure => (.error failure, m)
  | none =>
    match m.find? ns name with
    | none => (.error (absent kind ns name), m)
    | some _ => (.ok (), m.erase ns name)

/-- The control API of a cluster in memory. -/
def api (kind : Kind α) : ControlApi α (Memory α) where
  create := create kind
  get := get kind
  patch := patch kind
  delete := delete kind

end Memory

end Reconcile
