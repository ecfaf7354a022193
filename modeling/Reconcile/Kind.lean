import Reconcile.Change
import Reconcile.Metadata.Object
import Reconcile.Record.Upgrade
import Reconcile.Schema.Normal

/-!
# Kinds of objects

A `Kind α` gathers what the operations need to know of objects of type `α`: the schema of their
trees, how a tree becomes an object and an object a tree, what may change, when an object has
converged, and how it is deleted.
-/

namespace Reconcile

/-- When the dependents of a deleted object go. -/
inductive Propagation where
  /-- The dependents go first. -/
  | foreground
  /-- The dependents go in their own time. -/
  | background
  deriving DecidableEq, Inhabited

/-- The name of a propagation in the API. -/
def Propagation.name : Propagation → String
  | .foreground => "Foreground"
  | .background => "Background"

/-- What the operations need to know of objects of type `α`. -/
structure Kind (α : Type) where
  /-- The name of the kind in messages and records. -/
  name : String
  /-- The version of the API that the kind belongs to. -/
  apiVersion : String
  /-- The name of the kind in the paths of the API. -/
  collection : String
  /-- When the dependents of a deleted object go. -/
  propagation : Propagation
  /-- The schema of the kind's trees. -/
  schema : Schema
  /-- The upgrades of the kind's records. -/
  upgrades : Upgrades
  /-- The paths of a tree that may change. -/
  mutablePaths : List MutablePath
  /-- The object that a tree declares. -/
  expand : Tree → Except Failure α
  /-- The tree of an observed object, with a prior tree to merge and filter against. -/
  flatten : α → Tree → Tree
  /-- The progress of an object; one that has none has converged once it can be read. -/
  progress : α → Option Progress
  /-- The edits that empty an object before it is deleted. -/
  drain : Option (List Json.Edit)
  /-- The metadata of an object. -/
  metadata : α → ObjectMeta
  /-- The object with other metadata. -/
  withMetadata : α → ObjectMeta → α
  /-- The wire form of an object. -/
  toJson : α → Json
  /-- The object of a wire form. -/
  ofJson? : Json → Option α

namespace Kind

variable {α : Type}

/-- The progress that a wait for an object measures. -/
def measure (kind : Kind α) (object : α) : Progress := (kind.progress object).getD ⟨0, 0⟩

/-- The edits from one tree to another whose gaps have been filled. The new tree is expanded
first, so a malformed one fails whatever has changed. -/
def edits (kind : Kind α) (old desired : Tree) : Except Failure (List Json.Edit) := do
  let object ← kind.expand desired
  Change.between old desired kind.mutablePaths (.ok (kind.toJson object))

/-- The edits that an update from one tree to another submits. -/
def plan (kind : Kind α) (old new : Tree) : Except Failure (List Json.Edit) :=
  kind.edits old (Schema.normalize kind.schema (some old) new)

/-- The paths of metadata that may change for objects of every kind. -/
def metadataPaths : List MutablePath :=
  [.textMap ["metadata", "0", "labels"] "/metadata/labels",
   .textMap ["metadata", "0", "annotations"] "/metadata/annotations"]

end Kind

end Reconcile
