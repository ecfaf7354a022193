import Reconcile.Identity
import Reconcile.Kind
import Reconcile.Record.Flat

/-!
# Managed objects

What is known of a managed object is its identity, once it has been created, and its configuration
tree. `Resource.load` reads both from a stored record of any version and `Resource.store` writes
them under the latest one.
-/

namespace Reconcile

/-- A configuration tree with the identity of the object that was created from it. -/
structure Resource where
  /-- Absent until the object has been created, and again once it has been deleted. -/
  id : Option Identity
  config : Tree
  deriving DecidableEq

namespace Resource

/-- An object that has not been created. -/
def ofConfig (config : Tree) : Resource := ⟨none, config⟩

/-- The identity, which has to be there. -/
def identity (resource : Resource) : Except Failure Identity :=
  match resource.id with
  | some id => .ok id
  | none => .error (.invalidIdentity "")

variable {α : Type}

/-- The object of a stored record. -/
def load (kind : Kind α) (record : Record) : Except Failure Resource := do
  let upgraded ← kind.upgrades.upgradeRecord record
  let id ← Identity.ofStored upgraded.id
  let config ← Schema.ofAttributes kind.schema upgraded.attributes
  pure ⟨id, config⟩

/-- The record of an object. -/
def store (kind : Kind α) (resource : Resource) : Record where
  id := (resource.id.map Identity.text).getD ""
  version := kind.upgrades.latest
  attributes := Schema.toAttributes kind.schema resource.config

end Resource

end Reconcile
