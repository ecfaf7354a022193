import Reconcile.Kind
import Reconcile.Role.Declaration

/-!
# The kind of roles

A role has converged as soon as it can be read. It is deleted at once, and its dependents go in
their own time.
-/

namespace Reconcile.Role

/-- The paths of a role's tree that may change. -/
def mutablePaths : List MutablePath := Kind.metadataPaths ++ [.subtree ["policy_rule"] "/rules"]

/-- Roles. -/
def kind : Kind Role where
  name := "role"
  apiVersion := apiVersion
  collection := "roles"
  propagation := .background
  schema := schema
  upgrades := ⟨"role", []⟩
  mutablePaths := mutablePaths
  expand := expand
  flatten := flatten
  progress _ := none
  drain := none
  metadata := (·.metadata)
  withMetadata r m := { r with metadata := m }
  toJson := toJson
  ofJson? := ofJson?

end Reconcile.Role
