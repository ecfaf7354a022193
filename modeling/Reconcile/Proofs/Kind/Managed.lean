import Reconcile.Proofs.Deployment.Restored
import Reconcile.Proofs.Role.Restored

/-!
# The kinds that are managed

Deployments and roles are the kinds of objects that the library manages. Both are lawful and
observable, and show what is declared as it was declared.
-/

namespace Reconcile.Kind

variable {α : Type} {kind : Kind α} {root key : String}

/-- Deployments and roles, with the places of their content. -/
inductive Managed : {α : Type} → Kind α → String → String → Prop where
  | deployment : Managed Deployment.kind "spec" "spec"
  | role : Managed Role.kind "policy_rule" "rules"

/-- Both kinds are lawful. -/
theorem Managed.lawful (h : kind.Managed root key) : kind.Lawful root key := by
  cases h with
  | deployment => exact Deployment.lawful
  | role => exact Role.lawful

/-- The versions of a kind that is managed are numbers of 32 bits. -/
theorem Managed.steps_le (h : kind.Managed root key) :
    kind.upgrades.steps.length ≤ Record.maxVersion := by
  cases h with
  | deployment => decide
  | role => decide

/-- Objects of both kinds can be observed. -/
theorem Managed.observable (h : kind.Managed root key) : kind.Observable key := by
  cases h with
  | deployment => exact Deployment.observable
  | role => exact Role.observable

/-- Both kinds show what was declared explicitly as it was declared. -/
theorem Managed.restoring (h : kind.Managed root key) : kind.Restoring root key := by
  cases h with
  | deployment => exact Deployment.restoring
  | role => exact Role.restoring

end Reconcile.Kind
