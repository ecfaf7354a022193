import Reconcile.Cluster.Memory
import Reconcile.Deployment.Declaration

/-!
# How deployments roll out

Two reactions of a cluster to the reading of a deployment: the number of its pods moves one step
towards the desired one, or its status is replaced by the next one of a script.
-/

namespace Reconcile.Deployment

/-- The number one step from `current` towards `desired`. -/
def stepTowards (current desired : Int) : Int := current + (desired - current).sign

/-- The deployment with its pods one step nearer to the desired number. -/
def rollStep (d : Deployment) : Deployment :=
  let desired := ((d.spec.bind (·.replicas)).getD DeploymentSpec.defaultReplicas).toInt
  let status := d.status.getD {}
  let next := Int32.ofInt (stepTowards (status.replicas.getD 0).toInt desired)
  { d with status := some { status with
      replicas := some next
      readyReplicas := some next
      updatedReplicas := some next
      availableReplicas := some next } }

/-- The reaction of a cluster that rolls deployments out. -/
def rolling : Reaction Deployment := .always rollStep

/-- The reaction of a cluster that shows one status after another; a missing one leaves the status
as it is. -/
def scripted (statuses : List (Option DeploymentStatus)) : Reaction Deployment :=
  .script (statuses.map fun status d =>
    match status with
    | some s => { d with status := some s }
    | none => d)

end Reconcile.Deployment
