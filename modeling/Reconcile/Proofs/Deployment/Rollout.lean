import Mathlib.Data.List.Basic
import Reconcile.Deployment.Rollout
import Reconcile.Proofs.Deployment.Observable
import Reconcile.Proofs.Kind.Holding

/-!
# Reactions to the reading of a deployment

A cluster that rolls deployments out, or that shows one status after another, changes nothing of a
deployment but its status.
-/

namespace Reconcile.Deployment

/-- The wire form of a deployment without its status does not depend on the status. -/
theorem without_status (d : Deployment) (status : Option DeploymentStatus) :
    Json.without "/status" (kind.toJson { d with status := status }) =
      Json.without "/status" (kind.toJson d) := by
  have htokens : Json.Pointer.tokens? "/status" = some ["status"] := by decide
  rw [lawful.toJson_eq, lawful.toJson_eq, Json.without_member htokens, Json.without_member htokens]
  congr 1
  refine Entries.Ascending.ext ((lawful.ascending _).erase _) ((lawful.ascending _).erase _)
    fun k => ?_
  rw [Entries.lookup_erase, Entries.lookup_erase]
  by_cases hk : k = "status"
  · rw [if_pos hk, if_pos hk]
  · rw [if_neg hk, if_neg hk]
    show (((Deployment.toJson _).obj?).getD []).lookup k = ((d.toJson.obj?).getD []).lookup k
    have hstatus : (k == "status") = false := beq_eq_false_iff_ne.2 hk
    rw [lookup_toJson, lookup_toJson]
    simp only [List.lookup_cons, hstatus]

/-- A rollout changes the status only. -/
theorem statusOnly_rolling : kind.StatusOnly rolling := by
  intro change hchange d
  obtain rfl : change = rollStep := List.mem_singleton.1 hchange
  exact without_status d _

end Reconcile.Deployment
