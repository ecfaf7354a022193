import Mathlib.Data.List.Basic
import Reconcile.Cluster.Memory
import Reconcile.Deployment.Kind
import Reconcile.Proofs.Resource.Rules
import Reconcile.Proofs.Resource.Traces

/-!
# Deployments that are drained before they are deleted

Whatever a control API answers, a deployment is deleted only after it has accepted the drain and
has then been read again and again until it showed as many pods as it asked for
(`delete_after_drain`). What it asks for is read from the deployment each time. If someone else has
scaled it since the drain, it asks for other pods than none, and is deleted with its pods
(`delete_with_pods`).
-/

namespace Reconcile.Deployment

open Operation

section

variable {σ : Type} {api : ControlApi Deployment σ} {settings : Settings} {id : Identity}
  {trace : Trace σ}

/-- The call that scales a deployment to zero. -/
def drainCall (id : Identity) : Call := .patch id.ns id.name (Json.Edit.listToJson drain)

/-- The calls of a deletion up to the last reading: the drain, which the API has accepted, and
readings of the deployment. -/
def Draining (api : ControlApi Deployment σ) (id : Identity) (trace : Trace σ) : Prop :=
  ∃ reads accepted stored, trace = reads ++ [(drainCall id, accepted)] ∧
    (∀ entry ∈ reads, entry.1 = .get id.ns id.name) ∧
    (api.patch id.ns id.name (Json.Edit.listToJson drain) accepted).1 = .ok stored

/-- The calls of a deletion that was sent: after the drain, the last reading showed a deployment
with as many pods as it asked for. -/
def Removed (api : ControlApi Deployment σ) (id : Identity) (d : Deployment) (trace : Trace σ) :
    Prop :=
  ∃ world last rest, trace = (.delete id.ns id.name .foreground, world) ::
      (.get id.ns id.name, last) :: rest ∧ Draining api id rest ∧
    (api.get id.ns id.name last).1 = .ok d ∧ d.progress.converged = true

/-- The drain may be followed by another reading. -/
theorem Draining.get (h : Draining api id trace) (world : σ) :
    Draining api id ((.get id.ns id.name, world) :: trace) := by
  obtain ⟨reads, accepted, stored, rfl, hreads, hstored⟩ := h
  exact ⟨_ :: reads, accepted, stored, rfl, List.forall_mem_cons.2 ⟨rfl, hreads⟩, hstored⟩

/-- A deployment that is being drained has not been deleted. -/
theorem Draining.not_deleted (h : Draining api id trace) :
    ¬ ∃ entry ∈ trace, entry.1.kind = .delete := by
  obtain ⟨reads, accepted, stored, rfl, hreads, _⟩ := h
  rintro ⟨entry, hentry, hdelete⟩
  rcases List.mem_append.1 hentry with hread | hdrain
  · rw [hreads entry hread] at hdelete
    cases hdelete
  · rw [List.mem_singleton.1 hdrain] at hdelete
    cases hdelete

/-- A deployment shows as many pods as it asks for if the numbers in its status and its
specification are the same. -/
theorem converged_progress_iff (d : Deployment) : d.progress.converged = true ↔
    (d.status.bind (·.replicas)).getD 0 =
      (d.spec.bind (·.replicas)).getD DeploymentSpec.defaultReplicas := by
  rw [Progress.converged, decide_eq_true_iff]
  exact Int32.toInt_inj

/-- Where a deployment shows as many pods as it asks for, it shows none if it asks for none. -/
theorem observed_eq_zero_iff {d : Deployment} (h : d.progress.converged = true) :
    (d.status.bind (·.replicas)).getD 0 = 0 ↔ d.spec.bind (·.replicas) = some 0 := by
  rw [(converged_progress_iff d).1 h]
  cases d.spec.bind (·.replicas) with
  | none => exact ⟨fun heq => absurd heq (by decide), fun heq => nomatch heq⟩
  | some replicas => exact Option.some_inj.symm

/-- A drain is over after a reading that shows as many pods as are asked for. -/
theorem ensures_drained {session : Session (Trace σ × σ)} (htrace : session.world.1 = []) :
    Ensures ((Controller.traced ⟨kind, api, settings⟩).drained id)
      (fun _ after => ∃ last rest d, after.world.1 = (.get id.ns id.name, last) :: rest ∧
        Draining api id rest ∧ (api.get id.ns id.name last).1 = .ok d ∧
        d.progress.converged = true)
      (fun _ after => ¬ ∃ entry ∈ after.world.1, entry.1.kind = .delete) session := by
  refine Controller.ensures_drained (fun hnone => nomatch hnone) fun edits hedits => ?_
  obtain rfl : drain = edits := Option.some.inj hedits
  have hsent : ((drainCall id, session.world.2) :: session.world.1 : Trace σ) =
      [(drainCall id, session.world.2)] := by
    rw [htrace]
  rw [Controller.ensures_submit, ensures_call]
  refine ⟨fun stored hstored => ?_, fun _ _ => ?_⟩
  · -- Until the wait is over, the trace holds the drain and readings only.
    refine ensures_await_converged (I := fun world => Draining api id world.1)
      (fun world h => h.get world.2) ⟨[], session.world.2, stored, hsent, List.forall_mem_nil _,
        hstored⟩ ?_ fun _ _ _ h => h.not_deleted
    intro d last after now hlast hread hconverged
    have hafter : after.1 = (.get id.ns id.name, last.2) :: last.1 :=
      (congrArg (·.2.1) hread).symm
    exact ⟨last.2, last.1, d, hafter, hlast, congrArg (·.1) hread, hconverged⟩
  · rintro ⟨entry, hentry, hdelete⟩
    have hentry : entry ∈ ((drainCall id, session.world.2) :: session.world.1 : Trace σ) := hentry
    rw [hsent, List.mem_singleton] at hentry
    rw [hentry] at hdelete
    cases hdelete

/-- A deletion is sent only after the drain and a reading that shows as many pods as are asked
for. -/
theorem ensures_delete {session : Session (Trace σ × σ)} (htrace : session.world.1 = []) :
    let P (after : Session (Trace σ × σ)) := (∃ entry ∈ after.world.1, entry.1.kind = .delete) →
      ∃ id d, session.resource.id = some id ∧ Removed api id d after.world.1
    Ensures (Controller.traced ⟨kind, api, settings⟩).delete (fun _ => P) (fun _ => P) session := by
  intro P
  refine Controller.ensures_delete (fun _ => ?_) fun id hid => ?_
  · rintro ⟨entry, hentry, _⟩
    rw [htrace] at hentry
    cases hentry
  · refine (ensures_drained htrace).mono ?_ fun _ _ hstopped hdeleted => absurd hdeleted hstopped
    rintro _ ready ⟨last, rest, d, hready, hrest, hread, hconverged⟩
    have hremoved : Removed api id d
        ((.delete id.ns id.name .foreground, ready.world.2) :: ready.world.1) :=
      ⟨ready.world.2, last, rest, by rw [hready], hrest, hread, hconverged⟩
    rw [ensures_call]
    exact ⟨fun _ _ _ => ⟨id, d, hid, hremoved⟩, fun _ _ _ => ⟨id, d, hid, hremoved⟩⟩

/-- If a deletion is sent, the last call before it has read the deployment, all calls before that
one have read it too, and the first call of all was the drain, which was accepted. The deployment
that was read last shows as many pods as it asks for. So it has no pods exactly if it asks for
none. -/
theorem delete_after_drain (session : Session σ) :
    let trace := ((Controller.traced ⟨kind, api, settings⟩).delete.run session.traced).2.world.1
    (∃ entry ∈ trace, entry.1.kind = .delete) →
      ∃ id world last rest d, session.resource.id = some id ∧
        trace = (.delete id.ns id.name .foreground, world) :: (.get id.ns id.name, last) :: rest ∧
        Draining api id rest ∧ (api.get id.ns id.name last).1 = .ok d ∧
        (d.status.bind (·.replicas)).getD 0 =
          (d.spec.bind (·.replicas)).getD DeploymentSpec.defaultReplicas ∧
        ((d.status.bind (·.replicas)).getD 0 = 0 ↔ d.spec.bind (·.replicas) = some 0) := by
  intro trace hdeleted
  obtain ⟨id, d, hid, world, last, rest, htrace, hrest, hread, hconverged⟩ :=
    (@ensures_delete σ api settings session.traced rfl).after hdeleted
  exact ⟨id, world, last, rest, d, hid, htrace, hrest, hread,
    (converged_progress_iff d).1 hconverged, observed_eq_zero_iff hconverged⟩

end

/-! ## A deployment that is scaled by someone else -/

namespace Scaled

/-- A deployment that asks for some pods and shows some. -/
def pods (desired observed : Int32) : Deployment :=
  { spec := some { replicas := some desired }, status := some { replicas := some observed } }

/-- An API that accepts everything and shows one deployment after another. -/
def script : ControlApi Deployment (List Deployment) where
  create _ d world := (.ok d, world)
  get ns name world :=
    match world with
    | d :: rest => (.ok d, rest)
    | [] => (.error (Memory.absent kind ns name), [])
  patch _ _ _ world := (.ok (pods 0 3), world)
  delete _ _ _ world := (.ok (), world)

/-- A deployment is known that is going to be shown as the given ones. -/
def session (shown : List Deployment) : Session (List Deployment) :=
  ⟨⟨some ⟨"default", "web", by decide, by decide⟩, .obj []⟩, shown, .start 10⟩

/-- The end of a deletion of this deployment. -/
def deleted (shown : List Deployment) :
    Except Halt Unit × Session (Trace (List Deployment) × List Deployment) :=
  (Controller.traced ⟨kind, script, Settings.default⟩).delete.run (session shown).traced

end Scaled

open Scaled in
/-- A deployment that keeps the drained specification is read until it has no pods. -/
theorem delete_after_drain_emptied :
    ∃ id world last rest d, (deleted [pods 0 3, pods 0 1, pods 0 0]).2.world.1 =
        (.delete id.ns id.name .foreground, world) :: (.get id.ns id.name, last) :: rest ∧
      Draining script id rest ∧ (script.get id.ns id.name last).1 = .ok d ∧
      ((d.status.bind (·.replicas)).getD 0 = 0 ↔ d.spec.bind (·.replicas) = some 0) := by
  have hdeleted : ∃ entry ∈ (deleted [pods 0 3, pods 0 1, pods 0 0]).2.world.1,
      entry.1.kind = .delete := by
    decide +kernel
  obtain ⟨id, world, last, rest, d, _, htrace, hrest, hread, _, hzero⟩ :=
    delete_after_drain (session [pods 0 3, pods 0 1, pods 0 0]) hdeleted
  exact ⟨id, world, last, rest, d, htrace, hrest, hread, hzero⟩

open Scaled in
/-- Someone scales a drained deployment to its three pods between two readings, and the second
reading is followed by the deletion. -/
theorem delete_with_pods : ∃ world last rest, (deleted [pods 0 3, pods 3 3]).1 = .ok () ∧
    (deleted [pods 0 3, pods 3 3]).2.world.1 = (.delete "default" "web" .foreground, world) ::
      (.get "default" "web", last) :: rest ∧
    (script.get "default" "web" last).1 = .ok (pods 3 3) ∧
    ((pods 3 3).status.bind (·.replicas)).getD 0 ≠ 0 :=
  ⟨[], [pods 3 3], [(.get "default" "web", [pods 0 3, pods 3 3]),
    (.patch "default" "web" (Json.Edit.listToJson drain), [pods 0 3, pods 3 3])],
    by decide +kernel, by decide +kernel, rfl, by decide⟩

end Reconcile.Deployment
