import Mathlib.Data.List.Basic
import Reconcile.Proofs.Resource.Rules
import Reconcile.Proofs.Wait.Returning

/-!
# Operations that come to an end

A wait is broken off only if time has no room for it, and goes on for ever only without pauses. So
an operation whose watch covers the waits of its settings (`Wait.Watch.Covers`) stops with a failure
if it stops at all.
-/

namespace Reconcile

variable {α σ β : Type}

/-- The times that operations may take. -/
def Settings.limits (settings : Settings) : List Duration :=
  [settings.createLimit, settings.updateLimit, settings.deleteLimit]

/-- A watch covers the waits of settings: there are pauses, all of them can be doubled, and the
clock shows every deadline and is followed until then. -/
structure Wait.Watch.Covers (watch : Wait.Watch) (settings : Settings) : Prop where
  pauses : 0 < settings.initialPause.nanos
  doubles : 2 * (settings.longestPause.max settings.initialPause).nanos ≤ Duration.maxNanos
  deadlines : ∀ limit ∈ settings.limits, watch.now + limit.nanos ≤ watch.last ∧
    limit.nanos / settings.initialPause.nanos + 2 ≤ watch.horizon

/-- An operation that stops has failed. -/
def Halt.IsFailure (halt : Halt) : Prop := ∃ failure, halt = .failure failure

/-- A wait that ends stops only with a failure. -/
theorem Operation.ensures_await_ends {what : String} {options : Wait.Options}
    {check : β → Progress} {observe : σ → Except Failure β × σ} {session : Session σ}
    (h : (Wait.run what check observe session.watch (.fresh options) session.world).outcome.Ended) :
    Ensures (await what options check observe) (fun _ _ => True) (fun halt _ => halt.IsFailure)
      session := by
  rw [Ensures, run_await]
  revert h
  obtain ⟨outcome, waiter, clock, world⟩ :=
    Wait.run what check observe session.watch (.fresh options) session.world
  intro h
  cases outcome with
  | converged value => exact trivial
  | failed failure => exact ⟨failure, rfl⟩
  | overflow overflow => exact h.elim
  | unfinished => exact h.elim

namespace Controller

open Operation

variable {c : Controller α σ} {session : Session σ} {id : Identity} {limit : Duration}

/-- A wait that the watch covers stops only with a failure. -/
theorem ensures_settle_ends (h : session.watch.Covers c.settings)
    (hlimit : limit ∈ c.settings.limits) :
    Ensures (c.settle id limit) (fun _ _ => True) (fun halt _ => halt.IsFailure) session := by
  obtain ⟨hdeadline, hhorizon⟩ := h.deadlines limit hlimit
  exact ensures_await_ends (Wait.run_ended (c.settings.initial_le_longest limit) h.doubles
    hdeadline h.pauses hhorizon).1

/-- A read ends with a result or a failure. -/
theorem ensures_read_ends :
    Ensures c.read (fun _ _ => True) (fun halt _ => halt.IsFailure) session := by
  refine ensures_read (fun _ => ⟨_, rfl⟩) fun id _ => ?_
  rw [ensures_call]
  exact ⟨fun _ _ => trivial, fun failure _ => ⟨failure, rfl⟩⟩

/-- Waiting for an object and reading it ends with a result or a failure, if the watch covers the
wait. -/
theorem ensures_settle_read_ends (h : session.watch.Covers c.settings)
    (hlimit : limit ∈ c.settings.limits) :
    Ensures (do
        c.settle id limit
        c.read) (fun _ _ => True) (fun halt _ => halt.IsFailure) session := by
  rw [ensures_bind]
  exact (ensures_settle_ends h hlimit).mono (fun _ _ _ => ensures_read_ends)
    fun _ _ hstopped => hstopped

/-- A creation whose wait is covered stops only with a failure. -/
theorem ensures_create_ends (h : session.watch.Covers c.settings) :
    Ensures c.create (fun _ _ => True) (fun halt _ => halt.IsFailure) session := by
  refine ensures_create (fun failure _ => ⟨failure, rfl⟩) fun ns placed _ => ?_
  rw [ensures_call]
  refine ⟨fun made _ => ⟨fun id _ => ?_, fun failure _ => ⟨failure, rfl⟩⟩,
    fun failure _ => ⟨failure, rfl⟩⟩
  exact ensures_settle_read_ends h List.mem_cons_self

/-- A call leaves the watch as it is, and stops only with a failure. -/
theorem ensures_call_ends {send : σ → Except Failure β × σ} :
    Ensures (call send) (fun _ after => after.watch = session.watch)
      (fun halt _ => halt.IsFailure) session := by
  rw [ensures_call]
  exact ⟨fun _ _ => rfl, fun failure _ => ⟨failure, rfl⟩⟩

/-- Submitting edits ends with a result or a failure. -/
theorem ensures_submit_ends (edits : List Json.Edit) :
    Ensures (c.submit id edits) (fun _ after => after.watch = session.watch)
      (fun halt _ => halt.IsFailure) session := by
  rw [ensures_submit]
  exact ensures_call_ends

/-- An update whose wait is covered stops only with a failure. -/
theorem ensures_update_ends (new : Tree) (h : session.watch.Covers c.settings) :
    Ensures (c.update new) (fun _ _ => True) (fun halt _ => halt.IsFailure) session := by
  refine ensures_update (fun _ => ⟨_, rfl⟩) fun id _ => ⟨fun failure _ => ⟨failure, rfl⟩,
    fun planned _ => ?_⟩
  have hrebased : Ensures (c.rebased id planned) (fun _ after => after.watch = session.watch)
      (fun halt _ => halt.IsFailure) session :=
    ensures_rebased (fun _ => ensures_call_ends) fun _ => rfl
  refine hrebased.mono (fun edits ready hready => ?_) fun _ _ hstopped => hstopped
  have hsubmitted : Ensures (c.submitted id edits) (fun _ after => after.watch = ready.watch)
      (fun halt _ => halt.IsFailure) ready :=
    ensures_submitted (fun _ => rfl) fun _ => ensures_submit_ends edits
  refine hsubmitted.mono (fun _ sent hsent => ?_) fun _ _ hstopped => hstopped
  have hwatch : sent.watch = session.watch := hsent.trans hready
  refine ensures_settle_read_ends ?_ (List.mem_cons_of_mem _ List.mem_cons_self)
  show sent.watch.Covers c.settings
  rw [hwatch]
  exact h

/-- A deletion whose wait is covered stops only with a failure. -/
theorem ensures_delete_ends (h : session.watch.Covers c.settings) :
    Ensures c.delete (fun _ _ => True) (fun halt _ => halt.IsFailure) session := by
  refine ensures_delete (fun _ => ⟨_, rfl⟩) fun id _ => ?_
  have hdrained : Ensures (c.drained id) (fun _ _ => True) (fun halt _ => halt.IsFailure)
      session := by
    refine ensures_drained (fun _ => trivial) fun drain _ => ?_
    refine (ensures_submit_ends drain).mono (fun _ sent hsent => ?_) fun _ _ hstopped => hstopped
    have hcovered : sent.watch.Covers c.settings := hsent ▸ h
    exact ensures_settle_ends hcovered
      (List.mem_cons_of_mem _ (List.mem_cons_of_mem _ List.mem_cons_self))
  refine hdrained.mono (fun _ _ _ => ?_) fun _ _ hstopped => hstopped
  exact ensures_call_ends.mono (fun _ _ _ => trivial) fun _ _ hstopped => hstopped

end Controller

end Reconcile
