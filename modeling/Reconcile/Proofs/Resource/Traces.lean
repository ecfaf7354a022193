import Mathlib.Data.List.Basic
import Reconcile.Proofs.Resource.Ensures

/-!
# Traces of operations

A traced API keeps each call with the world that the call has met. Tracing changes nothing of what
an operation does (`Traces`), so what an operation ensures is also ensured where it is traced
(`Traces.ensures`).
-/

namespace Reconcile

variable {α σ β γ : Type}

/-- The calls so far with the worlds that they have met, the last one first. -/
abbrev Trace (σ : Type) := List (Call × σ)

/-- The API with a trace of the calls that it gets. -/
def ControlApi.traced (kind : Kind α) (api : ControlApi α σ) : ControlApi α (Trace σ × σ) where
  create ns object world :=
    let (answer, state) := api.create ns object world.2
    (answer, (.create ns ((kind.metadata object).name.getD ""), world.2) :: world.1, state)
  get ns name world :=
    let (answer, state) := api.get ns name world.2
    (answer, (.get ns name, world.2) :: world.1, state)
  patch ns name document world :=
    let (answer, state) := api.patch ns name document world.2
    (answer, (.patch ns name document, world.2) :: world.1, state)
  delete ns name propagation world :=
    let (answer, state) := api.delete ns name propagation world.2
    (answer, (.delete ns name propagation, world.2) :: world.1, state)

/-- The controller with a trace of the calls that it sends. -/
def Controller.traced (c : Controller α σ) : Controller α (Trace σ × σ) :=
  ⟨c.kind, c.api.traced c.kind, c.settings⟩

namespace Session

/-- The session before its first call. -/
def traced (session : Session σ) : Session (Trace σ × σ) :=
  ⟨session.resource, ([], session.world), session.watch⟩

/-- The session without its trace. -/
def untraced (session : Session (Trace σ × σ)) : Session σ :=
  ⟨session.resource, session.world.2, session.watch⟩

end Session

/-- The course of a wait without the trace of its reads. -/
def Wait.Course.untraced (course : Wait.Course (Trace σ × σ) γ) : Wait.Course σ γ :=
  ⟨course.outcome, course.waiter, course.clock, course.world.2⟩

section Waiting

variable {what : String} {check : γ → Progress}
  {traced : Trace σ × σ → Except Failure γ × (Trace σ × σ)} {observe : σ → Except Failure γ × σ}

/-- Reads do the same with and without a trace of them if each of them does. -/
theorem Wait.poll_untraced
    (hread : ∀ world, ((traced world).1, (traced world).2.2) = observe world.2)
    (deadline reads : Nat) (waiter : Waiter) (clock : Clock) (world : Trace σ × σ) :
    (poll what check traced deadline reads waiter clock world).untraced =
      poll what check observe deadline reads waiter clock world.2 := by
  induction reads generalizing waiter clock world with
  | zero => rfl
  | succ reads ih =>
      simp only [poll, ← hread world]
      cases classify check (traced world).1 with
      | converged value => rfl
      | failed failure => rfl
      | pending progress =>
          dsimp only
          split
          · rfl
          · split
            · exact ih _ _ _
            · rfl

/-- A wait does the same with and without a trace of its reads if each of them does. -/
theorem Wait.run_untraced (what : String) (check : γ → Progress)
    (hread : ∀ world, ((traced world).1, (traced world).2.2) = observe world.2) (watch : Watch)
    (waiter : Waiter) (world : Trace σ × σ) :
    (run what check traced watch waiter world).untraced =
      run what check observe watch waiter world.2 := by
  unfold run
  split
  · exact poll_untraced hread _ _ _ _ _
  · rfl

end Waiting

namespace Operation

/-- A traced operation does what the other operation does, and keeps a trace of it. -/
def Traces (traced : Operation (Trace σ × σ) β) (operation : Operation σ β) : Prop :=
  ∀ session : Session (Trace σ × σ),
    Prod.map id Session.untraced (traced.run session) = operation.run session.untraced

/-- Where an operation is traced, it ensures what it ensures otherwise. -/
theorem Traces.ensures {traced : Operation (Trace σ × σ) β} {operation : Operation σ β}
    (h : traced.Traces operation) {Q : β → Session σ → Prop} {E : Halt → Session σ → Prop}
    {session : Session (Trace σ × σ)} (hensures : operation.Ensures Q E session.untraced) :
    traced.Ensures (fun value after => Q value after.untraced)
      (fun halt after => E halt after.untraced) session := by
  unfold Ensures at hensures ⊢
  rw [← h session] at hensures
  revert hensures
  obtain ⟨result, after⟩ := traced.run session
  intro hensures
  cases result with
  | ok value => exact hensures
  | error halt => exact hensures

/-- A value is traced by itself, since it takes no call. -/
theorem traces_pure (value : β) :
    Traces (pure value : Operation (Trace σ × σ) β) (pure value) := fun _ => rfl

/-- A result is traced by itself, since it takes no call. -/
theorem traces_lift (result : Except Failure β) :
    Traces (lift result : Operation (Trace σ × σ) β) (lift result) := by
  intro session
  cases result with
  | ok value => rfl
  | error failure => rfl

/-- Looking at what is known is traced by itself. -/
theorem traces_resource : Traces (resource : Operation (Trace σ × σ) Resource) resource :=
  fun _ => rfl

/-- Setting what is known is traced by itself. -/
theorem traces_setResource (known : Resource) :
    Traces (setResource known : Operation (Trace σ × σ) Unit) (setResource known) := fun _ => rfl

/-- Two operations one after another are traced if each of them is. -/
theorem Traces.bind {first : Operation (Trace σ × σ) γ} {first' : Operation σ γ}
    {next : γ → Operation (Trace σ × σ) β} {next' : γ → Operation σ β} (h : first.Traces first')
    (hnext : ∀ value, (next value).Traces (next' value)) :
    (first >>= next).Traces (first' >>= next') := by
  intro session
  show Prod.map id _ (ExceptT.bindCont next (first.run session).1 (first.run session).2) =
    ExceptT.bindCont next' (first'.run session.untraced).1 (first'.run session.untraced).2
  rw [← h session]
  obtain ⟨result, after⟩ := first.run session
  cases result with
  | ok value => exact hnext value after
  | error halt => rfl

/-- A call is traced if the API answers the same and leaves the same world. -/
theorem traces_call {traced : Trace σ × σ → Except Failure β × (Trace σ × σ)}
    {send : σ → Except Failure β × σ}
    (h : ∀ world, ((traced world).1, (traced world).2.2) = send world.2) :
    Traces (call traced) (call send) := by
  intro session
  show Prod.map id Session.untraced ((lift (traced session.world).1 : Operation _ β).run
      { session with world := (traced session.world).2 }) =
    (lift (send session.world.2).1 : Operation _ β).run
      { session.untraced with world := (send session.world.2).2 }
  rw [← h session.world]
  exact traces_lift _ _

/-- A wait is traced if each of its reads is. -/
theorem traces_await {what : String} {options : Wait.Options} {check : γ → Progress}
    {traced : Trace σ × σ → Except Failure γ × (Trace σ × σ)} {observe : σ → Except Failure γ × σ}
    (h : ∀ world, ((traced world).1, (traced world).2.2) = observe world.2) :
    Traces (await what options check traced) (await what options check observe) := by
  intro session
  have hcourse := Wait.run_untraced what check h session.watch (.fresh options) session.world
  have hwatch : session.untraced.watch = session.watch := rfl
  have hworld : session.untraced.world = session.world.2 := rfl
  rw [run_await, run_await, hwatch, hworld, ← hcourse]
  rfl

end Operation

/-! ## Traced controllers -/

namespace Controller

open Operation

variable (c : Controller α σ) {id : Identity}

/-- Waiting for an object is traced. -/
theorem traces_settle (limit : Duration) : (c.traced.settle id limit).Traces (c.settle id limit) :=
  traces_await fun _ => rfl

/-- A read is traced. -/
theorem traces_read : c.traced.read.Traces c.read :=
  traces_resource.bind fun known => (traces_lift known.identity).bind fun _ =>
    (traces_call fun _ => rfl).bind fun _ => traces_setResource _

/-- A creation is traced. -/
theorem traces_create : c.traced.create.Traces c.create :=
  traces_resource.bind fun _ => (traces_lift _).bind fun _ => (traces_call fun _ => rfl).bind
    fun _ => (traces_lift _).bind fun _ => (traces_setResource _).bind fun _ =>
      (c.traces_settle _).bind fun _ => c.traces_read

/-- Fitting edits to the live object is traced. -/
theorem traces_rebased (edits : List Json.Edit) :
    (c.traced.rebased id edits).Traces (c.rebased id edits) := by
  show (if edits.any (Change.addsWholeMap c.kind.mutablePaths) then _ else _ :
    Operation (Trace σ × σ) (List Json.Edit)).Traces (if _ then _ else _)
  split
  · exact (traces_call fun _ => rfl).bind fun _ => traces_pure _
  · exact traces_pure _

/-- Submitting edits is traced. -/
theorem traces_submit (edits : List Json.Edit) :
    (c.traced.submit id edits).Traces (c.submit id edits) :=
  (traces_call fun _ => rfl).bind fun _ => traces_pure _

/-- An update is traced. -/
theorem traces_update (new : Tree) : (c.traced.update new).Traces (c.update new) := by
  refine traces_resource.bind fun known => (traces_lift known.identity).bind fun id =>
    (traces_lift _).bind fun planned => (c.traces_rebased planned).bind fun edits => ?_
  have hrest : (do
      setResource { known with config := Schema.normalize c.kind.schema (some known.config) new }
      c.traced.settle id c.settings.updateLimit
      c.traced.read).Traces (do
      setResource { known with config := Schema.normalize c.kind.schema (some known.config) new }
      c.settle id c.settings.updateLimit
      c.read) :=
    (traces_setResource _).bind fun _ => (c.traces_settle _).bind fun _ => c.traces_read
  cases edits with
  | nil => exact hrest
  | cons edit rest => exact (c.traces_submit _).bind fun _ => hrest

/-- A deletion is traced. -/
theorem traces_delete : c.traced.delete.Traces c.delete := by
  refine traces_resource.bind fun known => (traces_lift known.identity).bind fun id => ?_
  have hrest : (do
      call (c.traced.api.delete id.ns id.name c.kind.propagation)
      setResource { known with id := none }).Traces (do
      call (c.api.delete id.ns id.name c.kind.propagation)
      setResource { known with id := none }) :=
    (traces_call fun _ => rfl).bind fun _ => traces_setResource _
  rw [show c.traced.kind.drain = c.kind.drain from rfl]
  cases c.kind.drain with
  | none => exact hrest
  | some drain =>
      exact (c.traces_submit drain).bind fun _ => (c.traces_settle _).bind fun _ => hrest

end Controller

end Reconcile
