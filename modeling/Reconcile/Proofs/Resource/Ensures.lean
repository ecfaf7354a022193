import Mathlib.Data.List.Basic
import Reconcile.Proofs.Except.Steps
import Reconcile.Resource.Operations

/-!
# What operations ensure

An operation ends with a value or stops, and leaves a session either way. `Operation.Ensures` says
what holds then, and there is one rule for each way of making an operation. A wait ensures what
every read of the world preserves (`ensures_await`), and more exactly what its pending reads
preserve and its last read brings (`ensures_await_pending`).
-/

namespace Reconcile

section Waiting

variable {σ α : Type} {what : String} {check : α → Progress}
  {observe : σ → Except Failure α × σ} {I : σ → Prop}

/-- The ways in which a wait can end whose reads keep a property of the world while they show that
the wait has to go on. -/
inductive Wait.Ends (check : α → Progress) (observe : σ → Except Failure α × σ) (I : σ → Prop) :
    Wait.Outcome α → σ → Prop where
  | converged {last after : σ} {value : α} (hlast : I last)
      (hread : observe last = (.ok value, after)) (hconverged : (check value).converged = true) :
      Ends check observe I (.converged value) after
  | broken {last after : σ} {failure : Failure} (hlast : I last)
      (hread : observe last = (.error failure, after)) :
      Ends check observe I (.failed failure) after
  | expired {after : σ} (failure : Failure) (hafter : I after) :
      Ends check observe I (.failed failure) after
  | overflow (overflow : Overflow) {after : σ} (hafter : I after) :
      Ends check observe I (.overflow overflow) after
  | unfinished {after : σ} (hafter : I after) : Ends check observe I .unfinished after

/-- Every wait ends in one of the ways. -/
theorem Wait.poll_ends (hpending : ∀ world value, I world → (observe world).1 = .ok value →
    (check value).converged = false → I (observe world).2) (deadline reads : Nat)
    (waiter : Waiter) (clock : Clock) {world : σ} (h : I world) :
    Ends check observe I (poll what check observe deadline reads waiter clock world).outcome
      (poll what check observe deadline reads waiter clock world).world := by
  -- A read that is still pending is followed by the next one, with the clock moved on.
  induction reads generalizing waiter clock world with
  | zero => exact .unfinished h
  | succ reads ih =>
      cases hstatus : (observe world).1 with
      | error failure =>
          simp only [poll, hstatus, classify]
          exact .broken h (Prod.ext hstatus rfl)
      | ok value =>
          cases hconverged : (check value).converged with
          | true =>
              simp only [poll, hstatus, classify, hconverged, if_true]
              exact .converged h (Prod.ext hstatus rfl) hconverged
          | false =>
              have hafter := hpending world value h hstatus hconverged
              simp only [poll, hstatus, classify, hconverged, Bool.false_eq_true, if_false]
              split
              · exact .expired _ hafter
              · split
                · exact ih _ _ hafter
                · exact .overflow .pause hafter

/-- Every wait ends in one of the ways from its beginning. -/
theorem Wait.run_ends (what : String) (hpending : ∀ world value, I world →
    (observe world).1 = .ok value → (check value).converged = false → I (observe world).2)
    (watch : Watch) (waiter : Waiter) {world : σ} (h : I world) :
    Ends check observe I (run what check observe watch waiter world).outcome
      (run what check observe watch waiter world).world := by
  unfold run
  split
  · exact poll_ends hpending _ _ _ _ h
  · exact .overflow .deadline h

end Waiting

namespace Operation

variable {σ β γ : Type} {Q Q' : β → Session σ → Prop} {E E' : Halt → Session σ → Prop}
  {session : Session σ}

/-- From a session an operation ends with a value and in a session that satisfy `Q`, or stops for a
reason and in a session that satisfy `E`. -/
def Ensures (operation : Operation σ β) (Q : β → Session σ → Prop)
    (E : Halt → Session σ → Prop) (session : Session σ) : Prop :=
  match operation.run session with
  | (.ok value, after) => Q value after
  | (.error halt, after) => E halt after

/-- What an operation ensures is so if it ends with a value. -/
theorem Ensures.of_ok {operation : Operation σ β} {value : β} {after : Session σ}
    (h : operation.Ensures Q E session) (hrun : operation.run session = (.ok value, after)) :
    Q value after := by
  unfold Ensures at h
  rwa [hrun] at h

/-- What an operation ensures however it ends is so of its result. -/
theorem Ensures.result {operation : Operation σ β} {P : Except Halt β → Session σ → Prop}
    (h : operation.Ensures (fun value => P (.ok value)) (fun halt => P (.error halt)) session) :
    P (operation.run session).1 (operation.run session).2 := by
  unfold Ensures at h
  split at h
  · rename_i hrun
    rw [hrun]
    exact h
  · rename_i hrun
    rw [hrun]
    exact h

/-- What holds after an operation however it ends. -/
theorem Ensures.after {operation : Operation σ β} {P : Session σ → Prop}
    (h : operation.Ensures (fun _ => P) (fun _ => P) session) : P (operation.run session).2 :=
  Ensures.result (P := fun _ => P) h

/-- An operation that ensures not to stop ends with a value. -/
theorem Ensures.exists_ok {operation : Operation σ β}
    (h : operation.Ensures Q (fun _ _ => False) session) :
    ∃ value after, operation.run session = (.ok value, after) ∧ Q value after := by
  unfold Ensures at h
  split at h
  · rename_i value after hrun
    exact ⟨value, after, hrun, h⟩
  · exact h.elim

/-- An operation that ensures one way to stop stops in this way. -/
theorem Ensures.run_eq_stop {operation : Operation σ β} {stopped : Session σ} {halt : Halt}
    (h : operation.Ensures (fun _ _ => False)
      (fun other after => other = halt ∧ after = stopped) session) :
    operation.run session = (.error halt, stopped) := by
  unfold Ensures at h
  split at h
  · exact h.elim
  · rename_i hrun
    rw [hrun, h.1, h.2]

/-- What an operation ensures may be weakened. -/
theorem Ensures.mono {operation : Operation σ β} (h : operation.Ensures Q E session)
    (hQ : ∀ value after, Q value after → Q' value after)
    (hE : ∀ halt after, E halt after → E' halt after) : operation.Ensures Q' E' session := by
  unfold Ensures at h ⊢
  split
  · rename_i hrun
    rw [hrun] at h
    exact hQ _ _ h
  · rename_i hrun
    rw [hrun] at h
    exact hE _ _ h

/-- What two rules say of an operation holds of it at once. -/
theorem Ensures.and {operation : Operation σ β} (h : operation.Ensures Q E session)
    (h' : operation.Ensures Q' E' session) :
    operation.Ensures (fun value after => Q value after ∧ Q' value after)
      (fun halt after => E halt after ∧ E' halt after) session := by
  unfold Ensures at h h' ⊢
  split
  · rename_i hrun
    rw [hrun] at h h'
    exact ⟨h, h'⟩
  · rename_i hrun
    rw [hrun] at h h'
    exact ⟨h, h'⟩

/-- Two operations that follow each other ensure what the second one ensures after the first. -/
theorem ensures_bind {first : Operation σ γ} {next : γ → Operation σ β} :
    Ensures (first >>= next) Q E session ↔
      Ensures first (fun value after => Ensures (next value) Q E after) E session := by
  rw [Ensures, Ensures, Steps.run_bind]
  obtain ⟨result, after⟩ := first.run session
  cases result with
  | ok value => exact Iff.rfl
  | error halt => exact Iff.rfl

/-- A result ensures what is so of its value, and stops with its failure. -/
theorem ensures_lift {result : Except Failure β} : Ensures (lift result) Q E session ↔
    (∀ value, result = .ok value → Q value session) ∧
      ∀ failure, result = .error failure → E (.failure failure) session := by
  cases result with
  | ok value =>
      have hrun : Ensures (lift (.ok value)) Q E session ↔ Q value session := Iff.rfl
      simp [hrun]
  | error failure =>
      have hrun : Ensures (lift (.error failure)) Q E session ↔ E (.failure failure) session :=
        Iff.rfl
      simp [hrun]

/-- Looking at what is known ensures what is so of it. -/
theorem ensures_resource {Q : Resource → Session σ → Prop} :
    Ensures resource Q E session ↔ Q session.resource session := Iff.rfl

/-- Setting what is known ensures what is so of the session with it. -/
theorem ensures_setResource {known : Resource} {Q : Unit → Session σ → Prop} :
    Ensures (setResource known) Q E session ↔ Q () { session with resource := known } := Iff.rfl

/-- An operation on a known object goes on with its identity, and one on an object that has not been
created stops at once. -/
theorem ensures_identity {next : Resource → Identity → Operation σ β}
    (hunknown : session.resource.id = none → E (.failure (.invalidIdentity "")) session)
    (hknown : ∀ id, session.resource.id = some id →
      Ensures (next session.resource id) Q E session) :
    Ensures (resource >>= fun known => lift known.identity >>= next known) Q E session := by
  rw [ensures_bind, ensures_resource, ensures_bind, ensures_lift, Resource.identity]
  cases hid : session.resource.id with
  | none =>
      refine ⟨fun _ heq => (nomatch heq), ?_⟩
      rintro _ ⟨⟩
      exact hunknown hid
  | some id =>
      refine ⟨?_, fun _ heq => (nomatch heq)⟩
      rintro _ ⟨⟩
      exact hknown id hid

/-- A call ensures what its answer and the world after it satisfy. -/
theorem ensures_call {send : σ → Except Failure β × σ} : Ensures (call send) Q E session ↔
    (∀ value, (send session.world).1 = .ok value →
        Q value { session with world := (send session.world).2 }) ∧
      ∀ failure, (send session.world).1 = .error failure →
        E (.failure failure) { session with world := (send session.world).2 } :=
  @ensures_lift _ _ _ _ { session with world := (send session.world).2 } _

/-- How an operation ends that waits with an outcome. -/
def ofOutcome : Wait.Outcome γ → Except Halt Unit
  | .converged _ => .ok ()
  | .failed failure => .error (.failure failure)
  | .overflow overflow => .error (.overflow overflow)
  | .unfinished => .error .unfinished

/-- A wait ends as its outcome says, in the world that its last read leaves. -/
theorem run_await {what : String} {options : Wait.Options} {check : γ → Progress}
    {observe : σ → Except Failure γ × σ} :
    (await what options check observe).run session =
      let course := Wait.run what check observe session.watch (.fresh options) session.world
      (ofOutcome course.outcome, session.waited course.world course.clock.now) := by
  show ExceptT.run (do
    let course := Wait.run what check observe session.watch (.fresh options) session.world
    set (session.waited course.world course.clock.now)
    match course.outcome with
    | .converged _ => pure ()
    | .failed failure => throw (.failure failure)
    | .overflow overflow => throw (.overflow overflow)
    | .unfinished => throw .unfinished : Operation σ Unit) session = _
  obtain ⟨outcome, waiter, clock, world⟩ :=
    Wait.run what check observe session.watch (.fresh options) session.world
  cases outcome with
  | converged value => rfl
  | failed failure => rfl
  | overflow overflow => rfl
  | unfinished => rfl

/-- A wait ensures what its reads preserve while they are pending, and what its last read brings:
one that has converged if the wait ends with a value, and one that has failed or is pending if it
stops. -/
theorem ensures_await_pending {what : String} {options : Wait.Options} {check : γ → Progress}
    {observe : σ → Except Failure γ × σ} {I : σ → Prop} {Q : Unit → Session σ → Prop}
    (hpending : ∀ world value, I world → (observe world).1 = .ok value →
      (check value).converged = false → I (observe world).2) (h : I session.world)
    (hQ : ∀ value last after now, I last → observe last = (.ok value, after) →
      (check value).converged = true → Q () (session.waited after now))
    (hbroken : ∀ failure last after now, I last → observe last = (.error failure, after) →
      E (.failure failure) (session.waited after now))
    (hE : ∀ halt world now, I world → E halt (session.waited world now)) :
    Ensures (await what options check observe) Q E session := by
  have hends := Wait.run_ends what hpending session.watch (.fresh options) h
  rw [Ensures, run_await]
  revert hends
  obtain ⟨outcome, waiter, clock, world⟩ :=
    Wait.run what check observe session.watch (.fresh options) session.world
  intro hends
  cases hends with
  | converged hlast hread hconverged => exact hQ _ _ _ _ hlast hread hconverged
  | broken hlast hread => exact hbroken _ _ _ _ hlast hread
  | expired failure hafter => exact hE (.failure failure) _ _ hafter
  | overflow overflow hafter => exact hE (.overflow overflow) _ _ hafter
  | unfinished hafter => exact hE .unfinished _ _ hafter

/-- A wait ensures what every read of the world preserves. One that ends with a value has just read
it, and the value has converged. -/
theorem ensures_await_converged {what : String} {options : Wait.Options} {check : γ → Progress}
    {observe : σ → Except Failure γ × σ} {I : σ → Prop} {Q : Unit → Session σ → Prop}
    (hread : ∀ world, I world → I (observe world).2) (h : I session.world)
    (hQ : ∀ value last after now, I last → observe last = (.ok value, after) →
      (check value).converged = true → Q () (session.waited after now))
    (hE : ∀ halt world now, I world → E halt (session.waited world now)) :
    Ensures (await what options check observe) Q E session := by
  refine ensures_await_pending (fun world _ hworld _ _ => hread world hworld) h hQ ?_ hE
  intro failure last after now hlast hobserve
  have hafter := hread last hlast
  rw [hobserve] at hafter
  exact hE (.failure failure) after now hafter

/-- A wait ensures what every read of the world preserves. -/
theorem ensures_await {what : String} {options : Wait.Options} {check : γ → Progress}
    {observe : σ → Except Failure γ × σ} {I : σ → Prop} {Q : Unit → Session σ → Prop}
    (hread : ∀ world, I world → I (observe world).2) (h : I session.world)
    (hQ : ∀ world now, I world → Q () (session.waited world now))
    (hE : ∀ halt world now, I world → E halt (session.waited world now)) :
    Ensures (await what options check observe) Q E session := by
  refine ensures_await_converged hread h (fun _ last after now hlast hobserve _ => ?_) hE
  have hafter := hread last hlast
  rw [hobserve] at hafter
  exact hQ after now hafter

end Operation

end Reconcile
