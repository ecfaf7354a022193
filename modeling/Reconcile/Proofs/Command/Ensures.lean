import Mathlib.Data.List.Basic
import Reconcile.Command.Run
import Reconcile.Proofs.Resource.Stages

/-!
# What the parts of a command ensure

A part of a command ends with a value or goes no further, and leaves a desk either way.
`Job.Ensures` says what holds then, and there is one rule for each way of making a job. An operation
within a command ensures what it ensures of its session (`ensures_operate`). Much of a command only
looks things up: `Job.Consults` says that a job changes nothing, and goes no further only if it has
failed.
-/

namespace Reconcile.Job

variable {σ β γ : Type} {Q Q' : β → Desk σ → Prop} {E E' : Stop → Desk σ → Prop} {desk : Desk σ}

/-- From a desk a job ends with a value and at a desk that satisfy `Q`, or goes no further for a
reason and at a desk that satisfy `E`. -/
def Ensures (job : Job σ β) (Q : β → Desk σ → Prop) (E : Stop → Desk σ → Prop)
    (desk : Desk σ) : Prop :=
  match job.run desk with
  | (.ok value, after) => Q value after
  | (.error stop, after) => E stop after

/-- What a job ensures however it ends is so of its result. -/
theorem Ensures.result {job : Job σ β} {P : Except Stop β → Desk σ → Prop}
    (h : job.Ensures (fun value => P (.ok value)) (fun stop => P (.error stop)) desk) :
    P (job.run desk).1 (job.run desk).2 := by
  unfold Ensures at h
  split at h
  · rename_i hrun
    rw [hrun]
    exact h
  · rename_i hrun
    rw [hrun]
    exact h

/-- What a job ensures may be weakened. -/
theorem Ensures.mono {job : Job σ β} (h : job.Ensures Q E desk)
    (hQ : ∀ value after, Q value after → Q' value after)
    (hE : ∀ stop after, E stop after → E' stop after) : job.Ensures Q' E' desk := by
  unfold Ensures at h ⊢
  split
  · rename_i hrun
    rw [hrun] at h
    exact hQ _ _ h
  · rename_i hrun
    rw [hrun] at h
    exact hE _ _ h

/-- Looking at the desk ensures what is so of it. -/
theorem ensures_get {Q : Desk σ → Desk σ → Prop} :
    Ensures (get : Job σ (Desk σ)) Q E desk ↔ Q desk desk := Iff.rfl

/-- Two jobs that follow each other ensure what the second one ensures after the first. -/
theorem ensures_bind {first : Job σ γ} {next : γ → Job σ β} : Ensures (first >>= next) Q E desk ↔
    Ensures first (fun value after => Ensures (next value) Q E after) E desk := by
  rw [Ensures, Ensures, Steps.run_bind]
  obtain ⟨result, after⟩ := first.run desk
  cases result with
  | ok value => exact Iff.rfl
  | error trouble => exact Iff.rfl

/-- How a command goes on after an operation that has stopped. -/
def afterHalt (Q : Except Failure Unit × Resource → Desk σ → Prop) (E : Stop → Desk σ → Prop)
    (desk : Desk σ) (halt : Halt) (after : Session σ) : Prop :=
  match halt with
  | .failure failure => Q (.error failure, after.resource) { desk with world := after.world }
  | .overflow overflow => E (.overflow overflow) { desk with world := after.world }
  | .unfinished => E .unfinished { desk with world := after.world }

/-- An operation within a command leaves the store as it is and ensures of the world what it ensures
of its session. -/
theorem ensures_operate {watch : Wait.Watch} {resource : Resource} {operation : Operation σ Unit}
    {Q : Except Failure Unit × Resource → Desk σ → Prop} :
    Ensures (operate watch resource operation) Q E desk ↔
      operation.Ensures
        (fun _ after => Q (.ok (), after.resource) { desk with world := after.world })
        (afterHalt Q E desk) ⟨resource, desk.world, watch⟩ := by
  rw [operate, ensures_bind, ensures_get, Operation.Ensures]
  obtain ⟨result, session⟩ := operation.run ⟨resource, desk.world, watch⟩
  cases result with
  | ok value => exact Iff.rfl
  | error halt =>
      cases halt with
      | failure failure => exact Iff.rfl
      | overflow overflow => exact Iff.rfl
      | unfinished => exact Iff.rfl

/-! ## Jobs that change nothing -/

/-- A job leaves the desk as it is, and ends with a value that satisfies `P` or with a failure. -/
def Consults (job : Job σ β) (P : β → Prop) (desk : Desk σ) : Prop :=
  job.Ensures (fun value after => after = desk ∧ P value)
    (fun stop after => after = desk ∧ ∃ trouble, stop = .trouble trouble) desk

/-- What a job that changes nothing ends with may be weakened. -/
theorem Consults.mono {job : Job σ β} {P P' : β → Prop} (h : job.Consults P desk)
    (hP : ∀ value, P value → P' value) : job.Consults P' desk :=
  Ensures.mono h (fun value _ hafter => ⟨hafter.1, hP value hafter.2⟩) fun _ _ hafter => hafter

/-- What follows a job that changes nothing goes on from the same desk. -/
theorem Consults.bind {first : Job σ γ} {next : γ → Job σ β} {P : γ → Prop}
    (hfirst : first.Consults P desk) (hnext : ∀ value, P value → Ensures (next value) Q E desk)
    (hE : ∀ trouble, E (.trouble trouble) desk) : Ensures (first >>= next) Q E desk := by
  rw [ensures_bind]
  refine Ensures.mono hfirst ?_ ?_
  · rintro value _ ⟨rfl, hvalue⟩
    exact hnext value hvalue
  · rintro _ _ ⟨rfl, trouble, rfl⟩
    exact hE trouble

/-- Jobs that change nothing do so one after another. -/
theorem Consults.then {first : Job σ γ} {next : γ → Job σ β} {P : γ → Prop} {P' : β → Prop}
    (hfirst : first.Consults P desk) (hnext : ∀ value, P value → (next value).Consults P' desk) :
    (first >>= next).Consults P' desk :=
  hfirst.bind hnext fun trouble => ⟨rfl, trouble, rfl⟩

/-- A value is consulted as it is. -/
theorem consults_pure {P : β → Prop} {value : β} (h : P value) :
    (pure value : Job σ β).Consults P desk := ⟨rfl, h⟩

/-- A failure consults nothing. -/
theorem consults_fail (P : β → Prop) (trouble : Trouble) :
    (fail trouble : Job σ β).Consults P desk := ⟨rfl, trouble, rfl⟩

/-- A result is consulted as it is. -/
theorem consults_lift {result : Except Trouble β} :
    (lift result).Consults (fun value => result = .ok value) desk := by
  cases result with
  | ok value => exact consults_pure rfl
  | error trouble => exact consults_fail _ trouble

/-- A result of the store is consulted as it is. -/
theorem consults_ofStore {result : Except StoreFault β} :
    (ofStore result).Consults (fun value => result = .ok value) desk := by
  cases result with
  | ok value => exact consults_pure rfl
  | error fault => exact consults_fail _ (.store fault)

/-- A result that may fail like an operation is consulted as it is. -/
theorem consults_ofFailure {result : Except Failure β} :
    (ofFailure result).Consults (fun value => result = .ok value) desk := by
  cases result with
  | ok value => exact consults_pure rfl
  | error failure => exact consults_fail _ (.operation failure)

/-- What the store holds is consulted where it lies. -/
theorem consults_stored (kind id : String) :
    (stored kind id).Consults (fun found => desk.store.get kind id = .ok found) desk := by
  rw [stored, Consults, ensures_bind, ensures_get]
  exact consults_ofStore

/-- A job that changes nothing may be done for each element of a list. -/
theorem consults_mapM {job : γ → Job σ β} {xs : List γ} {P : β → Prop}
    (h : ∀ x ∈ xs, (job x).Consults P desk) :
    (xs.mapM job).Consults (fun values => ∀ value ∈ values, P value) desk := by
  induction xs with
  | nil => exact consults_pure (List.forall_mem_nil _)
  | cons x xs ih =>
      rw [List.mapM_cons]
      refine (h x List.mem_cons_self).then fun value hvalue => ?_
      refine (ih fun y hy => h y (List.mem_cons_of_mem _ hy)).then fun values hvalues => ?_
      exact consults_pure (List.forall_mem_cons.2 ⟨hvalue, hvalues⟩)

end Reconcile.Job
