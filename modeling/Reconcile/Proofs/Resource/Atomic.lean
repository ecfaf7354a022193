import Mathlib.Data.List.Basic
import Reconcile.Proofs.Kind.Holding
import Reconcile.Proofs.Resource.Stages
import Reconcile.Role.Kind

/-!
# What operations keep when they stop

An operation that stops keeps what was known of the object, with two exceptions: a creation whose
object exists may know its identity, and an update whose edits have been accepted, or that asks for
none, knows the desired tree (`operations_atomic`). This holds for every control API.
-/

namespace Reconcile

variable {α σ : Type}

open Operation

namespace Controller

variable (c : Controller α σ)

/-- The answer to a call, if it is a patch. -/
def patchAnswer? (entry : Call × σ) : Option (Except Failure α) :=
  match entry.1 with
  | .patch ns name document => some (c.api.patch ns name document entry.2).1
  | _ => none

/-- The answers to the patches of a trace. -/
def patchAnswers (trace : Trace σ) : List (Except Failure α) := trace.filterMap c.patchAnswer?

/-- An update has not got past its patch: it did not come to its edits, or they were rejected. -/
def Stopped (session : Session σ) (new : Tree) (trace : Trace σ) : Prop :=
  (∃ failure, c.prepared session.resource new session.world = .error failure) ∨
    ∃ failure, .error failure ∈ c.patchAnswers trace

/-- An update has got past its patch: it asks for no edits, or they were accepted. -/
def Committed (session : Session σ) (new : Tree) (trace : Trace σ) : Prop :=
  c.prepared session.resource new session.world = .ok [] ∨
    ∃ object, .ok object ∈ c.patchAnswers trace

variable {c} {session : Session σ} {new : Tree} {result : Except Halt Unit}
  {after : Session (Trace σ × σ)}

/-! ## Updates -/

theorem patchAnswers_patches (trace : Trace σ) :
    c.patchAnswers (Trace.patches trace) = c.patchAnswers trace := by
  rw [patchAnswers, Trace.patches, List.filterMap_filter]
  refine List.filterMap_congr fun entry _ => ?_
  obtain ⟨call, met⟩ := entry
  cases call with
  | patch ns name document => rfl
  | create | get | delete => rfl

/-- An update either has not got past its patch and knows what it knew, or it has got past it. -/
theorem UpdateEnds.stopped_or_committed (h : c.UpdateEnds session new result after) :
    (c.Stopped session new after.world.1 ∧ ¬ c.Committed session new after.world.1 ∧
        after.resource = session.resource) ∨
      (c.Committed session new after.world.1 ∧ ¬ c.Stopped session new after.world.1 ∧
        Leaves (c.desired session.resource new) result after.resource) := by
  unfold Stopped Committed
  rw [← patchAnswers_patches]
  cases h with
  | unprepared hprepared hpatches hresource =>
      rw [hprepared, hpatches]
      exact .inl ⟨.inl ⟨_, rfl⟩, by simp [patchAnswers], hresource⟩
  | rejected hid hprepared hne hpatches hanswer hresource =>
      rw [hprepared, hpatches]
      have hanswers : c.patchAnswers [(.patch _ _ _, _)] = [_] := congrArg (· :: []) hanswer
      rw [hanswers]
      exact .inl ⟨.inr ⟨_, List.mem_singleton_self _⟩, by simp [hne], hresource⟩
  | accepted hid hprepared hne hpatches hanswer hleaves =>
      rw [hprepared, hpatches]
      have hanswers : c.patchAnswers [(.patch _ _ _, _)] = [_] := congrArg (· :: []) hanswer
      rw [hanswers]
      exact .inr ⟨.inr ⟨_, List.mem_singleton_self _⟩, by simp, hleaves⟩
  | unneeded hprepared hpatches hleaves =>
      rw [hprepared, hpatches]
      exact .inr ⟨.inl rfl, by simp [patchAnswers], hleaves⟩

/-! ## The other operations -/

/-- A reading that stops keeps what was known. -/
theorem ensures_read_stopped (c : Controller α σ) (session : Session σ) :
    Ensures c.read (fun _ _ => True) (fun _ after => after.resource = session.resource)
      session := by
  refine ensures_read (fun _ => rfl) fun id _ => ?_
  rw [ensures_call]
  exact ⟨fun _ _ => trivial, fun _ _ => rfl⟩

/-- A deletion that stops keeps what was known, and one that does not forgets the identity. -/
theorem ensures_delete_forgets (c : Controller α σ) (session : Session σ) :
    Ensures c.delete (fun _ after => after.resource = { session.resource with id := none })
      (fun _ after => after.resource = session.resource) session := by
  refine ensures_delete (fun _ => rfl) fun id _ => ?_
  have hdrained : Ensures (c.drained id) (fun _ after => after.resource = session.resource)
      (fun _ after => after.resource = session.resource) session := by
    refine ensures_drained (fun _ => rfl) fun drain _ => ?_
    rw [ensures_submit, ensures_call]
    refine ⟨fun _ _ => ?_, fun _ _ => rfl⟩
    exact (ensures_settle_preserves (I := fun _ => True) c.settings.deleteLimit
      (fun _ _ => trivial) trivial).mono (fun _ _ hsettled => hsettled.1)
        fun _ _ hsettled => hsettled.1
  refine hdrained.mono (fun _ ready hready => ?_) fun _ _ hstopped => hstopped
  rw [ensures_call]
  exact ⟨fun _ _ => rfl, fun _ _ => hready⟩

/-- A creation that makes no object keeps what was known. -/
theorem create_unmade {failure : Failure}
    (h : c.created session.resource.config session.world = .error failure) :
    ∃ after, c.create.run session = (.error (.failure failure), after) ∧
      after.resource = session.resource := by
  rcases Steps.bind_eq_error_iff.1 h with hmalformed | ⟨⟨ns, placed⟩, hasked, hrefused⟩
  · exact ⟨_, create_malformed hmalformed, rfl⟩
  · exact ⟨_, create_refused hasked hrefused, rfl⟩

/-- An update of a known object to a malformed tree stops at once. -/
theorem update_malformed {id : Identity} {failure : Failure} (hid : session.resource.id = some id)
    (h : c.kind.plan session.resource.config new = .error failure) :
    (c.update new).run session = (.error (.failure failure), session) := by
  refine Ensures.run_eq_stop (ensures_update (fun hnone => nomatch hnone.symm.trans hid)
    (Resource.forall_id hid
      ⟨fun other hother => ?_, fun _ hplanned => nomatch h.symm.trans hplanned⟩))
  obtain rfl : failure = other := Except.error.inj (h.symm.trans hother)
  exact ⟨rfl, rfl⟩

end Controller

/-- Whatever the API does, an operation that stops keeps what was known of the object unless its
changes have been accepted. A reading and a deletion that stop change nothing of it, and a deletion
that succeeds changes the identity only. A malformed tree is found before any call, and a creation
whose call is not accepted changes nothing. An update never changes the identity. One that stops has
not got past its patch and changes nothing, or it has got past it and knows the desired tree. -/
theorem operations_atomic (c : Controller α σ) (session : Session σ) (new : Tree) :
    (∀ halt after, c.read.run session = (.error halt, after) →
      after.resource = session.resource) ∧
    (∀ result after, c.delete.run session = (result, after) → after.resource =
      match result with
      | .ok _ => { session.resource with id := none }
      | .error _ => session.resource) ∧
    (∀ failure, c.asked session.resource.config = .error failure →
      c.traced.create.run session.traced = (.error (.failure failure), session.traced)) ∧
    (∀ failure, c.created session.resource.config session.world = .error failure →
      ∃ after, c.create.run session = (.error (.failure failure), after) ∧
        after.resource = session.resource) ∧
    (∀ id failure, session.resource.id = some id →
      c.kind.plan session.resource.config new = .error failure →
      (c.traced.update new).run session.traced = (.error (.failure failure), session.traced)) ∧
    ∀ result after, (c.traced.update new).run session.traced = (result, after) →
      (c.update new).run session = (result, after.untraced) ∧
      after.resource.id = session.resource.id ∧
      ∀ halt, result = .error halt →
        (c.Stopped session new after.world.1 ∨ c.Committed session new after.world.1) ∧
        (c.Stopped session new after.world.1 → after.resource = session.resource) ∧
        (c.Committed session new after.world.1 →
          after.resource = c.desired session.resource new) := by
  refine ⟨fun halt after hrun => ?_, fun result after hrun => ?_, fun failure hmalformed => ?_,
    fun failure hrefused => ?_, fun id failure hid hmalformed => ?_, fun result after hrun => ?_⟩
  · have hread := c.ensures_read_stopped session
    unfold Ensures at hread
    rwa [hrun] at hread
  · have hdelete := c.ensures_delete_forgets session
    unfold Ensures at hdelete
    rw [hrun] at hdelete
    cases result with
    | ok _ => exact hdelete
    | error halt => exact hdelete
  · exact Controller.create_malformed hmalformed
  · exact Controller.create_unmade hrefused
  · exact Controller.update_malformed hid hmalformed
  · have htraces := c.traces_update new session.traced
    have hends := c.updateEnds_update session new
    rw [hrun] at htraces hends
    refine ⟨htraces.symm, ?_⟩
    rcases hends.stopped_or_committed with ⟨hstopped, hnot, hkept⟩ | ⟨hcommitted, hnot, hleaves⟩
    · exact ⟨congrArg Resource.id hkept, fun _ _ =>
        ⟨.inl hstopped, fun _ => hkept, fun hcommitted => absurd hcommitted hnot⟩⟩
    · cases result with
      | ok _ => exact ⟨hleaves, fun _ herror => (nomatch herror)⟩
      | error halt =>
          have hdesired : after.resource = c.desired session.resource new := hleaves
          refine ⟨?_, fun _ _ =>
            ⟨.inr hcommitted, fun hstopped => absurd hstopped hnot, fun _ => hdesired⟩⟩
          rw [hdesired]
          rfl

/-- A role that cannot be read while its labels are changed: the reading keeps the old tree, the
update takes over the new one once its patch has been accepted, and a deletion forgets the
identity. -/
theorem operations_atomic_unreadable :
    let tree (label : String) : Tree := .obj [("metadata", .arr [.obj
      [("labels", .obj [("a", .str label)]), ("name", .str "r")]])]
    let labels (label : String) : Dict String := Dict.ofList [("a", label)]
    let live : Role := { metadata := { name := some "r", labels := some (labels "1") } }
    let refusal := Failure.callFailed .get "role" (.described "forbidden")
    let memory : Memory Role := { objects := [(("default", "r"), live)] }
    let id : Identity := ⟨"default", "r", by decide, by decide⟩
    let session : Session (List Fault × Memory Role) :=
      ⟨⟨some id, tree "1"⟩, ([⟨.get, 0, 1, refusal⟩], memory), .start 10⟩
    let c := Controller.inMemory Role.kind Settings.default
    ∃ read updated deleted,
      c.read.run session = (.error (.failure refusal), read) ∧ read.resource = ⟨some id, tree "1"⟩ ∧
      (c.update (tree "2")).run session = (.error (.failure refusal), updated) ∧
      updated.resource = ⟨some id, tree "2"⟩ ∧
      c.delete.run session = (.ok (), deleted) ∧ deleted.resource = ⟨none, tree "1"⟩ := by
  intro tree labels live refusal memory id session c
  have hatomic := operations_atomic c session (tree "2")
  have hreading : (c.read.run session).1 = .error (.failure refusal) := by decide +kernel
  have hupdating : ((c.traced.update (tree "2")).run session.traced).1 =
      .error (.failure refusal) := by
    decide +kernel
  have haccepted : (c.patchAnswers ((c.traced.update (tree "2")).run session.traced).2.world.1).any
      Except.isOk = true := by
    decide +kernel
  have hdeleting : (c.delete.run session).1 = .ok () := by decide +kernel
  have hdesired : c.desired session.resource (tree "2") = ⟨some id, tree "2"⟩ := by decide +kernel
  have hconfig : session.resource = ⟨some id, tree "1"⟩ := rfl
  -- The runs have been evaluated, and what is known after them follows from how they ended.
  clear_value c session
  obtain ⟨hread, hdelete, _, _, _, hupdate⟩ := hatomic
  obtain ⟨huntraced, _, hends⟩ := hupdate _ _ (Prod.ext hupdating rfl)
  obtain ⟨answer, hanswer, hok⟩ := List.any_eq_true.1 haccepted
  have hcommitted : c.Committed session (tree "2")
      ((c.traced.update (tree "2")).run session.traced).2.world.1 := by
    cases answer with
    | ok object => exact .inr ⟨object, hanswer⟩
    | error failure => cases hok
  refine ⟨_, _, _, Prod.ext hreading rfl, (hread _ _ (Prod.ext hreading rfl)).trans hconfig,
    huntraced, ((hends _ rfl).2.2 hcommitted).trans hdesired, Prod.ext hdeleting rfl,
    (hdelete _ _ (Prod.ext hdeleting rfl)).trans ?_⟩
  rw [hconfig]

end Reconcile
