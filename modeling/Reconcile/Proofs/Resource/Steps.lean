import Mathlib.Data.List.Basic
import Reconcile.Proofs.Kind.Holding
import Reconcile.Proofs.Kind.Edits
import Reconcile.Proofs.Resource.Rules

/-!
# The steps of an operation

Each step of an operation on an object that a cluster holds either leaves it as it is or, where it
submits edits, makes of it what the edits make. A step that stops leaves it as it is.
-/

namespace Reconcile

variable {α : Type} {kind : Kind α} {root key : String}

open Operation

/-- Edits none of which adds a whole map are not changed for the sake of a live object. -/
theorem Change.rebase_of_no_whole_map {paths : List MutablePath} {live : Json}
    {edits : List Json.Edit} (h : edits.any (addsWholeMap paths) = false) :
    rebase paths live edits = edits := by
  refine rebase_eq_self fun edit hedit => ?_
  have hadds : ¬ addsWholeMap paths edit = true := List.any_eq_false.1 h edit hedit
  cases edit with
  | add path value =>
      cases value with
      | obj entries =>
          have hplace : isTextMap paths path = false := Bool.eq_false_iff.2 hadds
          rw [rebaseEdit, hplace]
      | _ => rfl
  | replace path value => rfl
  | remove path => rfl

/-- What a call preserves is also preserved if the call may be made to fail. -/
theorem Fault.guard_preserves {σ β : Type} {send : σ → Except Failure β × σ} {I : σ → Prop}
    (hsend : ∀ state, I state → I (send state).2) (call : CallKind) {world : List Fault × σ}
    (h : I world.2) : I (guard call send world).2.2 := by
  rcases guard_cases call send world with ⟨failure, faults, hguard⟩ | ⟨faults, hguard⟩
  · rw [hguard]
    exact h
  · rw [hguard]
    exact hsend world.2 h

/-- A call that may be made to fail ensures what the call does, and what it finds if it fails. -/
theorem Operation.ensures_guarded {σ β : Type} {send : σ → Except Failure β × σ} {kind : CallKind}
    {session : Session (List Fault × σ)} {Q : β → Session (List Fault × σ) → Prop}
    {E : Halt → Session (List Fault × σ) → Prop}
    (hfault : ∀ failure faults,
      E (.failure failure) { session with world := (faults, session.world.2) })
    (hok : ∀ faults value after, send session.world.2 = (.ok value, after) →
      Q value { session with world := (faults, after) })
    (herror : ∀ faults failure after, send session.world.2 = (.error failure, after) →
      E (.failure failure) { session with world := (faults, after) }) :
    Ensures (call (Fault.guard kind send)) Q E session := by
  rw [ensures_call]
  rcases Fault.guard_cases kind send session.world with ⟨failure, faults, hguard⟩ | ⟨faults, hguard⟩
  · rw [hguard]
    exact ⟨fun _ heq => (nomatch heq), fun _ _ => hfault _ faults⟩
  · rw [hguard]
    exact ⟨fun value heq => hok faults value _ (Prod.ext heq rfl),
      fun failure heq => herror faults failure _ (Prod.ext heq rfl)⟩

namespace Kind

/-- A session knows a resource whose object the cluster holds. -/
structure Stands (kind : Kind α) (key : String) (known : Resource) (id : Identity) (model : α)
    (session : Session (List Fault × Memory α)) : Prop where
  resource : session.resource = known
  holds : kind.Holds key id model session.world.2

variable {settings : Settings} {known : Resource} {id : Identity} {model live changed : α}
  {session : Session (List Fault × Memory α)} {edits : List Json.Edit}

/-- A reading answers with an object that follows what the cluster holds. -/
theorem Stands.ensures_get (h : kind.Stands key known id model session)
    (hlawful : kind.Lawful root key) (hkey : key ≠ "status") :
    Ensures (call ((Controller.inMemory kind settings).api.get id.ns id.name))
      (fun live after => kind.Stands key known id model after ∧
        after.world.2.find? id.ns id.name = some live ∧
          (kind.metadata live).name = some id.name ∧ kind.Follows key false model live)
      (fun _ => kind.Stands key known id model) session := by
  obtain ⟨hholds, hanswer⟩ := h.holds.get hlawful hkey
  refine ensures_guarded (fun _ _ => ⟨h.resource, h.holds⟩) ?_ ?_
  · intro faults live after hget
    have hread : Memory.get kind id.ns id.name session.world.2 = (.ok live, after) := hget
    rw [hread] at hholds hanswer
    exact ⟨⟨h.resource, hholds⟩, hanswer live rfl⟩
  · intro faults failure after hget
    have hread : Memory.get kind id.ns id.name session.world.2 = (.error failure, after) := hget
    rw [hread] at hholds
    exact ⟨h.resource, hholds⟩

/-- A wait keeps what the cluster holds. -/
theorem Stands.ensures_settle (h : kind.Stands key known id model session)
    (hlawful : kind.Lawful root key) (hkey : key ≠ "status") (limit : Duration) :
    Ensures ((Controller.inMemory kind settings).settle id limit)
      (fun _ => kind.Stands key known id model) (fun _ => kind.Stands key known id model)
      session := by
  refine ensures_await (I := fun world => kind.Holds key id model world.2) ?_ h.holds ?_ ?_
  · intro world hworld
    exact Fault.guard_preserves (fun memory hmemory => (hmemory.get hlawful hkey).1) .get hworld
  · intro world now hworld
    exact ⟨h.resource, hworld⟩
  · intro halt world now hworld
    exact ⟨h.resource, hworld⟩

/-- Edits are rebased on an object that the cluster holds, and it holds the same object after. -/
theorem Stands.ensures_rebased (h : kind.Stands key known id model session)
    (hlawful : kind.Lawful root key) (hkey : key ≠ "status") (edits : List Json.Edit) :
    Ensures ((Controller.inMemory kind settings).rebased id edits)
      (fun rebased after => kind.Stands key known id model after ∧ ∃ live,
        after.world.2.find? id.ns id.name = some live ∧
          (kind.metadata live).name = some id.name ∧ kind.Follows key false model live ∧
          rebased = Change.rebase kind.mutablePaths (kind.toJson live) edits)
      (fun _ => kind.Stands key known id model) session := by
  refine Controller.ensures_rebased (fun _ => ?_) fun hplain => ?_
  · refine (h.ensures_get hlawful hkey).mono ?_ fun _ _ hafter => hafter
    rintro live after ⟨hafter, hfind, hname, hfollows⟩
    exact ⟨hafter, live, hfind, hname, hfollows, rfl⟩
  · obtain ⟨live, hfind, hname, hfollows⟩ := h.holds.object
    exact ⟨h, live, hfind, hname, hfollows, (Change.rebase_of_no_whole_map hplain).symm⟩

/-- Submitted edits make of the object what they can be performed to. -/
theorem Stands.ensures_submit (h : kind.Stands key known id model session)
    (hobs : kind.Observable key) (hfind : session.world.2.find? id.ns id.name = some live)
    (hperform : Json.Edit.performAll? edits (kind.toJson live) = some (kind.toJson changed))
    (hname : (kind.metadata changed).name = some id.name) :
    Ensures ((Controller.inMemory kind settings).submit id edits)
      (fun _ => kind.Stands key known id changed) (fun _ => kind.Stands key known id model)
      session := by
  have hpatched : Memory.patched kind live (Json.Edit.listToJson edits) = .ok changed :=
    Memory.patched_edits_eq_ok_iff.2 ⟨_, hperform, hobs.ofJson?_toJson changed⟩
  rw [Controller.ensures_submit]
  have hcases :=
    Memory.patch_cases kind id.ns id.name (Json.Edit.listToJson edits) session.world.2
  refine ensures_guarded (fun _ _ => ⟨h.resource, h.holds⟩) ?_ ?_
  · intro faults value after hsent
    -- The cluster only writes its own numbers into what the edits have made.
    rcases hcases with ⟨failure, other, hpatch, _⟩ |
      ⟨object, result, stored, other, hobject, hresult, hstored, hpatch, hobjects, hreaction⟩
    · cases hsent.symm.trans hpatch
    · cases hsent.symm.trans hpatch
      obtain rfl : live = object := Option.some.inj (hfind.symm.trans hobject)
      obtain rfl : changed = result := Except.ok.inj (hpatched.symm.trans hresult)
      have hmeta : kind.metadata value = _ := hstored ▸ hobs.metadata_withMetadata _ _
      have hcontent : kind.content key value = kind.content key changed :=
        hstored ▸ hobs.content_withMetadata _ _
      have hstatus : kind.StatusOnly after.reaction := hreaction ▸ h.holds.statusOnly
      refine ⟨h.resource, holds_insert hstatus hobjects ?_ ⟨?_, ?_, .inl hcontent⟩⟩
      · rw [hmeta]
        exact hname
      · rw [hmeta]
        rfl
      · rw [hmeta]
        rfl
  · intro faults failure after hsent
    rcases hcases with ⟨_, other, hpatch, hagrees⟩ | ⟨_, _, _, other, _, _, _, hpatch, _⟩
    · cases hsent.symm.trans hpatch
      exact ⟨h.resource, h.holds.agrees hagrees⟩
    · cases hsent.symm.trans hpatch

end Kind

end Reconcile
