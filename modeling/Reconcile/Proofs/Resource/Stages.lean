import Mathlib.Data.List.Basic
import Reconcile.Proofs.Resource.Rules
import Reconcile.Proofs.Resource.Traces

/-!
# How creations and updates end

A creation asks for one object (`Controller.asked`), and goes on once it has been made and can be
identified. An update first comes to the edits that it asks for
(`Controller.prepared`), submits them if there are any, and then waits for the object and reads it.
`Controller.UpdateEnds` lists the ways in which it can end: what is known of the object afterwards,
and which patch has been submitted.
-/

namespace Reconcile

variable {α σ : Type}

open Operation

/-- The patches of a trace with the worlds that they have met. -/
def Trace.patches (trace : Trace σ) : Trace σ := trace.filter (·.1.kind = .patch)

namespace Controller

variable (c : Controller α σ)

/-! ## Creations -/

section Stops

variable {c} {session : Session σ} {ns : String} {placed object : α} {failure : Failure}

/-- A creation from a malformed tree stops at once. -/
theorem create_malformed (hasked : c.asked session.resource.config = .error failure) :
    c.create.run session = (.error (.failure failure), session) := by
  refine Ensures.run_eq_stop (ensures_create (fun other hother => ?_) fun _ _ hother =>
    nomatch hasked.symm.trans hother)
  obtain rfl := Except.error.inj (hasked.symm.trans hother)
  exact ⟨rfl, rfl⟩

/-- A creation stops at a call that is not accepted. -/
theorem create_refused (hasked : c.asked session.resource.config = .ok (ns, placed))
    (hrefused : (c.api.create ns placed session.world).1 = .error failure) :
    c.create.run session = (.error (.failure failure),
      { session with world := (c.api.create ns placed session.world).2 }) := by
  refine Ensures.run_eq_stop (ensures_create (fun _ herror => nomatch hasked.symm.trans herror)
    fun ns placed hother => ?_)
  obtain ⟨rfl, rfl⟩ := Prod.mk.inj (Except.ok.inj (hasked.symm.trans hother))
  rw [ensures_call]
  refine ⟨fun _ hmade => (nomatch hrefused.symm.trans hmade), fun other herror => ?_⟩
  obtain rfl := Except.error.inj (hrefused.symm.trans herror)
  exact ⟨rfl, rfl⟩

/-- A creation stops at an object that cannot be identified. -/
theorem create_unidentified (hasked : c.asked session.resource.config = .ok (ns, placed))
    (hobject : (c.api.create ns placed session.world).1 = .ok object)
    (hunidentified : c.identityOf ns object = .error failure) :
    c.create.run session = (.error (.failure failure),
      { session with world := (c.api.create ns placed session.world).2 }) := by
  refine Ensures.run_eq_stop (ensures_create_accepted hasked hobject (fun other hother => ?_)
    fun _ hid => nomatch hunidentified.symm.trans hid)
  obtain rfl := Except.error.inj (hunidentified.symm.trans hother)
  exact ⟨rfl, rfl⟩

end Stops

/-! ## Updates -/

/-- Planned edits that spare the keys of the live object, or why the object could not be read. -/
def spared (id : Identity) (planned : List Json.Edit) (world : σ) :
    Except Failure (List Json.Edit) :=
  if planned.any (Change.addsWholeMap c.kind.mutablePaths) then
    (c.api.get id.ns id.name world).1.map fun live =>
      Change.rebase c.kind.mutablePaths (c.kind.toJson live) planned
  else .ok planned

/-- The edits that an update asks for, or why it does not get that far: the object has not been
created, the new tree is malformed, or the live object could not be read. -/
def prepared (known : Resource) (new : Tree) (world : σ) : Except Failure (List Json.Edit) := do
  let id ← known.identity
  let planned ← c.kind.plan known.config new
  c.spared id planned world

/-- What an update leaves after its edits have been accepted: it still knows the desired tree if it
stops, and it never forgets the identity. -/
def Leaves (desired : Resource) (result : Except Halt Unit) (after : Resource) : Prop :=
  match result with
  | .ok _ => after.id = desired.id
  | .error _ => after = desired

/-- The ways in which an update can end. -/
inductive UpdateEnds (session : Session σ) (new : Tree) :
    Except Halt Unit → Session (Trace σ × σ) → Prop where
  | unprepared {failure : Failure} {after : Session (Trace σ × σ)}
      (hprepared : c.prepared session.resource new session.world = .error failure)
      (hpatches : Trace.patches after.world.1 = [])
      (hresource : after.resource = session.resource) :
      UpdateEnds session new (.error (.failure failure)) after
  | rejected {id : Identity} {edits : List Json.Edit} {met : σ} {failure : Failure}
      {after : Session (Trace σ × σ)} (hid : session.resource.id = some id)
      (hprepared : c.prepared session.resource new session.world = .ok edits) (hne : edits ≠ [])
      (hpatches : Trace.patches after.world.1 =
        [(.patch id.ns id.name (Json.Edit.listToJson edits), met)])
      (hanswer : (c.api.patch id.ns id.name (Json.Edit.listToJson edits) met).1 = .error failure)
      (hresource : after.resource = session.resource) :
      UpdateEnds session new (.error (.failure failure)) after
  | accepted {id : Identity} {edits : List Json.Edit} {met : σ} {object : α}
      {result : Except Halt Unit} {after : Session (Trace σ × σ)}
      (hid : session.resource.id = some id)
      (hprepared : c.prepared session.resource new session.world = .ok edits) (hne : edits ≠ [])
      (hpatches : Trace.patches after.world.1 =
        [(.patch id.ns id.name (Json.Edit.listToJson edits), met)])
      (hanswer : (c.api.patch id.ns id.name (Json.Edit.listToJson edits) met).1 = .ok object)
      (hleaves : Leaves (c.desired session.resource new) result after.resource) :
      UpdateEnds session new result after
  | unneeded {result : Except Halt Unit} {after : Session (Trace σ × σ)}
      (hprepared : c.prepared session.resource new session.world = .ok [])
      (hpatches : Trace.patches after.world.1 = [])
      (hleaves : Leaves (c.desired session.resource new) result after.resource) :
      UpdateEnds session new result after

variable {c} {id : Identity} {known : Resource} {session : Session (Trace σ × σ)}
  {planned edits : List Json.Edit} {patches : Trace σ}

/-- Sparing the keys of the live object changes nothing that is known and submits no patch. -/
theorem ensures_rebased_spared (h : Trace.patches session.world.1 = patches) :
    Ensures (c.traced.rebased id planned)
      (fun edits after => c.spared id planned session.world.2 = .ok edits ∧
        after.resource = session.resource ∧ Trace.patches after.world.1 = patches)
      (fun halt after => (∃ failure, halt = .failure failure ∧
          c.spared id planned session.world.2 = .error failure) ∧
        after.resource = session.resource ∧ Trace.patches after.world.1 = patches) session := by
  refine ensures_rebased (fun hmap => ?_) fun hplain => ⟨?_, rfl, h⟩
  · have hspared : c.spared id planned session.world.2 =
        (c.api.get id.ns id.name session.world.2).1.map fun live =>
          Change.rebase c.kind.mutablePaths (c.kind.toJson live) planned := if_pos hmap
    rw [ensures_call, hspared]
    refine ⟨fun live hlive => ⟨?_, rfl, h⟩, fun failure hfailure => ⟨⟨failure, rfl, ?_⟩, rfl, h⟩⟩
    · rw [show (c.api.get id.ns id.name session.world.2).1 = .ok live from hlive]
      rfl
    · rw [show (c.api.get id.ns id.name session.world.2).1 = .error failure from hfailure]
      rfl
  · exact if_neg (Bool.eq_false_iff.1 hplain)

/-- Edits are submitted in one patch, which the API accepts or rejects. -/
theorem ensures_submit_patches (h : Trace.patches session.world.1 = []) :
    Ensures (c.traced.submit id edits)
      (fun _ after => (∃ object, (c.api.patch id.ns id.name (Json.Edit.listToJson edits)
          session.world.2).1 = .ok object) ∧ after.resource = session.resource ∧
        Trace.patches after.world.1 =
          [(.patch id.ns id.name (Json.Edit.listToJson edits), session.world.2)])
      (fun halt after => (∃ failure, halt = .failure failure ∧ (c.api.patch id.ns id.name
          (Json.Edit.listToJson edits) session.world.2).1 = .error failure) ∧
        after.resource = session.resource ∧ Trace.patches after.world.1 =
          [(.patch id.ns id.name (Json.Edit.listToJson edits), session.world.2)]) session := by
  rw [ensures_submit, ensures_call]
  refine ⟨fun object hobject => ⟨⟨object, hobject⟩, rfl, ?_⟩,
    fun failure hfailure => ⟨⟨failure, rfl, hfailure⟩, rfl, ?_⟩⟩
  · exact congrArg (List.cons _) h
  · exact congrArg (List.cons _) h

/-- After its edits have been accepted an update keeps the desired tree until it shows the object,
and submits no other patch. -/
theorem ensures_takeover {desired : Resource} (hid : desired.id = some id)
    (h : Trace.patches session.world.1 = patches) (limit : Duration) :
    Ensures (do
        c.traced.settle id limit
        c.traced.read)
      (fun value after => Trace.patches after.world.1 = patches ∧
        Leaves desired (.ok value) after.resource)
      (fun halt after => Trace.patches after.world.1 = patches ∧
        Leaves desired (.error halt) after.resource) { session with resource := desired } := by
  have hread : ∀ world : Trace σ × σ, Trace.patches world.1 = patches →
      Trace.patches (c.traced.api.get id.ns id.name world).2.1 = patches := fun _ hworld => hworld
  refine Ensures.mono (ensures_settle_read_preserves ?_ limit hread ?_)
    (fun _ _ hafter => ⟨hafter.2, hafter.1.trans hid.symm⟩) fun _ _ hafter => ⟨hafter.2, hafter.1⟩
  · exact hid
  · exact h

/-- An update that has come to its edits submits them if there are any, and takes over the desired
tree if they are accepted. -/
theorem ensures_commit {session : Session σ} {spared : Session (Trace σ × σ)} {new : Tree}
    (hid : session.resource.id = some id)
    (hprepared : c.prepared session.resource new session.world = .ok edits)
    (hresource : spared.resource = session.resource)
    (hpatches : Trace.patches spared.world.1 = []) (limit : Duration) :
    Ensures (c.traced.submitted id edits)
      (fun _ submitted => Ensures (do
          c.traced.settle id limit
          c.traced.read)
        (fun value => c.UpdateEnds session new (.ok value))
        (fun halt => c.UpdateEnds session new (.error halt))
        { submitted with resource := c.desired session.resource new })
      (fun halt => c.UpdateEnds session new (.error halt)) spared := by
  have hdesired : (c.desired session.resource new).id = some id := hid
  refine ensures_submitted (fun hnil => ?_) fun hne => ?_
  · subst hnil
    refine (ensures_takeover hdesired hpatches limit).mono ?_ ?_
    · exact fun _ _ hafter => .unneeded hprepared hafter.1 hafter.2
    · exact fun _ _ hafter => .unneeded hprepared hafter.1 hafter.2
  · refine (ensures_submit_patches hpatches).mono ?_ ?_
    · rintro _ submitted ⟨⟨object, hobject⟩, _, hsubmitted⟩
      refine (ensures_takeover hdesired hsubmitted limit).mono ?_ ?_
      · exact fun _ _ hafter => .accepted hid hprepared hne hafter.1 hobject hafter.2
      · exact fun _ _ hafter => .accepted hid hprepared hne hafter.1 hobject hafter.2
    · rintro _ submitted ⟨⟨failure, rfl, hfailure⟩, hkept, hsubmitted⟩
      exact .rejected hid hprepared hne hsubmitted hfailure (hkept.trans hresource)

/-- An update of a known object comes to the edits that are left of its plan. -/
theorem prepared_of_plan {known : Resource} {new : Tree} (hid : known.id = some id)
    (hplan : c.kind.plan known.config new = .ok planned) (world : σ) :
    c.prepared known new world = c.spared id planned world := by
  rw [prepared, Resource.identity, hid, Steps.bind_ok, hplan, Steps.bind_ok]

/-- Every run of an update ends in one of the ways. -/
theorem updateEnds_update (c : Controller α σ) (session : Session σ) (new : Tree) :
    c.UpdateEnds session new ((c.traced.update new).run session.traced).1
      ((c.traced.update new).run session.traced).2 := by
  refine Ensures.result (P := c.UpdateEnds session new) ?_
  have htrace : Trace.patches session.traced.world.1 = [] := rfl
  refine ensures_update (fun hnone => .unprepared ?_ htrace rfl) fun id hid =>
    ⟨fun failure hfailure => .unprepared ?_ htrace rfl, fun planned hplanned => ?_⟩
  · have hnone : session.resource.id = none := hnone
    rw [prepared, Resource.identity, hnone]
    rfl
  · have hid : session.resource.id = some id := hid
    have hfailure : c.kind.plan session.resource.config new = .error failure := hfailure
    rw [prepared, Resource.identity, hid, Steps.bind_ok, hfailure]
    rfl
  · have hid : session.resource.id = some id := hid
    have hplanned : c.kind.plan session.resource.config new = .ok planned := hplanned
    have hprepared : c.prepared session.resource new session.world =
        c.spared id planned session.world := prepared_of_plan hid hplanned session.world
    refine (ensures_rebased_spared htrace).mono ?_ ?_
    · rintro edits spared ⟨hedits, hresource, hpatches⟩
      exact ensures_commit hid (hprepared.trans hedits) hresource hpatches _
    · rintro _ stopped ⟨⟨failure, rfl, hspared⟩, hresource, hpatches⟩
      exact .unprepared (hprepared.trans hspared) hpatches hresource

/-- An update submits the edits that it comes to in one patch, if there are any. -/
theorem UpdateEnds.exists_patches {session : Session σ} {new : Tree} {result : Except Halt Unit}
    {after : Session (Trace σ × σ)} (h : c.UpdateEnds session new result after)
    (hid : session.resource.id = some id)
    (hprepared : c.prepared session.resource new session.world = .ok edits) :
    (edits = [] ∧ Trace.patches after.world.1 = []) ∨
      edits ≠ [] ∧ ∃ met, Trace.patches after.world.1 =
        [(.patch id.ns id.name (Json.Edit.listToJson edits), met)] := by
  cases h with
  | unprepared hfailed => cases hprepared.symm.trans hfailed
  | rejected hid' hprepared' hne hpatches =>
      obtain rfl := Option.some.inj (hid.symm.trans hid')
      obtain rfl := Except.ok.inj (hprepared.symm.trans hprepared')
      exact .inr ⟨hne, _, hpatches⟩
  | accepted hid' hprepared' hne hpatches =>
      obtain rfl := Option.some.inj (hid.symm.trans hid')
      obtain rfl := Except.ok.inj (hprepared.symm.trans hprepared')
      exact .inr ⟨hne, _, hpatches⟩
  | unneeded hprepared' hpatches =>
      exact .inl ⟨Except.ok.inj (hprepared.symm.trans hprepared'), hpatches⟩

/-- What is so of every patch that an update submits is so of its edits, if there are any. -/
theorem forall_patch_iff {session : Session σ} {new : Tree} (hid : session.resource.id = some id)
    (hprepared : c.prepared session.resource new session.world = .ok edits)
    {P : String → String → Json → Prop} :
    (∀ ns name document met, (.patch ns name document, met) ∈
        ((c.traced.update new).run session.traced).2.world.1 → P ns name document) ↔
      (edits ≠ [] → P id.ns id.name (Json.Edit.listToJson edits)) := by
  have hmem : ∀ (trace : Trace σ) (ns name : String) (document : Json) (met : σ),
      (Call.patch ns name document, met) ∈ trace ↔
        (Call.patch ns name document, met) ∈ Trace.patches trace := fun _ _ _ _ _ =>
    (List.mem_filter.trans (and_iff_left rfl)).symm
  constructor
  · intro hall hne
    rcases (c.updateEnds_update session new).exists_patches hid hprepared with
      ⟨hnil, _⟩ | ⟨_, met, hpatches⟩
    · exact absurd hnil hne
    · refine hall _ _ _ met ((hmem _ _ _ _ _).2 ?_)
      rw [hpatches]
      exact List.mem_singleton_self _
  · intro hedits ns name document met hentry
    rw [hmem] at hentry
    rcases (c.updateEnds_update session new).exists_patches hid hprepared with
      ⟨_, hpatches⟩ | ⟨hne, _, hpatches⟩
    · rw [hpatches] at hentry
      cases hentry
    · rw [hpatches] at hentry
      cases List.mem_singleton.1 hentry
      exact hedits hne

end Controller

end Reconcile
