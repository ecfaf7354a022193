import Mathlib.Data.List.Basic
import Reconcile.Proofs.Resource.Atomic
import Reconcile.Proofs.Resource.Discipline

/-!
# What a plan says of an update

An update of a known object fails without a call exactly if its plan fails, and submits a patch
exactly if its plan has edits, unless the live object cannot be read first (`plan_predicts_update`).
The patch spells the plan out (`Change.Spells`): the edits are the planned ones in their order, but
an addition of a whole map is replaced by additions of its entries where the live object holds a map
already.
-/

namespace Reconcile

variable {α σ : Type} {root key : String}

open Operation

/-! ## Plans and patches -/

namespace Change

open Json (Edit)

/-- At the place of a map of texts, the live object has been read and holds a map. -/
def HoldsMap (paths : List MutablePath) (live : Option Json) (pointer : String) : Prop :=
  isTextMap paths pointer = true ∧
    ∃ held, live.bind (Json.Pointer.find? pointer) = some (.obj held)

/-- Edits spell planned ones out: each of these is kept, except that a whole map is added entry by
entry where the live object holds a map. -/
inductive Spells (paths : List MutablePath) (live : Option Json) :
    List Edit → List Edit → Prop where
  | nil : Spells paths live [] []
  | kept {edit : Edit} {planned edits : List Edit}
      (hkept : ∀ pointer entries, edit = .add pointer (.obj entries) →
        ¬ HoldsMap paths live pointer)
      (hrest : Spells paths live planned edits) :
      Spells paths live (edit :: planned) (edit :: edits)
  | split {pointer : String} {entries : Json.Fields} {planned edits : List Edit}
      (hheld : HoldsMap paths live pointer) (hrest : Spells paths live planned edits) :
      Spells paths live (.add pointer (.obj entries) :: planned)
        (entries.map (fun (key, value) => .add (Json.Pointer.child pointer key) value) ++ edits)

variable {paths : List MutablePath}

/-- Where no live object has been read, planned edits stay as they are. -/
theorem spells_self (planned : List Edit) : Spells paths none planned planned := by
  induction planned with
  | nil => exact .nil
  | cons edit planned ih => exact .kept (fun _ _ _ ⟨_, _, hnone⟩ => nomatch hnone) ih

/-- Rebased edits spell planned ones out. -/
theorem spells_rebase (live : Json) (planned : List Edit) :
    Spells paths (some live) planned (rebase paths live planned) := by
  induction planned with
  | nil => exact .nil
  | cons edit planned ih =>
      rw [rebase, List.flatMap_cons]
      unfold rebaseEdit
      split
      · rename_i pointer entries
        split
        · rename_i held hplace hheld
          exact .split ⟨hplace, held, hheld⟩ ih
        · rename_i hfree
          refine .kept ?_ ih
          rintro _ _ ⟨⟩ ⟨hplace, held, hheld⟩
          exact hfree held hplace hheld
      · rename_i hother
        exact .kept (fun pointer entries hadd => absurd hadd (hother pointer entries)) ih

/-- A whole map is added entry by entry where the live object holds a map. -/
theorem Spells.add_of_held {live : Option Json} {pointer : String} {entries : Json.Fields}
    {edits : List Edit} (h : Spells paths live [.add pointer (.obj entries)] edits)
    (hheld : HoldsMap paths live pointer) :
    edits = entries.map fun (key, value) => .add (Json.Pointer.child pointer key) value := by
  cases h with
  | kept hkept _ => exact absurd hheld (hkept pointer entries rfl)
  | split _ hrest =>
      cases hrest
      exact List.append_nil _

/-- A whole map is added at once where the live object holds no map. -/
theorem Spells.add_of_free {live : Option Json} {pointer : String} {entries : Json.Fields}
    {edits : List Edit} (h : Spells paths live [.add pointer (.obj entries)] edits)
    (hfree : ¬ HoldsMap paths live pointer) : edits = [.add pointer (.obj entries)] := by
  cases h with
  | kept _ hrest =>
      cases hrest
      rfl
  | split hheld _ => exact absurd hheld hfree

end Change

/-! ## The first reading of a wait -/

section Waiting

variable {β : Type} {what : String} {check : β → Progress} {observe : σ → Except Failure β × σ}
  {I : σ → Prop}

/-- What every reading preserves holds after a wait that has preserved it while it was pending. -/
theorem Wait.Ends.after {outcome : Wait.Outcome β} {after : σ}
    (hread : ∀ world, I world → I (observe world).2)
    (h : Wait.Ends check observe I outcome after) : I after := by
  cases h with
  | converged hlast hobserve _ => exact (congrArg (I ·.2) hobserve).mp (hread _ hlast)
  | broken hlast hobserve => exact (congrArg (I ·.2) hobserve).mp (hread _ hlast)
  | expired _ hafter => exact hafter
  | overflow _ hafter => exact hafter
  | unfinished hafter => exact hafter

/-- What the first reading of a wait brings and the other ones preserve holds after the wait. -/
theorem Wait.poll_first (hread : ∀ world, I world → I (observe world).2) (deadline reads : Nat)
    (waiter : Waiter) (clock : Clock) {world : σ} (hfirst : I (observe world).2) :
    I (poll what check observe deadline (reads + 1) waiter clock world).world := by
  have hlater : ∀ waiter clock,
      I (poll what check observe deadline reads waiter clock (observe world).2).world :=
    fun waiter clock => (poll_ends (fun world _ hworld _ _ => hread world hworld) deadline reads
      waiter clock hfirst).after hread
  cases hstatus : classify check (observe world).1 with
  | converged value => simpa only [poll, hstatus] using hfirst
  | failed failure => simpa only [poll, hstatus] using hfirst
  | pending progress =>
      simp only [poll, hstatus]
      split
      · exact hfirst
      · split
        · exact hlater _ _
        · exact hfirst

/-- A wait that ends has taken a reading. -/
theorem Wait.run_first (what : String) (check : β → Progress)
    (hread : ∀ world, I world → I (observe world).2) (watch : Watch) (waiter : Waiter)
    {world : σ} (hfirst : I (observe world).2)
    (hended : (run what check observe watch waiter world).outcome.Ended) :
    I (run what check observe watch waiter world).world := by
  unfold run at hended ⊢
  split at hended
  · cases hreads : watch.horizon with
    | zero =>
        rw [hreads] at hended
        exact hended.elim
    | succ reads => exact poll_first hread _ reads _ _ hfirst
  · exact hended.elim

/-- What the first reading of a wait brings and the other ones preserve holds after the wait, if it
has ended. -/
theorem Operation.ensures_await_first {options : Wait.Options} {session : Session σ}
    (hread : ∀ world, I world → I (observe world).2) (hfirst : I (observe session.world).2) :
    Ensures (await what options check observe) (fun _ after => I after.world)
      (fun halt after => ∀ failure, halt = .failure failure → I after.world) session := by
  have hrun := Wait.run_first what check hread session.watch (.fresh options) hfirst
  rw [Ensures, run_await]
  revert hrun
  obtain ⟨outcome, waiter, clock, world⟩ :=
    Wait.run what check observe session.watch (.fresh options) session.world
  intro hrun
  cases outcome with
  | converged value => exact hrun trivial
  | failed failure => exact fun _ _ => hrun trivial
  | overflow overflow => exact fun _ hhalt => Halt.noConfusion hhalt
  | unfinished => exact fun _ hhalt => Halt.noConfusion hhalt

end Waiting

/-! ## The calls of an update -/

namespace Controller

variable {c : Controller α σ} {target : Identity} {new : Tree} {planned edits : List Json.Edit}

/-- What an update has read of the live object when it submits planned edits: nothing unless one of
them adds a whole map. -/
def glimpse (c : Controller α σ) (target : Identity) (planned : List Json.Edit) (world : σ) :
    Except Failure (Option Json) :=
  if planned.any (Change.addsWholeMap c.kind.mutablePaths) then
    (c.api.get target.ns target.name world).1.map fun live => some (c.kind.toJson live)
  else .ok none

/-- An update submits edits that spell its plan out, unless the live object cannot be read. -/
theorem spared_of_glimpse (c : Controller α σ) (target : Identity) (planned : List Json.Edit)
    (world : σ) :
    (∃ failure, c.glimpse target planned world = .error failure ∧
        c.spared target planned world = .error failure) ∨
      ∃ live edits, c.glimpse target planned world = .ok live ∧
        c.spared target planned world = .ok edits ∧
        Change.Spells c.kind.mutablePaths live planned edits := by
  unfold glimpse spared
  split
  · cases hlive : (c.api.get target.ns target.name world).1 with
    | error failure => exact .inl ⟨failure, rfl, rfl⟩
    | ok live => exact .inr ⟨_, _, rfl, rfl, Change.spells_rebase _ _⟩
  · exact .inr ⟨_, _, rfl, rfl, Change.spells_self planned⟩

section Calls

variable {calls : Trace σ} {session : Session (Trace σ × σ)}

/-- Given calls have been sent before all others. -/
def Begins (calls : Trace σ) (world : Trace σ × σ) : Prop := calls <:+ world.1

/-- An operation that has failed has sent a call, and given ones before all others. -/
def Fails (calls : Trace σ) (halt : Halt) (after : Session (Trace σ × σ)) : Prop :=
  Begins calls after.world ∧ ∀ failure, halt = .failure failure → after.world.1 ≠ []

/-- A call is added after the calls that have been sent. -/
theorem begins_cons {trace : Trace σ} (h : calls <:+ trace) (entry : Call × σ) (world : σ) :
    Begins calls (entry :: trace, world) :=
  h.trans (List.suffix_cons _ _)

/-- A wait sends a call before it fails. -/
theorem ensures_settle_begins (h : Begins calls session.world) (limit : Duration) :
    Ensures (c.traced.settle target limit)
      (fun _ after => after.resource = session.resource ∧ Begins calls after.world) (Fails calls)
      session := by
  have hpreserves : Ensures (c.traced.settle target limit) _ _ session :=
    ensures_settle_preserves limit (fun _ hworld => begins_cons hworld _ _) h
  have hsends : Ensures (c.traced.settle target limit) _ _ session :=
    ensures_await_first (I := fun world => world.1 ≠ []) (fun _ _ => List.cons_ne_nil _ _)
      (List.cons_ne_nil _ _)
  exact (hpreserves.and hsends).mono (fun _ _ hafter => hafter.1)
    fun _ _ hstopped => ⟨hstopped.1.2, hstopped.2⟩

/-- A reading sends a call before it fails. -/
theorem ensures_read_begins (hid : session.resource.id = some target)
    (h : Begins calls session.world) :
    Ensures c.traced.read (fun _ after => Begins calls after.world) (Fails calls) session := by
  refine ensures_read (fun hnone => nomatch hnone.symm.trans hid) (Resource.forall_id hid ?_)
  rw [ensures_call]
  exact ⟨fun _ _ => begins_cons h _ _, fun _ _ => ⟨begins_cons h _ _, fun _ _ =>
    List.cons_ne_nil _ _⟩⟩

/-- The live object is read before edits are submitted one of which adds a whole map. -/
theorem ensures_rebased_fetches {session : Session σ} :
    Ensures (c.traced.rebased target planned)
      (fun _ after => after.world.1 = c.fetches target planned session.world)
      (Fails (c.fetches target planned session.world)) session.traced := by
  refine ensures_rebased (fun hmap => ?_) fun hplain => ?_
  · have hfetches : c.fetches target planned session.world =
        [(.get target.ns target.name, session.world)] := if_pos hmap
    rw [ensures_call, hfetches]
    exact ⟨fun _ _ => rfl, fun _ _ => ⟨List.suffix_rfl, fun _ _ => List.cons_ne_nil _ _⟩⟩
  · exact (if_neg (Bool.eq_false_iff.1 hplain)).symm

/-- Edits are submitted after the calls that have been sent. -/
theorem ensures_submitted_begins {edits : List Json.Edit} (h : Begins calls session.world) :
    Ensures (c.traced.submitted target edits)
      (fun _ after => after.resource = session.resource ∧ Begins calls after.world) (Fails calls)
      session := by
  refine ensures_submitted (fun _ => ⟨rfl, h⟩) fun _ => ?_
  rw [ensures_submit, ensures_call]
  exact ⟨fun _ _ => ⟨rfl, begins_cons h _ _⟩, fun _ _ => ⟨begins_cons h _ _, fun _ _ =>
    List.cons_ne_nil _ _⟩⟩

/-- An update whose plan does not fail sends a call before it fails, and reads the live object first
if one of the planned edits adds a whole map. -/
theorem ensures_update_begins {session : Session σ} (hid : session.resource.id = some target)
    (hplan : c.kind.plan session.resource.config new = .ok planned) :
    Ensures (c.traced.update new)
      (fun _ after => Begins (c.fetches target planned session.world) after.world)
      (Fails (c.fetches target planned session.world)) session.traced := by
  have htraced : session.traced.resource.id = some target := hid
  refine ensures_update (fun hnone => nomatch hnone.symm.trans htraced) (Resource.forall_id htraced
    ⟨fun _ hfailed => (nomatch hplan.symm.trans hfailed), fun other hother => ?_⟩)
  obtain rfl : planned = other := Except.ok.inj (hplan.symm.trans hother)
  refine ensures_rebased_fetches.mono ?_ fun _ _ hstopped => hstopped
  intro edits ready hready
  have hbegun : Begins (c.fetches target planned session.world) ready.world :=
    hready ▸ List.suffix_rfl
  refine (ensures_submitted_begins hbegun).mono ?_ fun _ _ hstopped => hstopped
  rintro _ sent ⟨-, hsent⟩
  rw [ensures_bind]
  refine (ensures_settle_begins ?_ _).mono ?_ fun _ _ hstopped => hstopped
  · exact hsent
  · rintro _ settled ⟨hresource, hsettled⟩
    exact ensures_read_begins ((congrArg Resource.id hresource).trans hid) hsettled

/-- The calls of an update begin with those that it needs to know what to submit, and an update that
fails has sent a call. -/
theorem update_begins {session : Session σ} (hid : session.resource.id = some target)
    (hplan : c.kind.plan session.resource.config new = .ok planned) :
    let traced := (c.traced.update new).run session.traced
    c.fetches target planned session.world <:+ traced.2.world.1 ∧
      ∀ failure, traced.1 = .error (.failure failure) → traced.2.world.1 ≠ [] := by
  refine Ensures.result (P := fun result (after : Session (Trace σ × σ)) =>
    c.fetches target planned session.world <:+ after.world.1 ∧
      ∀ failure, result = .error (.failure failure) → after.world.1 ≠ []) ?_
  exact (ensures_update_begins hid hplan).mono
    (fun _ _ hafter => ⟨hafter, fun _ hok => nomatch hok⟩)
    fun _ _ hstopped => ⟨hstopped.1, fun _ hhalt => hstopped.2 _ (Except.error.inj hhalt)⟩

end Calls

/-- An update that has not come to its edits stops there and submits no patch. -/
theorem UpdateEnds.of_unprepared {session : Session σ} {result : Except Halt Unit}
    {after : Session (Trace σ × σ)} {failure : Failure}
    (h : c.UpdateEnds session new result after)
    (hprepared : c.prepared session.resource new session.world = .error failure) :
    result = .error (.failure failure) ∧ Trace.patches after.world.1 = [] := by
  cases h with
  | unprepared hfailed hpatches =>
      obtain rfl := Except.error.inj (hprepared.symm.trans hfailed)
      exact ⟨rfl, hpatches⟩
  | rejected _ hother => cases hprepared.symm.trans hother
  | accepted _ hother => cases hprepared.symm.trans hother
  | unneeded hother => cases hprepared.symm.trans hother

end Controller

/-- A plan predicts what an update of a known object does, whatever the control API answers. The
update fails without a call exactly if the plan fails, and then with the same failure. If nothing is
planned, no patch is submitted. If something is planned, the calls begin with a reading of the live
object where an edit adds a whole map; either this reading fails and the update with it, or one
patch is submitted, whose edits spell out the plan. -/
theorem plan_predicts_update {c : Controller α σ} (hkind : c.kind.Managed root key)
    {session : Session σ} {target : Identity} (hid : session.resource.id = some target)
    (new : Tree) :
    let plan := c.kind.plan session.resource.config new
    let traced := (c.traced.update new).run session.traced
    let calls := traced.2.world.1
    Prod.map id Session.untraced traced = (c.update new).run session ∧
      (∀ failure, traced.1 = .error (.failure failure) ∧ calls = [] ↔ plan = .error failure) ∧
      (plan = .ok [] → Trace.patches calls = []) ∧
      ∀ planned, plan = .ok planned → planned ≠ [] →
        c.fetches target planned session.world <:+ calls ∧
          ((∃ failure, c.glimpse target planned session.world = .error failure ∧
              traced.1 = .error (.failure failure) ∧ Trace.patches calls = []) ∨
            ∃ live edits met, c.glimpse target planned session.world = .ok live ∧
              Change.Spells c.kind.mutablePaths live planned edits ∧ edits ≠ [] ∧
              Trace.patches calls =
                [(.patch target.ns target.name (Json.Edit.listToJson edits), met)]) := by
  intro plan traced calls
  have hends : c.UpdateEnds session new traced.1 traced.2 := c.updateEnds_update session new
  have hmalformed : ∀ failure, plan = .error failure →
      traced = (.error (.failure failure), session.traced) :=
    fun _ hplan => Controller.update_malformed hid hplan
  refine ⟨c.traces_update new session.traced, fun failure => ⟨?_, fun hplan => ?_⟩, fun hplan => ?_,
    fun planned hplan hne => ⟨(Controller.update_begins hid hplan).1, ?_⟩⟩
  · rintro ⟨hstop, hcalls⟩
    cases hplan : plan with
    | ok planned => exact absurd hcalls ((Controller.update_begins hid hplan).2 failure hstop)
    | error other =>
        rw [hmalformed other hplan] at hstop
        exact congrArg Except.error (Halt.failure.inj (Except.error.inj hstop))
  · have hrun := hmalformed failure hplan
    exact ⟨congrArg Prod.fst hrun, congrArg (·.2.world.1) hrun⟩
  · rcases hends.exists_patches hid (Controller.prepared_of_plan hid hplan _) with
      ⟨_, hnone⟩ | ⟨hsome, _⟩
    · exact hnone
    · exact absurd rfl hsome
  · have hprepared := Controller.prepared_of_plan hid hplan session.world
    rcases c.spared_of_glimpse target planned session.world with
      ⟨failure, hlive, hspared⟩ | ⟨live, edits, hlive, hspared, hspells⟩
    · exact .inl ⟨failure, hlive, hends.of_unprepared (hprepared.trans hspared)⟩
    · have hleft : edits ≠ [] := by
        have hempty := Controller.isEmpty_of_spared hkind hplan hspared
        rw [Ne, ← List.isEmpty_iff, hempty, List.isEmpty_iff]
        exact hne
      rcases hends.exists_patches hid (hprepared.trans hspared) with
        ⟨hnone, _⟩ | ⟨_, met, hpatches⟩
      · exact absurd hnone hleft
      · exact .inr ⟨live, edits, met, hlive, hspells, hleft, hpatches⟩

/-- What a patch holds that spells planned edits out, once the live object has been read or need not
be. -/
theorem Controller.exists_patch_of_glimpse {c : Controller α σ} {target : Identity}
    {planned expected : List Json.Edit} {world : σ} {live : Option Json} {failed : Failure → Prop}
    {patches : Trace σ} (hlive : c.glimpse target planned world = .ok live)
    (hexpected : ∀ edits, Change.Spells c.kind.mutablePaths live planned edits → edits = expected)
    (h : (∃ failure, c.glimpse target planned world = .error failure ∧ failed failure) ∨
      ∃ live edits met, c.glimpse target planned world = .ok live ∧
        Change.Spells c.kind.mutablePaths live planned edits ∧ edits ≠ [] ∧
        patches = [(.patch target.ns target.name (Json.Edit.listToJson edits), met)]) :
    ∃ met, patches = [(.patch target.ns target.name (Json.Edit.listToJson expected), met)] := by
  rcases h with ⟨_, hfailed, _⟩ | ⟨other, edits, met, hother, hspells, _, hpatches⟩
  · exact nomatch hlive.symm.trans hfailed
  · obtain rfl := Except.ok.inj (hlive.symm.trans hother)
    exact ⟨met, hexpected edits hspells ▸ hpatches⟩

open Relabelled in
/-- A deployment is to get its first label. It is added alone if the live object has another one,
and as a map if that has none; if the live object cannot be read, there is no patch. -/
theorem plan_predicts_update_labelled :
    let owned : Deployment := { shown 1 with
      metadata := { name := some "web", labels := some (Dict.ofList [("owner", "me")]) } }
    let refusal := Failure.callFailed .get "deployment" (.described "forbidden")
    let whole : Json.Edit := .add "/metadata/labels" (.obj [("app", .str "web")])
    let single : Json.Edit := .add "/metadata/labels/app" (.str "web")
    Deployment.kind.plan (session []).resource.config (tree [("app", .str "web")]) = .ok [whole] ∧
      (∃ met, Trace.patches (labelled [.ok owned]).2.world.1 =
        [(.patch "default" "web" (Json.Edit.listToJson [single]), met)]) ∧
      (∃ met, Trace.patches (labelled [.ok (shown 1)]).2.world.1 =
        [(.patch "default" "web" (Json.Edit.listToJson [whole]), met)]) ∧
      (labelled [.error refusal]).1 = .error (.failure refusal) ∧
      Trace.patches (labelled [.error refusal]).2.world.1 = [] := by
  intro owned refusal whole single
  let target : Identity := ⟨"default", "web", by decide, by decide⟩
  have hid : ∀ script, (session script).resource.id = some target :=
    fun _ => show (Identity.ofText "default/web").toOption = some target by decide +kernel
  have hplan : Deployment.kind.plan (session []).resource.config (tree [("app", .str "web")]) =
      .ok [whole] := by
    decide +kernel
  have hkind : controller.kind.Managed "spec" "spec" := .deployment
  have hpredicts := fun script => ((plan_predicts_update hkind (hid script)
    (tree [("app", .str "web")])).2.2.2 [whole] hplan (List.cons_ne_nil _ _)).2
  have hheld : Change.HoldsMap controller.kind.mutablePaths (some (Deployment.kind.toJson owned))
      "/metadata/labels" :=
    ⟨by decide, [("owner", .str "me")], by decide +kernel⟩
  have hfree : ¬ Change.HoldsMap controller.kind.mutablePaths
      (some (Deployment.kind.toJson (shown 1))) "/metadata/labels" := by
    rintro ⟨_, held, hheld⟩
    have hnone : Json.Pointer.find? "/metadata/labels" (Deployment.kind.toJson (shown 1)) =
        none := by
      decide +kernel
    exact nomatch hnone.symm.trans hheld
  have hchild : Json.Pointer.child "/metadata/labels" "app" = "/metadata/labels/app" := by
    decide +kernel
  have hread : ∀ answer, controller.glimpse target [whole] [answer] =
      answer.map fun live => some (Deployment.kind.toJson live) := fun _ => rfl
  have hlabelled : ∀ script, labelled script =
      (controller.traced.update (tree [("app", .str "web")])).run (session script).traced :=
    fun _ => rfl
  refine ⟨hplan, ?_, ?_, ?_⟩
  · rw [hlabelled]
    refine Controller.exists_patch_of_glimpse (hread (.ok owned)) (fun edits hspells => ?_)
      (hpredicts [.ok owned])
    refine (hspells.add_of_held hheld).trans ?_
    show [Json.Edit.add (Json.Pointer.child "/metadata/labels" "app") (.str "web")] = [single]
    rw [hchild]
  · rw [hlabelled]
    exact Controller.exists_patch_of_glimpse (hread (.ok (shown 1)))
      (fun _ hspells => hspells.add_of_free hfree) (hpredicts [.ok (shown 1)])
  · rw [hlabelled]
    rcases hpredicts [.error refusal] with ⟨_, hfailed, hstop, hpatches⟩ | ⟨_, _, _, hlive, _⟩
    · rw [← Except.error.inj ((hread (.error refusal)).symm.trans hfailed)] at hstop
      exact ⟨hstop, hpatches⟩
    · exact nomatch (hread (.error refusal)).symm.trans hlive

end Reconcile
