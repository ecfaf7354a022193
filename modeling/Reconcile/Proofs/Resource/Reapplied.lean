import Mathlib.Data.List.Basic
import Reconcile.Proofs.Kind.Managed
import Reconcile.Proofs.Resource.Stored
import Reconcile.Proofs.Resource.Tracking

/-!
# Trees that are applied again

Once the API has accepted the creation of an object from a canonical tree, the stored tree answers
this tree, wherever the creation stops. An update to the same tree then plans nothing and only
reads the object (`reapply_only_reads`).
-/

namespace Reconcile

variable {α σ : Type} {kind : Kind α} {root key : String}

open Operation

namespace Controller

variable {c : Controller α σ} {id : Identity} {tree : Tree} {session : Session σ} {I : σ → Prop}

/-- An update for which nothing is planned preserves what reading the object preserves. -/
theorem update_preserves (hid : session.resource.id = some id)
    (hplan : c.kind.plan session.resource.config tree = .ok [])
    (hread : ∀ world, I world → I (c.api.get id.ns id.name world).2) (h : I session.world) :
    I ((c.update tree).run session).2.world := by
  refine Ensures.after (P := fun after => I after.world) ?_
  refine ensures_update (fun hnone => nomatch hnone.symm.trans hid)
    (Resource.forall_id hid ⟨fun _ _ => h, fun planned hplanned => ?_⟩)
  -- Nothing is planned, so nothing is read to rebase it and nothing is submitted.
  obtain rfl : [] = planned := Except.ok.inj (hplan.symm.trans hplanned)
  refine ensures_rebased (fun hmap => nomatch hmap) fun _ =>
    ensures_submitted (fun _ => ?_) fun hne => absurd rfl hne
  refine Ensures.mono (ensures_settle_read_preserves ?_ _ hread ?_) (fun _ _ hafter => hafter.2)
    fun _ _ hafter => hafter.2
  · exact hid
  · exact h

/-- The identity of the object that a creation makes, or why the API does not accept it. -/
def creation (c : Controller α σ) (config : Tree) (world : σ) : Except Failure Identity := do
  let object ← c.kind.expand (Schema.normalize c.kind.schema none config)
  let created ← (c.api.create (c.place object).1 (c.place object).2 world).1
  c.identityOf (c.place object).1 created

/-- A creation that is accepted knows the identity of the object, wherever it stops. -/
theorem create_known (h : c.creation session.resource.config session.world = .ok id) :
    (c.create.run session).2.resource.id = some id := by
  obtain ⟨object, hobject, hplace⟩ := Steps.bind_eq_ok_iff.1 h
  obtain ⟨created, hcreated, hidentity⟩ := Steps.bind_eq_ok_iff.1 hplace
  have hasked : c.asked session.resource.config =
      .ok ((c.place object).1, (c.place object).2) := by
    rw [asked, hobject]
    rfl
  refine Ensures.after (P := fun after => after.resource.id = some id) ?_
  refine ensures_create_accepted hasked hcreated (fun _ herror => ?_) fun other hother => ?_
  · cases hidentity.symm.trans herror
  · obtain rfl : id = other := Except.ok.inj (hidentity.symm.trans hother)
    refine Ensures.mono (ensures_settle_read_preserves (I := fun _ => True) rfl _
      (fun _ _ => trivial) trivial) (fun _ _ hafter => hafter.1) ?_
    rintro _ _ ⟨hresource, _⟩
    rw [hresource]

end Controller

/-- The API with a log of the calls that it gets, the last one first. -/
def ControlApi.logged (kind : Kind α) (api : ControlApi α σ) :
    ControlApi α (List Call × σ) where
  create ns object world :=
    let (answer, state) := api.create ns object world.2
    (answer, .create ns ((kind.metadata object).name.getD "") :: world.1, state)
  get ns name world :=
    let (answer, state) := api.get ns name world.2
    (answer, .get ns name :: world.1, state)
  patch ns name document world :=
    let (answer, state) := api.patch ns name document world.2
    (answer, .patch ns name document :: world.1, state)
  delete ns name propagation world :=
    let (answer, state) := api.delete ns name propagation world.2
    (answer, .delete ns name propagation :: world.1, state)

namespace Kind

variable {settings : Settings} {tree : Block} {id : Identity} {world : List Fault × Memory α}

/-- What is known after a creation from a canonical tree answers this tree. -/
theorem Managed.create_answers (hkind : kind.Managed root key)
    (htree : kind.schema.Canonical tree) (hstatus : kind.StatusOnly world.2.reaction)
    (watch : Wait.Watch) :
    let after := ((Controller.inMemory kind settings).create.run
      ⟨Resource.ofConfig (.obj tree), world, watch⟩).2
    after.resource.id = some id →
      ∃ config, after.resource = ⟨some id, .obj config⟩ ∧ kind.Answers root config tree := by
  have hlawful := hkind.lawful
  have hobs := hkind.observable
  have hstart : kind.InStep key false ⟨Resource.ofConfig (.obj tree), world, watch⟩ :=
    ⟨⟨tree, rfl, htree.accepts⟩, hstatus, fun _ hid => nomatch hid⟩
  refine Ensures.after (P := fun after => after.resource.id = some id →
    ∃ config, after.resource = ⟨some id, .obj config⟩ ∧ kind.Answers root config tree) ?_
  refine hstart.ensures_create hlawful hobs ?_ ?_
  · intro _ after hresource _ hid
    rw [hresource] at hid
    cases hid
  · intro block object made created accepted hnormalize _ hexpand hfollows hstands
    obtain rfl : kind.schema.fill none tree = block := Json.obj.inj hnormalize
    -- The tree is the one that shows the object, or still the filled one if the wait or the
    -- reading has stopped.
    refine (hstands.ensures_settle_read hlawful hobs.key_ne_status _).mono ?_ ?_
    · rintro _ after ⟨live, hlive, hname, hafter⟩ hid
      obtain ⟨shown, hflatten, hanswers⟩ := hkind.restoring.answers_shown hlawful hobs htree hexpand
        (hlive.trans hfollows) hname made.name_part.1
      rw [hafter.resource] at hid ⊢
      obtain rfl : made = id := Option.some.inj hid
      exact ⟨shown, by rw [hflatten], hanswers⟩
    · intro _ after hafter hid
      rw [hafter.resource] at hid ⊢
      obtain rfl : made = id := Option.some.inj hid
      exact ⟨_, rfl, hkind.restoring.answers_fill hlawful htree hexpand⟩

end Kind

/-- Once the cluster has accepted the creation of an object from a canonical tree, and however the
creation goes on and ends, the stored resource is loaded again, nothing is planned for the same tree
again, and an update to it, whatever the API is then, calls nothing but to read the object. -/
theorem reapply_only_reads (hkind : kind.Managed root key) {tree : Block}
    (htree : kind.schema.Canonical tree) {settings : Settings} {world : List Fault × Memory α}
    (hstatus : kind.StatusOnly world.2.reaction) {id : Identity}
    (haccepted : (Controller.inMemory kind settings).creation (.obj tree) world = .ok id)
    (watch : Wait.Watch) :
    let created := ((Controller.inMemory kind settings).create.run
      ⟨Resource.ofConfig (.obj tree), world, watch⟩).2
    ∃ loaded, Resource.load kind (Resource.store kind created.resource) = .ok loaded ∧
      kind.plan loaded.config (.obj tree) = .ok [] ∧
      ∀ {σ : Type} (api : ControlApi α σ) (settings : Settings) (state : σ) (watch : Wait.Watch),
        let c : Controller α (List Call × σ) := ⟨kind, api.logged kind, settings⟩
        ∀ call ∈ ((c.update (.obj tree)).run ⟨loaded, ([], state), watch⟩).2.world.1,
          call = .get id.ns id.name := by
  intro created
  have hid : created.resource.id = some id := Controller.create_known haccepted
  obtain ⟨config, hresource, hanswers⟩ := hkind.create_answers htree hstatus watch hid
  have hplan := hanswers.plan_eq_nil hkind.lawful
  refine ⟨⟨some id, .obj config⟩, ?_, hplan, ?_⟩
  · rw [hresource]
    exact Resource.load_store (some id) hkind.steps_le hkind.lawful.wellNamed hanswers.accepts
      hanswers.storable
  · intro σ api settings state watch c
    refine c.update_preserves (I := fun world => ∀ call ∈ world.1, call = .get id.ns id.name)
      rfl hplan ?_ ?_
    · intro world hworld call hcall
      rcases List.mem_cons.1 hcall with hget | hlogged
      · exact hget
      · exact hworld call hlogged
    · exact List.forall_mem_nil _

/-- A deployment that has been created and does not converge is known by the tree that it was
created from. -/
theorem reapply_only_reads_pending :
    let labels : Json := .obj [("app", .str "web")]
    let container : Json := .obj [("image", .str "nginx:1.25"), ("name", .str "web")]
    let template : Json := .obj [("metadata", .arr [.obj [("labels", labels)]]),
      ("spec", .arr [.obj [("container", .arr [container])]])]
    let bounds : Json := .obj [("max_surge", .str "25%")]
    let tree : Block := [("metadata", .arr [.obj [("name", .str "web")]]),
      ("spec", .arr [.obj [("replicas", .int 2),
        ("strategy", .arr [.obj [("rolling_update", .arr [bounds])]]),
        ("template", .arr [template])]])]
    let settings : Settings :=
      ⟨.ofSecs 0, .ofSecs 0, .ofSecs 0, .ofMillis 10, .ofMillis 50, "default"⟩
    let start := (⟨Resource.ofConfig (.obj tree), ([], {}), .start 10⟩ : Session _)
    let pending := Failure.timeout "deployment default/web" (.ofSecs 0) (some ⟨0, 2⟩)
    ∃ created loaded, (Controller.inMemory Deployment.kind settings).create.run start =
        (.error (.failure pending), created) ∧
      Resource.load Deployment.kind (Resource.store Deployment.kind created.resource) =
        .ok loaded ∧
      Deployment.kind.plan loaded.config (.obj tree) = .ok [] := by
  intro labels container template bounds tree settings start pending
  have htree : Deployment.kind.schema.Canonical tree := ⟨by decide, by decide⟩
  have hstatus : Deployment.kind.StatusOnly (Reaction.still : Reaction Deployment) :=
    fun _ hchange => nomatch hchange
  have haccepted : (Controller.inMemory Deployment.kind settings).creation (.obj tree) ([], {}) =
      .ok ⟨"default", "web", by decide, by decide⟩ := by
    decide +kernel
  have hpending : ((Controller.inMemory Deployment.kind settings).create.run start).1 =
      .error (.failure pending) := by
    decide +kernel
  obtain ⟨loaded, hload, hplan, _⟩ := reapply_only_reads .deployment htree hstatus haccepted
      (.start 10)
  refine ⟨_, loaded, ?_, hload, hplan⟩
  rw [← hpending, Prod.eta]

end Reconcile
