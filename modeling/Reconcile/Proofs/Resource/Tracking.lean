import Mathlib.Data.List.Basic
import Reconcile.Proofs.Identity.Texts
import Reconcile.Proofs.Resource.Steps

/-!
# Trees that keep up with objects

A session is in step if the known tree declares the object that the cluster holds
(`Kind.InStep`). Every operation keeps sessions in step, wherever it stops. A deletion that stops
may leave the object drained behind the tree; whatever ends with success brings the tree back.
-/

namespace Reconcile

variable {α : Type} {kind : Kind α} {root key : String}

open Operation

namespace Kind

/-- A tree declares an object, which may have been drained if a deletion has been interrupted. -/
def Declares (kind : Kind α) (key : String) (interrupted : Bool) (tree : Tree) (model : α) :
    Prop :=
  ∃ block declared, tree = .obj block ∧ kind.schema.Accepts block ∧
    kind.expand (.obj block) = .ok declared ∧ kind.Follows key interrupted declared model

/-- A session knows a tree that conforms to the schema of its kind, and if the object has been
created, the cluster holds one that the tree declares. -/
structure InStep (kind : Kind α) (key : String) (interrupted : Bool)
    (session : Session (List Fault × Memory α)) : Prop where
  conforms : kind.schema.Conforms session.resource.config
  statusOnly : kind.StatusOnly session.world.2.reaction
  tracked : ∀ id, session.resource.id = some id → ∃ model,
    kind.Declares key interrupted session.resource.config model ∧
      kind.Holds key id model session.world.2

variable {settings : Settings} {known : Resource} {id : Identity} {model live : α} {config : Tree}
  {session after : Session (List Fault × Memory α)} {interrupted : Bool}

/-- A tree that declares an object conforms to the schema of its kind. -/
theorem Declares.conforms (h : kind.Declares key interrupted config model) :
    kind.schema.Conforms config := by
  obtain ⟨block, _, rfl, haccepts, _⟩ := h
  exact ⟨block, rfl, haccepts⟩

/-- What is declared without an interruption is declared with one as well. -/
theorem Declares.weaken (h : kind.Declares key false config model) (interrupted : Bool) :
    kind.Declares key interrupted config model := by
  obtain ⟨block, declared, hblock, haccepts, hexpand, hfollows⟩ := h
  exact ⟨block, declared, hblock, haccepts, hexpand, hfollows.weaken interrupted⟩

/-- A tree that declares an object does so after an interruption. -/
theorem Declares.interrupt (h : kind.Declares key interrupted config model) :
    kind.Declares key true config model := by
  obtain ⟨block, declared, hblock, haccepts, hexpand, hfollows⟩ := h
  exact ⟨block, declared, hblock, haccepts, hexpand, hfollows.interrupt⟩

/-- A session whose tree declares what the cluster holds is in step. -/
theorem Stands.inStep (h : kind.Stands key ⟨some id, config⟩ id model session)
    (hdeclares : kind.Declares key interrupted config model) :
    kind.InStep key interrupted session := by
  refine ⟨?_, h.holds.statusOnly, fun other hother => ?_⟩
  · rw [h.resource]
    exact hdeclares.conforms
  · rw [h.resource] at hother ⊢
    obtain rfl : id = other := Option.some.inj hother
    exact ⟨model, hdeclares, h.holds⟩

/-- What is in step without an interruption is so with one as well. -/
theorem InStep.weaken (h : kind.InStep key false session) (interrupted : Bool) :
    kind.InStep key interrupted session := by
  refine ⟨h.conforms, h.statusOnly, fun id hid => ?_⟩
  obtain ⟨model, hdeclares, hholds⟩ := h.tracked id hid
  exact ⟨model, hdeclares.weaken interrupted, hholds⟩

/-- A session that is in step is so after an interruption. -/
theorem InStep.interrupt (h : kind.InStep key interrupted session) :
    kind.InStep key true session := by
  refine ⟨h.conforms, h.statusOnly, fun id hid => ?_⟩
  obtain ⟨model, hdeclares, hholds⟩ := h.tracked id hid
  exact ⟨model, hdeclares.interrupt, hholds⟩

/-- A session is still in step if the known resource is the same and the cluster holds what it
held. -/
theorem InStep.of_holds (h : kind.InStep key interrupted session)
    (hresource : after.resource = session.resource)
    (hstatus : kind.StatusOnly after.world.2.reaction)
    (hholds : ∀ id model, kind.Holds key id model session.world.2 →
      kind.Holds key id model after.world.2) : kind.InStep key interrupted after := by
  refine ⟨hresource ▸ h.conforms, hstatus, fun id hid => ?_⟩
  rw [hresource] at hid ⊢
  obtain ⟨model, hdeclares, hmodel⟩ := h.tracked id hid
  exact ⟨model, hdeclares, hholds id model hmodel⟩

/-! ## Reading -/

/-- A reading takes over the tree that shows what the cluster holds. -/
theorem Stands.ensures_read (h : kind.Stands key ⟨some id, config⟩ id model session)
    (hlawful : kind.Lawful root key) (hkey : key ≠ "status") :
    Ensures (Controller.inMemory kind settings).read
      (fun _ after => ∃ live, kind.Follows key false model live ∧
        (kind.metadata live).name = some id.name ∧
        kind.Stands key ⟨some id, kind.flatten live config⟩ id model after)
      (fun _ => kind.Stands key ⟨some id, config⟩ id model) session := by
  have hid : session.resource.id = some id := by rw [h.resource]
  refine Controller.ensures_read (fun hnone => nomatch hnone.symm.trans hid)
    (Resource.forall_id hid ?_)
  refine (h.ensures_get hlawful hkey).mono ?_ fun _ _ hafter => hafter
  rintro live after ⟨hafter, _, hname, hfollows⟩
  refine ⟨live, hfollows, hname, ?_, hafter.holds⟩
  show Resource.mk session.resource.id (kind.flatten live session.resource.config) = _
  rw [h.resource]

/-- A wait and a reading take over the tree that shows what the cluster holds. -/
theorem Stands.ensures_settle_read (h : kind.Stands key ⟨some id, config⟩ id model session)
    (hlawful : kind.Lawful root key) (hkey : key ≠ "status") (limit : Duration) :
    Ensures (do
        (Controller.inMemory kind settings).settle id limit
        (Controller.inMemory kind settings).read)
      (fun _ after => ∃ live, kind.Follows key false model live ∧
        (kind.metadata live).name = some id.name ∧
        kind.Stands key ⟨some id, kind.flatten live config⟩ id model after)
      (fun _ => kind.Stands key ⟨some id, config⟩ id model) session := by
  rw [ensures_bind]
  refine (h.ensures_settle hlawful hkey limit).mono ?_ fun _ _ hafter => hafter
  exact fun _ settled hsettled => hsettled.ensures_read hlawful hkey

/-- The tree that shows an object declares the object, whatever the tree was before. -/
theorem Declares.flatten (h : kind.Declares key interrupted config model)
    (hobs : kind.Observable key) {live : α} (hfollows : kind.Follows key false model live)
    (hname : (kind.metadata live).name = some id.name) :
    kind.Declares key false (kind.flatten live config) model := by
  obtain ⟨block, declared, rfl, haccepts, hexpand, hmodel⟩ := h
  obtain ⟨shown, again, hflatten, hshown, hagain, hsame⟩ := hobs.flatten_follows haccepts hexpand
    (hfollows.trans hmodel.interrupt) hname id.name_part.1
  exact ⟨shown, again, hflatten, hshown, hagain, hsame.of_common hfollows⟩

/-- A reading brings a session in step. -/
theorem InStep.read_inStep (h : kind.InStep key interrupted session)
    (hlawful : kind.Lawful root key) (hobs : kind.Observable key) :
    Ensures (Controller.inMemory kind settings).read (fun _ => kind.InStep key false)
      (fun _ => kind.InStep key interrupted) session := by
  cases hid : session.resource.id with
  | none => exact Controller.ensures_read (fun _ => h) fun _ hother => nomatch hid.symm.trans hother
  | some id =>
      obtain ⟨model, hdeclares, hholds⟩ := h.tracked id hid
      have hstands : kind.Stands key ⟨some id, session.resource.config⟩ id model session :=
        ⟨by rw [← hid], hholds⟩
      refine (hstands.ensures_read hlawful hobs.key_ne_status).mono ?_ ?_
      · rintro _ after ⟨live, hfollows, hname, hafter⟩
        exact hafter.inStep (hdeclares.flatten hobs hfollows hname)
      · exact fun _ after hafter => hafter.inStep hdeclares

/-! ## Deleting -/

/-- A deletion that is sent for a known object forgets it, or keeps what the cluster holds. -/
theorem Stands.ensures_remove (h : kind.Stands key ⟨some id, config⟩ id model session)
    (hconforms : kind.schema.Conforms config) (hdeclares : kind.Declares key true config model) :
    Ensures (call ((Controller.inMemory kind settings).api.delete id.ns id.name kind.propagation))
      (fun _ after => kind.InStep key false { after with resource := ⟨none, config⟩ })
      (fun _ => kind.InStep key true) session := by
  -- An object that is gone needs no declaration, and one that is not is still as it was.
  have hcases := Memory.delete_cases kind id.ns id.name kind.propagation session.world.2
  refine ensures_guarded (fun _ _ => Stands.inStep ⟨h.resource, h.holds⟩ hdeclares) ?_ ?_
  · intro faults _ after hsent
    rcases hcases with ⟨_, other, hdelete, _⟩ | ⟨other, hdelete, _, hreaction⟩
    · cases hsent.symm.trans hdelete
    · cases hsent.symm.trans hdelete
      have hstatus : kind.StatusOnly after.reaction := hreaction ▸ h.holds.statusOnly
      exact ⟨hconforms, hstatus, fun _ hid => nomatch hid⟩
  · intro faults failure after hsent
    rcases hcases with ⟨_, other, hdelete, hagrees⟩ | ⟨other, hdelete, _⟩
    · cases hsent.symm.trans hdelete
      exact Stands.inStep ⟨h.resource, h.holds.agrees hagrees⟩ hdeclares
    · cases hsent.symm.trans hdelete

/-- A drain leaves an object that the tree declares up to the drain. -/
theorem Stands.ensures_drain (h : kind.Stands key ⟨some id, config⟩ id model session)
    (hobs : kind.Observable key) (hdeclares : kind.Declares key interrupted config model)
    {edits : List Json.Edit} (hdrain : kind.drain = some edits) :
    Ensures ((Controller.inMemory kind settings).submit id edits)
      (fun _ after => ∃ drained, kind.Stands key ⟨some id, config⟩ id drained after ∧
        kind.Declares key true config drained)
      (fun _ => kind.Stands key ⟨some id, config⟩ id model) session := by
  obtain ⟨block, declared, hblock, haccepts, hexpand, hmodel⟩ := hdeclares
  obtain ⟨live, hfind, hname, hlive⟩ := h.holds.object
  have hfollows := hlive.trans hmodel
  obtain ⟨drained, hperform, hmeta, hcontent⟩ :=
    hobs.performAll?_drain haccepts hexpand hfollows.interrupt hdrain
  have hdrained : kind.Declares key true config drained := by
    refine ⟨block, declared, hblock, haccepts, hexpand, ?_, ?_, .inr ⟨rfl, hcontent⟩⟩
    · rw [hmeta]
      exact hfollows.labels
    · rw [hmeta]
      exact hfollows.annotations
  refine (h.ensures_submit hobs hfind hperform (hmeta ▸ hname)).mono ?_ fun _ _ hafter => hafter
  exact fun _ submitted hsubmitted => ⟨drained, hsubmitted, hdrained⟩

/-- Before a deletion is sent, the cluster holds what the tree declares up to the drain. -/
theorem Stands.ensures_drained (h : kind.Stands key ⟨some id, config⟩ id model session)
    (hlawful : kind.Lawful root key) (hobs : kind.Observable key)
    (hdeclares : kind.Declares key interrupted config model) :
    Ensures ((Controller.inMemory kind settings).drained id)
      (fun _ after => ∃ left, kind.Stands key ⟨some id, config⟩ id left after ∧
        kind.Declares key true config left)
      (fun _ => kind.InStep key true) session := by
  refine Controller.ensures_drained (fun _ => ⟨model, h, hdeclares.interrupt⟩)
    fun drain hdrain => ?_
  refine (h.ensures_drain hobs hdeclares hdrain).mono ?_
    fun _ _ hstopped => hstopped.inStep hdeclares.interrupt
  rintro _ submitted ⟨left, hsubmitted, hleft⟩
  exact (hsubmitted.ensures_settle hlawful hobs.key_ne_status _).mono
    (fun _ _ hsettled => ⟨left, hsettled, hleft⟩) fun _ _ hsettled => hsettled.inStep hleft

/-- A deletion keeps a session in step; one that stops may leave the object drained. -/
theorem InStep.delete_inStep (h : kind.InStep key interrupted session)
    (hlawful : kind.Lawful root key) (hobs : kind.Observable key) :
    Ensures (Controller.inMemory kind settings).delete (fun _ => kind.InStep key false)
      (fun _ => kind.InStep key true) session := by
  refine Controller.ensures_delete (fun _ => h.interrupt) fun id hid => ?_
  obtain ⟨model, hdeclares, hholds⟩ := h.tracked id hid
  have hstands : kind.Stands key ⟨some id, session.resource.config⟩ id model session :=
    ⟨by rw [← hid], hholds⟩
  refine (hstands.ensures_drained hlawful hobs hdeclares).mono ?_ fun _ _ hstopped => hstopped
  rintro _ ready ⟨left, hready, hleft⟩
  exact hready.ensures_remove h.conforms hleft

/-! ## Creating -/

/-- Other metadata with the same labels and annotations change nothing that is declared. -/
theorem Observable.follows_withMetadata (hobs : kind.Observable key) {object : α} {m : ObjectMeta}
    (hlabels : m.labels = (kind.metadata object).labels)
    (hannotations : m.annotations = (kind.metadata object).annotations) :
    kind.Follows key false object (kind.withMetadata object m) := by
  refine ⟨?_, ?_, .inl (hobs.content_withMetadata object m)⟩
  · rw [hobs.metadata_withMetadata, hlabels]
  · rw [hobs.metadata_withMetadata, hannotations]

/-- Placing an object changes nothing that is declared. -/
theorem Observable.follows_place (hobs : kind.Observable key) (object : α) :
    kind.Follows key false object ((Controller.inMemory kind settings).place object).2 := by
  unfold Controller.place
  dsimp only
  split
  · exact Follows.refl kind key object
  · exact hobs.follows_withMetadata rfl rfl

/-- A created object is identified by the namespace and the name that it was given. -/
theorem Observable.identityOf_issued (hobs : kind.Observable key) {placed : α} {ns name : String}
    {serial : Nat} (h : (Controller.inMemory kind settings).identityOf ns
      (kind.withMetadata placed (Memory.issued ns name serial (kind.metadata placed))) = .ok id) :
    id.ns = ns ∧ id.name = name := by
  unfold Controller.identityOf at h
  obtain ⟨hns, hname⟩ := Identity.parts_of_ofParts h
  rw [hns, hname]
  show (kind.metadata (kind.withMetadata placed _)).ns.getD ns = ns ∧
    (kind.metadata (kind.withMetadata placed _)).name.getD "" = name
  rw [hobs.metadata_withMetadata]
  exact ⟨rfl, rfl⟩

/-- A call for a creation keeps a session in step. One that is accepted adds an object that declares
what was asked for, and it is the object that is identified. -/
theorem InStep.ensures_make (h : kind.InStep key interrupted session) (hobs : kind.Observable key)
    (ns : String) (placed : α) :
    Ensures (call ((Controller.inMemory kind settings).api.create ns placed))
      (fun made after => (after.resource = session.resource ∧ kind.InStep key interrupted after) ∧
        kind.Follows key false placed made ∧
        ∀ id, (Controller.inMemory kind settings).identityOf ns made = .ok id →
          kind.Holds key id made after.world.2)
      (fun _ after => after.resource = session.resource ∧ kind.InStep key interrupted after)
      session := by
  -- The cluster adds the object under a free name, so other objects stay as they were.
  have hcases := Memory.create_cases kind ns placed session.world.2
  refine ensures_guarded (fun _ _ => ⟨rfl, h.conforms, h.statusOnly, h.tracked⟩) ?_ ?_
  · intro faults made after hsent
    rcases hcases with ⟨_, other, hcreate, _⟩ |
      ⟨name, created, other, hfree, hcreated, hcreate, hobjects, hreaction⟩
    · cases hsent.symm.trans hcreate
    · cases hsent.symm.trans hcreate
      have hstatus : kind.StatusOnly after.reaction := hreaction ▸ h.statusOnly
      refine ⟨⟨rfl, h.of_holds rfl hstatus fun id model hholds =>
        hholds.insert_of_free hfree hreaction hobjects⟩, ?_, fun id hid => ?_⟩
      · rw [hcreated]
        exact hobs.follows_withMetadata rfl rfl
      · have hnamed : (kind.metadata made).name = some name := by
          rw [hcreated, hobs.metadata_withMetadata]
          rfl
        rw [hcreated] at hid
        obtain ⟨rfl, rfl⟩ := hobs.identityOf_issued hid
        exact holds_insert hstatus hobjects hnamed (Follows.refl kind key made)
  · intro faults failure after hsent
    rcases hcases with ⟨_, other, hcreate, hagrees⟩ | ⟨_, _, other, _, _, hcreate, _⟩
    · cases hsent.symm.trans hcreate
      have hstatus : kind.StatusOnly after.reaction := hagrees.reaction ▸ h.statusOnly
      exact ⟨rfl, h.of_holds rfl hstatus fun id model hholds => hholds.agrees hagrees⟩
    · cases hsent.symm.trans hcreate

/-- A creation that is refused changes nothing that is known. One that is accepted goes on with the
tree of the created object. -/
theorem InStep.ensures_create (h : kind.InStep key interrupted session)
    (hlawful : kind.Lawful root key) (hobs : kind.Observable key)
    {Q : Unit → Session (List Fault × Memory α) → Prop}
    {E : Halt → Session (List Fault × Memory α) → Prop}
    (hrefused : ∀ halt after, after.resource = session.resource →
      kind.InStep key interrupted after → E halt after)
    (hcreated : ∀ block object id created after,
      kind.schema.normalize none session.resource.config = .obj block →
      kind.schema.Accepts block → kind.expand (.obj block) = .ok object →
      kind.Follows key false object created →
      kind.Stands key ⟨some id, .obj block⟩ id created after →
      Ensures (do
        (Controller.inMemory kind settings).settle id settings.createLimit
        (Controller.inMemory kind settings).read) Q E after) :
    Ensures (Controller.inMemory kind settings).create Q E session := by
  obtain ⟨config, hconfig, haccepts⟩ := h.conforms
  have hdesired : kind.schema.normalize none session.resource.config =
      .obj (kind.schema.fill none config) := by
    rw [hconfig]
    rfl
  have hfilled : kind.schema.Accepts (kind.schema.fill none config) :=
    Schema.fill_accepts hlawful.wellNamed hlawful.typedDefaults (fun _ heq => nomatch heq) haccepts
  refine Controller.ensures_create (fun _ _ => hrefused _ _ rfl h) fun ns placed hasked => ?_
  rw [Controller.asked] at hasked
  obtain ⟨object, hobject, hplace⟩ := Steps.map_eq_ok_iff.1 hasked
  have hexpand : kind.expand (.obj (kind.schema.fill none config)) = .ok object :=
    hdesired ▸ hobject
  have hplaced : kind.Follows key false object placed := by
    have hfollows : kind.Follows key false object
        ((Controller.inMemory kind settings).place object).2 := hobs.follows_place object
    rwa [hplace] at hfollows
  refine (h.ensures_make hobs ns placed).mono ?_
    fun _ after hafter => hrefused _ _ hafter.1 hafter.2
  rintro made after ⟨hafter, hmade, hheld⟩
  refine ⟨fun id hid => ?_, fun _ _ => hrefused _ _ hafter.1 hafter.2⟩
  refine hcreated _ object id made _ hdesired hfilled hexpand (hmade.trans hplaced)
    ⟨?_, hheld id hid⟩
  show Resource.mk (some id) (kind.schema.normalize none session.resource.config) = _
  rw [hdesired]

/-- A creation keeps a session in step, and brings it in step if it succeeds. -/
theorem InStep.create_inStep (h : kind.InStep key interrupted session)
    (hlawful : kind.Lawful root key) (hobs : kind.Observable key) :
    Ensures (Controller.inMemory kind settings).create (fun _ => kind.InStep key false)
      (fun _ => kind.InStep key interrupted) session := by
  refine h.ensures_create hlawful hobs (fun _ _ _ hafter => hafter) ?_
  intro block object id created after _ haccepts hexpand hfollows hstands
  have hdeclares : kind.Declares key false (.obj block) created :=
    ⟨block, object, rfl, haccepts, hexpand, hfollows⟩
  refine (hstands.ensures_settle_read hlawful hobs.key_ne_status _).mono ?_ ?_
  · rintro _ read ⟨live, hlive, hname, hread⟩
    exact hread.inStep (hdeclares.flatten hobs hlive hname)
  · exact fun _ stopped hstopped => (hstopped.inStep hdeclares).weaken interrupted

end Kind

end Reconcile
