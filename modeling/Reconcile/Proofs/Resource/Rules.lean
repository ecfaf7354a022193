import Mathlib.Data.List.Basic
import Reconcile.Proofs.Resource.Ensures

/-!
# The rules of the operations

There is one rule for each operation of a controller. It says where the operation can stop and what
has to hold there, and what has to hold of the calls and the waits that the operation goes through.
What is proved of an operation is proved by its rule, so only the rule knows the steps.
-/

namespace Reconcile

variable {α σ : Type}

/-- What is so of the identity of a known object is so of whatever its identity is. -/
theorem Resource.forall_id {known : Resource} {id : Identity} {P : Identity → Prop}
    (hid : known.id = some id) (h : P id) : ∀ other, known.id = some other → P other := by
  intro other hother
  obtain rfl : id = other := Option.some.inj (hid.symm.trans hother)
  exact h

namespace Controller

variable (c : Controller α σ)

open Operation

/-- The namespace and the object that a creation asks for, or why the tree is malformed. -/
def asked (config : Tree) : Except Failure (String × α) :=
  (c.kind.expand (Schema.normalize c.kind.schema none config)).map c.place

/-- The object that a creation makes, or why none is made. -/
def created (config : Tree) (world : σ) : Except Failure α := do
  let asked ← c.asked config
  (c.api.create asked.1 asked.2 world).1

/-- What is known once the edits of an update have been accepted. -/
def desired (known : Resource) (new : Tree) : Resource :=
  { known with config := Schema.normalize c.kind.schema (some known.config) new }

/-- Submit edits if there are any. -/
def submitted (id : Identity) (edits : List Json.Edit) : Operation σ Unit :=
  match edits with
  | [] => pure ()
  | _ :: _ => c.submit id edits

/-- Empty the object if its kind asks for that, and wait until it is empty. -/
def drained (id : Identity) : Operation σ Unit :=
  match c.kind.drain with
  | some drain => do
    c.submit id drain
    c.settle id c.settings.deleteLimit
  | none => pure ()

variable {c} {id : Identity} {planned edits : List Json.Edit} {session : Session σ}
  {Q : Unit → Session σ → Prop} {E : Halt → Session σ → Prop}

/-- A reading stops if the object is not known or the call for it fails. -/
theorem ensures_read
    (hunknown : session.resource.id = none → E (.failure (.invalidIdentity "")) session)
    (hknown : ∀ id, session.resource.id = some id →
      Ensures (call (c.api.get id.ns id.name))
        (fun object after => Q () { after with resource :=
          { session.resource with config := c.kind.flatten object session.resource.config } })
        E session) :
    Ensures c.read Q E session := by
  unfold read
  refine ensures_identity hunknown fun id hid => ?_
  rw [ensures_bind]
  exact hknown id hid

/-- Submitting edits is one call. -/
theorem ensures_submit : Ensures (c.submit id edits) Q E session ↔
    Ensures (call (c.api.patch id.ns id.name (Json.Edit.listToJson edits))) (fun _ => Q ()) E
      session := by
  unfold submit
  rw [ensures_bind]
  exact Iff.rfl

/-- The live object is read if one of the edits adds a whole map. -/
theorem ensures_rebased {Q : List Json.Edit → Session σ → Prop}
    (hmap : planned.any (Change.addsWholeMap c.kind.mutablePaths) = true →
      Ensures (call (c.api.get id.ns id.name))
        (fun live => Q (Change.rebase c.kind.mutablePaths (c.kind.toJson live) planned)) E session)
    (hplain : planned.any (Change.addsWholeMap c.kind.mutablePaths) = false → Q planned session) :
    Ensures (c.rebased id planned) Q E session := by
  unfold rebased
  split
  · rename_i hadds
    rw [ensures_bind]
    exact hmap hadds
  · rename_i hadds
    exact hplain (Bool.eq_false_iff.2 hadds)

/-- Nothing is submitted where there are no edits. -/
theorem ensures_submitted (hnil : edits = [] → Q () session)
    (hcons : edits ≠ [] → Ensures (c.submit id edits) Q E session) :
    Ensures (c.submitted id edits) Q E session := by
  cases edits with
  | nil => exact hnil rfl
  | cons edit rest => exact hcons (List.cons_ne_nil _ _)

/-- A creation stops at a malformed tree, at a call that is not accepted, and at an object that
cannot be identified. Otherwise it waits for the object and reads it. -/
theorem ensures_create
    (hmalformed : ∀ failure, c.asked session.resource.config = .error failure →
      E (.failure failure) session)
    (hasked : ∀ ns placed, c.asked session.resource.config = .ok (ns, placed) →
      Ensures (call (c.api.create ns placed))
        (fun made after =>
          (∀ id, c.identityOf ns made = .ok id →
            Ensures (do
                c.settle id c.settings.createLimit
                c.read) Q E
              { after with resource :=
                ⟨some id, Schema.normalize c.kind.schema none session.resource.config⟩ }) ∧
          ∀ failure, c.identityOf ns made = .error failure → E (.failure failure) after)
        E session) :
    Ensures c.create Q E session := by
  unfold create
  rw [ensures_bind, ensures_resource]
  dsimp only
  rw [ensures_bind, ensures_lift]
  refine ⟨fun object hobject => ?_, fun failure hfailure => hmalformed failure ?_⟩
  · rw [ensures_bind]
    refine (hasked (c.place object).1 (c.place object).2 ?_).mono (fun made after hmade => ?_)
      fun _ _ hrefused => hrefused
    · rw [asked, hobject]
      rfl
    · rw [ensures_bind, ensures_lift]
      refine ⟨fun id hid => ?_, hmade.2⟩
      rw [ensures_bind, ensures_setResource]
      exact hmade.1 id hid
  · rw [asked, hfailure]
    rfl

/-- A creation whose object has been made stops only if the object cannot be identified. -/
theorem ensures_create_accepted {ns : String} {placed made : α}
    (hasked : c.asked session.resource.config = .ok (ns, placed))
    (hmade : (c.api.create ns placed session.world).1 = .ok made)
    (hunidentified : ∀ failure, c.identityOf ns made = .error failure → E (.failure failure)
      { session with world := (c.api.create ns placed session.world).2 })
    (hidentified : ∀ id, c.identityOf ns made = .ok id →
      Ensures (do
          c.settle id c.settings.createLimit
          c.read) Q E
        ⟨⟨some id, Schema.normalize c.kind.schema none session.resource.config⟩,
          (c.api.create ns placed session.world).2, session.watch⟩) :
    Ensures c.create Q E session := by
  refine ensures_create (fun _ herror => nomatch hasked.symm.trans herror)
    fun ns placed hother => ?_
  obtain ⟨rfl, rfl⟩ := Prod.mk.inj (Except.ok.inj (hasked.symm.trans hother))
  rw [ensures_call]
  refine ⟨fun object hobject => ?_, fun _ herror => (nomatch hmade.symm.trans herror)⟩
  obtain rfl := Except.ok.inj (hmade.symm.trans hobject)
  exact ⟨hidentified, hunidentified⟩

/-- An update stops if the object is not known or the new tree is malformed. Otherwise it comes to
its edits, submits them if there are any, takes over the desired tree, waits and reads. -/
theorem ensures_update {new : Tree}
    (hunknown : session.resource.id = none → E (.failure (.invalidIdentity "")) session)
    (hknown : ∀ id, session.resource.id = some id →
      (∀ failure, c.kind.plan session.resource.config new = .error failure →
        E (.failure failure) session) ∧
      ∀ planned, c.kind.plan session.resource.config new = .ok planned →
        Ensures (c.rebased id planned)
          (fun edits => Ensures (c.submitted id edits)
            (fun _ after => Ensures (do
                c.settle id c.settings.updateLimit
                c.read) Q E { after with resource := c.desired session.resource new })
            E)
          E session) :
    Ensures (c.update new) Q E session := by
  unfold update
  refine ensures_identity hunknown fun id hid => ?_
  obtain ⟨hmalformed, hplanned⟩ := hknown id hid
  rw [ensures_bind, ensures_lift]
  refine ⟨fun planned hplan => ?_, hmalformed⟩
  rw [ensures_bind]
  refine (hplanned planned hplan).mono (fun edits ready hready => ?_)
    fun _ _ hstopped => hstopped
  cases edits with
  | nil => exact hready
  | cons edit rest =>
      show Ensures (c.submit id (edit :: rest) >>= fun _ => _) _ _ _
      rw [ensures_bind]
      exact hready

/-- Nothing is done for an object whose kind asks for no drain. -/
theorem ensures_drained (hnone : c.kind.drain = none → Q () session)
    (hdrain : ∀ drain, c.kind.drain = some drain → Ensures (c.submit id drain)
      (fun _ => Ensures (c.settle id c.settings.deleteLimit) Q E) E session) :
    Ensures (c.drained id) Q E session := by
  unfold drained
  split
  · rename_i drain hkind
    rw [ensures_bind]
    exact hdrain drain hkind
  · rename_i hkind
    exact hnone hkind

/-- A deletion stops if the object is not known, where the object is emptied, and at a call that is
not accepted. Otherwise it forgets the identity. -/
theorem ensures_delete
    (hunknown : session.resource.id = none → E (.failure (.invalidIdentity "")) session)
    (hknown : ∀ id, session.resource.id = some id → Ensures (c.drained id)
      (fun _ => Ensures (call (c.api.delete id.ns id.name c.kind.propagation))
        (fun _ after => Q () { after with resource := { session.resource with id := none } }) E)
      E session) :
    Ensures c.delete Q E session := by
  unfold delete
  refine ensures_identity hunknown fun id hid => ?_
  have hdrained := hknown id hid
  unfold drained at hdrained
  cases hdrain : c.kind.drain with
  | none =>
      rw [hdrain] at hdrained
      dsimp only
      rw [ensures_bind]
      exact hdrained
  | some drain =>
      rw [hdrain, ensures_bind] at hdrained
      dsimp only
      rw [ensures_bind]
      refine hdrained.mono (fun _ submitted hsubmitted => ?_) fun _ _ hstopped => hstopped
      rw [ensures_bind]
      refine hsubmitted.mono (fun _ settled hsettled => ?_) fun _ _ hstopped => hstopped
      rw [ensures_bind]
      exact hsettled

/-! ## What readings preserve -/

section Preserved

variable {I : σ → Prop}

/-- A wait preserves what reading the object preserves. -/
theorem ensures_settle_preserves (limit : Duration)
    (hread : ∀ world, I world → I (c.api.get id.ns id.name world).2) (h : I session.world) :
    Ensures (c.settle id limit)
      (fun _ after => after.resource = session.resource ∧ I after.world)
      (fun _ after => after.resource = session.resource ∧ I after.world) session :=
  ensures_await hread h (fun _ _ hworld => ⟨rfl, hworld⟩) fun _ _ _ hworld => ⟨rfl, hworld⟩

/-- Reading keeps the identity, and all that is known if it stops, and preserves what reading the
object preserves. -/
theorem ensures_read_preserves (hid : session.resource.id = some id)
    (hread : ∀ world, I world → I (c.api.get id.ns id.name world).2) (h : I session.world) :
    Ensures c.read (fun _ after => after.resource.id = some id ∧ I after.world)
      (fun _ after => after.resource = session.resource ∧ I after.world) session := by
  refine ensures_read (fun hnone => nomatch hnone.symm.trans hid) (Resource.forall_id hid ?_)
  rw [ensures_call]
  exact ⟨fun _ _ => ⟨hid, hread _ h⟩, fun _ _ => ⟨rfl, hread _ h⟩⟩

/-- A wait and a reading keep the identity, and all that is known if they stop, and preserve what
reading the object preserves. -/
theorem ensures_settle_read_preserves (hid : session.resource.id = some id) (limit : Duration)
    (hread : ∀ world, I world → I (c.api.get id.ns id.name world).2) (h : I session.world) :
    Ensures (do
        c.settle id limit
        c.read) (fun _ after => after.resource.id = some id ∧ I after.world)
      (fun _ after => after.resource = session.resource ∧ I after.world) session := by
  rw [ensures_bind]
  refine (ensures_settle_preserves limit hread h).mono ?_ fun _ _ hstopped => hstopped
  rintro _ settled ⟨hresource, hsettled⟩
  exact (ensures_read_preserves (hresource ▸ hid) hread hsettled).mono
    (fun _ _ hafter => hafter) fun _ _ hafter => ⟨hafter.1.trans hresource, hafter.2⟩

end Preserved

end Controller

end Reconcile
