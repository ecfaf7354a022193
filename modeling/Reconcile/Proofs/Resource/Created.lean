import Mathlib.Data.List.Basic
import Reconcile.Proofs.Kind.Managed
import Reconcile.Proofs.Resource.Stages
import Reconcile.Proofs.Resource.Tracking

/-!
# Identities of created objects

A creation learns the identity of its object only after the cluster has made the object, and only if
the namespace and the name can be the parts of an identity. `created_identified` says when it knows
the object that the cluster holds, and `created_unidentified` shows an object that it does not know.
-/

namespace Reconcile

variable {α : Type} {kind : Kind α} {root key : String} {settings : Settings}

open Operation

/-- An object that is there is still there after a reading. -/
theorem Memory.isSome_find?_get {m : Memory α} {ns name : String}
    (h : (m.find? ns name).isSome) (ns' name' : String) :
    ((get kind ns' name' m).2.find? ns name).isSome := by
  rcases get_cases kind ns' name' m with ⟨_, after, hget, hagrees⟩ |
    ⟨object, after, _, hget, hobjects, _⟩
  · rw [hget, hagrees.find?]
    exact h
  · rw [hget, Memory.find?, hobjects]
    show ((m.insert ns' name' _).find? ns name).isSome
    rw [find?_insert]
    split
    · rfl
    · exact h

namespace Controller

/-- A call for a creation that is not accepted leaves the objects as they are. One that is accepted
adds an object with the namespace of the call and a free name. -/
theorem create_cases (hobs : kind.Observable key) (settings : Settings) (ns : String) (placed : α)
    (world : List Fault × Memory α) :
    (∃ failure after,
        (inMemory kind settings).api.create ns placed world = (.error failure, after) ∧
        after.2.objects = world.2.objects) ∨
      ∃ name object after,
        (inMemory kind settings).api.create ns placed world = (.ok object, after) ∧
        world.2.find? ns name = none ∧ (kind.metadata object).ns = some ns ∧
        (kind.metadata object).name = some name ∧ (after.2.find? ns name).isSome := by
  have hguarded : (inMemory kind settings).api.create ns placed =
      Fault.guard .create (Memory.create kind ns placed) := rfl
  rw [hguarded]
  rcases Fault.guard_cases .create (Memory.create kind ns placed) world with
    ⟨failure, faults, hguard⟩ | ⟨faults, hguard⟩
  · exact .inl ⟨failure, _, hguard, rfl⟩
  · rcases Memory.create_cases kind ns placed world.2 with ⟨failure, after, hcreate, hagrees⟩ |
      ⟨name, object, after, hfree, hobject, hcreate, hobjects, _⟩
    · rw [hguard, hcreate]
      exact .inl ⟨failure, _, rfl, hagrees.objects⟩
    · rw [hguard, hcreate]
      have hmeta : kind.metadata object = _ :=
        (congrArg kind.metadata hobject).trans (hobs.metadata_withMetadata _ _)
      have hthere : (after.find? ns name).isSome := by
        rw [Memory.find?, hobjects]
        show ((world.2.insert ns name object).find? ns name).isSome
        rw [Memory.find?_insert, if_pos rfl]
        rfl
      exact .inr ⟨name, object, _, rfl, hfree, by rw [hmeta]; rfl, by rw [hmeta]; rfl, hthere⟩

/-- A creation that is not accepted leaves the objects as they are. -/
theorem objects_of_create_error {ns : String} {placed : α} {world : List Fault × Memory α}
    {failure : Failure} (hobs : kind.Observable key)
    (h : ((inMemory kind settings).api.create ns placed world).1 = .error failure) :
    ((inMemory kind settings).api.create ns placed world).2.2.objects = world.2.objects := by
  rcases create_cases hobs settings ns placed world with ⟨_, _, hcreate, hobjects⟩ |
    ⟨_, _, _, hcreate, _⟩
  · rw [hcreate]
    exact hobjects
  · rw [hcreate] at h
    cases h

/-- A creation that is accepted adds an object with the namespace of the call and a free name. -/
theorem exists_name_of_create {ns : String} {placed object : α} {world : List Fault × Memory α}
    (hobs : kind.Observable key)
    (h : ((inMemory kind settings).api.create ns placed world).1 = .ok object) :
    ∃ name, world.2.find? ns name = none ∧ (kind.metadata object).ns = some ns ∧
      (kind.metadata object).name = some name ∧
      (((inMemory kind settings).api.create ns placed world).2.2.find? ns name).isSome := by
  rcases create_cases hobs settings ns placed world with ⟨_, _, hcreate, _⟩ |
    ⟨name, _, _, hcreate, hfree, hns, hname, hthere⟩
  · rw [hcreate] at h
    cases h
  · rw [hcreate] at h ⊢
    obtain rfl := Except.ok.inj h
    exact ⟨name, hfree, hns, hname, hthere⟩

/-- A creation whose object can be identified knows it, and the object is there, however the
creation ends. -/
theorem ensures_create_known {session : Session (List Fault × Memory α)} {ns : String}
    {placed object : α} {id : Identity}
    (hasked : (inMemory kind settings).asked session.resource.config = .ok (ns, placed))
    (hobject : ((inMemory kind settings).api.create ns placed session.world).1 = .ok object)
    (hid : (inMemory kind settings).identityOf ns object = .ok id)
    (hheld : (((inMemory kind settings).api.create ns placed session.world).2.2.find?
      id.ns id.name).isSome) :
    Ensures (inMemory kind settings).create
      (fun _ after => after.resource.id = some id ∧ (after.world.2.find? id.ns id.name).isSome)
      (fun _ after => after.resource.id = some id ∧ (after.world.2.find? id.ns id.name).isSome)
      session := by
  refine ensures_create_accepted hasked hobject (fun _ herror => nomatch hid.symm.trans herror)
    fun other hother => ?_
  obtain rfl := Except.ok.inj (hid.symm.trans hother)
  have hread : ∀ world : List Fault × Memory α, (world.2.find? id.ns id.name).isSome →
      (((inMemory kind settings).api.get id.ns id.name world).2.2.find? id.ns id.name).isSome :=
    fun world => Fault.guard_preserves (I := fun memory : Memory α =>
      (memory.find? id.ns id.name).isSome) (fun _ hthere =>
        Memory.isSome_find?_get hthere id.ns id.name) .get
  exact (ensures_settle_read_preserves rfl _ hread hheld).mono (fun _ _ hafter => hafter)
    fun _ _ hafter => ⟨congrArg Resource.id hafter.1, hafter.2⟩

end Controller

/-- A creation whose call is not accepted leaves the objects of the cluster and the known identity
as they were. If it is accepted, the cluster holds a new object. If the namespace and the name of
this object are parts of an identity, this is the known identity wherever the creation stops, and
otherwise the creation stops and the object is not known. -/
theorem created_identified (hkind : kind.Managed root key) (settings : Settings)
    (session : Session (List Fault × Memory α)) :
    let c := Controller.inMemory kind settings
    let after := (c.create.run session).2
    (∀ failure, c.created session.resource.config session.world = .error failure →
      after.resource.id = session.resource.id ∧
        after.world.2.objects = session.world.2.objects) ∧
    ∀ object, c.created session.resource.config session.world = .ok object →
      ∃ ns name, (kind.metadata object).ns = some ns ∧ (kind.metadata object).name = some name ∧
        session.world.2.find? ns name = none ∧ (after.world.2.find? ns name).isSome ∧
        (∀ (hns : Identity.Part ns) (hname : Identity.Part name),
          after.resource.id = some ⟨ns, name, hns, hname⟩) ∧
        (¬ (Identity.Part ns ∧ Identity.Part name) →
          (c.create.run session).1 =
              .error (.failure (.invalidIdentity (Identity.join ns name))) ∧
            after.resource.id = session.resource.id) := by
  intro c after
  refine ⟨fun failure h => ?_, fun object h => ?_⟩
  · rcases Steps.bind_eq_error_iff.1 h with hmalformed | ⟨⟨ns, placed⟩, hasked, hrefused⟩
    · have hafter : after = session := congrArg Prod.snd (Controller.create_malformed hmalformed)
      rw [hafter]
      exact ⟨rfl, rfl⟩
    · have hafter : after = { session with world := (c.api.create ns placed session.world).2 } :=
        congrArg Prod.snd (Controller.create_refused hasked hrefused)
      rw [hafter]
      exact ⟨rfl, Controller.objects_of_create_error hkind.observable hrefused⟩
  · obtain ⟨⟨ns, placed⟩, hasked, hobject⟩ := Steps.bind_eq_ok_iff.1 h
    obtain ⟨name, hfree, hns, hname, hheld⟩ :=
      Controller.exists_name_of_create hkind.observable hobject
    have hidentity : c.identityOf ns object = Identity.ofParts ns name := by
      show Identity.ofParts ((kind.metadata object).ns.getD ns)
        ((kind.metadata object).name.getD "") = _
      rw [hns, hname]
      rfl
    refine ⟨ns, name, hns, hname, hfree, ?_⟩
    by_cases hparts : Identity.Part ns ∧ Identity.Part name
    · rw [Identity.ofParts, dif_pos hparts] at hidentity
      have hknown := (Controller.ensures_create_known hasked hobject hidentity hheld).after
      exact ⟨hknown.2, fun _ _ => hknown.1, fun hnot => absurd hparts hnot⟩
    · rw [Identity.ofParts, dif_neg hparts] at hidentity
      have hrun := Controller.create_unidentified hasked hobject hidentity
      have hafter : after = { session with world := (c.api.create ns placed session.world).2 } :=
        congrArg Prod.snd hrun
      rw [hafter, hrun]
      exact ⟨hheld, fun hns hname => absurd ⟨hns, hname⟩ hparts, fun _ => ⟨rfl, rfl⟩⟩

/-- A role is known although it cannot be read after its creation. -/
theorem created_identified_unreadable :
    let tree : Tree := .obj [("metadata", .arr [.obj [("name", .str "r")]])]
    let refusal := Failure.callFailed .get "role" (.described "forbidden")
    let c := Controller.inMemory Role.kind Settings.default
    let session : Session (List Fault × Memory Role) :=
      ⟨Resource.ofConfig tree, ([⟨.get, 0, 1, refusal⟩], {}), .start 10⟩
    let object : Role :=
      { metadata := { name := some "r", ns := some "default", generation := some 1,
                      resourceVersion := some "1", uid := some "mock-uid-1" } }
    c.created tree session.world = .ok object ∧
      (c.create.run session).1 = .error (.failure refusal) ∧
      ((c.create.run session).2.world.2.find? "default" "r").isSome ∧
      (c.create.run session).2.resource.id = some ⟨"default", "r", by decide, by decide⟩ := by
  intro tree refusal c session object
  have hcreated : c.created tree session.world = .ok object := by decide +kernel
  have hstops : (c.create.run session).1 = .error (.failure refusal) := by decide +kernel
  obtain ⟨ns, name, hns, hname, _, hheld, hknown, _⟩ :=
    (created_identified .role Settings.default session).2 object hcreated
  obtain rfl : "default" = ns := Option.some.inj hns
  obtain rfl : "r" = name := Option.some.inj hname
  exact ⟨hcreated, hstops, hheld, hknown (by decide) (by decide)⟩

/-- An object that the cluster has made and holds is not known, since its name has a slash. -/
theorem created_unidentified :
    let tree : Tree := .obj [("metadata", .arr [.obj [("name", .str "a/b")]])]
    let c := Controller.inMemory Role.kind Settings.default
    let session : Session (List Fault × Memory Role) :=
      ⟨Resource.ofConfig tree, ([], {}), .start 10⟩
    let after := (c.create.run session).2
    (c.created tree session.world).isOk ∧ session.world.2.find? "default" "a/b" = none ∧
      (after.world.2.find? "default" "a/b").isSome ∧ after.resource.id = none := by
  decide +kernel

end Reconcile
