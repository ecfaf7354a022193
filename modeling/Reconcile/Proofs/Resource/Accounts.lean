import Mathlib.Data.List.Basic
import Reconcile.Proofs.Cluster.Faithful
import Reconcile.Proofs.Identity.Texts
import Reconcile.Proofs.Kind.Managed
import Reconcile.Proofs.Resource.Stages
import Reconcile.Proofs.Schema.Refilling

/-!
# What operations know of a faithful cluster

An operation on a faithful cluster ends with an identity that says which object may be there. One
on a known object keeps the identity and adds no object. A creation knows the identity if it may
have added the object, and adds none if it does not know it. An object that is found absent, or that
is deleted, is not there any more.
-/

namespace Reconcile

variable {α σ : Type} {root key : String}

open Operation

/-- A tree with a name names the object with this name, in its namespace or the default one. -/
theorem TreeFile.identity_of_named {settings : Settings} {tree : Tree} {metadata : Block}
    {name : String} (hmetadata : Tree.block? tree "metadata" = some metadata)
    (hname : Block.text? metadata "name" = some name) :
    TreeFile.identity settings tree = (Identity.ofParts
      ((Block.text? metadata "namespace").getD settings.defaultNamespace) name).mapError
        .operation := by
  simp only [TreeFile.identity, hmetadata, hname]

/-- A tree names the object of its metadata block, in the default namespace if it gives none. -/
theorem TreeFile.exists_of_identity {settings : Settings} {tree : Tree} {id : Identity}
    (h : TreeFile.identity settings tree = .ok id) :
    ∃ metadata, Tree.block? tree "metadata" = some metadata ∧
      Block.text? metadata "name" = some id.name ∧
      (Block.text? metadata "namespace").getD settings.defaultNamespace = id.ns := by
  cases hmetadata : Tree.block? tree "metadata" with
  | none =>
      rw [TreeFile.identity, hmetadata] at h
      cases h
  | some metadata =>
      cases hname : Block.text? metadata "name" with
      | none =>
          simp only [TreeFile.identity, hmetadata, hname] at h
          cases h
      | some name =>
          rw [TreeFile.identity_of_named hmetadata hname] at h
          obtain ⟨hns, hparts⟩ := Identity.parts_of_ofParts (Steps.mapError_eq_ok_iff.1 h)
          exact ⟨metadata, rfl, by rw [hname, hparts], hns.symm⟩

/-- An object is known by an identity, and no object is there that is not at the given places. -/
structure Session.Knows (held : σ → Set Place) (id : Identity) (places : Set Place)
    (session : Session σ) : Prop where
  id_eq : session.resource.id = some id
  subset : held session.world ⊆ places

/-- An object has not been added, or it is known by its identity. -/
def Session.Accounts (held : σ → Set Place) (kind : String) (id : Identity) (places : Set Place)
    (session : Session σ) : Prop :=
  session.resource.id = none ∧ held session.world ⊆ places ∨
    session.Knows held id (insert (id.place kind) places)

/-- What is known accounts for itself if nothing has been added. -/
theorem Session.Knows.accounts {held : σ → Set Place} {kind : String} {id : Identity}
    {places : Set Place} {session : Session σ} (h : session.Knows held id places) :
    session.Accounts held kind id places :=
  .inr ⟨h.id_eq, h.subset.trans (Set.subset_insert _ _)⟩

namespace Controller

variable {c : Controller α σ} {held : σ → Set Place} {id : Identity} {places : Set Place}
  {session : Session σ}

section Known

variable (hapi : c.api.Faithful c.kind held)

include hapi

/-- Reading adds no object. -/
theorem held_get_subset (id : Identity) (world : σ) (h : held world ⊆ places) :
    held (c.api.get id.ns id.name world).2 ⊆ places :=
  (hapi.get_subset id.ns id.name world).trans h

/-- Asking whether an object exists adds no object. -/
theorem held_probe_subset (resource : Resource) (world : σ) :
    held (c.probe resource world).2 ⊆ held world := by
  unfold probe
  split
  · exact subset_rfl
  · rename_i id _
    have hget := hapi.get_subset id.ns id.name world
    dsimp only
    split
    · exact hget
    · exact hget

/-- A wait leaves what is known of an object. -/
theorem ensures_settle_knows (limit : Duration) (h : session.Knows held id places) :
    Ensures (c.settle id limit) (fun _ after => after.Knows held id places)
      (fun _ after => after.Knows held id places) session := by
  refine (ensures_settle_preserves (I := fun world => held world ⊆ places) limit
    (held_get_subset hapi id) h.subset).mono ?_ ?_
  · exact fun _ _ hafter => ⟨hafter.1 ▸ h.id_eq, hafter.2⟩
  · exact fun _ _ hafter => ⟨hafter.1 ▸ h.id_eq, hafter.2⟩

/-- A wait and the read after it leave what is known of an object. -/
theorem ensures_settle_read_knows (limit : Duration) (h : session.Knows held id places) :
    Ensures (do
        c.settle id limit
        c.read) (fun _ after => after.Knows held id places)
      (fun _ after => after.Knows held id places) session := by
  refine (ensures_settle_read_preserves (I := fun world => held world ⊆ places) h.id_eq limit
    (held_get_subset hapi id) h.subset).mono (fun _ _ hafter => ⟨hafter.1, hafter.2⟩) ?_
  exact fun _ _ hafter => ⟨hafter.1 ▸ h.id_eq, hafter.2⟩

/-- A reading that stops because the object is absent leaves a world without it. -/
theorem ensures_read_knows (h : session.Knows held id places) :
    Ensures c.read (fun _ after => after.Knows held id places)
      (fun halt after => after.Knows held id places ∧
        ∀ kind text, halt = .failure (.notFound kind text) →
          id.place c.kind.name ∉ held after.world) session := by
  refine ensures_read (fun hnone => nomatch hnone.symm.trans h.id_eq)
    (Resource.forall_id h.id_eq ?_)
  rw [ensures_call]
  refine ⟨fun _ _ => ⟨h.id_eq, held_get_subset hapi id _ h.subset⟩, fun failure hfailure =>
    ⟨⟨h.id_eq, held_get_subset hapi id _ h.subset⟩, ?_⟩⟩
  rintro kind text ⟨⟩
  exact hapi.get_notFound hfailure rfl

/-- Fitting edits to the live object leaves what is known of it. -/
theorem ensures_rebased_knows (planned : List Json.Edit) (h : session.Knows held id places) :
    Ensures (c.rebased id planned) (fun _ after => after.Knows held id places)
      (fun _ after => after.Knows held id places) session := by
  refine ensures_rebased (fun _ => ?_) fun _ => h
  rw [ensures_call]
  have hafter := held_get_subset hapi id session.world h.subset
  exact ⟨fun _ _ => ⟨h.id_eq, hafter⟩, fun _ _ => ⟨h.id_eq, hafter⟩⟩

/-- Submitting edits leaves what is known of an object. -/
theorem ensures_submit_knows (edits : List Json.Edit) (h : session.Knows held id places) :
    Ensures (c.submit id edits) (fun _ after => after.Knows held id places)
      (fun _ after => after.Knows held id places) session := by
  rw [ensures_submit, ensures_call]
  have hafter := (hapi.patch_subset id.ns id.name (Json.Edit.listToJson edits)
    session.world).trans h.subset
  exact ⟨fun _ _ => ⟨h.id_eq, hafter⟩, fun _ _ => ⟨h.id_eq, hafter⟩⟩

/-- An update keeps the identity and adds no object, however it ends. -/
theorem ensures_update_knows (new : Tree) (h : session.Knows held id places) :
    Ensures (c.update new) (fun _ after => after.Knows held id places)
      (fun _ after => after.Knows held id places) session := by
  refine ensures_update (fun hnone => nomatch hnone.symm.trans h.id_eq)
    (Resource.forall_id h.id_eq ⟨fun _ _ => h, fun planned _ => ?_⟩)
  refine (ensures_rebased_knows hapi planned h).mono (fun edits rebased hrebased => ?_)
    fun _ _ hstopped => hstopped
  have hsubmitted : Ensures (c.submitted id edits) (fun _ after => after.Knows held id places)
      (fun _ after => after.Knows held id places) rebased :=
    ensures_submitted (fun _ => hrebased) fun _ => ensures_submit_knows hapi edits hrebased
  refine hsubmitted.mono (fun _ after hafter => ?_) fun _ _ hstopped => hstopped
  exact ensures_settle_read_knows hapi _ ⟨h.id_eq, hafter.subset⟩

/-- An update accounts for all objects that are there. -/
theorem ensures_update_accounts (new : Tree) (hid : session.resource.id = some id)
    (h : held session.world ⊆ places) :
    Ensures (c.update new) (fun _ after => after.Accounts held c.kind.name id places)
      (fun _ after => after.Accounts held c.kind.name id places) session :=
  (ensures_update_knows hapi new ⟨hid, h⟩).mono (fun _ _ hafter => hafter.accounts)
    fun _ _ hafter => hafter.accounts

/-- Draining leaves what is known of an object. -/
theorem ensures_drained_knows (h : session.Knows held id places) :
    Ensures (c.drained id) (fun _ after => after.Knows held id places)
      (fun _ after => after.Knows held id places) session := by
  refine ensures_drained (fun _ => h) fun drain _ => ?_
  exact (ensures_submit_knows hapi drain h).mono
    (fun _ _ hsubmitted => ensures_settle_knows hapi _ hsubmitted) fun _ _ hstopped => hstopped

/-- A deletion adds no object, and one that ends with a value has removed its own. -/
theorem ensures_delete_held (h : session.Knows held id places) :
    Ensures c.delete (fun _ after => held after.world ⊆ places ∧
        id.place c.kind.name ∉ held after.world)
      (fun _ after => held after.world ⊆ places) session := by
  refine ensures_delete (fun hnone => nomatch hnone.symm.trans h.id_eq)
    (Resource.forall_id h.id_eq ?_)
  refine (ensures_drained_knows hapi h).mono (fun _ ready hready => ?_)
    fun _ _ hstopped => hstopped.subset
  have hafter := (hapi.delete_subset id.ns id.name c.kind.propagation ready.world).trans
    hready.subset
  rw [ensures_call]
  exact ⟨fun _ hdeleted => ⟨hafter, hapi.delete_ok hdeleted⟩, fun _ _ => hafter⟩

end Known

/-! ## Creations -/

/-- A creation from a tree with a name asks for an object with this name, in the namespace of the
tree or the default one. -/
theorem asked_of_named (hkind : c.kind.Managed root key) {tree : Tree} {metadata : Block}
    {name ns : String} {placed : α} (hmetadata : Tree.block? tree "metadata" = some metadata)
    (hname : Block.text? metadata "name" = some name) (hasked : c.asked tree = .ok (ns, placed)) :
    ns = (Block.text? metadata "namespace").getD c.settings.defaultNamespace ∧
      (c.kind.metadata placed).name = some name := by
  obtain ⟨block, hblock, hdeclared⟩ := Option.bind_eq_some_iff.1 hmetadata
  obtain rfl : tree = .obj block := by
    cases tree with
    | obj fields => exact congrArg Json.obj (Option.some.inj hblock)
    | _ => cases hblock
  obtain ⟨object, hobject, hplace⟩ := Steps.map_eq_ok_iff.1 hasked
  obtain ⟨metaBlock, hmetaBlock, _, hobjectMeta⟩ := hkind.lawful.metadata_expand hobject
  -- Filling the gaps of a new tree leaves the name and the namespace in its metadata as they are.
  have hfilled : metaBlock = Schema.fill ObjectMeta.schema none metadata :=
    Option.some.inj (hmetaBlock.symm.trans (Schema.child?_fill hkind.lawful.wellNamed.nodup
      hkind.restoring.metadata_mem hdeclared none))
  have htext : ∀ field ∈ ObjectMeta.schema, field.default = none →
      Block.text? metaBlock field.name = Block.text? metadata field.name := by
    intro field hfield hdefault
    rw [hfilled]
    exact Schema.text?_fill (by decide) hfield hdefault
  have hname' : (c.kind.metadata object).name = some name := by
    rw [hobjectMeta, ← hname]
    exact htext (.text "name" .optionalComputed) List.mem_cons_self rfl
  have hns' : (c.kind.metadata object).ns = Block.text? metadata "namespace" := by
    rw [hobjectMeta]
    exact htext (.text "namespace" .optionalComputed) (by simp [ObjectMeta.schema]) rfl
  have hfilter : (c.kind.metadata object).ns.filter (· ≠ "") =
      Block.text? metadata "namespace" := by
    rw [hns', Block.text?, Option.filter_filter]
    simp
  unfold place at hplace
  dsimp only at hplace
  rw [hfilter] at hplace
  cases hdeclaredNs : Block.text? metadata "namespace" with
  | none =>
      rw [hdeclaredNs] at hplace
      obtain ⟨rfl, rfl⟩ := Prod.mk.inj hplace
      exact ⟨rfl, by rw [hkind.observable.metadata_withMetadata]; exact hname'⟩
  | some ns' =>
      rw [hdeclaredNs] at hplace
      obtain ⟨rfl, rfl⟩ := Prod.mk.inj hplace
      exact ⟨rfl, hname'⟩

/-- A creation asks for the object that its tree names. -/
theorem asked_of_identity (hkind : c.kind.Managed root key) {tree : Tree}
    (hid : TreeFile.identity c.settings tree = .ok id) {ns : String} {placed : α}
    (hasked : c.asked tree = .ok (ns, placed)) :
    ns = id.ns ∧ (c.kind.metadata placed).name = some id.name := by
  obtain ⟨metadata, hmetadata, hname, hns⟩ := TreeFile.exists_of_identity hid
  rw [← hns]
  exact asked_of_named hkind hmetadata hname hasked

/-- A creation of the object that a tree names adds none but this one, and knows its identity if it
may have added it. -/
theorem ensures_create_accounts (hapi : c.api.Faithful c.kind held)
    (hkind : c.kind.Managed root key)
    (hid : TreeFile.identity c.settings session.resource.config = .ok id)
    (hnew : session.resource.id = none) (h : held session.world ⊆ places) :
    Ensures c.create (fun _ after => after.Accounts held c.kind.name id places)
      (fun _ after => after.Accounts held c.kind.name id places) session := by
  refine ensures_create (fun _ _ => .inl ⟨hnew, h⟩) fun ns placed hasked => ?_
  obtain ⟨rfl, hname⟩ := asked_of_identity hkind hid hasked
  rw [ensures_call]
  refine ⟨?_, fun _ hrefused => .inl ⟨hnew, (hapi.create_error hrefused).trans h⟩⟩
  intro object hobject
  obtain ⟨hns', hname', hheld⟩ := hapi.create_ok hname id.name_part.1 hobject
  have hidentity : c.identityOf id.ns object = .ok id := by
    rw [identityOf, hns', hname']
    exact dif_pos ⟨id.ns_part, id.name_part⟩
  refine ⟨fun other hother => ?_, fun _ herror => (nomatch hidentity.symm.trans herror)⟩
  obtain rfl := Except.ok.inj (hidentity.symm.trans hother)
  refine (ensures_settle_read_knows hapi _ ⟨rfl, ?_⟩).mono (fun _ _ => .inr) fun _ _ => .inr
  exact hheld.trans (Set.insert_subset_insert h)

end Controller

end Reconcile
