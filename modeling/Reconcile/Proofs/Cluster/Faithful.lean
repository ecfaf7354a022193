import Mathlib.Order.BooleanAlgebra.Set
import Reconcile.Command.Run

/-!
# Faithful clusters

A cluster is faithful if its answers tell the truth about the objects in it. A call may fail at any
time, but one that fails adds no object, an object is only said to be absent if it is, and an object
that is created is the one that was asked for. Objects may also go by themselves.
-/

namespace Reconcile

/-- Where an object lives in a cluster. -/
structure Place where
  kind : String
  ns : String
  name : String
  deriving DecidableEq

/-- The place of the object of a kind with an identity. -/
def Identity.place (id : Identity) (kind : String) : Place := ⟨kind, id.ns, id.name⟩

variable {α σ : Type}

/-- The answers of a control API are true of the places that hold an object in each state of the
world. -/
structure ControlApi.Faithful (api : ControlApi α σ) (kind : Kind α) (held : σ → Set Place) :
    Prop where
  /-- A creation that fails adds no object. -/
  create_error : ∀ {ns : String} {object : α} {world : σ} {failure : Failure},
    (api.create ns object world).1 = .error failure →
    held (api.create ns object world).2 ⊆ held world
  /-- A creation of a named object adds this object and answers with its namespace and name. -/
  create_ok : ∀ {ns name : String} {object created : α} {world : σ},
    (kind.metadata object).name = some name → name ≠ "" →
    (api.create ns object world).1 = .ok created →
    (kind.metadata created).ns = some ns ∧ (kind.metadata created).name = some name ∧
      held (api.create ns object world).2 ⊆ insert ⟨kind.name, ns, name⟩ (held world)
  get_subset : ∀ (ns name : String) (world : σ), held (api.get ns name world).2 ⊆ held world
  /-- An object that is said to be absent is so. -/
  get_notFound : ∀ {ns name : String} {world : σ} {failure : Failure},
    (api.get ns name world).1 = .error failure → failure.isNotFound = true →
    ⟨kind.name, ns, name⟩ ∉ held (api.get ns name world).2
  patch_subset : ∀ (ns name : String) (document : Json) (world : σ),
    held (api.patch ns name document world).2 ⊆ held world
  delete_subset : ∀ (ns name : String) (propagation : Propagation) (world : σ),
    held (api.delete ns name propagation world).2 ⊆ held world
  /-- An object whose deletion succeeds is gone. -/
  delete_ok : ∀ {ns name : String} {propagation : Propagation} {world : σ},
    (api.delete ns name propagation world).1 = .ok () →
    ⟨kind.name, ns, name⟩ ∉ held (api.delete ns name propagation world).2

/-- Both control APIs of a cluster are faithful. -/
structure Cluster.Faithful (cluster : Cluster σ) (held : σ → Set Place) : Prop where
  deployments : cluster.deployments.Faithful Deployment.kind held
  roles : cluster.roles.Faithful Role.kind held

/-- What is true of all objects is true of those at other places than given ones. -/
theorem ControlApi.Faithful.diff {api : ControlApi α σ} {kind : Kind α} {held : σ → Set Place}
    (h : api.Faithful kind held) (places : Set Place) :
    api.Faithful kind fun world => held world \ places where
  create_error hrefused := Set.sdiff_subset_sdiff_left (h.create_error hrefused)
  create_ok hname hne hmade := by
    obtain ⟨hns, hcreated, hsubset⟩ := h.create_ok hname hne hmade
    refine ⟨hns, hcreated, ?_⟩
    rintro place ⟨hplace, hother⟩
    exact (hsubset hplace).imp_right fun hheld => ⟨hheld, hother⟩
  get_subset ns name world := Set.sdiff_subset_sdiff_left (h.get_subset ns name world)
  get_notFound hrefused habsent hplace := h.get_notFound hrefused habsent hplace.1
  patch_subset ns name document world :=
    Set.sdiff_subset_sdiff_left (h.patch_subset ns name document world)
  delete_subset ns name propagation world :=
    Set.sdiff_subset_sdiff_left (h.delete_subset ns name propagation world)
  delete_ok hdeleted hplace := h.delete_ok hdeleted hplace.1

/-- A cluster is faithful to what it holds without some places as well. -/
theorem Cluster.Faithful.diff {cluster : Cluster σ} {held : σ → Set Place}
    (h : cluster.Faithful held) (places : Set Place) :
    cluster.Faithful fun world => held world \ places :=
  ⟨h.deployments.diff places, h.roles.diff places⟩

end Reconcile
