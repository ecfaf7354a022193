import Mathlib.Data.List.Basic
import Reconcile.Proofs.Deployment.Fixed
import Reconcile.Proofs.Kind.Managed
import Reconcile.Proofs.Role.Fixed
import Reconcile.Proofs.Schema.Tolerance

/-!
# Trees that show what was declared

A tree may be declared with gaps, with empty values and with numbers for the bounds of a rolling
update (`Schema.Tolerates`). The tree that shows the declared object spells all of this in one way:
it declares the same object, and showing the object against it changes nothing
(`Kind.flatten_fixed`).
-/

namespace Reconcile

/-- The metadata of a template have no field for a namespace. -/
theorem Deployment.unplaced_of_tolerates {numbers : Json → Bool} {tree : Block}
    (h : schema.Tolerates numbers tree) : Unplaced tree := by
  intro specBlock template metaBlock hspec htemplate hmeta
  have hspecBlock : DeploymentSpec.schema.Tolerates numbers specBlock := h.child rfl hspec
  have htemplateBlock : PodTemplate.schema.Tolerates numbers template :=
    hspecBlock.child rfl htemplate
  have hmetaBlock : ObjectMeta.templateSchema.Tolerates numbers metaBlock :=
    htemplateBlock.child rfl hmeta
  exact Entries.lookup_eq_none_iff.2 fun hmem =>
    absurd (hmetaBlock.covers.known "namespace" hmem) (by decide)

namespace Kind

variable {α : Type} {kind : Kind α} {root key : String}

/-- Showing a declared object loses nothing: the tree that shows it declares it again, and the
object is shown against this tree as the same tree. -/
theorem flatten_fixed (hkind : kind.Managed root key) {tree : Block} {object : α}
    (htree : kind.schema.Tolerates Schema.isNumber tree)
    (hexpand : kind.expand (.obj tree) = .ok object) :
    kind.expand (kind.flatten object (.obj tree)) = .ok object ∧
      kind.flatten object (kind.flatten object (.obj tree)) = kind.flatten object (.obj tree) := by
  cases hkind with
  | deployment =>
      have hunplaced := Deployment.unplaced_of_tolerates htree
      exact ⟨Deployment.expand_flatten hunplaced hexpand,
        Deployment.flatten_flatten hunplaced hexpand⟩
  | role => exact ⟨Role.expand_flatten hexpand, Role.flatten_flatten hexpand⟩

/-- A deployment with the beginning of a name, an annotation of the cluster, empty values, numbers
for its bounds and no selector. -/
theorem flatten_fixed_loose :
    let bounds : Json := .arr [.obj [("max_surge", .float ⟨0x3FE0000000000000⟩),
      ("max_unavailable", .int 7)]]
    let container : Json := .obj [("args", .arr []), ("image", .str ""), ("name", .str "c")]
    let template : Json := .obj
      [("metadata", .arr [.obj [("annotations", .obj []),
        ("labels", .obj [("app", .str "a")])]]),
       ("spec", .arr [.obj [("container", .arr [container]), ("node_selector", .obj [])]])]
    let tree : Block :=
      [("metadata", .arr [.obj [("annotations", .obj [("k8s.io/note", .str "n")]),
         ("generate_name", .str "d-"), ("name", .str "")]]),
       ("spec", .arr [.obj [("strategy", .arr [.obj [("rolling_update", bounds)]]),
         ("template", .arr [template])]])]
    ∃ object, Deployment.kind.expand (.obj tree) = .ok object ∧
      Deployment.kind.expand (Deployment.kind.flatten object (.obj tree)) = .ok object ∧
      Deployment.kind.flatten object (Deployment.kind.flatten object (.obj tree)) =
        Deployment.kind.flatten object (.obj tree) := by
  intro bounds container template tree
  have htree : Deployment.kind.schema.Tolerates Schema.isNumber tree := by decide
  obtain ⟨object, hexpand⟩ : ∃ object, Deployment.kind.expand (.obj tree) = .ok object :=
    Steps.exists_of_isOk (by decide)
  exact ⟨object, hexpand, flatten_fixed .deployment htree hexpand⟩

end Kind

end Reconcile
