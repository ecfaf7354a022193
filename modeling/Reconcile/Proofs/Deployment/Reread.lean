import Mathlib.Data.List.Basic
import Reconcile.Proofs.Deployment.Declaration
import Reconcile.Proofs.Metadata.Reread

/-!
# Deployments that are read twice

A deployment is shown against two blocks of the prior tree only, the metadata of the object and
those of its template. Both are read again from the tree that shows it, so showing it against this
tree changes nothing.
-/

namespace Reconcile

namespace PodTemplate

variable (t : PodTemplate) (prior : Option Block)

/-- The metadata of a template are shown alike against the template that shows them. -/
theorem metadataBlock_again :
    t.metadataBlock (some (t.flatten prior)) = t.metadataBlock prior := by
  have hblock : Block.child? (t.flatten prior) "metadata" = t.metadataBlock prior :=
    Block.child?_of_lookup (t.lookup_flatten prior "metadata")
  rw [metadataBlock, Option.bind_some, hblock, metadataBlock]
  cases t.metadata with
  | none => rfl
  | some m =>
      rw [Option.map_some, Option.map_some, m.flattenTemplate_again]

theorem flatten_again : t.flatten (some (t.flatten prior)) = t.flatten prior := by
  refine Entries.Ascending.ext (Block.ascending_ofFields _) (Block.ascending_ofFields _) fun k => ?_
  rw [t.lookup_flatten (some _), t.metadataBlock_again, ← t.lookup_flatten]

end PodTemplate

/-- Content is shown the same against the block that shows it. -/
theorem DeploymentSpec.flatten_again (s : DeploymentSpec) (prior : Option Block) :
    s.flatten (some (s.flatten prior)) = s.flatten prior := by
  have htemplate : Block.child? (s.flatten prior) "template" =
      some (s.template.flatten (prior.bind (Block.child? · "template"))) :=
    Block.child?_of_lookup (s.lookup_flatten prior "template")
  rw [flatten, Option.bind_some, htemplate, s.template.flatten_again, ← flatten]

/-- A deployment is shown alike against the tree that shows it. -/
theorem Deployment.flatten_again (d : Deployment) (prior : Tree) :
    d.flatten (d.flatten prior) = d.flatten prior := by
  rw [d.flatten_eq prior]
  let priorMeta := Tree.block? prior "metadata"
  let priorSpec := Tree.block? prior "spec"
  have hmeta : Block.child? (d.shown priorMeta priorSpec) "metadata" =
      some (d.metadata.flatten priorMeta) :=
    Block.child?_of_lookup (d.lookup_shown priorMeta priorSpec "metadata")
  have hspec : Block.child? (d.shown priorMeta priorSpec) "spec" =
      d.spec.map (·.flatten priorSpec) :=
    Block.child?_of_lookup (d.lookup_shown priorMeta priorSpec "spec")
  have hcontent : d.spec.map (·.flatten (d.spec.map (·.flatten priorSpec))) =
      d.spec.map (·.flatten priorSpec) := by
    cases d.spec with
    | none => rfl
    | some s => exact congrArg some (s.flatten_again priorSpec)
  rw [d.flatten_eq]
  show Json.obj (d.shown (Block.child? (d.shown priorMeta priorSpec) "metadata")
    (Block.child? (d.shown priorMeta priorSpec) "spec")) = _
  rw [hmeta, hspec, shown, d.metadata.flatten_again, hcontent]
  rfl

end Reconcile
