import Mathlib.Data.List.Basic
import Reconcile.Proofs.Deployment.Declaration
import Reconcile.Proofs.Metadata.Fixed

/-!
# Deployments that are shown again

The tree that shows a declared deployment declares it again, and showing it against this tree makes
the same tree. Only the metadata of the template have to be looked at twice: where they say nothing
they are not shown, and the block that is missing then declares the same.
-/

namespace Reconcile

variable {prior other : Option Block}

namespace PodTemplate

variable {t : PodTemplate}

/-- The block that shows a template declares the metadata that it has. -/
theorem Declared.flatten (h : t.Declared prior) : t.Declared (some (t.flatten prior)) := by
  obtain ⟨m, hm, htemplate, hdeclared⟩ := h.metadata
  refine ⟨⟨m, hm, htemplate, ?_⟩, h.spec⟩
  have hblock : Block.child? (t.flatten prior) "metadata" = t.metadataBlock prior :=
    Block.child?_of_lookup (t.lookup_flatten prior "metadata")
  have hagain := ObjectMeta.declaredBy_ofTemplate (t.metadataBlock prior)
  rw [ofTemplate_metadataBlock hm htemplate hdeclared] at hagain
  rw [Option.bind_some, hblock]
  exact hagain

theorem flatten_congr (h : t.Declared prior) (hother : t.Declared other) :
    t.flatten prior = t.flatten other := by
  obtain ⟨m, hm, _, hdeclared⟩ := h.metadata
  obtain ⟨m', hm', _, hdeclared'⟩ := hother.metadata
  obtain rfl : m = m' := Option.some.inj (hm.symm.trans hm')
  rw [PodTemplate.flatten, PodTemplate.flatten, hm]
  simp only [Option.bind_some, ObjectMeta.flattenTemplate_congr hdeclared hdeclared']

end PodTemplate

namespace DeploymentSpec

variable {s : DeploymentSpec}

/-- The block that shows content declares the metadata of its template. -/
theorem Declared.flatten (h : s.Declared prior) : s.Declared (some (s.flatten prior)) := by
  have hblock : Block.child? (s.flatten prior) "template" =
      some (s.template.flatten (prior.bind (Block.child? · "template"))) :=
    Block.child?_of_lookup (s.lookup_flatten prior "template")
  refine { h with template := ?_ }
  rw [Option.bind_some, hblock]
  exact h.template.flatten

theorem flatten_congr (h : s.Declared prior) (hother : s.Declared other) :
    s.flatten prior = s.flatten other := by
  rw [DeploymentSpec.flatten, DeploymentSpec.flatten,
    PodTemplate.flatten_congr h.template hother.template]

end DeploymentSpec

namespace Deployment

variable {tree : Block} {d : Deployment}

/-- The metadata of the template in a tree name no namespace. -/
def Unplaced (tree : Block) : Prop :=
  ∀ spec template metaBlock, Block.child? tree "spec" = some spec →
    Block.child? spec "template" = some template →
    Block.child? template "metadata" = some metaBlock → metaBlock.lookup "namespace" = none

/-- A deployment is shown against the blocks of a tree. -/
theorem flatten_of_blocks (d : Deployment) {metaBlock specBlock : Block}
    (hmeta : Block.child? tree "metadata" = some metaBlock)
    (hspec : Block.child? tree "spec" = some specBlock) :
    d.flatten (.obj tree) = .obj (d.shown (some metaBlock) (some specBlock)) := by
  rw [← hmeta, ← hspec]
  exact d.flatten_eq (.obj tree)

/-- What a tree of a deployment without a misplaced namespace declares. -/
theorem exists_blocks (htree : Unplaced tree) (h : expand (.obj tree) = .ok d) :
    ∃ metaBlock specBlock spec, Block.child? tree "metadata" = some metaBlock ∧
      ObjectMeta.hasName metaBlock = true ∧ Block.child? tree "spec" = some specBlock ∧
      spec.Declared (some specBlock) ∧
      d = { metadata := ObjectMeta.expand metaBlock, spec := some spec } := by
  obtain ⟨metaBlock, specBlock, spec, hmeta, hname, hspecBlock, hspec, hd⟩ := expand_eq_ok.1 h
  have hdeclared := DeploymentSpec.declared_of_expand
    (fun template metaBlock => htree specBlock template metaBlock hspecBlock) hspec
  exact ⟨metaBlock, specBlock, spec, hmeta, hname, hspecBlock, hdeclared, hd⟩

/-- A declared deployment is declared again by the tree that shows it. -/
theorem expand_flatten (htree : Unplaced tree) (h : expand (.obj tree) = .ok d) :
    expand (d.flatten (.obj tree)) = .ok d := by
  obtain ⟨metaBlock, specBlock, spec, hmeta, hname, hspecBlock, hdeclared, hd⟩ :=
    exists_blocks htree h
  have hmetadata : d.metadata = ObjectMeta.expand metaBlock := by rw [hd]
  have hnameShown : ObjectMeta.hasName (d.metadata.flatten (some metaBlock)) = true := by
    rw [hmetadata]
    exact ObjectMeta.hasName_flatten_expand hname
  rw [d.flatten_of_blocks hmeta hspecBlock, expand_shown hnameShown (by rw [hd]) hdeclared,
    hmetadata, ObjectMeta.expand_flatten_expand, hd]

/-- A declared deployment is shown the same against the tree that shows it. -/
theorem flatten_flatten (htree : Unplaced tree) (h : expand (.obj tree) = .ok d) :
    d.flatten (d.flatten (.obj tree)) = d.flatten (.obj tree) := by
  obtain ⟨metaBlock, specBlock, spec, hmeta, _, hspecBlock, hdeclared, hd⟩ := exists_blocks htree h
  have hmetaDeclared : d.metadata.DeclaredBy (some metaBlock) := by
    rw [hd]
    exact ObjectMeta.declaredBy_expand metaBlock
  have hspec : d.spec = some spec := by rw [hd]
  have hmetaShown : Block.child? (d.shown (some metaBlock) (some specBlock)) "metadata" =
      some (d.metadata.flatten (some metaBlock)) :=
    Block.child?_of_lookup (d.lookup_shown _ _ "metadata")
  have hspecShown : Block.child? (d.shown (some metaBlock) (some specBlock)) "spec" =
      some (spec.flatten (some specBlock)) := by
    rw [Block.child?_of_lookup (d.lookup_shown _ _ "spec"), hspec]
    rfl
  have hmetaSame := ObjectMeta.flatten_congr hmetaDeclared.flatten hmetaDeclared
  have hspecSame := DeploymentSpec.flatten_congr hdeclared.flatten hdeclared
  have hsame : d.shown (some (d.metadata.flatten (some metaBlock)))
      (some (spec.flatten (some specBlock))) = d.shown (some metaBlock) (some specBlock) := by
    rw [shown, shown, hmetaSame, hspec]
    simp only [Option.map_some, hspecSame]
  rw [d.flatten_of_blocks hmeta hspecBlock, d.flatten_of_blocks hmetaShown hspecShown, hsame]

end Deployment

end Reconcile
