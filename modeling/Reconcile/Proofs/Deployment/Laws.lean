import Mathlib.Data.List.Basic
import Reconcile.Deployment.Kind
import Reconcile.Proofs.Kind.Laws

/-!
# Deployments are lawful

The content of a deployment is its specification.
-/

namespace Reconcile.Deployment

/-- A tree declares a deployment if its metadata block names it and its specification is well
formed. -/
theorem expand_eq_ok {block : Block} {deployment : Deployment} :
    expand (.obj block) = .ok deployment ↔
      ∃ metaBlock specBlock spec, Block.child? block "metadata" = some metaBlock ∧
        ObjectMeta.hasName metaBlock = true ∧ Block.child? block "spec" = some specBlock ∧
        DeploymentSpec.expand specBlock = .ok spec ∧
        deployment = { metadata := ObjectMeta.expand metaBlock, spec := some spec } := by
  have hroot : Declaration.root (.obj block) = .ok block := rfl
  simp only [expand, hroot, Steps.bind_ok, Steps.bind_eq_ok_iff, Declaration.requiredBlock_eq_ok,
    ObjectMeta.requireName_eq_ok, Steps.pure_eq_ok, Except.ok.injEq]
  constructor
  · rintro ⟨metaBlock, hmeta, _, hname, specBlock, hspecBlock, spec, hspec, rfl⟩
    exact ⟨metaBlock, specBlock, spec, hmeta, hname, hspecBlock, hspec, rfl⟩
  · rintro ⟨metaBlock, specBlock, spec, hmeta, hname, hspecBlock, hspec, rfl⟩
    exact ⟨metaBlock, hmeta, (), hname, specBlock, hspecBlock, spec, hspec, rfl⟩

theorem content_spec (deployment : Deployment) : kind.content "spec" deployment =
    deployment.spec.map DeploymentSpec.toJson := by
  show (Block.ofFields _).lookup "spec" = _
  rw [Block.lookup_ofFields (by simp)]
  rfl

/-- The specification of a deployment is declared by its tree and kept in one place of its wire
form. -/
theorem lawful : kind.Lawful "spec" "spec" where
  wellNamed := by decide
  typedDefaults := by decide
  mutablePaths_eq := rfl
  tokens?_key := by decide
  key_ne := by decide
  key_not_textMap := by decide
  toJson_eq _ := rfl
  ascending _ := Block.ascending_ofFields _
  lookup_metadata deployment := by
    show (Block.ofFields _).lookup "metadata" = _
    rw [Block.lookup_ofFields (by simp)]
    rfl
  metadata_expand h := by
    obtain ⟨metaBlock, _, _, hchild, hname, _, _, rfl⟩ := expand_eq_ok.1 h
    exact ⟨metaBlock, hchild, hname, rfl⟩
  isSome_content _ h := by
    obtain ⟨_, specBlock, spec, _, _, hspecBlock, _, rfl⟩ := expand_eq_ok.1 h
    obtain ⟨items, hitems⟩ := Block.child?_eq_some_iff.1 hspecBlock
    rw [content_spec, hitems]
    rfl
  content_congr h h' heq := by
    obtain ⟨_, _, spec, _, _, hblock, hspec, rfl⟩ := expand_eq_ok.1 h
    obtain ⟨_, _, spec', _, _, hblock', hspec', rfl⟩ := expand_eq_ok.1 h'
    rw [Block.child?_congr heq, hblock'] at hblock
    cases hblock
    rw [hspec'] at hspec
    cases hspec
    rw [content_spec, content_spec]

end Reconcile.Deployment
