import Mathlib.Data.List.Basic
import Reconcile.Proofs.Deployment.Declaration
import Reconcile.Proofs.Schema.Gaps

/-!
# Gaps of deployments that are shown

What the server leaves out is shown with its default, for every field with a default but the two
bounds of a rolling update. So the tree that shows a deployment has a gap exactly if one of these
bounds is missing (`Deployment.completeField_spec_iff`).
-/

namespace Reconcile

open Schema (complete_iff completeField_some completeField_leaf completeField_of_throughout
  completeField_singular_iff)

/-- The pods of a deployment are shown without gaps. -/
theorem PodSpec.flatten_complete (s : PodSpec) : schema.Complete s.flatten := by
  refine complete_iff.2 ?_
  have hcontainers : Container.schema.Throughout Schema.WithoutDefaults := by decide
  simp only [schema, List.forall_mem_cons, lookup_flatten]
  exact ⟨completeField_leaf rfl rfl _, completeField_of_throughout rfl rfl hcontainers _,
    completeField_of_throughout rfl rfl hcontainers _, completeField_leaf rfl rfl _,
    completeField_some rfl _, completeField_some rfl _, completeField_some rfl _,
    completeField_leaf rfl rfl _, completeField_leaf rfl rfl _, completeField_leaf rfl rfl _,
    completeField_leaf rfl rfl _, completeField_leaf rfl rfl _, completeField_leaf rfl rfl _,
    List.forall_mem_nil _⟩

/-- A shown template has no gaps. -/
theorem PodTemplate.flatten_complete (t : PodTemplate) (prior : Option Block) :
    schema.Complete (t.flatten prior) := by
  refine complete_iff.2 ?_
  simp only [schema, List.forall_mem_cons, lookup_flatten]
  refine ⟨(completeField_singular_iff rfl rfl).2 fun element _ => ?_,
    (completeField_singular_iff rfl rfl).2 fun element helement => ?_, List.forall_mem_nil _⟩
  · exact Schema.complete_of_throughout (by decide) element
  · obtain ⟨s, _, rfl⟩ := Option.map_eq_some_iff.1 helement
    exact s.flatten_complete

/-- Bounds are shown without gaps exactly if both are there. -/
theorem RollingUpdate.flatten_complete_iff (r : RollingUpdate) :
    schema.Complete r.flatten ↔ r.maxSurge.isSome ∧ r.maxUnavailable.isSome := by
  have hshown : ∀ (field : Field) (bound : Option IntOrText), field.default.isSome →
      field.type.isNested = false → (Schema.CompleteField field
        (Block.ofText? (bound.map IntOrText.toText)) ↔ bound.isSome) := by
    intro field bound hdefault hleaf
    cases bound with
    | none => exact ⟨fun h => h.here hdefault, nofun⟩
    | some b => exact iff_of_true (completeField_some hleaf _) rfl
  rw [complete_iff]
  simp only [schema, List.forall_mem_cons, lookup_flatten]
  exact and_congr (hshown _ _ rfl rfl) ((and_iff_left (List.forall_mem_nil _)).trans
    (hshown _ _ rfl rfl))

/-- A shown strategy has no gaps exactly if its rolling update has both bounds. -/
theorem Strategy.flatten_complete_iff (s : Strategy) : schema.Complete s.flatten ↔
    ∀ r, s.rollingUpdate = some r → r.maxSurge.isSome ∧ r.maxUnavailable.isSome := by
  have hrolling : Schema.CompleteField (.single "rolling_update" RollingUpdate.schema .optional)
      ((s.rollingUpdate.map RollingUpdate.flatten).map Block.singular) ↔
        ∀ r, s.rollingUpdate = some r → r.maxSurge.isSome ∧ r.maxUnavailable.isSome := by
    rw [completeField_singular_iff rfl rfl]
    simp only [Option.map_eq_some_iff, forall_exists_index, and_imp, forall_apply_eq_imp_iff₂,
      RollingUpdate.flatten_complete_iff]
  rw [complete_iff]
  simp only [schema, List.forall_mem_cons, lookup_flatten]
  exact (and_iff_right (completeField_leaf rfl rfl _)).trans
    ((and_iff_left (List.forall_mem_nil _)).trans hrolling)

namespace DeploymentSpec

/-- No bound of a rolling update is missing. -/
def Bounded (s : DeploymentSpec) : Prop :=
  ∀ t, s.strategy = some t → ∀ r, t.rollingUpdate = some r →
    r.maxSurge.isSome ∧ r.maxUnavailable.isSome

/-- Shown content has no gaps exactly if its rolling update has both bounds. -/
theorem flatten_complete_iff (s : DeploymentSpec) (prior : Option Block) :
    schema.Complete (s.flatten prior) ↔ s.Bounded := by
  have hstrategy : Schema.CompleteField (.single "strategy" Strategy.schema .optionalComputed)
      ((s.strategy.map Strategy.flatten).map Block.singular) ↔ s.Bounded := by
    rw [completeField_singular_iff rfl rfl]
    simp only [Option.map_eq_some_iff, forall_exists_index, and_imp, forall_apply_eq_imp_iff₂,
      Strategy.flatten_complete_iff, Bounded]
  have htemplate : Schema.CompleteField (.single "template" PodTemplate.schema .required)
      ((some (s.template.flatten (prior.bind (Block.child? · "template")))).map
        Block.singular) := by
    refine (completeField_singular_iff rfl rfl).2 ?_
    rintro _ ⟨⟩
    exact s.template.flatten_complete _
  rw [complete_iff]
  constructor
  · intro h
    refine hstrategy.1 ?_
    have hshown := h (.single "strategy" Strategy.schema .optionalComputed) (by simp [schema])
    rw [lookup_flatten] at hshown
    exact hshown
  · intro h
    simp only [schema, List.forall_mem_cons, lookup_flatten]
    exact ⟨completeField_some rfl _, completeField_some rfl _, completeField_some rfl _,
      completeField_some rfl _, completeField_some rfl _,
      completeField_leaf rfl rfl _, hstrategy.2 h, htemplate, List.forall_mem_nil _⟩

end DeploymentSpec

/-- The content of a deployment is shown without gaps exactly if no bound is missing. -/
theorem Deployment.completeField_spec_iff (d : Deployment) (priorMeta priorSpec : Option Block) :
    Schema.CompleteField (.single "spec" DeploymentSpec.schema .required)
        ((d.shown priorMeta priorSpec).lookup "spec") ↔
      ∀ s, d.spec = some s → s.Bounded := by
  rw [d.lookup_shown]
  refine (completeField_singular_iff rfl rfl).trans ?_
  simp only [Option.map_eq_some_iff, forall_exists_index, and_imp, forall_apply_eq_imp_iff₂,
    DeploymentSpec.flatten_complete_iff]

end Reconcile
