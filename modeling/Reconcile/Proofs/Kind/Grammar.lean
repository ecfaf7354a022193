import Mathlib.Data.List.Basic
import Reconcile.Deployment.Kind
import Reconcile.Proofs.Pod.Grammar
import Reconcile.Role.Kind

/-!
# Trees that declare objects

A tree declares an object if it names it and if every block that the object needs is there and
declares its part. `Kind.expand_grammatical` says that exactly these trees are expanded, among all
values that a tree can be, and that every other one is refused as malformed.
-/

namespace Reconcile

open Declaration

/-- A block of metadata that names its object, or says what its name begins with. -/
def ObjectMeta.Grammatical (block : Block) : Prop :=
  Block.HasText block "name" ∨ Block.HasText block "generate_name"

/-- A block that declares the desired content of a deployment. -/
structure DeploymentSpec.Grammatical (block : Block) : Prop where
  template : ∃ template, Block.BeginsWith block "template" template ∧
    ∃ pod, Block.BeginsWith template "spec" pod ∧ PodSpec.Grammatical pod
  minReadySeconds : Block.FitsInt32 block "min_ready_seconds"
  progressDeadlineSeconds : Block.FitsInt32 block "progress_deadline_seconds"
  replicas : Block.FitsInt32 block "replicas"
  revisionHistoryLimit : Block.FitsInt32 block "revision_history_limit"

/-- A tree that declares a deployment. -/
inductive Deployment.Grammatical : Tree → Prop where
  | obj {root metaBlock spec : Block} (metadata : Block.BeginsWith root "metadata" metaBlock)
    (named : ObjectMeta.Grammatical metaBlock) (content : Block.BeginsWith root "spec" spec)
    (declared : DeploymentSpec.Grammatical spec) : Grammatical (.obj root)

/-- A tree that declares a role, in which every rule allows something. -/
inductive Role.Grammatical : Tree → Prop where
  | obj {root metaBlock : Block} (metadata : Block.BeginsWith root "metadata" metaBlock)
    (named : ObjectMeta.Grammatical metaBlock)
    (rules : ∀ rule, Block.HasElement root "policy_rule" rule → Block.HasTextItem rule "verbs") :
    Grammatical (.obj root)

/-- The check for a name accepts exactly the metadata that have one. -/
theorem ObjectMeta.decides_requireName (block : Block) :
    Decides (requireName block) (Grammatical block) := by
  have hname : hasName block = true ↔ Grammatical block := by
    rw [hasName, Bool.or_eq_true, Block.text?_isSome_iff, Block.text?_isSome_iff]
    rfl
  rw [← hname]
  unfold requireName
  split
  · exact .takes () ‹_›
  · exact .refuses _ ‹_›

/-- The reader of rules accepts exactly the blocks with a verb, and any other one has an invalid
shape. -/
theorem PolicyRule.decides_expand (path : String) (block : Block) :
    Decides (expand path block) (Block.HasTextItem block "verbs") := by
  rw [← Block.textList_ne_nil_iff, Ne, ← List.isEmpty_iff]
  unfold expand
  dsimp only
  split
  · exact .refuses _ (not_not_intro ‹_›)
  · exact .takes _ ‹_›

/-- The reader of content accepts exactly the blocks of its grammar, and any other one has an
invalid shape. -/
theorem DeploymentSpec.decides_expand (block : Block) :
    Decides (expand block) (Grammatical block) := by
  have hnumber := fun (key : String) (default : Int32) =>
    decides_int32D block key default ("spec." ++ key)
  refine (decides_requiredBlock fun template => decides_requiredBlock fun pod =>
    (hnumber "min_ready_seconds" _).and fun _ =>
      (hnumber "progress_deadline_seconds" _).and fun _ => (hnumber "replicas" _).and fun _ =>
        (hnumber "revision_history_limit" _).and fun _ =>
          (PodSpec.decides_expand pod).pure _).congr ?_
  constructor
  · rintro ⟨template, htemplate, pod, hpod, hmin, hdeadline, hreplicas, hlimit, hdeclared⟩
    exact ⟨⟨template, htemplate, pod, hpod, hdeclared⟩, hmin, hdeadline, hreplicas, hlimit⟩
  · rintro ⟨⟨template, htemplate, pod, hpod, hdeclared⟩, hmin, hdeadline, hreplicas, hlimit⟩
    exact ⟨template, htemplate, pod, hpod, hmin, hdeadline, hreplicas, hlimit, hdeclared⟩

/-- The reader of deployments accepts exactly the trees of their grammar, and any other one has an
invalid shape. -/
theorem Deployment.decides_expand (tree : Tree) : Decides (expand tree) (Grammatical tree) := by
  refine Decides.congr (decides_root fun root => decides_requiredBlock fun metaBlock =>
    (ObjectMeta.decides_requireName metaBlock).and fun _ =>
      decides_requiredBlock fun spec => (DeploymentSpec.decides_expand spec).pure _) ?_
  constructor
  · rintro ⟨root, rfl, metaBlock, hmeta, hnamed, spec, hspec, hdeclared⟩
    exact .obj hmeta hnamed hspec hdeclared
  · rintro ⟨hmeta, hnamed, hspec, hdeclared⟩
    exact ⟨_, rfl, _, hmeta, hnamed, _, hspec, hdeclared⟩

/-- The reader of roles accepts exactly the trees of their grammar, and any other one has an invalid
shape. -/
theorem Role.decides_expand (tree : Tree) : Decides (expand tree) (Grammatical tree) := by
  refine Decides.congr (decides_root fun root => decides_requiredBlock fun metaBlock =>
    (ObjectMeta.decides_requireName metaBlock).and fun _ =>
      (decides_children PolicyRule.decides_expand _ _ _).pure _) ?_
  constructor
  · rintro ⟨root, rfl, metaBlock, hmeta, hnamed, hrules⟩
    exact .obj hmeta hnamed hrules
  · rintro ⟨hmeta, hnamed, hrules⟩
    exact ⟨_, rfl, _, hmeta, hnamed, hrules⟩

/-- Whatever a tree is, it is expanded exactly if it declares an object of the kind, and in every
other case it is refused as malformed. -/
theorem Kind.expand_grammatical (tree : Tree) :
    ((∃ object, Deployment.kind.expand tree = .ok object) ↔ Deployment.Grammatical tree) ∧
    (¬ Deployment.Grammatical tree →
      ∃ cause, Deployment.kind.expand tree = .error (.malformed cause)) ∧
    ((∃ object, Role.kind.expand tree = .ok object) ↔ Role.Grammatical tree) ∧
    (¬ Role.Grammatical tree → ∃ cause, Role.kind.expand tree = .error (.malformed cause)) := by
  have hdeployment := Deployment.decides_expand tree
  have hrole := Role.decides_expand tree
  exact ⟨hdeployment.exists_ok_iff, hdeployment.exists_malformed, hrole.exists_ok_iff,
    hrole.exists_malformed⟩

end Reconcile
