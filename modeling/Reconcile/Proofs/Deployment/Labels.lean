import Mathlib.Data.List.Basic
import Reconcile.Proofs.Kind.Recorded

/-!
# Labels of deployments that are read

A reading shows the labels that the prior tree declares together with those that are observed. The
metadata of an object are always there to be shown, but those of a template are not: if the observed
template has none, no block of them is shown, and the labels that the prior tree declares for it are
lost (`Deployment.labels_shown`).
-/

namespace Reconcile

/-- The labels in the block that a path of singular blocks leads to. -/
def Tree.labelsAt? (tree : Tree) (path : List String) : Option Json :=
  (tree.blockAt? path).bind (·.lookup "labels")

namespace ObjectMeta

/-- A field shows the union of declared and observed labels, of which the observed ones win. Without
any labels there is no field. -/
def ShowsUnion (declared observed : Dict String) (field : Option Json) : Prop :=
  ∃ texts : Dict String, field = Block.ofTexts? texts ∧
    ∀ key, texts.get? key = (observed.get? key).or (declared.get? key)

theorem showsUnion_mergeLabels (prior : Option Block) (observed : Option (Dict String)) :
    ShowsUnion (declaredLabels prior) (observed.getD Dict.empty)
      (Block.ofTexts? (mergeLabels prior observed)) :=
  ⟨_, rfl, Dict.get?_union _ _⟩

/-- A field that is not there shows the union of declared labels and no observed ones only if there
are no declared ones. -/
theorem showsUnion_none_iff {declared : Dict String} :
    ShowsUnion declared Dict.empty none ↔ declared = Dict.empty := by
  constructor
  · rintro ⟨texts, hfield, hunion⟩
    have hempty : texts.isEmpty = true := by
      by_contra hne
      rw [Block.ofTexts?, if_neg hne] at hfield
      cases hfield
    refine Dict.ext_get? fun key => ?_
    have hkey := hunion key
    rw [Dict.isEmpty_iff.1 hempty, Dict.get?_empty, Option.none_or] at hkey
    exact hkey.symm
  · rintro rfl
    exact ⟨Dict.empty, rfl, fun _ => rfl⟩

end ObjectMeta

/-- The labels of a template's metadata are merged, if it has metadata. -/
theorem PodTemplate.labels_metadataBlock (t : PodTemplate) (prior : Option Block) :
    (t.metadataBlock prior).bind (·.lookup "labels") = t.metadata.bind fun m => Block.ofTexts?
      (ObjectMeta.mergeLabels (prior.bind (Block.child? · "metadata")) m.labels) := by
  rw [metadataBlock]
  cases t.metadata with
  | none => rfl
  | some m =>
      have hlabels := m.lookup_flattenTemplate (prior.bind (Block.child? · "metadata")) "labels"
      rw [Option.map_some, Option.filter_some, Option.bind_some]
      cases hempty : (m.flattenTemplate (prior.bind (Block.child? · "metadata"))).isEmpty with
      | false => exact hlabels
      | true =>
          -- The block is left out, and it would show no labels either.
          rw [List.isEmpty_iff.1 hempty] at hlabels
          exact hlabels

namespace Deployment

open ObjectMeta (ShowsUnion declaredLabels)

variable {d : Deployment} {s : DeploymentSpec}

theorem labelsAt?_metadata (d : Deployment) (prior : Tree) :
    (d.flatten prior).labelsAt? ["metadata"] =
      Block.ofTexts? (ObjectMeta.mergeLabels (prior.blockAt? ["metadata"]) d.metadata.labels) := by
  have hmeta : (d.flatten prior).blockAt? ["metadata"] =
      some (d.metadata.flatten (prior.blockAt? ["metadata"])) := by
    rw [d.flatten_eq]
    exact Block.child?_of_lookup (d.lookup_shown _ _ "metadata")
  rw [Tree.labelsAt?, hmeta, Option.bind_some]
  exact d.metadata.lookup_flatten _ "labels"

theorem labelsAt?_template (hspec : d.spec = some s) (prior : Tree) :
    (d.flatten prior).labelsAt? ["spec", "template", "metadata"] =
      s.template.metadata.bind fun m => Block.ofTexts?
        (ObjectMeta.mergeLabels (prior.blockAt? ["spec", "template", "metadata"]) m.labels) := by
  have hspecBlock : (d.flatten prior).blockAt? ["spec"] =
      some (s.flatten (prior.blockAt? ["spec"])) := by
    rw [d.flatten_eq]
    refine (Block.child?_of_lookup (d.lookup_shown _ _ "spec")).trans ?_
    rw [hspec]
    rfl
  have htemplate : (d.flatten prior).blockAt? ["spec", "template"] =
      some (s.template.flatten (prior.blockAt? ["spec", "template"])) := by
    show ((d.flatten prior).blockAt? ["spec"]).bind (Block.child? · "template") = _
    rw [hspecBlock]
    exact Block.child?_of_lookup (s.lookup_flatten _ "template")
  have hmeta : (d.flatten prior).blockAt? ["spec", "template", "metadata"] =
      s.template.metadataBlock (prior.blockAt? ["spec", "template"]) := by
    show ((d.flatten prior).blockAt? ["spec", "template"]).bind (Block.child? · "metadata") = _
    rw [htemplate]
    exact Block.child?_of_lookup (s.template.lookup_flatten _ "metadata")
  rw [Tree.labelsAt?, hmeta]
  exact s.template.labels_metadataBlock _

/-- A reading of a deployment shows exactly the union of the declared and the observed labels of the
object. It shows that of its template exactly if the observed template has metadata or there is
nothing to lose; otherwise it shows no labels of the template. -/
theorem labels_shown (hspec : d.spec = some s) (prior : Tree) :
    let shown := d.flatten prior
    let templatePath := ["spec", "template", "metadata"]
    ShowsUnion (declaredLabels (prior.blockAt? ["metadata"])) (d.metadata.labels.getD Dict.empty)
        (shown.labelsAt? ["metadata"]) ∧
      (ShowsUnion (declaredLabels (prior.blockAt? templatePath))
          ((s.template.metadata.bind (·.labels)).getD Dict.empty) (shown.labelsAt? templatePath) ↔
        s.template.metadata.isSome ∨ declaredLabels (prior.blockAt? templatePath) = Dict.empty) ∧
      (s.template.metadata = none → shown.labelsAt? templatePath = none) := by
  intro shown templatePath
  have htemplate := labelsAt?_template hspec prior
  refine ⟨?_, ?_, fun hnone => ?_⟩
  · rw [d.labelsAt?_metadata prior]
    exact ObjectMeta.showsUnion_mergeLabels _ _
  · cases hmeta : s.template.metadata with
    | none =>
        rw [hmeta] at htemplate
        rw [htemplate]
        exact ObjectMeta.showsUnion_none_iff.trans ⟨.inr, fun h => h.resolve_left nofun⟩
    | some m =>
        rw [hmeta] at htemplate
        rw [htemplate]
        exact iff_of_true (ObjectMeta.showsUnion_mergeLabels _ _) (.inl rfl)
  · rw [htemplate, hnone]
    rfl

/-- A tree that declares a label of the object and one of its template. -/
def labelledPods : Tree := .obj
  [("metadata", .arr [.obj [("labels", .obj [("app", .str "web"), ("size", .int 2)])]]),
   ("spec", .arr [.obj [("template", .arr [.obj
     [("metadata", .arr [.obj [("labels", .obj [("tier", .str "front")])]])]])]])]

/-- Where the template is observed with metadata, its declared labels stay beside the observed
ones. -/
theorem labels_shown_kept :
    let live : Deployment := {
      metadata := { name := some "web", labels := some (Dict.ofList [("app", "api")]) }
      spec := some { template := {
        metadata := some { labels := some (Dict.ofList [("app", "api")]) } } } }
    let shown := live.flatten labelledPods
    shown.labelsAt? ["metadata"] = some (.obj [("app", .str "api")]) ∧
      shown.labelsAt? ["spec", "template", "metadata"] =
        some (.obj [("app", .str "api"), ("tier", .str "front")]) ∧
      ShowsUnion (Dict.ofList [("tier", "front")]) (Dict.ofList [("app", "api")])
        (shown.labelsAt? ["spec", "template", "metadata"]) := by
  intro live shown
  have hshown := labels_shown (d := live) rfl labelledPods
  have hdeclared : declaredLabels (labelledPods.blockAt? ["spec", "template", "metadata"]) =
      Dict.ofList [("tier", "front")] := by decide
  have hunion := hshown.2.1.2 (.inl rfl)
  rw [hdeclared] at hunion
  exact ⟨by decide, by decide, hunion⟩

/-- Where it is observed without metadata, they are lost. -/
theorem labels_lost :
    let live : Deployment := {
      metadata := { name := some "web" }
      spec := some { template := { spec := some {} } } }
    let shown := live.flatten labelledPods
    shown.labelsAt? ["metadata"] = some (.obj [("app", .str "web")]) ∧
      declaredLabels (labelledPods.blockAt? ["spec", "template", "metadata"]) =
        Dict.ofList [("tier", "front")] ∧
      shown.labelsAt? ["spec", "template", "metadata"] = none ∧
      ¬ ShowsUnion (Dict.ofList [("tier", "front")]) Dict.empty
        (shown.labelsAt? ["spec", "template", "metadata"]) := by
  intro live shown
  have hnone : shown.labelsAt? ["spec", "template", "metadata"] = none := by decide
  refine ⟨by decide, by decide, hnone, fun hunion => ?_⟩
  rw [hnone] at hunion
  exact absurd (ObjectMeta.showsUnion_none_iff.1 hunion) (by decide)

end Deployment

end Reconcile
