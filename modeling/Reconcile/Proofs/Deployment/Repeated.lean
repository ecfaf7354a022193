import Mathlib.Data.List.Basic
import Reconcile.Proofs.Deployment.Declaration
import Reconcile.Proofs.Pod.Repeated

/-!
# Deployments that are asked for again

Content that is asked for again differs from what was declared in its selector only: one that was
made of the labels of the template is now there (`DeploymentSpec.lookup_fill_flatten`). It declares
the same content (`DeploymentSpec.expand_fill_flatten`).
-/

namespace Reconcile

variable {numbers : Json → Bool} {block : Block}

theorem PodTemplate.fill_flatten {t : PodTemplate} {podBlock : Block} {podSpec : PodSpec}
    (h : schema.Tolerates numbers block)
    (hpod : Block.child? (schema.fill none block) "spec" = some podBlock)
    (hexpand : PodSpec.expand podBlock = .ok podSpec) (hspec : t.spec = some podSpec)
    (prior : Option Block) :
    schema.fill (some (t.flatten prior)) block = schema.fill none block := by
  have htype : schema.typeOf? "spec" = some (.block PodSpec.schema true) := rfl
  obtain ⟨first, hfirst, rfl⟩ := Schema.exists_child_of_fill (by decide) htype hpod
  have hshown : (t.flatten prior).lookup "spec" = (some podSpec.flatten).map Block.singular := by
    rw [t.lookup_flatten prior "spec", hspec]
    rfl
  refine Schema.fill_shown (by decide) (by decide) h (List.forall_mem_nil _) ?_
  show ∀ e ∈ [("metadata", ObjectMeta.templateSchema), ("spec", PodSpec.schema)], _
  simp only [List.forall_mem_cons]
  refine ⟨Schema.settled_of_carried_eq_nil h rfl (by decide) (by decide) _,
    Schema.settled_singular hshown hfirst ?_, List.forall_mem_nil _⟩
  rintro _ ⟨⟩
  exact PodSpec.fill_flatten (h.child htype hfirst) hexpand

namespace DeploymentSpec

variable {s : DeploymentSpec}

/-- The nested blocks of content are filled as from nothing. -/
theorem settled_flatten (h : schema.Tolerates numbers block)
    (hexpand : expand (schema.fill none block) = .ok s) (prior : Option Block) :
    ∀ e ∈ schema.nested,
      Schema.Settled e.2 ((s.flatten prior).lookup e.1) (block.lookup e.1) := by
  obtain ⟨template, podBlock, _, _, _, _, podSpec, htemplate, hpod, _, _, _, _, hpodSpec, heq⟩ :=
    expand_eq_ok.1 hexpand
  have htype : schema.typeOf? "template" = some (.block PodTemplate.schema true) := rfl
  obtain ⟨first, hfirst, rfl⟩ := Schema.exists_child_of_fill (by decide) htype htemplate
  have hspec : s.template.spec = some podSpec := by rw [heq]
  have hshown : (s.flatten prior).lookup "template" =
      (some (s.template.flatten (prior.bind (Block.child? · "template")))).map Block.singular :=
    s.lookup_flatten prior "template"
  show ∀ e ∈ [("strategy", Strategy.schema), ("template", PodTemplate.schema)], _
  simp only [List.forall_mem_cons]
  refine ⟨Schema.settled_of_carried_eq_nil h rfl (by decide) (by decide) _,
    Schema.settled_singular hshown hfirst ?_, List.forall_mem_nil _⟩
  rintro _ ⟨⟩
  exact PodTemplate.fill_flatten (h.child htype hfirst) hpod hpodSpec hspec _

/-- Every field but the selector is filled as from nothing. -/
theorem lookup_fill_flatten (h : schema.Tolerates numbers block)
    (hexpand : expand (schema.fill none block) = .ok s) (prior : Option Block) {key : String}
    (hkey : key ≠ "selector") : (schema.fill (some (s.flatten prior)) block).lookup key =
      (schema.fill none block).lookup key := by
  refine Schema.lookup_fill_shown (by decide) (by decide) h (fun hcarried hnone => ?_)
    fun fields => settled_flatten h hexpand prior (key, fields)
  have hcases : key ∈ ["selector", "strategy"] := hcarried
  obtain rfl : key = "strategy" := by simpa [hkey] using hcases
  obtain ⟨_, _, _, _, _, _, _, _, _, _, _, _, _, _, rfl⟩ := expand_eq_ok.1 hexpand
  have hchild : Block.child? (schema.fill none block) "strategy" = none := by
    rw [Block.child?, hnone]
    rfl
  rw [lookup_flatten, hchild]
  rfl

/-- The labels by which pods are recognised are the same when content is asked for again. -/
theorem expandSelector_fill_flatten (h : schema.Tolerates numbers block)
    (hexpand : expand (schema.fill none block) = .ok s) (prior : Option Block)
    {template : ObjectMeta}
    (hselector : s.selector = expandSelector (schema.fill none block) template) :
    expandSelector (schema.fill (some (s.flatten prior)) block) template = s.selector := by
  by_cases hnone : (schema.fill none block).lookup "selector" = none
  · -- The gap is filled with the selector that is shown.
    have hfield : Field.textMap "selector" .optionalComputed ∈ schema := by simp [schema]
    have hgap : block.lookup (Field.textMap "selector" .optionalComputed).name = none :=
      Schema.lookup_eq_none_of_fill (by decide) hfield hnone
    have hfilled : (schema.fill (some (s.flatten prior)) block).lookup "selector" =
        Block.ofTexts? (s.selector.matchLabels.getD Dict.empty) := by
      have hlookup : (schema.fill (some (s.flatten prior)) block).lookup "selector" =
          Schema.fillValue (.textMap "selector" .optionalComputed)
            ((s.flatten prior).lookup "selector") (block.lookup "selector") :=
        Schema.lookup_fill (by decide) hfield
      rw [hlookup, show block.lookup "selector" = none from hgap,
        Schema.fillValue_carried rfl rfl]
      exact s.lookup_flatten prior "selector"
    refine expandSelector_of_lookup hfilled ?_ fun hlabels => ?_
    · rw [hselector]
      exact ObjectMeta.nonEmpty?_ne _
    · rw [hselector] at hlabels
      exact expandSelector_eq_none hlabels
  · have hsame := Schema.lookup_fill_shown (by decide) (by decide) h
      (fun _ hgap => absurd hgap hnone) fun fields => settled_flatten h hexpand prior (_, fields)
    rw [hselector, expandSelector, expandSelector, Block.texts, Block.texts, hsame]

/-- Content that is asked for again is declared again. -/
theorem expand_fill_flatten (h : schema.Tolerates numbers block)
    (hexpand : expand (schema.fill none block) = .ok s) (prior : Option Block) :
    expand (schema.fill (some (s.flatten prior)) block) = .ok s := by
  have hsame : ∀ key, key ≠ "selector" →
      (schema.fill (some (s.flatten prior)) block).lookup key =
        (schema.fill none block).lookup key :=
    fun _ => lookup_fill_flatten h hexpand prior
  obtain ⟨template, podBlock, minReady, deadline, replicas, history, podSpec, htemplate, hpod,
    hminReady, hdeadline, hreplicas, hhistory, hpodSpec, heq⟩ := expand_eq_ok.1 hexpand
  refine expand_eq_ok.2 ⟨template, podBlock, minReady, deadline, replicas, history, podSpec,
    (Block.child?_congr (hsame "template" (by decide))).trans htemplate, hpod,
    (Declaration.int32D_congr (hsame "min_ready_seconds" (by decide)) _ _).trans hminReady,
    (Declaration.int32D_congr (hsame "progress_deadline_seconds" (by decide)) _ _).trans hdeadline,
    (Declaration.int32D_congr (hsame "replicas" (by decide)) _ _).trans hreplicas,
    (Declaration.int32D_congr (hsame "revision_history_limit" (by decide)) _ _).trans hhistory,
    hpodSpec, ?_⟩
  have hselector : s.selector = expandSelector (schema.fill none block)
      (ObjectMeta.ofTemplate (Block.child? template "metadata")) := by
    rw [heq]
  have hpaused : Block.bool? (schema.fill (some (s.flatten prior)) block) "paused" =
      Block.bool? (schema.fill none block) "paused" := by
    rw [Block.bool?, Block.bool?, hsame "paused" (by decide)]
  rw [expandSelector_fill_flatten h hexpand prior hselector, hselector, hpaused,
    Block.child?_congr (hsame "strategy" (by decide))]
  exact heq

end DeploymentSpec

end Reconcile
