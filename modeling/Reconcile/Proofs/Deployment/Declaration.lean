import Mathlib.Data.List.Basic
import Reconcile.Proofs.Deployment.Laws
import Reconcile.Proofs.Metadata.Declaration
import Reconcile.Proofs.Pod.Declaration

/-!
# Declared deployments

The content that a tree declares for a deployment says everything: every number and switch is there,
and the bounds of a rolling update are normal. `DeploymentSpec.Declared` says so, and
`DeploymentSpec.expand_flatten` that such content is declared again by the block that shows it.
-/

namespace Reconcile

namespace IntOrText

/-- The number that an integer of 32 bits is written as. -/
theorem ofText_toString (i : Int32) : ofText (toString i.toInt) = .int i := by
  have hlow : Json.minInt32 ≤ i.toInt := i.minValue_le_toInt
  have hhigh : i.toInt ≤ Json.maxInt32 := i.toInt_le
  rw [ofText, Decimal.intIn?_toString hlow hhigh]
  show IntOrText.int (Int32.ofInt i.toInt) = _
  rw [Int32.ofInt_toInt]

/-- What a text counts as is what the text of that counts as. -/
theorem ofText_toText (s : String) : ofText (ofText s).toText = ofText s := by
  have hcase : ∀ bound, ofText s = bound → ofText bound.toText = bound := by
    intro bound hbound
    cases bound with
    | int i => exact ofText_toString i
    | text t =>
        unfold ofText at hbound
        split at hbound
        · cases hbound
        · rename_i hnone
          cases hbound
          show ofText s = .text s
          rw [ofText, hnone]
  exact hcase _ rfl

/-- Only the empty text counts as one. -/
theorem toText_ofText_ne {s : String} (h : s ≠ "") : (ofText s).toText ≠ "" := by
  intro hempty
  have hback := ofText_toText s
  rw [hempty] at hback
  have hs : ofText s = .text "" := hback.symm
  unfold ofText at hs
  split at hs
  · cases hs
  · cases hs
    exact h rfl

end IntOrText

namespace RollingUpdate

/-- Bounds that are both there and are what texts count as. -/
structure Declared (r : RollingUpdate) : Prop where
  maxSurge : ∃ s, s ≠ "" ∧ r.maxSurge = some (IntOrText.ofText s)
  maxUnavailable : ∃ s, s ≠ "" ∧ r.maxUnavailable = some (IntOrText.ofText s)

/-- The bounds that a block declares, be it by texts or by numbers, are not empty. -/
theorem bound_ne (block : Block) (key : String) : (bound? block key).getD defaultBound ≠ "" := by
  have hdefault : defaultBound ≠ "" := by decide
  unfold bound?
  split
  · split
    · exact hdefault
    · assumption
  · exact Decimal.toString_ne_empty _
  · exact Json.floatText_ne_empty _
  · exact hdefault

theorem declared_expand (block : Block) : (expand block).Declared :=
  ⟨⟨_, bound_ne block _, rfl⟩, ⟨_, bound_ne block _, rfl⟩⟩

/-- What the block of bounds holds under a key. -/
theorem lookup_flatten (r : RollingUpdate) (k : String) : r.flatten.lookup k =
    (List.lookup k
      [("max_surge", Block.ofText? (r.maxSurge.map IntOrText.toText)),
       ("max_unavailable", Block.ofText? (r.maxUnavailable.map IntOrText.toText))]).join :=
  Block.lookup_ofFields (by simp) k

/-- A bound that was shown is declared by its text. -/
theorem bound_of_lookup {block : Block} {key s : String} (hne : s ≠ "")
    (h : block.lookup key = Block.ofText? (some (IntOrText.ofText s).toText)) :
    bound block key = IntOrText.ofText s := by
  rw [bound, bound?, h]
  show IntOrText.ofText ((if (IntOrText.ofText s).toText = "" then none
    else some (IntOrText.ofText s).toText).getD defaultBound) = _
  rw [if_neg (IntOrText.toText_ofText_ne hne)]
  exact IntOrText.ofText_toText s

/-- Declared bounds are declared by the block that shows them. -/
theorem expand_flatten {r : RollingUpdate} (h : r.Declared) : expand r.flatten = r := by
  obtain ⟨surge, hsurge, hmaxSurge⟩ := h.maxSurge
  obtain ⟨unavailable, hunavailable, hmaxUnavailable⟩ := h.maxUnavailable
  have hfirst : r.flatten.lookup "max_surge" =
      Block.ofText? (some (IntOrText.ofText surge).toText) := by
    rw [r.lookup_flatten "max_surge", hmaxSurge]
    rfl
  have hsecond : r.flatten.lookup "max_unavailable" =
      Block.ofText? (some (IntOrText.ofText unavailable).toText) := by
    rw [r.lookup_flatten "max_unavailable", hmaxUnavailable]
    rfl
  rw [expand, bound_of_lookup hsurge hfirst, bound_of_lookup hunavailable hsecond, ← hmaxSurge,
    ← hmaxUnavailable]

/-- The block of bounds is accepted. -/
theorem flatten_accepts (r : RollingUpdate) : schema.Accepts r.flatten := by
  refine Schema.accepts_ofFields (by decide) (by simp) ?_
  simp only [List.forall_mem_cons]
  exact ⟨Schema.fits_text rfl _, Schema.fits_text rfl _, List.forall_mem_nil _⟩

end RollingUpdate

namespace Strategy

/-- A strategy without an empty text and with declared bounds. -/
structure Declared (s : Strategy) : Prop where
  type : s.type ≠ some ""
  rollingUpdate : ∀ r, s.rollingUpdate = some r → r.Declared

theorem declared_expand (block : Block) : (expand block).Declared := by
  refine ⟨Block.text?_ne _ _, fun r hr => ?_⟩
  obtain ⟨child, _, rfl⟩ := Option.map_eq_some_iff.1 hr
  exact RollingUpdate.declared_expand child

/-- What the block of a strategy holds under a key. -/
theorem lookup_flatten (s : Strategy) (k : String) : s.flatten.lookup k =
    (List.lookup k
      [("type", Block.ofText? s.type),
       ("rolling_update",
         (s.rollingUpdate.map RollingUpdate.flatten).map Block.singular)]).join := by
  rw [Option.map_map]
  exact Block.lookup_ofFields (by simp) k

/-- A declared strategy is declared by the block that shows it. -/
theorem expand_flatten {s : Strategy} (h : s.Declared) : expand s.flatten = s := by
  have htype := Block.text?_of_lookup (s.lookup_flatten "type") h.type
  have hchild : Block.child? s.flatten "rolling_update" =
      s.rollingUpdate.map RollingUpdate.flatten :=
    Block.child?_of_lookup (s.lookup_flatten "rolling_update")
  have hbounds : (s.rollingUpdate.map RollingUpdate.flatten).map RollingUpdate.expand =
      s.rollingUpdate := by
    cases hrolling : s.rollingUpdate with
    | none => rfl
    | some r => exact congrArg some (RollingUpdate.expand_flatten (h.rollingUpdate r hrolling))
  rw [expand, htype, hchild, hbounds]

/-- The block of a strategy is accepted. -/
theorem flatten_accepts (s : Strategy) : schema.Accepts s.flatten := by
  have hrolling : ∀ b, s.rollingUpdate.map RollingUpdate.flatten = some b →
      RollingUpdate.schema.Accepts b := by
    intro b hb
    obtain ⟨r, _, rfl⟩ := Option.map_eq_some_iff.1 hb
    exact r.flatten_accepts
  have hfits : Strategy.schema.Fits "rolling_update"
      ((s.rollingUpdate.map RollingUpdate.flatten).map Block.singular) :=
    Schema.fits_singular rfl hrolling
  rw [Option.map_map] at hfits
  refine Schema.accepts_ofFields (by decide) (by simp) ?_
  simp only [List.forall_mem_cons]
  exact ⟨Schema.fits_text rfl _, hfits, List.forall_mem_nil _⟩

end Strategy

namespace PodTemplate

/-- The template of declared pods, with metadata that the prior block declares. -/
structure Declared (t : PodTemplate) (prior : Option Block) : Prop where
  metadata : ∃ m, t.metadata = some m ∧ m.DeclaredTemplate ∧
    m.DeclaredBy (prior.bind (Block.child? · "metadata"))
  spec : ∃ s, t.spec = some s ∧ s.Declared

/-- The block of a template's metadata, if it says anything. -/
def metadataBlock (t : PodTemplate) (prior : Option Block) : Option Block :=
  (t.metadata.map (·.flattenTemplate (prior.bind (Block.child? · "metadata")))).filter
    (!·.isEmpty)

/-- What the block of a template holds under a key. -/
theorem lookup_flatten (t : PodTemplate) (prior : Option Block) (k : String) :
    (t.flatten prior).lookup k =
      (List.lookup k
        [("metadata", (t.metadataBlock prior).map Block.singular),
         ("spec", (t.spec.map PodSpec.flatten).map Block.singular)]).join := by
  have hmeta : (t.metadata.bind fun m =>
      let block := m.flattenTemplate (prior.bind (Block.child? · "metadata"))
      if block.isEmpty then none else some (Block.singular block)) =
      (t.metadataBlock prior).map Block.singular := by
    rw [metadataBlock]
    cases t.metadata with
    | none => rfl
    | some m =>
        show (if (m.flattenTemplate (prior.bind (Block.child? · "metadata"))).isEmpty then none
          else some (Block.singular _)) = _
        rw [Option.map_some, Option.filter_some]
        cases (m.flattenTemplate (prior.bind (Block.child? · "metadata"))).isEmpty with
        | true => rfl
        | false => rfl
  rw [← hmeta, Option.map_map]
  exact Block.lookup_ofFields (by simp) k

/-- The metadata of a template are declared by the block that shows it. -/
theorem ofTemplate_metadataBlock {t : PodTemplate} {prior : Option Block} {m : ObjectMeta}
    (hm : t.metadata = some m) (htemplate : m.DeclaredTemplate)
    (hdeclared : m.DeclaredBy (prior.bind (Block.child? · "metadata"))) :
    ObjectMeta.ofTemplate (t.metadataBlock prior) = m := by
  have hexpand := ObjectMeta.expand_flattenTemplate htemplate hdeclared
  rw [metadataBlock, hm, Option.map_some, Option.filter_some]
  cases hempty : (m.flattenTemplate (prior.bind (Block.child? · "metadata"))).isEmpty with
  | false => exact hexpand
  | true =>
      -- A block without fields declares metadata that say nothing.
      rw [List.isEmpty_iff.1 hempty] at hexpand
      exact hexpand

/-- The block of a template is accepted. -/
theorem flatten_accepts (t : PodTemplate) (prior : Option Block) :
    schema.Accepts (t.flatten prior) := by
  have hmeta : ∀ b, t.metadataBlock prior = some b → ObjectMeta.templateSchema.Accepts b := by
    intro b hb
    obtain ⟨m, _, rfl⟩ := Option.map_eq_some_iff.1 (Option.filter_eq_some_iff.1 hb).1
    exact m.flattenTemplate_accepts _
  have hspec : ∀ b, t.spec.map PodSpec.flatten = some b → PodSpec.schema.Accepts b := by
    intro b hb
    obtain ⟨s, _, rfl⟩ := Option.map_eq_some_iff.1 hb
    exact s.flatten_accepts
  have hblock : t.flatten prior = Block.ofFields
      [("metadata", (t.metadataBlock prior).map Block.singular),
       ("spec", (t.spec.map PodSpec.flatten).map Block.singular)] := by
    refine Entries.Ascending.ext (Block.ascending_ofFields _) (Block.ascending_ofFields _)
      fun k => ?_
    rw [t.lookup_flatten prior k, Block.lookup_ofFields (by simp)]
  rw [hblock]
  refine Schema.accepts_ofFields (by decide) (by simp) ?_
  simp only [List.forall_mem_cons]
  exact ⟨Schema.fits_singular rfl hmeta, Schema.fits_singular rfl hspec, List.forall_mem_nil _⟩

end PodTemplate

namespace DeploymentSpec

/-- Content with all numbers and switches, whose template's metadata the prior block declares. -/
structure Declared (s : DeploymentSpec) (prior : Option Block) : Prop where
  minReadySeconds : s.minReadySeconds.isSome
  paused : s.paused.isSome
  progressDeadlineSeconds : s.progressDeadlineSeconds.isSome
  replicas : s.replicas.isSome
  revisionHistoryLimit : s.revisionHistoryLimit.isSome
  selector : s.selector.matchLabels ≠ some Dict.empty
  /-- Only a template without labels can be selected by no label. -/
  selected : s.selector.matchLabels = none →
    (s.template.metadata.bind (·.labels)).getD Dict.empty = Dict.empty
  strategy : ∀ t, s.strategy = some t → t.Declared
  template : s.template.Declared (prior.bind (Block.child? · "template"))

/-- Other declared content has another number of pods. -/
theorem Declared.scaled {s : DeploymentSpec} {prior : Option Block} (h : s.Declared prior)
    (replicas : Int32) : Declared { s with replicas := some replicas } prior :=
  { h with replicas := rfl }

/-- A block declares content if its parts are well formed. -/
theorem expand_eq_ok {block : Block} {s : DeploymentSpec} : expand block = .ok s ↔
    ∃ template podBlock minReadySeconds progressDeadlineSeconds replicas revisionHistoryLimit
        podSpec,
      Block.child? block "template" = some template ∧
      Block.child? template "spec" = some podBlock ∧
      Declaration.int32D block "min_ready_seconds" defaultMinReadySeconds
        ("spec." ++ "min_ready_seconds") = .ok minReadySeconds ∧
      Declaration.int32D block "progress_deadline_seconds" defaultProgressDeadlineSeconds
        ("spec." ++ "progress_deadline_seconds") = .ok progressDeadlineSeconds ∧
      Declaration.int32D block "replicas" defaultReplicas ("spec." ++ "replicas") = .ok replicas ∧
      Declaration.int32D block "revision_history_limit" defaultRevisionHistoryLimit
        ("spec." ++ "revision_history_limit") = .ok revisionHistoryLimit ∧
      PodSpec.expand podBlock = .ok podSpec ∧
      s = {
        minReadySeconds := some minReadySeconds
        paused := some ((Block.bool? block "paused").getD defaultPaused)
        progressDeadlineSeconds := some progressDeadlineSeconds
        replicas := some replicas
        revisionHistoryLimit := some revisionHistoryLimit
        selector := expandSelector block (ObjectMeta.ofTemplate (Block.child? template "metadata"))
        strategy := (Block.child? block "strategy").map Strategy.expand
        template := {
          metadata := some (ObjectMeta.ofTemplate (Block.child? template "metadata"))
          spec := some podSpec } } := by
  simp only [expand, Steps.bind_eq_ok_iff, Declaration.requiredBlock_eq_ok, Steps.pure_eq_ok,
    Except.ok.injEq]
  constructor
  · rintro ⟨template, htemplate, podBlock, hpod, minReady, hminReady, deadline, hdeadline, replicas,
      hreplicas, history, hhistory, podSpec, hpodSpec, rfl⟩
    exact ⟨template, podBlock, minReady, deadline, replicas, history, podSpec, htemplate, hpod,
      hminReady, hdeadline, hreplicas, hhistory, hpodSpec, rfl⟩
  · rintro ⟨template, podBlock, minReady, deadline, replicas, history, podSpec, htemplate, hpod,
      hminReady, hdeadline, hreplicas, hhistory, hpodSpec, rfl⟩
    exact ⟨template, htemplate, podBlock, hpod, minReady, hminReady, deadline, hdeadline, replicas,
      hreplicas, history, hhistory, podSpec, hpodSpec, rfl⟩

/-- The labels of a selector are those that are declared, or those of the template. -/
theorem expandSelector_getD (block : Block) (template : ObjectMeta) :
    (expandSelector block template).matchLabels.getD Dict.empty =
      if (Block.texts block "selector").isEmpty then template.labels.getD Dict.empty
      else Block.texts block "selector" :=
  ObjectMeta.nonEmpty?_getD _

/-- A selector that is not declared is made of the labels of the template. -/
theorem expandSelector_eq_none {block : Block} {template : ObjectMeta}
    (h : (expandSelector block template).matchLabels = none) :
    template.labels.getD Dict.empty = Dict.empty := by
  have hempty := expandSelector_getD block template
  rw [h] at hempty
  split at hempty
  · exact hempty.symm
  · rename_i hdeclared
    rw [← hempty] at hdeclared
    exact absurd rfl hdeclared

/-- A selector that was shown is declared by its labels. -/
theorem expandSelector_of_lookup {block : Block} {selector : LabelSelector} {template : ObjectMeta}
    (h : block.lookup "selector" = Block.ofTexts? (selector.matchLabels.getD Dict.empty))
    (hne : selector.matchLabels ≠ some Dict.empty)
    (hselected : selector.matchLabels = none → template.labels.getD Dict.empty = Dict.empty) :
    expandSelector block template = selector := by
  obtain ⟨labels⟩ := selector
  have hkept := ObjectMeta.nonEmpty?_of_getD hne
  rw [expandSelector, Block.texts_of_lookup h]
  cases labels with
  | none =>
      show LabelSelector.mk (ObjectMeta.nonEmpty? (template.labels.getD Dict.empty)) = _
      rw [hselected rfl]
      rfl
  | some d =>
      have hempty : ¬ d.isEmpty = true := fun hd => hne (congrArg some (Dict.isEmpty_iff.1 hd))
      show LabelSelector.mk (ObjectMeta.nonEmpty? (if d.isEmpty then _ else d)) = _
      rw [if_neg hempty]
      exact congrArg LabelSelector.mk hkept

/-- What a block declares is declared content, if the metadata of its template name no namespace,
which a template cannot show. -/
theorem declared_of_expand {block : Block} {s : DeploymentSpec}
    (hns : ∀ template metaBlock, Block.child? block "template" = some template →
      Block.child? template "metadata" = some metaBlock → metaBlock.lookup "namespace" = none)
    (h : expand block = .ok s) : s.Declared (some block) := by
  obtain ⟨template, podBlock, _, _, _, _, podSpec, htemplate, _, _, _, _, _, hpodSpec, rfl⟩ :=
    expand_eq_ok.1 h
  refine ⟨rfl, rfl, rfl, rfl, rfl, ObjectMeta.nonEmpty?_ne _, fun hnone => ?_, fun t ht => ?_, ?_⟩
  · exact expandSelector_eq_none hnone
  · obtain ⟨child, _, rfl⟩ := Option.map_eq_some_iff.1 ht
    exact Strategy.declared_expand child
  · refine ⟨⟨_, rfl, ObjectMeta.declaredTemplate_ofTemplate fun b => hns template b htemplate, ?_⟩,
      ⟨podSpec, rfl, PodSpec.declared_of_expand hpodSpec⟩⟩
    show ObjectMeta.DeclaredBy _ ((Block.child? block "template").bind _)
    rw [htemplate]
    exact ObjectMeta.declaredBy_ofTemplate _

/-- What the block of content holds under a key. -/
theorem lookup_flatten (s : DeploymentSpec) (prior : Option Block) (k : String) :
    (s.flatten prior).lookup k =
      (List.lookup k
        [("min_ready_seconds",
          Block.ofInt? (some (s.minReadySeconds.getD defaultMinReadySeconds).toInt)),
         ("paused", Block.ofBool? (some (s.paused.getD defaultPaused))),
         ("progress_deadline_seconds",
          Block.ofInt? (some
            (s.progressDeadlineSeconds.getD defaultProgressDeadlineSeconds).toInt)),
         ("replicas", Block.ofInt? (some (s.replicas.getD defaultReplicas).toInt)),
         ("revision_history_limit",
          Block.ofInt? (some (s.revisionHistoryLimit.getD defaultRevisionHistoryLimit).toInt)),
         ("selector", Block.ofTexts? (s.selector.matchLabels.getD Dict.empty)),
         ("strategy", (s.strategy.map Strategy.flatten).map Block.singular),
         ("template", some (Block.singular
           (s.template.flatten (prior.bind (Block.child? · "template")))))]).join := by
  rw [Option.map_map]
  exact Block.lookup_ofFields (by simp) k

/-- A number that is there is declared by the block that shows it. -/
theorem int32D_flatten {block : Block} {key : String} {value : Option Int32} (default : Int32)
    (hvalue : value.isSome)
    (h : block.lookup key = Block.ofInt? (some (value.getD default).toInt)) (path : String) :
    ∃ i, value = some i ∧ Declaration.int32D block key default path = .ok i := by
  obtain ⟨i, rfl⟩ := Option.isSome_iff_exists.1 hvalue
  exact ⟨i, rfl, Declaration.int32D_of_lookup h default path⟩

/-- Declared content is declared by the block that shows it. -/
theorem expand_flatten {s : DeploymentSpec} {prior : Option Block} (h : s.Declared prior) :
    expand (s.flatten prior) = .ok s := by
  obtain ⟨m, hm, htemplate, hdeclared⟩ := h.template.metadata
  obtain ⟨podSpec, hpodSpec, hpodDeclared⟩ := h.template.spec
  obtain ⟨paused, hpaused⟩ := Option.isSome_iff_exists.1 h.paused
  obtain ⟨minReady, hminReady, hminReadyD⟩ := int32D_flatten defaultMinReadySeconds
    h.minReadySeconds (s.lookup_flatten prior "min_ready_seconds") ("spec." ++ "min_ready_seconds")
  obtain ⟨deadline, hdeadline, hdeadlineD⟩ := int32D_flatten defaultProgressDeadlineSeconds
    h.progressDeadlineSeconds (s.lookup_flatten prior "progress_deadline_seconds")
    ("spec." ++ "progress_deadline_seconds")
  obtain ⟨replicas, hreplicas, hreplicasD⟩ := int32D_flatten defaultReplicas h.replicas
    (s.lookup_flatten prior "replicas") ("spec." ++ "replicas")
  obtain ⟨history, hhistory, hhistoryD⟩ := int32D_flatten defaultRevisionHistoryLimit
    h.revisionHistoryLimit (s.lookup_flatten prior "revision_history_limit")
    ("spec." ++ "revision_history_limit")
  have hpausedD : Block.bool? (s.flatten prior) "paused" = some (s.paused.getD defaultPaused) :=
    Block.bool?_of_lookup (s.lookup_flatten prior "paused")
  have hstrategy : Block.child? (s.flatten prior) "strategy" = s.strategy.map Strategy.flatten :=
    Block.child?_of_lookup (s.lookup_flatten prior "strategy")
  have hblock : Block.child? (s.flatten prior) "template" =
      some (s.template.flatten (prior.bind (Block.child? · "template"))) :=
    Block.child?_of_lookup (s.lookup_flatten prior "template")
  have hmeta : Block.child? (s.template.flatten (prior.bind (Block.child? · "template")))
      "metadata" = s.template.metadataBlock (prior.bind (Block.child? · "template")) :=
    Block.child?_of_lookup (s.template.lookup_flatten _ "metadata")
  have hpod : Block.child? (s.template.flatten (prior.bind (Block.child? · "template"))) "spec" =
      some podSpec.flatten := by
    rw [Block.child?_of_lookup (s.template.lookup_flatten _ "spec"), hpodSpec]
    rfl
  refine expand_eq_ok.2 ⟨_, _, minReady, deadline, replicas, history, podSpec, hblock, hpod,
    hminReadyD, hdeadlineD, hreplicasD, hhistoryD, PodSpec.expand_flatten hpodDeclared, ?_⟩
  have hselected : s.selector.matchLabels = none → m.labels.getD Dict.empty = Dict.empty := by
    intro hnone
    have hlabels := h.selected hnone
    rwa [hm] at hlabels
  have hstrategies : (s.strategy.map Strategy.flatten).map Strategy.expand = s.strategy := by
    cases hcase : s.strategy with
    | none => rfl
    | some t => exact congrArg some (Strategy.expand_flatten (h.strategy t hcase))
  have htemplateEq : s.template = { metadata := some m, spec := some podSpec } := by
    rw [← hm, ← hpodSpec]
  rw [hmeta, PodTemplate.ofTemplate_metadataBlock hm htemplate hdeclared, hstrategy, hstrategies,
    expandSelector_of_lookup (s.lookup_flatten prior "selector") h.selector hselected, hpausedD,
    hpaused, ← hminReady, ← hdeadline, ← hreplicas, ← hhistory, ← htemplateEq, Option.getD_some,
    Option.getD_some, ← hpaused]

/-- The block of content is accepted. -/
theorem flatten_accepts (s : DeploymentSpec) (prior : Option Block) :
    schema.Accepts (s.flatten prior) := by
  have hstrategy : ∀ b, s.strategy.map Strategy.flatten = some b → Strategy.schema.Accepts b := by
    intro b hb
    obtain ⟨t, _, rfl⟩ := Option.map_eq_some_iff.1 hb
    exact t.flatten_accepts
  have htemplate : ∀ b,
      some (s.template.flatten (prior.bind (Block.child? · "template"))) = some b →
      PodTemplate.schema.Accepts b := by
    rintro _ ⟨⟩
    exact s.template.flatten_accepts _
  have hfits : schema.Fits "strategy" ((s.strategy.map Strategy.flatten).map Block.singular) :=
    Schema.fits_singular rfl hstrategy
  rw [Option.map_map] at hfits
  refine Schema.accepts_ofFields (by decide) (by simp) ?_
  simp only [List.forall_mem_cons]
  exact ⟨Schema.fits_int32 rfl (some _), Schema.fits_bool rfl _, Schema.fits_int32 rfl (some _),
    Schema.fits_int32 rfl (some _), Schema.fits_int32 rfl (some _), Schema.fits_texts rfl _, hfits,
    Schema.fits_singular rfl htemplate, List.forall_mem_nil _⟩

end DeploymentSpec

/-- The block of an observed state is accepted. -/
theorem DeploymentStatus.flatten_accepts (s : DeploymentStatus) : schema.Accepts s.flatten := by
  refine Schema.accepts_ofFields (by decide) (by simp) ?_
  simp only [List.forall_mem_cons]
  exact ⟨Schema.fits_int32 rfl _, Schema.fits_int32 rfl _, Schema.fits_int32 rfl _,
    Schema.fits_int32 rfl _, Schema.fits_int64 rfl _, List.forall_mem_nil _⟩

namespace Deployment

/-- The fields of the tree that shows a deployment. -/
def shown (d : Deployment) (priorMeta priorSpec : Option Block) : Block :=
  Block.ofFields
    [("metadata", some (Block.singular (d.metadata.flatten priorMeta))),
     ("spec", (d.spec.map (·.flatten priorSpec)).map Block.singular),
     ("status", (d.status.map DeploymentStatus.flatten).map Block.singular)]

theorem flatten_eq (d : Deployment) (prior : Tree) :
    d.flatten prior =
      .obj (d.shown (Tree.block? prior "metadata") (Tree.block? prior "spec")) := by
  rw [shown, Option.map_map, Option.map_map]
  rfl

/-- What the tree that shows a deployment holds under a key. -/
theorem lookup_shown (d : Deployment) (priorMeta priorSpec : Option Block) (k : String) :
    (d.shown priorMeta priorSpec).lookup k =
      (List.lookup k
        [("metadata", some (Block.singular (d.metadata.flatten priorMeta))),
         ("spec", (d.spec.map (·.flatten priorSpec)).map Block.singular),
         ("status", (d.status.map DeploymentStatus.flatten).map Block.singular)]).join :=
  Block.lookup_ofFields (by simp) k

/-- The tree that shows a deployment is accepted. -/
theorem shown_accepts (d : Deployment) (priorMeta priorSpec : Option Block) :
    schema.Accepts (d.shown priorMeta priorSpec) := by
  have hmeta : ∀ b, some (d.metadata.flatten priorMeta) = some b →
      ObjectMeta.schema.Accepts b := by
    rintro _ ⟨⟩
    exact d.metadata.flatten_accepts priorMeta
  have hspec : ∀ b, d.spec.map (·.flatten priorSpec) = some b →
      DeploymentSpec.schema.Accepts b := by
    intro b hb
    obtain ⟨s, _, rfl⟩ := Option.map_eq_some_iff.1 hb
    exact s.flatten_accepts priorSpec
  have hstatus : ∀ b, d.status.map DeploymentStatus.flatten = some b →
      DeploymentStatus.schema.Accepts b := by
    intro b hb
    obtain ⟨s, _, rfl⟩ := Option.map_eq_some_iff.1 hb
    exact s.flatten_accepts
  refine Schema.accepts_ofFields (by decide) (by simp) ?_
  simp only [List.forall_mem_cons]
  exact ⟨Schema.fits_singular rfl hmeta, Schema.fits_singular rfl hspec,
    Schema.fits_singular rfl hstatus, List.forall_mem_nil _⟩

/-- The tree that shows a deployment with declared content declares this content. -/
theorem expand_shown {d : Deployment} {spec : DeploymentSpec} {priorMeta priorSpec : Option Block}
    (hname : ObjectMeta.hasName (d.metadata.flatten priorMeta) = true) (hspec : d.spec = some spec)
    (hdeclared : spec.Declared priorSpec) :
    expand (.obj (d.shown priorMeta priorSpec)) = .ok
      { metadata := ObjectMeta.expand (d.metadata.flatten priorMeta), spec := some spec } := by
  have hmeta : Block.child? (d.shown priorMeta priorSpec) "metadata" =
      some (d.metadata.flatten priorMeta) :=
    Block.child?_of_lookup (d.lookup_shown priorMeta priorSpec "metadata")
  have hblock : Block.child? (d.shown priorMeta priorSpec) "spec" =
      some (spec.flatten priorSpec) := by
    rw [Block.child?_of_lookup (d.lookup_shown priorMeta priorSpec "spec"), hspec]
    rfl
  exact expand_eq_ok.2 ⟨_, _, spec, hmeta, hname, hblock, DeploymentSpec.expand_flatten hdeclared,
    rfl⟩

end Deployment

end Reconcile
