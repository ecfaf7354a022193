import Mathlib.Data.List.Basic
import Reconcile.Proofs.Deployment.Declaration
import Reconcile.Proofs.Deployment.Wire
import Reconcile.Proofs.Metadata.Kept
import Reconcile.Proofs.Pod.Kept

/-!
# Deployments in the trees that show them

The tree of a deployment holds nothing empty. It can be stored if the wire form of the deployment
can be recorded and the labels of the prior tree, those of the deployment and those of its template,
leave the key of their counter free.
-/

namespace Reconcile

open Schema (Kept every_of_fields)

variable {clean : Prop}

/-- A shown rolling update holds nothing empty and can be stored. -/
theorem RollingUpdate.flatten_kept (r : RollingUpdate) : schema.Every (Kept clean) r.flatten := by
  refine every_of_fields ?_
  simp only [schema, List.forall_mem_cons, lookup_flatten]
  exact ⟨Schema.kept_text rfl _, Schema.kept_text rfl _, List.forall_mem_nil _⟩

/-- A shown strategy holds nothing empty and can be stored. -/
theorem Strategy.flatten_kept (s : Strategy) : schema.Every (Kept clean) s.flatten := by
  refine every_of_fields ?_
  simp only [schema, List.forall_mem_cons, lookup_flatten]
  exact ⟨Schema.kept_text rfl _, Schema.kept_shown rfl fun r _ => r.flatten_kept,
    List.forall_mem_nil _⟩

/-- A shown status holds nothing empty and can be stored. -/
theorem DeploymentStatus.flatten_kept (s : DeploymentStatus) :
    schema.Every (Kept clean) s.flatten := by
  have hlookup (k : String) : s.flatten.lookup k = _ := Block.lookup_ofFields (by simp) k
  refine every_of_fields ?_
  simp only [schema, List.forall_mem_cons, hlookup]
  exact ⟨Schema.kept_int rfl _, Schema.kept_int rfl _, Schema.kept_int rfl _,
    Schema.kept_int rfl _, Schema.kept_int rfl _, List.forall_mem_nil _⟩

/-- A shown template holds nothing empty. It can be stored if its wire form can be recorded and no
label of a percent sign has been declared for it. -/
theorem PodTemplate.flatten_kept {t : PodTemplate} {prior : Option Block}
    (h : clean → t.toJson.recordable = true)
    (hprior : clean →
      (ObjectMeta.declaredLabels (prior.bind (Block.child? · "metadata"))).get? "%" = none) :
    schema.Every (Kept clean) (t.flatten prior) := by
  have hmeta : ∀ element, t.metadataBlock prior = some element →
      ObjectMeta.templateSchema.Every (Kept clean) element := by
    intro element helement
    obtain ⟨m, hm, rfl⟩ := Option.map_eq_some_iff.1 (Option.filter_eq_some_iff.1 helement).1
    exact ObjectMeta.flattenTemplate_kept
      (fun hc => Json.recordable_of_field (h hc) (t.lookup_toJson "metadata") hm) hprior
  have hspec : ∀ s, t.spec = some s → PodSpec.schema.Every (Kept clean) s.flatten :=
    fun s hs => s.flatten_kept fun hc =>
      Json.recordable_of_field (h hc) (t.lookup_toJson "spec") hs
  refine every_of_fields ?_
  simp only [schema, List.forall_mem_cons, lookup_flatten]
  exact ⟨Schema.kept_singular rfl hmeta, Schema.kept_shown rfl hspec, List.forall_mem_nil _⟩

/-- Shown content holds nothing empty. It can be stored if its wire form can be recorded and no
label of a percent sign has been declared for its template. -/
theorem DeploymentSpec.flatten_kept {s : DeploymentSpec} {prior : Option Block}
    (h : clean → s.toJson.recordable = true)
    (hprior : clean → (ObjectMeta.declaredLabels
      ((prior.bind (Block.child? · "template")).bind (Block.child? · "metadata"))).get? "%" =
        none) :
    schema.Every (Kept clean) (s.flatten prior) := by
  have hlabels : (s.selector.toJson.obj?.getD []).lookup "matchLabels" =
      Wire.texts s.selector.matchLabels := Block.lookup_ofFields (by simp) "matchLabels"
  have hselector (hc : clean) := Json.get?_recordable
    (Json.recordable_member (h hc) (s.lookup_toJson "selector")) hlabels
  have htemplate (hc : clean) := Json.recordable_member (h hc) (s.lookup_toJson "template")
  refine every_of_fields ?_
  simp only [schema, List.forall_mem_cons, lookup_flatten]
  exact ⟨Schema.kept_int rfl (some _), Schema.kept_bool rfl (some _), Schema.kept_int rfl (some _),
    Schema.kept_int rfl (some _), Schema.kept_int rfl (some _), Schema.kept_texts rfl hselector,
    Schema.kept_shown rfl fun t _ => t.flatten_kept,
    Schema.kept_single rfl (PodTemplate.flatten_kept htemplate hprior), List.forall_mem_nil _⟩

/-- The tree of a deployment holds nothing empty. -/
theorem Deployment.shown_kept {d : Deployment} {priorMeta priorSpec : Option Block}
    (h : clean → d.toJson.recordable = true)
    (hmeta : clean → (ObjectMeta.declaredLabels priorMeta).get? "%" = none)
    (htemplate : clean → (ObjectMeta.declaredLabels
      ((priorSpec.bind (Block.child? · "template")).bind (Block.child? · "metadata"))).get? "%" =
        none) :
    schema.Every (Kept clean) (d.shown priorMeta priorSpec) := by
  have hmetadata (hc : clean) := Json.recordable_member (h hc) (d.lookup_toJson "metadata")
  have hspec : ∀ s, d.spec = some s →
      DeploymentSpec.schema.Every (Kept clean) (s.flatten priorSpec) :=
    fun s hs => s.flatten_kept
      (fun hc => Json.recordable_of_field (h hc) (d.lookup_toJson "spec") hs) htemplate
  refine every_of_fields ?_
  simp only [schema, List.forall_mem_cons, lookup_shown]
  exact ⟨Schema.kept_single rfl (ObjectMeta.flatten_kept hmetadata hmeta),
    Schema.kept_shown rfl hspec, Schema.kept_shown rfl fun s _ => s.flatten_kept,
    List.forall_mem_nil _⟩

end Reconcile
