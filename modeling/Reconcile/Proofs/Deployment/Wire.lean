import Mathlib.Data.List.Basic
import Reconcile.Deployment.Object
import Reconcile.Proofs.Metadata.Wire
import Reconcile.Proofs.Pod.Wire

/-!
# Deployments on the wire

A deployment is read from its wire form, and so are its specification and its status.
-/

namespace Reconcile

/-- A bound is read from its wire form. -/
theorem IntOrText.ofJson?_toJson (b : IntOrText) : ofJson? b.toJson = some b := by
  cases b with
  | int i =>
      show (Json.int i.toInt).int32?.map IntOrText.int = _
      rw [Wire.int32?_toInt]
      rfl
  | text s => rfl

/-- A member that holds a bound is read. -/
theorem IntOrText.field?_toJson {fields : Json.Fields} {key : String} {value : Option IntOrText}
    (h : fields.lookup key = value.map toJson) :
    Wire.field? ofJson? fields key = some value := by
  refine Wire.field?_of_lookup _ _ h (fun b _ => ofJson?_toJson b) fun b => ?_
  cases b with
  | int i => exact fun h => nomatch h
  | text s => exact fun h => nomatch h

/-- What the wire form of the bounds of a rolling update holds under a key. -/
theorem RollingUpdate.lookup_toJson (r : RollingUpdate) (k : String) :
    ((r.toJson.obj?).getD []).lookup k =
      (List.lookup k
        [("maxSurge", r.maxSurge.map IntOrText.toJson),
         ("maxUnavailable", r.maxUnavailable.map IntOrText.toJson)]).join :=
  Block.lookup_ofFields (by simp) k

/-- A rolling update is read from its wire form. -/
theorem RollingUpdate.ofJson?_toJson (r : RollingUpdate) : ofJson? r.toJson = some r := by
  have hmaxSurge := IntOrText.field?_toJson (r.lookup_toJson "maxSurge")
  have hmaxUnavailable := IntOrText.field?_toJson (r.lookup_toJson "maxUnavailable")
  show (do let fields ← some ((r.toJson.obj?).getD []); _) = _
  simp only [Wire.some_bind, hmaxSurge, hmaxUnavailable]

/-- What the wire form of a strategy holds under a key. -/
theorem Strategy.lookup_toJson (s : Strategy) (k : String) :
    ((s.toJson.obj?).getD []).lookup k =
      (List.lookup k
        [("rollingUpdate", s.rollingUpdate.map RollingUpdate.toJson),
         ("type", Wire.text s.type)]).join :=
  Block.lookup_ofFields (by simp) k

/-- A strategy is read from its wire form. -/
theorem Strategy.ofJson?_toJson (s : Strategy) : ofJson? s.toJson = some s := by
  have htype := Wire.field?_text (s.lookup_toJson "type")
  have hrollingUpdate := Wire.field?_of_lookup _ _ (s.lookup_toJson "rollingUpdate")
    (fun r _ => r.ofJson?_toJson) fun _ h => nomatch h
  show (do let fields ← some ((s.toJson.obj?).getD []); _) = _
  simp only [Wire.some_bind, htype, hrollingUpdate]

/-- What the wire form of a template holds under a key. -/
theorem PodTemplate.lookup_toJson (t : PodTemplate) (k : String) :
    ((t.toJson.obj?).getD []).lookup k =
      (List.lookup k
        [("metadata", t.metadata.map ObjectMeta.toJson),
         ("spec", t.spec.map PodSpec.toJson)]).join :=
  Block.lookup_ofFields (by simp) k

/-- A template is read from its wire form. -/
theorem PodTemplate.ofJson?_toJson (t : PodTemplate) : ofJson? t.toJson = some t := by
  have hmetadata := ObjectMeta.field?_toJson (t.lookup_toJson "metadata")
  have hspec := Wire.field?_of_lookup _ _ (t.lookup_toJson "spec")
    (fun s _ => s.ofJson?_toJson) fun _ h => nomatch h
  show (do let fields ← some ((t.toJson.obj?).getD []); _) = _
  simp only [Wire.some_bind, hmetadata, hspec]

/-- A selector is read from its wire form. -/
theorem LabelSelector.ofJson?_toJson (s : LabelSelector) : ofJson? s.toJson = some s := by
  have hlookup : ((s.toJson.obj?).getD []).lookup "matchLabels" = Wire.texts s.matchLabels :=
    Block.lookup_ofFields (by simp) "matchLabels"
  have hmatchLabels := Wire.field?_texts hlookup
  show (do let fields ← some ((s.toJson.obj?).getD []); _) = _
  simp only [Wire.some_bind, hmatchLabels]

/-- What the wire form of a deployment's desired content holds under a key. -/
theorem DeploymentSpec.lookup_toJson (s : DeploymentSpec) (k : String) :
    ((s.toJson.obj?).getD []).lookup k =
      (List.lookup k
        [("minReadySeconds", Wire.int32 s.minReadySeconds),
         ("paused", Wire.bool s.paused),
         ("progressDeadlineSeconds", Wire.int32 s.progressDeadlineSeconds),
         ("replicas", Wire.int32 s.replicas),
         ("revisionHistoryLimit", Wire.int32 s.revisionHistoryLimit),
         ("selector", some s.selector.toJson),
         ("strategy", s.strategy.map Strategy.toJson),
         ("template", some s.template.toJson)]).join :=
  Block.lookup_ofFields (by simp) k

/-- The desired content of a deployment is read from its wire form. -/
theorem DeploymentSpec.ofJson?_toJson (s : DeploymentSpec) : ofJson? s.toJson = some s := by
  have hminReadySeconds := Wire.field?_int32 (s.lookup_toJson "minReadySeconds")
  have hpaused := Wire.field?_bool (s.lookup_toJson "paused")
  have hdeadline := Wire.field?_int32 (s.lookup_toJson "progressDeadlineSeconds")
  have hreplicas := Wire.field?_int32 (s.lookup_toJson "replicas")
  have hhistory := Wire.field?_int32 (s.lookup_toJson "revisionHistoryLimit")
  have hselector : Wire.fieldD LabelSelector.ofJson? {} _ "selector" = some s.selector :=
    Wire.fieldD_of_lookup (s.lookup_toJson "selector") s.selector.ofJson?_toJson
      fun h => nomatch h
  have hstrategy := Wire.field?_of_lookup _ _ (s.lookup_toJson "strategy")
    (fun t _ => t.ofJson?_toJson) fun _ h => nomatch h
  have htemplate : Wire.fieldD PodTemplate.ofJson? {} _ "template" = some s.template :=
    Wire.fieldD_of_lookup (s.lookup_toJson "template") s.template.ofJson?_toJson
      fun h => nomatch h
  show (do let fields ← some ((s.toJson.obj?).getD []); _) = _
  simp only [Wire.some_bind, hminReadySeconds, hpaused, hdeadline,
    hreplicas, hhistory, hselector, hstrategy, htemplate]

/-- What the wire form of a deployment's observed state holds under a key. -/
theorem DeploymentStatus.lookup_toJson (s : DeploymentStatus) (k : String) :
    ((s.toJson.obj?).getD []).lookup k =
      (List.lookup k
        [("availableReplicas", Wire.int32 s.availableReplicas),
         ("observedGeneration", Wire.int64 s.observedGeneration),
         ("readyReplicas", Wire.int32 s.readyReplicas),
         ("replicas", Wire.int32 s.replicas),
         ("updatedReplicas", Wire.int32 s.updatedReplicas)]).join :=
  Block.lookup_ofFields (by simp) k

/-- A status is read from its wire form. -/
theorem DeploymentStatus.ofJson?_toJson (s : DeploymentStatus) : ofJson? s.toJson = some s := by
  have hreplicas := Wire.field?_int32 (s.lookup_toJson "replicas")
  have hready := Wire.field?_int32 (s.lookup_toJson "readyReplicas")
  have havailable := Wire.field?_int32 (s.lookup_toJson "availableReplicas")
  have hupdated := Wire.field?_int32 (s.lookup_toJson "updatedReplicas")
  have hgeneration := Wire.field?_int64 (s.lookup_toJson "observedGeneration")
  show (do let fields ← some ((s.toJson.obj?).getD []); _) = _
  simp only [Wire.some_bind, hreplicas, hready, havailable, hupdated,
    hgeneration]

namespace Deployment

/-- What the wire form of a deployment holds under a key. -/
theorem lookup_toJson (d : Deployment) (k : String) :
    ((d.toJson.obj?).getD []).lookup k =
      (List.lookup k
        [("apiVersion", some (.str apiVersion)),
         ("kind", some (.str typeName)),
         ("metadata", some d.metadata.toJson),
         ("spec", d.spec.map DeploymentSpec.toJson),
         ("status", d.status.map DeploymentStatus.toJson)]).join :=
  Block.lookup_ofFields (by simp) k

/-- A deployment is read from its wire form. -/
theorem ofJson?_toJson (d : Deployment) : ofJson? d.toJson = some d := by
  have hapiVersion : Wire.constant? ((d.toJson.obj?).getD []) "apiVersion" apiVersion = some () :=
    Wire.constant?_of_lookup (d.lookup_toJson "apiVersion")
  have hkind : Wire.constant? ((d.toJson.obj?).getD []) "kind" typeName = some () :=
    Wire.constant?_of_lookup (d.lookup_toJson "kind")
  have hmetadata : Wire.fieldD ObjectMeta.ofJson? {} _ "metadata" = some d.metadata :=
    Wire.fieldD_of_lookup (d.lookup_toJson "metadata") d.metadata.ofJson?_toJson fun h => nomatch h
  have hspec := Wire.field?_of_lookup _ _ (d.lookup_toJson "spec")
    (fun s _ => s.ofJson?_toJson) fun _ h => nomatch h
  have hstatus := Wire.field?_of_lookup _ _ (d.lookup_toJson "status")
    (fun s _ => s.ofJson?_toJson) fun _ h => nomatch h
  show (do let fields ← some ((d.toJson.obj?).getD []); _) = _
  simp only [Wire.some_bind, hapiVersion, hkind, hmetadata, hspec, hstatus]

end Deployment

end Reconcile
