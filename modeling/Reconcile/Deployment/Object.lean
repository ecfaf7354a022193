import Reconcile.Metadata.Object
import Reconcile.Pod.Object

/-!
# Deployments

A deployment keeps a number of pods of one template running and replaces them step by step when
the template changes. Its status counts the pods that the cluster has observed.
-/

namespace Reconcile

/-- A number or a share, such as `25%`. -/
inductive IntOrText where
  | int (value : Int32)
  | text (value : String)
  deriving DecidableEq, Inhabited

/-- How many pods a rolling update may add and take away at a time. -/
structure RollingUpdate where
  maxSurge : Option IntOrText := none
  maxUnavailable : Option IntOrText := none
  deriving DecidableEq, Inhabited

/-- How a deployment replaces its pods. -/
structure Strategy where
  type : Option String := none
  rollingUpdate : Option RollingUpdate := none
  deriving DecidableEq, Inhabited

/-- The metadata and the specification of the pods of a deployment. -/
structure PodTemplate where
  metadata : Option ObjectMeta := none
  spec : Option PodSpec := none
  deriving DecidableEq, Inhabited

/-- The labels by which a deployment recognises its pods. -/
structure LabelSelector where
  matchLabels : Option (Dict String) := none
  deriving DecidableEq, Inhabited

/-- The desired content of a deployment. -/
structure DeploymentSpec where
  minReadySeconds : Option Int32 := none
  paused : Option Bool := none
  progressDeadlineSeconds : Option Int32 := none
  replicas : Option Int32 := none
  revisionHistoryLimit : Option Int32 := none
  selector : LabelSelector := {}
  strategy : Option Strategy := none
  template : PodTemplate := {}
  deriving DecidableEq, Inhabited

/-- The observed state of a deployment. -/
structure DeploymentStatus where
  replicas : Option Int32 := none
  readyReplicas : Option Int32 := none
  availableReplicas : Option Int32 := none
  updatedReplicas : Option Int32 := none
  observedGeneration : Option Int64 := none
  deriving DecidableEq, Inhabited

/-- A deployment. -/
structure Deployment where
  metadata : ObjectMeta := {}
  spec : Option DeploymentSpec := none
  status : Option DeploymentStatus := none
  deriving DecidableEq, Inhabited

/-- The wire form of a number or a share. -/
def IntOrText.toJson : IntOrText → Json
  | .int i => .int i.toInt
  | .text s => .str s

/-- The number or the share of a wire form. -/
def IntOrText.ofJson? (value : Json) : Option IntOrText :=
  match value with
  | .str s => some (.text s)
  | other => other.int32?.map .int

/-- The wire form of the bounds of a rolling update. -/
def RollingUpdate.toJson (r : RollingUpdate) : Json :=
  Wire.object
    [("maxSurge", r.maxSurge.map IntOrText.toJson),
     ("maxUnavailable", r.maxUnavailable.map IntOrText.toJson)]

/-- The bounds of a rolling update's wire form. -/
def RollingUpdate.ofJson? (value : Json) : Option RollingUpdate := do
  let fields ← value.obj?
  some {
    maxSurge := ← Wire.field? IntOrText.ofJson? fields "maxSurge"
    maxUnavailable := ← Wire.field? IntOrText.ofJson? fields "maxUnavailable" }

/-- The wire form of a strategy. -/
def Strategy.toJson (s : Strategy) : Json :=
  Wire.object
    [("rollingUpdate", s.rollingUpdate.map RollingUpdate.toJson), ("type", Wire.text s.type)]

/-- The strategy of a wire form. -/
def Strategy.ofJson? (value : Json) : Option Strategy := do
  let fields ← value.obj?
  some {
    type := ← Wire.field? Json.str? fields "type"
    rollingUpdate := ← Wire.field? RollingUpdate.ofJson? fields "rollingUpdate" }

/-- The wire form of a template. -/
def PodTemplate.toJson (t : PodTemplate) : Json :=
  Wire.object
    [("metadata", t.metadata.map ObjectMeta.toJson), ("spec", t.spec.map PodSpec.toJson)]

/-- The template of a wire form. -/
def PodTemplate.ofJson? (value : Json) : Option PodTemplate := do
  let fields ← value.obj?
  some {
    metadata := ← Wire.field? ObjectMeta.ofJson? fields "metadata"
    spec := ← Wire.field? PodSpec.ofJson? fields "spec" }

/-- The wire form of a selector. -/
def LabelSelector.toJson (s : LabelSelector) : Json :=
  Wire.object [("matchLabels", Wire.texts s.matchLabels)]

/-- The selector of a wire form. -/
def LabelSelector.ofJson? (value : Json) : Option LabelSelector := do
  let fields ← value.obj?
  some { matchLabels := ← Wire.field? Wire.texts? fields "matchLabels" }

/-- The wire form of a deployment's desired content. -/
def DeploymentSpec.toJson (s : DeploymentSpec) : Json :=
  Wire.object
    [("minReadySeconds", Wire.int32 s.minReadySeconds),
     ("paused", Wire.bool s.paused),
     ("progressDeadlineSeconds", Wire.int32 s.progressDeadlineSeconds),
     ("replicas", Wire.int32 s.replicas),
     ("revisionHistoryLimit", Wire.int32 s.revisionHistoryLimit),
     ("selector", some s.selector.toJson),
     ("strategy", s.strategy.map Strategy.toJson),
     ("template", some s.template.toJson)]

/-- The desired content of a deployment's wire form. -/
def DeploymentSpec.ofJson? (value : Json) : Option DeploymentSpec := do
  let fields ← value.obj?
  some {
    minReadySeconds := ← Wire.field? Json.int32? fields "minReadySeconds"
    paused := ← Wire.field? Json.bool? fields "paused"
    progressDeadlineSeconds := ← Wire.field? Json.int32? fields "progressDeadlineSeconds"
    replicas := ← Wire.field? Json.int32? fields "replicas"
    revisionHistoryLimit := ← Wire.field? Json.int32? fields "revisionHistoryLimit"
    selector := ← Wire.fieldD LabelSelector.ofJson? {} fields "selector"
    strategy := ← Wire.field? Strategy.ofJson? fields "strategy"
    template := ← Wire.fieldD PodTemplate.ofJson? {} fields "template" }

/-- The wire form of a deployment's observed state. -/
def DeploymentStatus.toJson (s : DeploymentStatus) : Json :=
  Wire.object
    [("availableReplicas", Wire.int32 s.availableReplicas),
     ("observedGeneration", Wire.int64 s.observedGeneration),
     ("readyReplicas", Wire.int32 s.readyReplicas),
     ("replicas", Wire.int32 s.replicas),
     ("updatedReplicas", Wire.int32 s.updatedReplicas)]

/-- The observed state of a deployment's wire form. -/
def DeploymentStatus.ofJson? (value : Json) : Option DeploymentStatus := do
  let fields ← value.obj?
  some {
    replicas := ← Wire.field? Json.int32? fields "replicas"
    readyReplicas := ← Wire.field? Json.int32? fields "readyReplicas"
    availableReplicas := ← Wire.field? Json.int32? fields "availableReplicas"
    updatedReplicas := ← Wire.field? Json.int32? fields "updatedReplicas"
    observedGeneration := ← Wire.field? Json.int64? fields "observedGeneration" }

namespace Deployment

/-- The version of the API that deployments belong to. -/
def apiVersion : String := "apps/v1"

/-- The name of the type in the API. -/
def typeName : String := "Deployment"

/-- The wire form of a deployment. -/
def toJson (d : Deployment) : Json :=
  Wire.object
    [("apiVersion", some (.str apiVersion)),
     ("kind", some (.str typeName)),
     ("metadata", some d.metadata.toJson),
     ("spec", d.spec.map DeploymentSpec.toJson),
     ("status", d.status.map DeploymentStatus.toJson)]

/-- The deployment of a wire form. -/
def ofJson? (value : Json) : Option Deployment := do
  let fields ← value.obj?
  Wire.constant? fields "apiVersion" apiVersion
  Wire.constant? fields "kind" typeName
  some {
    metadata := ← Wire.fieldD ObjectMeta.ofJson? {} fields "metadata"
    spec := ← Wire.field? DeploymentSpec.ofJson? fields "spec"
    status := ← Wire.field? DeploymentStatus.ofJson? fields "status" }

end Deployment

end Reconcile
