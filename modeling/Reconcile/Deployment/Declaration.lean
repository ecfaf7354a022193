import Reconcile.Deployment.Object
import Reconcile.Json.Printer
import Reconcile.Metadata.Declaration
import Reconcile.Pod.Declaration
import Reconcile.Progress

/-!
# Deployments in configuration trees

`Deployment.expand` reads the deployment that a tree declares, and `Deployment.flatten` shows an
observed deployment as a tree, merging labels and filtering annotations against a prior tree. A
deployment whose tree names no selector selects its pods by the labels of their template.
-/

namespace Reconcile

namespace DeploymentSpec

/-- How long a pod has to be ready before it counts, where nothing is said. -/
def defaultMinReadySeconds : Int32 := 0

/-- Whether a deployment is paused, where nothing is said. -/
def defaultPaused : Bool := false

/-- How long a deployment may go without progress, where nothing is said. -/
def defaultProgressDeadlineSeconds : Int32 := 600

/-- The number of pods, where nothing is said. -/
def defaultReplicas : Int32 := 1

/-- The number of former templates that are kept, where nothing is said. -/
def defaultRevisionHistoryLimit : Int32 := 10

end DeploymentSpec

/-- How many pods a rolling update may add or take away, where nothing is said. -/
def RollingUpdate.defaultBound : String := "1"

/-- The block of the bounds of a rolling update. -/
def RollingUpdate.schema : Schema :=
  [(Field.text "max_surge" .optional).withDefault (.text RollingUpdate.defaultBound),
   (Field.text "max_unavailable" .optional).withDefault (.text RollingUpdate.defaultBound)]

/-- The block of a strategy. -/
def Strategy.schema : Schema :=
  [.text "type" .optional, .single "rolling_update" RollingUpdate.schema .optional]

/-- The block of a template. -/
def PodTemplate.schema : Schema :=
  [.single "metadata" ObjectMeta.templateSchema .optional,
   .single "spec" PodSpec.schema .required]

namespace DeploymentSpec

/-- The block of a deployment's desired content. -/
def schema : Schema :=
  [(Field.int "min_ready_seconds" .optional).withDefault (.int defaultMinReadySeconds.toInt),
   (Field.bool "paused" .optional).withDefault (.bool defaultPaused),
   (Field.int "progress_deadline_seconds" .optional).withDefault
     (.int defaultProgressDeadlineSeconds.toInt),
   (Field.int "replicas" .optional).withDefault (.int defaultReplicas.toInt),
   (Field.int "revision_history_limit" .optional).withDefault
     (.int defaultRevisionHistoryLimit.toInt),
   .textMap "selector" .optionalComputed,
   .single "strategy" Strategy.schema .optionalComputed,
   .single "template" PodTemplate.schema .required]

end DeploymentSpec

/-- The block of a deployment's observed state. -/
def DeploymentStatus.schema : Schema :=
  [.int "replicas" .computed,
   .int "ready_replicas" .computed,
   .int "available_replicas" .computed,
   .int "updated_replicas" .computed,
   .int "observed_generation" .computed]

/-- The tree of a deployment. -/
def Deployment.schema : Schema :=
  [.single "metadata" ObjectMeta.schema .required,
   .single "spec" DeploymentSpec.schema .required,
   .single "status" DeploymentStatus.schema .computed]

/-- A text that is a number of 32 bits counts as that number, any other text as itself. -/
def IntOrText.ofText (s : String) : IntOrText :=
  match Decimal.intIn? Json.minInt32 Json.maxInt32 s with
  | some i => .int (Int32.ofInt i)
  | none => .text s

/-- The text of a number or a share. -/
def IntOrText.toText : IntOrText → String
  | .int i => toString i.toInt
  | .text s => s

namespace RollingUpdate

/-- The text of a bound, which may also be given as a number. -/
def bound? (block : Block) (key : String) : Option String :=
  match block.lookup key with
  | some (.str s) => if s = "" then none else some s
  | some (.int i) => some (toString i)
  | some (.float x) => some (Json.floatText x)
  | _ => none

/-- The bound that a block declares. -/
def bound (block : Block) (key : String) : IntOrText :=
  IntOrText.ofText ((bound? block key).getD defaultBound)

/-- The bounds that a block declares. -/
def expand (block : Block) : RollingUpdate where
  maxSurge := some (bound block "max_surge")
  maxUnavailable := some (bound block "max_unavailable")

/-- The block of observed bounds. -/
def flatten (r : RollingUpdate) : Block :=
  Block.ofFields
    [("max_surge", Block.ofText? (r.maxSurge.map IntOrText.toText)),
     ("max_unavailable", Block.ofText? (r.maxUnavailable.map IntOrText.toText))]

end RollingUpdate

namespace Strategy

/-- The strategy that a block declares. -/
def expand (block : Block) : Strategy where
  type := Block.text? block "type"
  rollingUpdate := (Block.child? block "rolling_update").map RollingUpdate.expand

/-- The block of an observed strategy. -/
def flatten (s : Strategy) : Block :=
  Block.ofFields
    [("type", Block.ofText? s.type),
     ("rolling_update", s.rollingUpdate.map fun r => Block.singular r.flatten)]

end Strategy

/-- The block of an observed template. Metadata that says nothing is left out. -/
def PodTemplate.flatten (t : PodTemplate) (prior : Option Block) : Block :=
  let priorMeta := prior.bind (Block.child? · "metadata")
  let metaBlock := t.metadata.bind fun m =>
    let block := m.flattenTemplate priorMeta
    if block.isEmpty then none else some (Block.singular block)
  Block.ofFields
    [("metadata", metaBlock), ("spec", t.spec.map fun s => Block.singular s.flatten)]

namespace DeploymentSpec

/-- The labels by which a deployment recognises its pods: those that are declared, or those of the
template where none are. -/
def expandSelector (block : Block) (template : ObjectMeta) : LabelSelector where
  matchLabels :=
    let declared := Block.texts block "selector"
    ObjectMeta.nonEmpty? (if declared.isEmpty then template.labels.getD Dict.empty else declared)

/-- The desired content that a block declares. -/
def expand (block : Block) : Except Failure DeploymentSpec := do
  let template ← Declaration.requiredBlock block "template" "spec.template"
  let podBlock ← Declaration.requiredBlock template "spec" "spec.template.spec"
  let templateMeta := ((Block.child? template "metadata").map ObjectMeta.expand).getD {}
  let number (key : String) (default : Int32) : Except Failure Int32 :=
    Declaration.int32D block key default ("spec." ++ key)
  let minReadySeconds ← number "min_ready_seconds" defaultMinReadySeconds
  let progressDeadlineSeconds ← number "progress_deadline_seconds" defaultProgressDeadlineSeconds
  let replicas ← number "replicas" defaultReplicas
  let revisionHistoryLimit ← number "revision_history_limit" defaultRevisionHistoryLimit
  let podSpec ← PodSpec.expand podBlock
  pure {
    minReadySeconds := some minReadySeconds
    paused := some ((Block.bool? block "paused").getD defaultPaused)
    progressDeadlineSeconds := some progressDeadlineSeconds
    replicas := some replicas
    revisionHistoryLimit := some revisionHistoryLimit
    selector := expandSelector block templateMeta
    strategy := (Block.child? block "strategy").map Strategy.expand
    template := { metadata := some templateMeta, spec := some podSpec } }

/-- The block of observed content. What the server leaves out has its default. -/
def flatten (s : DeploymentSpec) (prior : Option Block) : Block :=
  let number (value : Option Int32) (default : Int32) : Option Json :=
    Block.ofInt? (some (value.getD default).toInt)
  Block.ofFields
    [("min_ready_seconds", number s.minReadySeconds defaultMinReadySeconds),
     ("paused", Block.ofBool? (some (s.paused.getD defaultPaused))),
     ("progress_deadline_seconds",
       number s.progressDeadlineSeconds defaultProgressDeadlineSeconds),
     ("replicas", number s.replicas defaultReplicas),
     ("revision_history_limit", number s.revisionHistoryLimit defaultRevisionHistoryLimit),
     ("selector", Block.ofTexts? (s.selector.matchLabels.getD Dict.empty)),
     ("strategy", s.strategy.map fun t => Block.singular t.flatten),
     ("template",
       some (Block.singular (s.template.flatten (prior.bind (Block.child? · "template")))))]

end DeploymentSpec

/-- The block of an observed state. -/
def DeploymentStatus.flatten (s : DeploymentStatus) : Block :=
  Block.ofFields
    [("replicas", Block.ofInt? (s.replicas.map Int32.toInt)),
     ("ready_replicas", Block.ofInt? (s.readyReplicas.map Int32.toInt)),
     ("available_replicas", Block.ofInt? (s.availableReplicas.map Int32.toInt)),
     ("updated_replicas", Block.ofInt? (s.updatedReplicas.map Int32.toInt)),
     ("observed_generation", Block.ofInt? (s.observedGeneration.map Int64.toInt))]

namespace Deployment

/-- The deployment that a tree declares. -/
def expand (tree : Tree) : Except Failure Deployment := do
  let root ← Declaration.root tree
  let metaBlock ← Declaration.requiredBlock root "metadata" "metadata"
  ObjectMeta.requireName metaBlock
  let specBlock ← Declaration.requiredBlock root "spec" "spec"
  let spec ← DeploymentSpec.expand specBlock
  pure { metadata := ObjectMeta.expand metaBlock, spec := some spec }

/-- The tree of an observed deployment, with a prior tree to merge and filter against. -/
def flatten (d : Deployment) (prior : Tree) : Tree :=
  .obj <| Block.ofFields
    [("metadata", some (Block.singular (d.metadata.flatten (Tree.block? prior "metadata")))),
     ("spec", d.spec.map fun s => Block.singular (s.flatten (Tree.block? prior "spec"))),
     ("status", d.status.map fun s => Block.singular s.flatten)]

/-- The observed and the desired number of pods. -/
def progress (d : Deployment) : Progress where
  observed := ((d.status.bind (·.replicas)).getD 0).toInt
  desired := ((d.spec.bind (·.replicas)).getD DeploymentSpec.defaultReplicas).toInt

end Deployment

end Reconcile
