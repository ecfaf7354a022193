import Reconcile.Wire

/-!
# Pods

The part of a pod's specification that configuration trees speak of: its containers with their
ports and environment, and how it is scheduled and run.
-/

namespace Reconcile

/-- A port that a container exposes. -/
structure ContainerPort where
  containerPort : Int32
  name : Option String := none
  protocol : Option String := none
  hostPort : Option Int32 := none
  deriving DecidableEq, Inhabited

/-- A variable in the environment of a container. -/
structure EnvVar where
  name : String
  value : Option String := none
  deriving DecidableEq, Inhabited

/-- A container of a pod. -/
structure Container where
  name : String
  image : Option String := none
  command : Option (List String) := none
  args : Option (List String) := none
  workingDir : Option String := none
  imagePullPolicy : Option String := none
  ports : Option (List ContainerPort) := none
  env : Option (List EnvVar) := none
  deriving DecidableEq, Inhabited

/-- The specification of a pod. -/
structure PodSpec where
  activeDeadlineSeconds : Option Int64 := none
  containers : List Container := []
  initContainers : Option (List Container) := none
  dnsPolicy : Option String := none
  hostIPC : Option Bool := none
  hostNetwork : Option Bool := none
  hostPID : Option Bool := none
  hostname : Option String := none
  nodeName : Option String := none
  nodeSelector : Option (Dict String) := none
  restartPolicy : Option String := none
  serviceAccountName : Option String := none
  terminationGracePeriodSeconds : Option Int64 := none
  deriving DecidableEq, Inhabited

/-- The wire form of a port. -/
def ContainerPort.toJson (p : ContainerPort) : Json :=
  Wire.object
    [("containerPort", Wire.int32 (some p.containerPort)),
     ("hostPort", Wire.int32 p.hostPort),
     ("name", Wire.text p.name),
     ("protocol", Wire.text p.protocol)]

/-- The port of a wire form. -/
def ContainerPort.ofJson? (value : Json) : Option ContainerPort := do
  let fields ← value.obj?
  some {
    containerPort := ← Wire.fieldD Json.int32? 0 fields "containerPort"
    name := ← Wire.field? Json.str? fields "name"
    protocol := ← Wire.field? Json.str? fields "protocol"
    hostPort := ← Wire.field? Json.int32? fields "hostPort" }

/-- The wire form of a variable. -/
def EnvVar.toJson (e : EnvVar) : Json :=
  Wire.object [("name", Wire.text (some e.name)), ("value", Wire.text e.value)]

/-- The variable of a wire form. -/
def EnvVar.ofJson? (value : Json) : Option EnvVar := do
  let fields ← value.obj?
  some {
    name := ← Wire.fieldD Json.str? "" fields "name"
    value := ← Wire.field? Json.str? fields "value" }

/-- The wire form of a container. -/
def Container.toJson (c : Container) : Json :=
  Wire.object
    [("args", Wire.textList c.args),
     ("command", Wire.textList c.command),
     ("env", c.env.map (Wire.array EnvVar.toJson)),
     ("image", Wire.text c.image),
     ("imagePullPolicy", Wire.text c.imagePullPolicy),
     ("name", Wire.text (some c.name)),
     ("ports", c.ports.map (Wire.array ContainerPort.toJson)),
     ("workingDir", Wire.text c.workingDir)]

/-- The container of a wire form. -/
def Container.ofJson? (value : Json) : Option Container := do
  let fields ← value.obj?
  some {
    name := ← Wire.fieldD Json.str? "" fields "name"
    image := ← Wire.field? Json.str? fields "image"
    command := ← Wire.field? (Wire.list? Json.str?) fields "command"
    args := ← Wire.field? (Wire.list? Json.str?) fields "args"
    workingDir := ← Wire.field? Json.str? fields "workingDir"
    imagePullPolicy := ← Wire.field? Json.str? fields "imagePullPolicy"
    ports := ← Wire.field? (Wire.list? ContainerPort.ofJson?) fields "ports"
    env := ← Wire.field? (Wire.list? EnvVar.ofJson?) fields "env" }

/-- The wire form of a pod's specification. -/
def PodSpec.toJson (s : PodSpec) : Json :=
  Wire.object
    [("activeDeadlineSeconds", Wire.int64 s.activeDeadlineSeconds),
     ("containers", some (Wire.array Container.toJson s.containers)),
     ("dnsPolicy", Wire.text s.dnsPolicy),
     ("hostIPC", Wire.bool s.hostIPC),
     ("hostNetwork", Wire.bool s.hostNetwork),
     ("hostPID", Wire.bool s.hostPID),
     ("hostname", Wire.text s.hostname),
     ("initContainers", s.initContainers.map (Wire.array Container.toJson)),
     ("nodeName", Wire.text s.nodeName),
     ("nodeSelector", Wire.texts s.nodeSelector),
     ("restartPolicy", Wire.text s.restartPolicy),
     ("serviceAccountName", Wire.text s.serviceAccountName),
     ("terminationGracePeriodSeconds", Wire.int64 s.terminationGracePeriodSeconds)]

/-- The specification of a pod's wire form. -/
def PodSpec.ofJson? (value : Json) : Option PodSpec := do
  let fields ← value.obj?
  some {
    activeDeadlineSeconds := ← Wire.field? Json.int64? fields "activeDeadlineSeconds"
    containers := ← Wire.fieldD (Wire.list? Container.ofJson?) [] fields "containers"
    initContainers := ← Wire.field? (Wire.list? Container.ofJson?) fields "initContainers"
    dnsPolicy := ← Wire.field? Json.str? fields "dnsPolicy"
    hostIPC := ← Wire.field? Json.bool? fields "hostIPC"
    hostNetwork := ← Wire.field? Json.bool? fields "hostNetwork"
    hostPID := ← Wire.field? Json.bool? fields "hostPID"
    hostname := ← Wire.field? Json.str? fields "hostname"
    nodeName := ← Wire.field? Json.str? fields "nodeName"
    nodeSelector := ← Wire.field? Wire.texts? fields "nodeSelector"
    restartPolicy := ← Wire.field? Json.str? fields "restartPolicy"
    serviceAccountName := ← Wire.field? Json.str? fields "serviceAccountName"
    terminationGracePeriodSeconds :=
      ← Wire.field? Json.int64? fields "terminationGracePeriodSeconds" }

end Reconcile
