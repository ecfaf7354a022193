import Reconcile.Declaration
import Reconcile.Pod.Object
import Reconcile.Schema.Basic

/-!
# Pods in configuration trees

`PodSpec.expand` reads the specification of a pod that a tree declares, and `PodSpec.flatten`
shows an observed one as a block. A container and a variable need a name, and a port needs its
number. The three `host_` switches are off where nothing is said.
-/

namespace Reconcile

/-- The block of a port. -/
def ContainerPort.schema : Schema :=
  [.int "container_port" .required,
   .text "name" .optional,
   .text "protocol" .optionalComputed,
   .int "host_port" .optional]

/-- The block of a variable. -/
def EnvVar.schema : Schema := [.text "name" .required, .text "value" .optional]

/-- The block of a container. -/
def Container.schema : Schema :=
  [.text "name" .required,
   .text "image" .optional,
   .textList "command" .optional,
   .textList "args" .optional,
   .text "working_dir" .optional,
   .text "image_pull_policy" .optionalComputed,
   .repeated "port" ContainerPort.schema .optional,
   .repeated "env" EnvVar.schema .optional]

/-- The block of a pod's specification. -/
def PodSpec.schema : Schema :=
  [.int "active_deadline_seconds" .optional,
   .repeated "container" Container.schema .optional,
   .repeated "init_container" Container.schema .optional,
   .text "dns_policy" .optionalComputed,
   (Field.bool "host_ipc" .optional).withDefault (.bool false),
   (Field.bool "host_network" .optional).withDefault (.bool false),
   (Field.bool "host_pid" .optional).withDefault (.bool false),
   .text "hostname" .optional,
   .text "node_name" .optional,
   .textMap "node_selector" .optional,
   .text "restart_policy" .optionalComputed,
   .text "service_account_name" .optionalComputed,
   .int "termination_grace_period_seconds" .optionalComputed]

/-- The port that a block declares. -/
def ContainerPort.expand (path : String) (block : Block) : Except Failure ContainerPort := do
  let number ← Declaration.requiredInt block "container_port" path
  let containerPort ← Declaration.int32 number path
  let hostPort ← Declaration.int32? block "host_port" path
  pure {
    containerPort := containerPort
    name := Block.text? block "name"
    protocol := Block.text? block "protocol"
    hostPort := hostPort }

/-- The variable that a block declares. -/
def EnvVar.expand (path : String) (block : Block) : Except Failure EnvVar := do
  let name ← Declaration.requiredText block "name" path
  pure { name := name, value := Block.text? block "value" }

/-- The container that a block declares. -/
def Container.expand (path : String) (block : Block) : Except Failure Container := do
  let name ← Declaration.requiredText block "name" path
  let ports ← Declaration.children block "port" (path ++ ".port") ContainerPort.expand
  let env ← Declaration.children block "env" (path ++ ".env") EnvVar.expand
  pure {
    name := name
    image := Block.text? block "image"
    command := Declaration.nonEmpty? (Block.textList block "command")
    args := Declaration.nonEmpty? (Block.textList block "args")
    workingDir := Block.text? block "working_dir"
    imagePullPolicy := Block.text? block "image_pull_policy"
    ports := Declaration.nonEmpty? ports
    env := Declaration.nonEmpty? env }

/-- The specification of a pod that a block declares. -/
def PodSpec.expand (block : Block) : Except Failure PodSpec := do
  let containers ← Declaration.children block "container" "container" Container.expand
  let initContainers ←
    Declaration.children block "init_container" "init_container" Container.expand
  let nodeSelector := Block.texts block "node_selector"
  pure {
    activeDeadlineSeconds := Block.int? block "active_deadline_seconds"
    containers := containers
    initContainers := Declaration.nonEmpty? initContainers
    dnsPolicy := Block.text? block "dns_policy"
    hostIPC := some ((Block.bool? block "host_ipc").getD false)
    hostNetwork := some ((Block.bool? block "host_network").getD false)
    hostPID := some ((Block.bool? block "host_pid").getD false)
    hostname := Block.text? block "hostname"
    nodeName := Block.text? block "node_name"
    nodeSelector := if nodeSelector.isEmpty then none else some nodeSelector
    restartPolicy := Block.text? block "restart_policy"
    serviceAccountName := Block.text? block "service_account_name"
    terminationGracePeriodSeconds := Block.int? block "termination_grace_period_seconds" }

/-- The block of an observed port. -/
def ContainerPort.flatten (p : ContainerPort) : Block :=
  Block.ofFields
    [("container_port", Block.ofInt? (some p.containerPort.toInt)),
     ("name", Block.ofText? p.name),
     ("protocol", Block.ofText? p.protocol),
     ("host_port", Block.ofInt? (p.hostPort.map Int32.toInt))]

/-- The block of an observed variable. -/
def EnvVar.flatten (e : EnvVar) : Block :=
  Block.ofFields [("name", Block.ofText? (some e.name)), ("value", Block.ofText? e.value)]

/-- The block of an observed container. -/
def Container.flatten (c : Container) : Block :=
  Block.ofFields
    [("name", Block.ofText? (some c.name)),
     ("image", Block.ofText? c.image),
     ("command", Block.ofTextList? (c.command.getD [])),
     ("args", Block.ofTextList? (c.args.getD [])),
     ("working_dir", Block.ofText? c.workingDir),
     ("image_pull_policy", Block.ofText? c.imagePullPolicy),
     ("port", Block.ofChildren? ((c.ports.getD []).map ContainerPort.flatten)),
     ("env", Block.ofChildren? ((c.env.getD []).map EnvVar.flatten))]

/-- The block of an observed specification of a pod. -/
def PodSpec.flatten (s : PodSpec) : Block :=
  Block.ofFields
    [("active_deadline_seconds", Block.ofInt? (s.activeDeadlineSeconds.map Int64.toInt)),
     ("container", Block.ofChildren? (s.containers.map Container.flatten)),
     ("init_container", Block.ofChildren? ((s.initContainers.getD []).map Container.flatten)),
     ("dns_policy", Block.ofText? s.dnsPolicy),
     ("host_ipc", Block.ofBool? (some (s.hostIPC.getD false))),
     ("host_network", Block.ofBool? (some (s.hostNetwork.getD false))),
     ("host_pid", Block.ofBool? (some (s.hostPID.getD false))),
     ("hostname", Block.ofText? s.hostname),
     ("node_name", Block.ofText? s.nodeName),
     ("node_selector", Block.ofTexts? (s.nodeSelector.getD Dict.empty)),
     ("restart_policy", Block.ofText? s.restartPolicy),
     ("service_account_name", Block.ofText? s.serviceAccountName),
     ("termination_grace_period_seconds",
       Block.ofInt? (s.terminationGracePeriodSeconds.map Int64.toInt))]

end Reconcile
