import Mathlib.Data.List.Basic
import Reconcile.Pod.Object
import Reconcile.Proofs.Wire.Fields

/-!
# Pods on the wire

The specification of a pod is read from its wire form, down to the ports and the variables of its
containers.
-/

namespace Reconcile

/-- What the wire form of a port holds under a key. -/
theorem ContainerPort.lookup_toJson (p : ContainerPort) (k : String) :
    ((p.toJson.obj?).getD []).lookup k =
      (List.lookup k
        [("containerPort", Wire.int32 (some p.containerPort)),
         ("hostPort", Wire.int32 p.hostPort),
         ("name", Wire.text p.name),
         ("protocol", Wire.text p.protocol)]).join :=
  Block.lookup_ofFields (by simp) k

theorem ContainerPort.ofJson?_toJson (p : ContainerPort) : ofJson? p.toJson = some p := by
  have hcontainerPort : Wire.fieldD Json.int32? 0 _ "containerPort" = some p.containerPort :=
    Wire.fieldD_of_field? (Wire.field?_int32 (p.lookup_toJson "containerPort"))
  have hname := Wire.field?_text (p.lookup_toJson "name")
  have hprotocol := Wire.field?_text (p.lookup_toJson "protocol")
  have hhostPort := Wire.field?_int32 (p.lookup_toJson "hostPort")
  show (do let fields ← some ((p.toJson.obj?).getD []); _) = _
  simp only [Wire.some_bind, hcontainerPort, hname, hprotocol, hhostPort]

/-- What the wire form of a variable holds under a key. -/
theorem EnvVar.lookup_toJson (e : EnvVar) (k : String) :
    ((e.toJson.obj?).getD []).lookup k =
      (List.lookup k
        [("name", Wire.text (some e.name)), ("value", Wire.text e.value)]).join :=
  Block.lookup_ofFields (by simp) k

theorem EnvVar.ofJson?_toJson (e : EnvVar) : ofJson? e.toJson = some e := by
  have hname : Wire.fieldD Json.str? "" _ "name" = some e.name :=
    Wire.fieldD_of_field? (Wire.field?_text (e.lookup_toJson "name"))
  have hvalue := Wire.field?_text (e.lookup_toJson "value")
  show (do let fields ← some ((e.toJson.obj?).getD []); _) = _
  simp only [Wire.some_bind, hname, hvalue]

/-- What the wire form of a container holds under a key. -/
theorem Container.lookup_toJson (c : Container) (k : String) :
    ((c.toJson.obj?).getD []).lookup k =
      (List.lookup k
        [("args", Wire.textList c.args),
         ("command", Wire.textList c.command),
         ("env", c.env.map (Wire.array EnvVar.toJson)),
         ("image", Wire.text c.image),
         ("imagePullPolicy", Wire.text c.imagePullPolicy),
         ("name", Wire.text (some c.name)),
         ("ports", c.ports.map (Wire.array ContainerPort.toJson)),
         ("workingDir", Wire.text c.workingDir)]).join :=
  Block.lookup_ofFields (by simp) k

theorem Container.ofJson?_toJson (c : Container) : ofJson? c.toJson = some c := by
  have hname : Wire.fieldD Json.str? "" _ "name" = some c.name :=
    Wire.fieldD_of_field? (Wire.field?_text (c.lookup_toJson "name"))
  have himage := Wire.field?_text (c.lookup_toJson "image")
  have hcommand := Wire.field?_textList (c.lookup_toJson "command")
  have hargs := Wire.field?_textList (c.lookup_toJson "args")
  have hworkingDir := Wire.field?_text (c.lookup_toJson "workingDir")
  have himagePullPolicy := Wire.field?_text (c.lookup_toJson "imagePullPolicy")
  have hports := Wire.field?_list (c.lookup_toJson "ports") ContainerPort.ofJson?_toJson
  have henv := Wire.field?_list (c.lookup_toJson "env") EnvVar.ofJson?_toJson
  show (do let fields ← some ((c.toJson.obj?).getD []); _) = _
  simp only [Wire.some_bind, hname, himage, hcommand, hargs, hworkingDir,
    himagePullPolicy, hports, henv]

/-- What the wire form of a pod's specification holds under a key. -/
theorem PodSpec.lookup_toJson (s : PodSpec) (k : String) :
    ((s.toJson.obj?).getD []).lookup k =
      (List.lookup k
        [("activeDeadlineSeconds", Wire.int64 s.activeDeadlineSeconds),
         ("containers", some (Wire.array Container.toJson s.containers)),
         ("dnsPolicy", Wire.text s.dnsPolicy),
         ("hostIPC", Wire.bool s.hostIPC),
         ("hostNetwork", Wire.bool s.hostNetwork),
         ("hostPID", Wire.bool s.hostPID),
         ("hostname", Wire.text s.hostname),
         ("initContainers", s.initContainers.map (Wire.array Container.toJson)),
         ("nodeName", Wire.text s.nodeName),
         ("nodeSelector", Wire.texts s.nodeSelector),
         ("restartPolicy", Wire.text s.restartPolicy),
         ("serviceAccountName", Wire.text s.serviceAccountName),
         ("terminationGracePeriodSeconds",
           Wire.int64 s.terminationGracePeriodSeconds)]).join :=
  Block.lookup_ofFields (by simp) k

/-- The specification of a pod is read from its wire form. -/
theorem PodSpec.ofJson?_toJson (s : PodSpec) : ofJson? s.toJson = some s := by
  have hactive := Wire.field?_int64 (s.lookup_toJson "activeDeadlineSeconds")
  have hlookup : ((s.toJson.obj?).getD []).lookup "containers" =
      (some s.containers).map (Wire.array Container.toJson) := s.lookup_toJson "containers"
  have hcontainers : Wire.fieldD (Wire.list? Container.ofJson?) [] _ "containers" =
      some s.containers :=
    Wire.fieldD_of_field? (Wire.field?_list hlookup Container.ofJson?_toJson)
  have hinitContainers := Wire.field?_list (s.lookup_toJson "initContainers")
    Container.ofJson?_toJson
  have hdnsPolicy := Wire.field?_text (s.lookup_toJson "dnsPolicy")
  have hhostIPC := Wire.field?_bool (s.lookup_toJson "hostIPC")
  have hhostNetwork := Wire.field?_bool (s.lookup_toJson "hostNetwork")
  have hhostPID := Wire.field?_bool (s.lookup_toJson "hostPID")
  have hhostname := Wire.field?_text (s.lookup_toJson "hostname")
  have hnodeName := Wire.field?_text (s.lookup_toJson "nodeName")
  have hnodeSelector := Wire.field?_texts (s.lookup_toJson "nodeSelector")
  have hrestartPolicy := Wire.field?_text (s.lookup_toJson "restartPolicy")
  have hserviceAccountName := Wire.field?_text (s.lookup_toJson "serviceAccountName")
  have htermination := Wire.field?_int64 (s.lookup_toJson "terminationGracePeriodSeconds")
  show (do let fields ← some ((s.toJson.obj?).getD []); _) = _
  simp only [Wire.some_bind, hactive, hcontainers, hinitContainers,
    hdnsPolicy, hhostIPC, hhostNetwork, hhostPID, hhostname, hnodeName, hnodeSelector,
    hrestartPolicy, hserviceAccountName, htermination]

end Reconcile
