import Mathlib.Data.List.Basic
import Reconcile.Pod.Declaration
import Reconcile.Proofs.Block.Readers
import Reconcile.Proofs.Metadata.Wire
import Reconcile.Proofs.Schema.Fitting

/-!
# Declared pods

What a block declares has no empty texts, lists or maps: where the block has one, the object has
nothing. `Declared` says so of each part of a pod. A declared part is declared again by the block
that shows it (`expand_flatten`), and that block is accepted by the schema (`flatten_accepts`).
-/

namespace Reconcile

namespace ContainerPort

/-- A block declares a port if its numbers fit and the one in the container is there. -/
theorem expand_eq_ok {path : String} {block : Block} {p : ContainerPort} :
    expand path block = .ok p ↔ ∃ number containerPort hostPort,
      Declaration.requiredInt block "container_port" path = .ok number ∧
      Declaration.int32 number path = .ok containerPort ∧
      Declaration.int32? block "host_port" path = .ok hostPort ∧
      p = {
        containerPort := containerPort
        name := Block.text? block "name"
        protocol := Block.text? block "protocol"
        hostPort := hostPort } := by
  simp only [expand, Steps.bind_eq_ok_iff, Steps.pure_eq_ok, Except.ok.injEq]
  constructor
  · rintro ⟨number, hnumber, containerPort, hfits, hostPort, hhostPort, rfl⟩
    exact ⟨number, containerPort, hostPort, hnumber, hfits, hhostPort, rfl⟩
  · rintro ⟨number, containerPort, hostPort, hnumber, hfits, hhostPort, rfl⟩
    exact ⟨number, hnumber, containerPort, hfits, hostPort, hhostPort, rfl⟩

/-- A port without empty texts. -/
structure Declared (p : ContainerPort) : Prop where
  name : p.name ≠ some ""
  protocol : p.protocol ≠ some ""

theorem declared_of_expand {path : String} {block : Block} {p : ContainerPort}
    (h : expand path block = .ok p) : p.Declared := by
  obtain ⟨_, _, _, _, _, _, rfl⟩ := expand_eq_ok.1 h
  exact ⟨Block.text?_ne _ _, Block.text?_ne _ _⟩

/-- What the block of a port holds under a key. -/
theorem lookup_flatten (p : ContainerPort) (k : String) : p.flatten.lookup k =
    (List.lookup k
      [("container_port", Block.ofInt? (some p.containerPort.toInt)),
       ("name", Block.ofText? p.name),
       ("protocol", Block.ofText? p.protocol),
       ("host_port", Block.ofInt? (p.hostPort.map Int32.toInt))]).join :=
  Block.lookup_ofFields (by simp) k

/-- A declared port is declared by the block that shows it. -/
theorem expand_flatten {p : ContainerPort} (h : p.Declared) (path : String) :
    expand path p.flatten = .ok p := by
  have hnumber : Declaration.requiredInt p.flatten "container_port" path =
      .ok (Int64.ofInt p.containerPort.toInt) := by
    rw [Declaration.requiredInt, Declaration.int?_of_int32 (p.lookup_flatten "container_port")]
  have hname := Block.text?_of_lookup (p.lookup_flatten "name") h.name
  have hprotocol := Block.text?_of_lookup (p.lookup_flatten "protocol") h.protocol
  have hhostPort := Declaration.int32?_of_lookup (p.lookup_flatten "host_port") path
  simp only [expand, hnumber, hname, hprotocol, hhostPort, Declaration.int32_toInt, Steps.bind_ok,
    Steps.pure_eq_ok]

/-- The block of a port is accepted. -/
theorem flatten_accepts (p : ContainerPort) : schema.Accepts p.flatten := by
  refine Schema.accepts_ofFields (by decide) (by simp) ?_
  simp only [List.forall_mem_cons]
  exact ⟨Schema.fits_int32 rfl (some p.containerPort), Schema.fits_text rfl _,
    Schema.fits_text rfl _, Schema.fits_int32 rfl _, List.forall_mem_nil _⟩

end ContainerPort

namespace EnvVar

/-- A block declares a variable if it has a name. -/
theorem expand_eq_ok {path : String} {block : Block} {e : EnvVar} :
    expand path block = .ok e ↔ ∃ name, Declaration.requiredText block "name" path = .ok name ∧
      e = { name := name, value := Block.text? block "value" } := by
  simp only [expand, Steps.bind_eq_ok_iff, Steps.pure_eq_ok, Except.ok.injEq]
  constructor
  · rintro ⟨name, hname, rfl⟩
    exact ⟨name, hname, rfl⟩
  · rintro ⟨name, hname, rfl⟩
    exact ⟨name, hname, rfl⟩

/-- A variable without empty texts. -/
structure Declared (e : EnvVar) : Prop where
  name : e.name ≠ ""
  value : e.value ≠ some ""

theorem declared_of_expand {path : String} {block : Block} {e : EnvVar}
    (h : expand path block = .ok e) : e.Declared := by
  obtain ⟨name, hname, rfl⟩ := expand_eq_ok.1 h
  exact ⟨Declaration.requiredText_ne hname, Block.text?_ne _ _⟩

/-- What the block of a variable holds under a key. -/
theorem lookup_flatten (e : EnvVar) (k : String) : e.flatten.lookup k =
    (List.lookup k
      [("name", Block.ofText? (some e.name)), ("value", Block.ofText? e.value)]).join :=
  Block.lookup_ofFields (by simp) k

/-- A declared variable is declared by the block that shows it. -/
theorem expand_flatten {e : EnvVar} (h : e.Declared) (path : String) :
    expand path e.flatten = .ok e := by
  have hname := Declaration.requiredText_of_lookup (e.lookup_flatten "name") h.name path
  have hvalue := Block.text?_of_lookup (e.lookup_flatten "value") h.value
  simp only [expand, hname, hvalue, Steps.bind_ok, Steps.pure_eq_ok]

/-- The block of a variable is accepted. -/
theorem flatten_accepts (e : EnvVar) : schema.Accepts e.flatten := by
  refine Schema.accepts_ofFields (by decide) (by simp) ?_
  simp only [List.forall_mem_cons]
  exact ⟨Schema.fits_text rfl _, Schema.fits_text rfl _, List.forall_mem_nil _⟩

end EnvVar

namespace Container

/-- A block declares a container if it has a name and its ports and variables are well formed. -/
theorem expand_eq_ok {path : String} {block : Block} {c : Container} :
    expand path block = .ok c ↔ ∃ name ports env,
      Declaration.requiredText block "name" path = .ok name ∧
      Declaration.children block "port" (path ++ ".port") ContainerPort.expand = .ok ports ∧
      Declaration.children block "env" (path ++ ".env") EnvVar.expand = .ok env ∧
      c = {
        name := name
        image := Block.text? block "image"
        command := Declaration.nonEmpty? (Block.textList block "command")
        args := Declaration.nonEmpty? (Block.textList block "args")
        workingDir := Block.text? block "working_dir"
        imagePullPolicy := Block.text? block "image_pull_policy"
        ports := Declaration.nonEmpty? ports
        env := Declaration.nonEmpty? env } := by
  simp only [expand, Steps.bind_eq_ok_iff, Steps.pure_eq_ok, Except.ok.injEq]
  constructor
  · rintro ⟨name, hname, ports, hports, env, henv, rfl⟩
    exact ⟨name, ports, env, hname, hports, henv, rfl⟩
  · rintro ⟨name, ports, env, hname, hports, henv, rfl⟩
    exact ⟨name, hname, ports, hports, env, henv, rfl⟩

/-- A container without empty texts, lists and maps. -/
structure Declared (c : Container) : Prop where
  name : c.name ≠ ""
  image : c.image ≠ some ""
  command : c.command ≠ some []
  args : c.args ≠ some []
  workingDir : c.workingDir ≠ some ""
  imagePullPolicy : c.imagePullPolicy ≠ some ""
  ports : c.ports ≠ some []
  env : c.env ≠ some []
  declaredPorts : ∀ p ∈ c.ports.getD [], p.Declared
  declaredEnv : ∀ e ∈ c.env.getD [], e.Declared

theorem declared_of_expand {path : String} {block : Block} {c : Container}
    (h : expand path block = .ok c) : c.Declared := by
  obtain ⟨name, ports, env, hname, hports, henv, rfl⟩ := expand_eq_ok.1 h
  refine ⟨Declaration.requiredText_ne hname, Block.text?_ne _ _, Declaration.nonEmpty?_ne _,
    Declaration.nonEmpty?_ne _, Block.text?_ne _ _, Block.text?_ne _ _,
    Declaration.nonEmpty?_ne _, Declaration.nonEmpty?_ne _, fun p hp => ?_, fun e he => ?_⟩
  · rw [Declaration.getD_nonEmpty?] at hp
    obtain ⟨_, _, _, hexpand⟩ := Declaration.exists_of_mem_children hports hp
    exact ContainerPort.declared_of_expand hexpand
  · rw [Declaration.getD_nonEmpty?] at he
    obtain ⟨_, _, _, hexpand⟩ := Declaration.exists_of_mem_children henv he
    exact EnvVar.declared_of_expand hexpand

/-- What the block of a container holds under a key. -/
theorem lookup_flatten (c : Container) (k : String) : c.flatten.lookup k =
    (List.lookup k
      [("name", Block.ofText? (some c.name)),
       ("image", Block.ofText? c.image),
       ("command", Block.ofTextList? (c.command.getD [])),
       ("args", Block.ofTextList? (c.args.getD [])),
       ("working_dir", Block.ofText? c.workingDir),
       ("image_pull_policy", Block.ofText? c.imagePullPolicy),
       ("port", Block.ofChildren? ((c.ports.getD []).map ContainerPort.flatten)),
       ("env", Block.ofChildren? ((c.env.getD []).map EnvVar.flatten))]).join :=
  Block.lookup_ofFields (by simp) k

/-- A declared container is declared by the block that shows it. -/
theorem expand_flatten {c : Container} (h : c.Declared) (path : String) :
    expand path c.flatten = .ok c := by
  have hname := Declaration.requiredText_of_lookup (c.lookup_flatten "name") h.name path
  have himage := Block.text?_of_lookup (c.lookup_flatten "image") h.image
  have hcommand := Block.textList_of_lookup (c.lookup_flatten "command")
  have hargs := Block.textList_of_lookup (c.lookup_flatten "args")
  have hworkingDir := Block.text?_of_lookup (c.lookup_flatten "working_dir") h.workingDir
  have hpolicy := Block.text?_of_lookup (c.lookup_flatten "image_pull_policy") h.imagePullPolicy
  have hports := Declaration.children_of_lookup (c.lookup_flatten "port")
    (fun p hp => ContainerPort.expand_flatten (h.declaredPorts p hp)) (path ++ ".port")
  have henv := Declaration.children_of_lookup (c.lookup_flatten "env")
    (fun e he => EnvVar.expand_flatten (h.declaredEnv e he)) (path ++ ".env")
  simp only [expand, hname, himage, hcommand, hargs, hworkingDir, hpolicy, hports, henv,
    Declaration.nonEmpty?_getD h.command, Declaration.nonEmpty?_getD h.args,
    Declaration.nonEmpty?_getD h.ports, Declaration.nonEmpty?_getD h.env, Steps.bind_ok,
    Steps.pure_eq_ok]

/-- The block of a container is accepted. -/
theorem flatten_accepts (c : Container) : schema.Accepts c.flatten := by
  refine Schema.accepts_ofFields (by decide) (by simp) ?_
  have hports : ∀ b ∈ (c.ports.getD []).map ContainerPort.flatten,
      ContainerPort.schema.Accepts b := by
    intro b hb
    obtain ⟨p, _, rfl⟩ := List.mem_map.1 hb
    exact p.flatten_accepts
  have henv : ∀ b ∈ (c.env.getD []).map EnvVar.flatten, EnvVar.schema.Accepts b := by
    intro b hb
    obtain ⟨e, _, rfl⟩ := List.mem_map.1 hb
    exact e.flatten_accepts
  simp only [List.forall_mem_cons]
  exact ⟨Schema.fits_text rfl _, Schema.fits_text rfl _, Schema.fits_textList rfl _,
    Schema.fits_textList rfl _, Schema.fits_text rfl _, Schema.fits_text rfl _,
    Schema.fits_children rfl hports, Schema.fits_children rfl henv, List.forall_mem_nil _⟩

end Container

namespace PodSpec

/-- A block declares the specification of a pod if its containers are well formed. -/
theorem expand_eq_ok {block : Block} {s : PodSpec} :
    expand block = .ok s ↔ ∃ containers initContainers,
      Declaration.children block "container" "container" Container.expand = .ok containers ∧
      Declaration.children block "init_container" "init_container" Container.expand =
        .ok initContainers ∧
      s = {
        activeDeadlineSeconds := Block.int? block "active_deadline_seconds"
        containers := containers
        initContainers := Declaration.nonEmpty? initContainers
        dnsPolicy := Block.text? block "dns_policy"
        hostIPC := some ((Block.bool? block "host_ipc").getD false)
        hostNetwork := some ((Block.bool? block "host_network").getD false)
        hostPID := some ((Block.bool? block "host_pid").getD false)
        hostname := Block.text? block "hostname"
        nodeName := Block.text? block "node_name"
        nodeSelector := ObjectMeta.nonEmpty? (Block.texts block "node_selector")
        restartPolicy := Block.text? block "restart_policy"
        serviceAccountName := Block.text? block "service_account_name"
        terminationGracePeriodSeconds :=
          Block.int? block "termination_grace_period_seconds" } := by
  simp only [expand, Steps.bind_eq_ok_iff, Steps.pure_eq_ok, Except.ok.injEq]
  constructor
  · rintro ⟨containers, hcontainers, initContainers, hinit, rfl⟩
    exact ⟨containers, initContainers, hcontainers, hinit, rfl⟩
  · rintro ⟨containers, initContainers, hcontainers, hinit, rfl⟩
    exact ⟨containers, hcontainers, initContainers, hinit, rfl⟩

/-- The specification of a pod without empty texts, lists and maps, and with all its switches. -/
structure Declared (s : PodSpec) : Prop where
  containers : ∀ c ∈ s.containers, c.Declared
  initContainers : s.initContainers ≠ some []
  declaredInitContainers : ∀ c ∈ s.initContainers.getD [], c.Declared
  dnsPolicy : s.dnsPolicy ≠ some ""
  hostIPC : s.hostIPC.isSome
  hostNetwork : s.hostNetwork.isSome
  hostPID : s.hostPID.isSome
  hostname : s.hostname ≠ some ""
  nodeName : s.nodeName ≠ some ""
  nodeSelector : s.nodeSelector ≠ some Dict.empty
  restartPolicy : s.restartPolicy ≠ some ""
  serviceAccountName : s.serviceAccountName ≠ some ""

theorem declared_of_expand {block : Block} {s : PodSpec} (h : expand block = .ok s) :
    s.Declared := by
  obtain ⟨containers, initContainers, hcontainers, hinit, rfl⟩ := expand_eq_ok.1 h
  refine ⟨fun c hc => ?_, Declaration.nonEmpty?_ne _, fun c hc => ?_, Block.text?_ne _ _, rfl, rfl,
    rfl, Block.text?_ne _ _, Block.text?_ne _ _, ObjectMeta.nonEmpty?_ne _, Block.text?_ne _ _,
    Block.text?_ne _ _⟩
  · obtain ⟨_, _, _, hexpand⟩ := Declaration.exists_of_mem_children hcontainers hc
    exact Container.declared_of_expand hexpand
  · rw [Declaration.getD_nonEmpty?] at hc
    obtain ⟨_, _, _, hexpand⟩ := Declaration.exists_of_mem_children hinit hc
    exact Container.declared_of_expand hexpand

/-- What the block of a pod's specification holds under a key. -/
theorem lookup_flatten (s : PodSpec) (k : String) : s.flatten.lookup k =
    (List.lookup k
      [("active_deadline_seconds", Block.ofInt? (s.activeDeadlineSeconds.map Int64.toInt)),
       ("container", Block.ofChildren? (s.containers.map Container.flatten)),
       ("init_container",
         Block.ofChildren? ((s.initContainers.getD []).map Container.flatten)),
       ("dns_policy", Block.ofText? s.dnsPolicy),
       ("host_ipc", Block.ofBool? (some (s.hostIPC.getD false))),
       ("host_network", Block.ofBool? (some (s.hostNetwork.getD false))),
       ("host_pid", Block.ofBool? (some (s.hostPID.getD false))),
       ("hostname", Block.ofText? s.hostname),
       ("node_name", Block.ofText? s.nodeName),
       ("node_selector", Block.ofTexts? (s.nodeSelector.getD Dict.empty)),
       ("restart_policy", Block.ofText? s.restartPolicy),
       ("service_account_name", Block.ofText? s.serviceAccountName),
       ("termination_grace_period_seconds",
         Block.ofInt? (s.terminationGracePeriodSeconds.map Int64.toInt))]).join :=
  Block.lookup_ofFields (by simp) k

/-- The declared specification of a pod is declared by the block that shows it. -/
theorem expand_flatten {s : PodSpec} (h : s.Declared) : expand s.flatten = .ok s := by
  have hactive := Block.int?_of_lookup (s.lookup_flatten "active_deadline_seconds")
  have hcontainers := Declaration.children_of_lookup (s.lookup_flatten "container")
    (fun c hc => Container.expand_flatten (h.containers c hc)) "container"
  have hinit := Declaration.children_of_lookup (s.lookup_flatten "init_container")
    (fun c hc => Container.expand_flatten (h.declaredInitContainers c hc)) "init_container"
  have hdnsPolicy := Block.text?_of_lookup (s.lookup_flatten "dns_policy") h.dnsPolicy
  have hhostIPC : Block.bool? s.flatten "host_ipc" = some (s.hostIPC.getD false) :=
    Block.bool?_of_lookup (s.lookup_flatten "host_ipc")
  have hhostNetwork : Block.bool? s.flatten "host_network" = some (s.hostNetwork.getD false) :=
    Block.bool?_of_lookup (s.lookup_flatten "host_network")
  have hhostPID : Block.bool? s.flatten "host_pid" = some (s.hostPID.getD false) :=
    Block.bool?_of_lookup (s.lookup_flatten "host_pid")
  have hhostname := Block.text?_of_lookup (s.lookup_flatten "hostname") h.hostname
  have hnodeName := Block.text?_of_lookup (s.lookup_flatten "node_name") h.nodeName
  have hnodeSelector := Block.texts_of_lookup (s.lookup_flatten "node_selector")
  have hrestartPolicy := Block.text?_of_lookup (s.lookup_flatten "restart_policy") h.restartPolicy
  have haccount := Block.text?_of_lookup (s.lookup_flatten "service_account_name")
    h.serviceAccountName
  have htermination :=
    Block.int?_of_lookup (s.lookup_flatten "termination_grace_period_seconds")
  have hselector : ObjectMeta.nonEmpty? (s.nodeSelector.getD Dict.empty) = s.nodeSelector :=
    ObjectMeta.nonEmpty?_of_getD h.nodeSelector
  rw [ObjectMeta.nonEmpty?] at hselector
  have hswitch : ∀ {value : Option Bool}, value.isSome → some (value.getD false) = value := by
    intro value hsome
    obtain ⟨b, rfl⟩ := Option.isSome_iff_exists.1 hsome
    rfl
  simp only [expand, hactive, hcontainers, hinit, hdnsPolicy, hhostIPC, hhostNetwork, hhostPID,
    hhostname, hnodeName, hnodeSelector, hselector, hrestartPolicy, haccount, htermination,
    Declaration.nonEmpty?_getD h.initContainers, hswitch h.hostIPC,
    hswitch h.hostNetwork, hswitch h.hostPID, Steps.bind_ok, Steps.pure_eq_ok]

/-- The block of a pod's specification is accepted. -/
theorem flatten_accepts (s : PodSpec) : schema.Accepts s.flatten := by
  refine Schema.accepts_ofFields (by decide) (by simp) ?_
  have hcontainers : ∀ (cs : List Container), ∀ b ∈ cs.map Container.flatten,
      Container.schema.Accepts b := by
    intro cs b hb
    obtain ⟨c, _, rfl⟩ := List.mem_map.1 hb
    exact c.flatten_accepts
  simp only [List.forall_mem_cons]
  exact ⟨Schema.fits_int64 rfl _, Schema.fits_children rfl (hcontainers _),
    Schema.fits_children rfl (hcontainers _), Schema.fits_text rfl _, Schema.fits_bool rfl _,
    Schema.fits_bool rfl _, Schema.fits_bool rfl _, Schema.fits_text rfl _,
    Schema.fits_text rfl _, Schema.fits_texts rfl _, Schema.fits_text rfl _,
    Schema.fits_text rfl _, Schema.fits_int64 rfl _, List.forall_mem_nil _⟩

end PodSpec

end Reconcile
