import Mathlib.Data.List.Basic
import Reconcile.Proofs.Block.Carried
import Reconcile.Proofs.Pod.Declaration
import Reconcile.Proofs.Pod.Wire

/-!
# Pods that reach the wire

What a block declares carries what the block holds exactly if the block is typed, for each part of a
pod.
-/

namespace Reconcile

open Schema (Written carriesField_member carriesField_repeated resolve?_place)

variable {block : Block} {path : String}

/-- What is set in the block of a port reaches the wire exactly if it is typed. -/
theorem ContainerPort.carries_expand {p : ContainerPort} (hexpand : expand path block = .ok p) :
    schema.carries block p.toJson = schema.typed block := by
  have hlookup := p.lookup_toJson
  obtain ⟨number, containerPort, hostPort, hnumber, hfits, hhostPort, rfl⟩ := expand_eq_ok.1 hexpand
  refine Schema.carries_eq_typed ?_
  simp only [schema, List.forall_mem_cons]
  exact ⟨carriesField_member rfl rfl (by decide) (hlookup "containerPort")
      (Written.requiredInt hnumber hfits),
    carriesField_member rfl rfl (by decide) (hlookup "name") (Written.text block "name"),
    carriesField_member rfl rfl (by decide) (hlookup "protocol") (Written.text block "protocol"),
    carriesField_member rfl rfl (by decide) (hlookup "hostPort") (Written.int32? hhostPort),
    List.forall_mem_nil _⟩

/-- What is set in the block of a variable reaches the wire exactly if it is typed. -/
theorem EnvVar.carries_expand {e : EnvVar} (hexpand : expand path block = .ok e) :
    schema.carries block e.toJson = schema.typed block := by
  have hlookup := e.lookup_toJson
  obtain ⟨name, hname, rfl⟩ := expand_eq_ok.1 hexpand
  refine Schema.carries_eq_typed ?_
  simp only [schema, List.forall_mem_cons]
  exact ⟨carriesField_member rfl rfl (by decide) (hlookup "name") (Written.requiredText hname),
    carriesField_member rfl rfl (by decide) (hlookup "value") (Written.text block "value"),
    List.forall_mem_nil _⟩

/-- What is set in the block of a container reaches the wire exactly if it is typed. -/
theorem Container.carries_expand {c : Container} (hexpand : expand path block = .ok c) :
    schema.carries block c.toJson = schema.typed block := by
  have hlookup := c.lookup_toJson
  obtain ⟨name, ports, env, hname, hports, henv, rfl⟩ := expand_eq_ok.1 hexpand
  refine Schema.carries_eq_typed ?_
  simp only [schema, List.forall_mem_cons]
  exact ⟨carriesField_member rfl rfl (by decide) (hlookup "name") (Written.requiredText hname),
    carriesField_member rfl rfl (by decide) (hlookup "image") (Written.text block "image"),
    carriesField_member rfl rfl (by decide) (hlookup "command") (Written.textList (.inr rfl)),
    carriesField_member rfl rfl (by decide) (hlookup "args") (Written.textList (.inr rfl)),
    carriesField_member rfl rfl (by decide) (hlookup "workingDir")
      (Written.text block "working_dir"),
    carriesField_member rfl rfl (by decide) (hlookup "imagePullPolicy")
      (Written.text block "image_pull_policy"),
    carriesField_repeated rfl (resolve?_place (by decide) (hlookup "ports")) hports
      (Declaration.map_nonEmpty? _) fun _ _ _ => ContainerPort.carries_expand,
    carriesField_repeated rfl (resolve?_place (by decide) (hlookup "env")) henv
      (Declaration.map_nonEmpty? _) fun _ _ _ => EnvVar.carries_expand,
    List.forall_mem_nil _⟩

/-- The specification of a pod that a block declares carries what the block holds exactly if the
block is typed. -/
theorem PodSpec.carries_expand {s : PodSpec} (hexpand : expand block = .ok s) :
    schema.carries block s.toJson = schema.typed block := by
  have hlookup := s.lookup_toJson
  obtain ⟨containers, initContainers, hcontainers, hinit, rfl⟩ := expand_eq_ok.1 hexpand
  refine Schema.carries_eq_typed ?_
  simp only [schema, List.forall_mem_cons]
  exact ⟨carriesField_member rfl rfl (by decide) (hlookup "activeDeadlineSeconds")
      (Written.int64 block "active_deadline_seconds"),
    carriesField_repeated rfl (resolve?_place (by decide) (hlookup "containers")) hcontainers
      (fun _ => rfl) fun _ _ _ => Container.carries_expand,
    carriesField_repeated rfl (resolve?_place (by decide) (hlookup "initContainers")) hinit
      (Declaration.map_nonEmpty? _) fun _ _ _ => Container.carries_expand,
    carriesField_member rfl rfl (by decide) (hlookup "dnsPolicy") (Written.text block "dns_policy"),
    carriesField_member rfl rfl (by decide) (hlookup "hostIPC")
      (Written.bool block "host_ipc" false),
    carriesField_member rfl rfl (by decide) (hlookup "hostNetwork")
      (Written.bool block "host_network" false),
    carriesField_member rfl rfl (by decide) (hlookup "hostPID")
      (Written.bool block "host_pid" false),
    carriesField_member rfl rfl (by decide) (hlookup "hostname") (Written.text block "hostname"),
    carriesField_member rfl rfl (by decide) (hlookup "nodeName") (Written.text block "node_name"),
    carriesField_member rfl rfl (by decide) (hlookup "nodeSelector")
      (Written.texts block "node_selector"),
    carriesField_member rfl rfl (by decide) (hlookup "restartPolicy")
      (Written.text block "restart_policy"),
    carriesField_member rfl rfl (by decide) (hlookup "serviceAccountName")
      (Written.text block "service_account_name"),
    carriesField_member rfl rfl (by decide) (hlookup "terminationGracePeriodSeconds")
      (Written.int64 block "termination_grace_period_seconds"),
    List.forall_mem_nil _⟩

end Reconcile
