import Mathlib.Data.List.Basic
import Reconcile.Proofs.Metadata.Declaration
import Reconcile.Proofs.Pod.Declaration
import Reconcile.Proofs.Schema.Repeated

/-!
# Metadata and pods that are asked for again

Where the block that declares a part leaves a gap, the block that shows the part has one too
(`gaps_flatten`), but for what has a default. So asking for the part again fills its gaps as from
nothing (`fill_flatten`).
-/

namespace Reconcile

variable {numbers : Json → Bool} {block filled : Block} {path : String}

/-! ## Metadata -/

/-- What is carried over and was not declared is not shown of metadata either. -/
theorem ObjectMeta.gaps_flatten (filled : Block) (prior : Option Block) :
    ∀ key ∈ schema.carried, filled.lookup key = none →
      ((expand filled).flatten prior).lookup key = none := by
  show ∀ key ∈ ["name", "namespace", "generation", "resource_version", "self_link", "uid"], _
  simp only [List.forall_mem_cons, lookup_flatten]
  -- The server has assigned nothing to what is only declared.
  exact ⟨Block.ofText?_text?_of_none, Block.ofText?_text?_of_none, fun _ => rfl, fun _ => rfl,
    fun _ => rfl, fun _ => rfl, List.forall_mem_nil _⟩

/-- Metadata that are asked for again are filled as from nothing. -/
theorem ObjectMeta.fill_flatten (h : schema.Tolerates numbers block) (prior : Option Block) :
    schema.fill (some ((expand (schema.fill none block)).flatten prior)) block =
      schema.fill none block :=
  Schema.fill_shown (by decide) (by decide) h (gaps_flatten _ prior) (List.forall_mem_nil _)

/-! ## Ports -/

/-- A protocol that was not declared is not shown of a port either. -/
theorem ContainerPort.gaps_flatten {p : ContainerPort} (hexpand : expand path filled = .ok p) :
    ∀ key ∈ schema.carried, filled.lookup key = none → p.flatten.lookup key = none := by
  obtain ⟨_, _, _, _, _, _, rfl⟩ := expand_eq_ok.1 hexpand
  show ∀ key ∈ ["protocol"], _
  simp only [List.forall_mem_cons, lookup_flatten]
  exact ⟨Block.ofText?_text?_of_none, List.forall_mem_nil _⟩

/-- A port that is asked for again is filled as from nothing. -/
theorem ContainerPort.fill_flatten {p : ContainerPort} (h : schema.Tolerates numbers block)
    (hexpand : expand path (schema.fill none block) = .ok p) :
    schema.fill (some p.flatten) block = schema.fill none block :=
  Schema.fill_shown (by decide) (by decide) h (gaps_flatten hexpand) (List.forall_mem_nil _)

/-! ## Containers -/

/-- A pull policy that was not declared is not shown of a container either. -/
theorem Container.gaps_flatten {c : Container} (hexpand : expand path filled = .ok c) :
    ∀ key ∈ schema.carried, filled.lookup key = none → c.flatten.lookup key = none := by
  obtain ⟨_, _, _, _, _, _, rfl⟩ := expand_eq_ok.1 hexpand
  show ∀ key ∈ ["image_pull_policy"], _
  simp only [List.forall_mem_cons, lookup_flatten]
  exact ⟨Block.ofText?_text?_of_none, List.forall_mem_nil _⟩

/-- The ports of a container are those that the elements of its block declare. -/
theorem Container.children_port {c : Container} (hexpand : expand path filled = .ok c) :
    Declaration.children filled "port" (path ++ ".port") ContainerPort.expand =
      .ok (c.ports.getD []) := by
  obtain ⟨name, ports, env, _, hports, _, rfl⟩ := expand_eq_ok.1 hexpand
  rw [hports, Declaration.getD_nonEmpty? ports]

/-- A container that is asked for again is filled as from nothing. -/
theorem Container.fill_flatten {c : Container} (h : schema.Tolerates numbers block)
    (hexpand : expand path (schema.fill none block) = .ok c) :
    schema.fill (some c.flatten) block = schema.fill none block := by
  refine Schema.fill_shown (by decide) (by decide) h (gaps_flatten hexpand) ?_
  show ∀ e ∈ [("port", ContainerPort.schema), ("env", EnvVar.schema)], _
  simp only [List.forall_mem_cons]
  exact ⟨Schema.settled_children (by decide) h rfl (children_port hexpand)
      (c.lookup_flatten "port") fun _ _ _ => ContainerPort.fill_flatten,
    Schema.settled_of_carried_eq_nil h rfl (by decide) (by decide) _, List.forall_mem_nil _⟩

/-! ## Specifications -/

/-- What is carried over and was not declared is not shown of a pod either. -/
theorem PodSpec.gaps_flatten {s : PodSpec} (hexpand : expand filled = .ok s) :
    ∀ key ∈ schema.carried, filled.lookup key = none → s.flatten.lookup key = none := by
  obtain ⟨_, _, _, _, rfl⟩ := expand_eq_ok.1 hexpand
  show ∀ key ∈ ["dns_policy", "restart_policy", "service_account_name",
    "termination_grace_period_seconds"], _
  simp only [List.forall_mem_cons, lookup_flatten]
  exact ⟨Block.ofText?_text?_of_none, Block.ofText?_text?_of_none, Block.ofText?_text?_of_none,
    Block.ofInt?_int?_of_none, List.forall_mem_nil _⟩

/-- The containers of a pod are those that the elements of its block declare. -/
theorem PodSpec.children_containers {s : PodSpec} (hexpand : expand filled = .ok s) :
    Declaration.children filled "container" "container" Container.expand = .ok s.containers ∧
      Declaration.children filled "init_container" "init_container" Container.expand =
        .ok (s.initContainers.getD []) := by
  obtain ⟨containers, initContainers, hcontainers, hinit, rfl⟩ := expand_eq_ok.1 hexpand
  refine ⟨hcontainers, ?_⟩
  rw [hinit, Declaration.getD_nonEmpty? initContainers]

/-- A pod that is asked for again is filled as from nothing. -/
theorem PodSpec.fill_flatten {s : PodSpec} (h : schema.Tolerates numbers block)
    (hexpand : expand (schema.fill none block) = .ok s) :
    schema.fill (some s.flatten) block = schema.fill none block := by
  obtain ⟨hcontainers, hinit⟩ := children_containers hexpand
  have hsettled : ∀ {key : String} {items : List Container},
      schema.typeOf? key = some (.block Container.schema false) →
      Declaration.children (schema.fill none block) key key Container.expand = .ok items →
      s.flatten.lookup key = Block.ofChildren? (items.map Container.flatten) →
      Schema.Settled Container.schema (s.flatten.lookup key) (block.lookup key) :=
    fun htype hitems hshown => Schema.settled_children (by decide) h htype hitems hshown
      fun _ _ _ => Container.fill_flatten
  refine Schema.fill_shown (by decide) (by decide) h (gaps_flatten hexpand) ?_
  show ∀ e ∈ [("container", Container.schema), ("init_container", Container.schema)], _
  simp only [List.forall_mem_cons]
  exact ⟨hsettled rfl hcontainers (s.lookup_flatten "container"),
    hsettled rfl hinit (s.lookup_flatten "init_container"), List.forall_mem_nil _⟩

end Reconcile
