import Mathlib.Data.List.Basic
import Reconcile.Proofs.Block.Restored
import Reconcile.Proofs.Metadata.Wire
import Reconcile.Proofs.Pod.Declaration

/-!
# Pods shown as they were declared

The block that shows what an explicit block declares is this block, for each part of a pod
(`flatten_expand`).
-/

namespace Reconcile

variable {block : Block} {path : String}

/-- A port that has been declared explicitly is shown as the block that declares it. -/
theorem ContainerPort.flatten_expand {p : ContainerPort} (h : schema.Explicit block)
    (hexpand : expand path block = .ok p) : p.flatten = block := by
  obtain ⟨number, containerPort, hostPort, hnumber, hfits, hhostPort, rfl⟩ := expand_eq_ok.1 hexpand
  refine h.accepts.ofFields_eq (by decide) rfl ?_
  simp only [List.forall_mem_cons]
  exact ⟨h.ofInt?_requiredInt rfl hnumber hfits, h.ofText?_text? rfl, h.ofText?_text? rfl,
    h.ofInt?_int32? rfl hhostPort, List.forall_mem_nil _⟩

/-- A variable that has been declared explicitly is shown as the block that declares it. -/
theorem EnvVar.flatten_expand {e : EnvVar} (h : schema.Explicit block)
    (hexpand : expand path block = .ok e) : e.flatten = block := by
  obtain ⟨name, hname, rfl⟩ := expand_eq_ok.1 hexpand
  refine h.accepts.ofFields_eq (by decide) rfl ?_
  simp only [List.forall_mem_cons]
  exact ⟨h.ofText?_requiredText rfl hname, h.ofText?_text? rfl, List.forall_mem_nil _⟩

/-- A container that has been declared explicitly is shown as the block that declares it. -/
theorem Container.flatten_expand {c : Container} (h : schema.Explicit block)
    (hexpand : expand path block = .ok c) : c.flatten = block := by
  obtain ⟨name, ports, env, hname, hports, henv, rfl⟩ := expand_eq_ok.1 hexpand
  refine h.accepts.ofFields_eq (by decide) rfl ?_
  simp only [List.forall_mem_cons, Declaration.getD_nonEmpty?]
  exact ⟨h.ofText?_requiredText rfl hname, h.ofText?_text? rfl, h.ofTextList?_textList rfl,
    h.ofTextList?_textList rfl, h.ofText?_text? rfl, h.ofText?_text? rfl,
    h.ofChildren?_children rfl hports fun _ hchild _ _ =>
      ContainerPort.flatten_expand (h.element rfl hchild),
    h.ofChildren?_children rfl henv fun _ hchild _ _ =>
      EnvVar.flatten_expand (h.element rfl hchild),
    List.forall_mem_nil _⟩

/-- A pod that has been declared explicitly is shown as the block that declares it. -/
theorem PodSpec.flatten_expand {s : PodSpec} (h : schema.Explicit block)
    (hexpand : expand block = .ok s) : s.flatten = block := by
  obtain ⟨containers, initContainers, hcontainers, hinit, rfl⟩ := expand_eq_ok.1 hexpand
  have hcontainer : ∀ (items : List Container) (key : String),
      schema.typeOf? key = some (.block Container.schema false) →
      Declaration.children block key key Container.expand = .ok items →
      Block.ofChildren? (items.map Container.flatten) = block.lookup key :=
    fun _ _ htype hread => h.ofChildren?_children htype hread fun _ hchild _ _ =>
      Container.flatten_expand (h.element htype hchild)
  have hselector : (ObjectMeta.nonEmpty? (Block.texts block "node_selector")).getD Dict.empty =
      Block.texts block "node_selector" := ObjectMeta.nonEmpty?_getD _
  refine h.accepts.ofFields_eq (by decide) rfl ?_
  simp only [List.forall_mem_cons, Declaration.getD_nonEmpty?, hselector, Option.getD_some]
  exact ⟨h.ofInt?_int? rfl, hcontainer _ _ rfl hcontainers, hcontainer _ _ rfl hinit,
    h.ofText?_text? rfl, h.ofBool?_getD rfl (h.isSome_lookup rfl) false,
    h.ofBool?_getD rfl (h.isSome_lookup rfl) false, h.ofBool?_getD rfl (h.isSome_lookup rfl) false,
    h.ofText?_text? rfl, h.ofText?_text? rfl, h.ofTexts?_texts rfl, h.ofText?_text? rfl,
    h.ofText?_text? rfl, h.ofInt?_int? rfl, List.forall_mem_nil _⟩

end Reconcile
