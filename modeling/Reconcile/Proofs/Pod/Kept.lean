import Mathlib.Data.List.Basic
import Reconcile.Proofs.Json.Recordable
import Reconcile.Proofs.Pod.Declaration
import Reconcile.Proofs.Pod.Wire
import Reconcile.Proofs.Schema.Compact

/-!
# Pods in the blocks that show them

The block of each part of a pod holds nothing empty, and it can be stored if the wire form of the
part can be recorded.
-/

namespace Reconcile

open Schema (Kept every_of_fields)

variable {clean : Prop}

/-- A shown port holds nothing empty and can be stored. -/
theorem ContainerPort.flatten_kept (p : ContainerPort) : schema.Every (Kept clean) p.flatten := by
  refine every_of_fields ?_
  simp only [schema, List.forall_mem_cons, lookup_flatten]
  exact ⟨Schema.kept_int rfl (some _), Schema.kept_text rfl _, Schema.kept_text rfl _,
    Schema.kept_int rfl _, List.forall_mem_nil _⟩

/-- A shown variable holds nothing empty and can be stored. -/
theorem EnvVar.flatten_kept (e : EnvVar) : schema.Every (Kept clean) e.flatten := by
  refine every_of_fields ?_
  simp only [schema, List.forall_mem_cons, lookup_flatten]
  exact ⟨Schema.kept_text rfl (some _), Schema.kept_text rfl _, List.forall_mem_nil _⟩

/-- A shown container holds nothing empty, and can be stored if its wire form can be recorded. -/
theorem Container.flatten_kept {c : Container} (h : clean → c.toJson.recordable = true) :
    schema.Every (Kept clean) c.flatten := by
  have hcommand (hc : clean) := (Json.items_recordable (h hc) (c.lookup_toJson "command")).1
  have hargs (hc : clean) := (Json.items_recordable (h hc) (c.lookup_toJson "args")).1
  have hports (hc : clean) := (Json.items_recordable (h hc) (c.lookup_toJson "ports")).1
  have henv (hc : clean) := (Json.items_recordable (h hc) (c.lookup_toJson "env")).1
  refine every_of_fields ?_
  simp only [schema, List.forall_mem_cons, lookup_flatten]
  exact ⟨Schema.kept_text rfl (some _), Schema.kept_text rfl _, Schema.kept_textList rfl hcommand,
    Schema.kept_textList rfl hargs, Schema.kept_text rfl _, Schema.kept_text rfl _,
    Schema.kept_children rfl hports fun p _ => p.flatten_kept,
    Schema.kept_children rfl henv fun e _ => e.flatten_kept, List.forall_mem_nil _⟩

/-- A shown pod holds nothing empty, and can be stored if its wire form can be recorded. -/
theorem PodSpec.flatten_kept {s : PodSpec} (h : clean → s.toJson.recordable = true) :
    schema.Every (Kept clean) s.flatten := by
  have hlist : (s.toJson.obj?.getD []).lookup "containers" =
      (some s.containers).map (Wire.array Container.toJson) := s.lookup_toJson "containers"
  have hcontainers (hc : clean) := Json.items_recordable (h hc) hlist
  have hinit (hc : clean) := Json.items_recordable (h hc) (s.lookup_toJson "initContainers")
  have hselector (hc : clean) := Json.get?_recordable (h hc) (s.lookup_toJson "nodeSelector")
  refine every_of_fields ?_
  simp only [schema, List.forall_mem_cons, lookup_flatten]
  exact ⟨Schema.kept_int rfl _,
    Schema.kept_children rfl (fun hc => (hcontainers hc).1) fun c hmem =>
      c.flatten_kept fun hc => (hcontainers hc).2 c hmem,
    Schema.kept_children rfl (fun hc => (hinit hc).1) fun c hmem =>
      c.flatten_kept fun hc => (hinit hc).2 c hmem,
    Schema.kept_text rfl _, Schema.kept_bool rfl (some _), Schema.kept_bool rfl (some _),
    Schema.kept_bool rfl (some _), Schema.kept_text rfl _, Schema.kept_text rfl _,
    Schema.kept_texts rfl hselector, Schema.kept_text rfl _, Schema.kept_text rfl _,
    Schema.kept_int rfl _, List.forall_mem_nil _⟩

end Reconcile
