import Mathlib.Data.List.Basic
import Reconcile.Proofs.Json.Recordable
import Reconcile.Proofs.Metadata.Declaration
import Reconcile.Proofs.Schema.Compact

/-!
# Metadata in the blocks that show them

The block of metadata holds nothing empty. It can be stored if the wire form of the metadata can be
recorded and the labels of the prior block, which are merged in, leave the key of their counter
free.
-/

namespace Reconcile.ObjectMeta

open Schema (Kept every_of_fields)

variable {clean : Prop} {m : ObjectMeta} {prior : Option Block}

/-- The labels that a block declares, if there is one. -/
def declaredLabels (block : Option Block) : Dict String :=
  (block.map (Block.texts · "labels")).getD Dict.empty

/-- Merged labels leave a key free that neither the declared nor the observed ones bind. -/
theorem get?_mergeLabels {key : String} {observed : Option (Dict String)}
    (hprior : (declaredLabels prior).get? key = none)
    (hobserved : (observed.getD Dict.empty).get? key = none) :
    (mergeLabels prior observed).get? key = none := by
  show ((declaredLabels prior).union (observed.getD Dict.empty)).get? key = none
  rw [Dict.get?_union, hprior, hobserved]
  rfl

/-- Filtered annotations leave a key free that the observed ones do not bind. -/
theorem get?_filterAnnotations {key : String} {observed : Option (Dict String)}
    (hobserved : (observed.getD Dict.empty).get? key = none) (prior : Option Block) :
    (filterAnnotations prior observed).get? key = none := by
  rw [filterAnnotations, Dict.get?_filter, hobserved]
  rfl

section Blocks

variable (h : clean → m.toJson.recordable = true)
  (hprior : clean → (declaredLabels prior).get? "%" = none)

include h

theorem kept_annotations {field : Field} (htype : field.type = .textMap) (prior : Option Block) :
    Schema.Meets (Kept clean) field
      (Block.ofTexts? (filterAnnotations prior m.annotations)) :=
  Schema.kept_texts htype fun hc =>
    get?_filterAnnotations (Json.get?_recordable (h hc) m.lookup_annotations) prior

include hprior

theorem kept_labels {field : Field} (htype : field.type = .textMap) :
    Schema.Meets (Kept clean) field (Block.ofTexts? (mergeLabels prior m.labels)) :=
  Schema.kept_texts htype fun hc =>
    get?_mergeLabels (hprior hc) (Json.get?_recordable (h hc) m.lookup_labels)

/-- The block of an object's metadata holds nothing empty. -/
theorem flatten_kept : schema.Every (Kept clean) (m.flatten prior) := by
  refine every_of_fields ?_
  simp only [schema, List.forall_mem_cons, lookup_flatten]
  exact ⟨Schema.kept_text rfl _, Schema.kept_text rfl _, Schema.kept_text rfl _,
    kept_labels h hprior rfl, kept_annotations h rfl prior, Schema.kept_int rfl _,
    Schema.kept_text rfl _, Schema.kept_text rfl _, Schema.kept_text rfl _, List.forall_mem_nil _⟩

/-- The block of a template's metadata holds nothing empty. -/
theorem flattenTemplate_kept : templateSchema.Every (Kept clean) (m.flattenTemplate prior) := by
  refine every_of_fields ?_
  simp only [templateSchema, List.forall_mem_cons, lookup_flattenTemplate]
  exact ⟨Schema.kept_text rfl _, Schema.kept_text rfl _, kept_labels h hprior rfl,
    kept_annotations h rfl prior, List.forall_mem_nil _⟩

end Blocks

end Reconcile.ObjectMeta
