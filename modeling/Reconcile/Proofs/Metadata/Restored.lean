import Mathlib.Data.List.Basic
import Reconcile.Proofs.Block.Restored
import Reconcile.Proofs.Metadata.Declaration

/-!
# Metadata shown as they were declared

The metadata of a template are shown as the plain block that declares them. The metadata of an
object are shown with what the server has assigned, but with the labels and the annotations that
are declared; where the server has assigned nothing yet, they too are shown as they are declared.
-/

namespace Reconcile.ObjectMeta

variable {block : Block} {m : ObjectMeta}

/-- Declared metadata have the labels of their block. -/
theorem labels_expand (block : Block) :
    (expand block).labels.getD Dict.empty = Block.texts block "labels" := nonEmpty?_getD _

/-- Declared metadata have the annotations of their block. -/
theorem annotations_expand (block : Block) :
    (expand block).annotations.getD Dict.empty = Block.texts block "annotations" :=
  nonEmpty?_getD _

/-- The metadata of a template are shown as the plain block that declares them. -/
theorem flattenTemplate_expand (h : templateSchema.Plain block) :
    (expand block).flattenTemplate (some block) = block := by
  have hdeclared := declaredBy_expand block
  refine h.accepts.ofFields_eq (by decide) rfl ?_
  simp only [sharedFields, List.forall_mem_cons]
  rw [hdeclared.mergeLabels_eq, hdeclared.filterAnnotations_eq, labels_expand, annotations_expand]
  exact ⟨h.ofText?_text? rfl, h.ofText?_text? rfl, h.ofTexts?_texts rfl, h.ofTexts?_texts rfl,
    List.forall_mem_nil _⟩

/-! ## Metadata of objects -/

/-- Metadata that the server has not seen are shown as the plain block that declares them. -/
theorem flatten_expand (h : schema.Plain block) (hset : schema.UserSet block) :
    (expand block).flatten (some block) = block := by
  have hdeclared := declaredBy_expand block
  refine ((expand block).flatten_accepts (some block)).ext h.accepts fun field hfield => ?_
  have habsent := hset.lookup_eq_none hfield
  revert field
  simp only [schema, List.forall_mem_cons, lookup_flatten, hdeclared.mergeLabels_eq,
    hdeclared.filterAnnotations_eq, labels_expand, annotations_expand]
  exact ⟨fun _ => h.ofText?_text? rfl, fun _ => h.ofText?_text? rfl, fun _ => h.ofText?_text? rfl,
    fun _ => h.ofTexts?_texts rfl, fun _ => h.ofTexts?_texts rfl, fun hnone => (hnone rfl).symm,
    fun hnone => (hnone rfl).symm, fun hnone => (hnone rfl).symm, fun hnone => (hnone rfl).symm,
    List.forall_mem_nil _⟩

/-- The labels and the annotations of a block stay the same when its gaps are filled. -/
theorem texts_fill (h : schema.Accepts block) (prior : Option Block) :
    Block.texts (schema.fill prior block) "labels" = Block.texts block "labels" ∧
      Block.texts (schema.fill prior block) "annotations" = Block.texts block "annotations" := by
  have hlookup : ∀ key, Field.textMap key .optional ∈ schema →
      Block.texts (schema.fill prior block) key = Block.texts block key := by
    intro key hfield
    rw [Block.texts, Block.texts]
    have hkept := Schema.lookup_fill_of_optional (by decide) h hfield (by rintro _ _ ⟨⟩) rfl rfl
      prior
    rw [show key = (Field.textMap key .optional).name from rfl, hkept]
  exact ⟨hlookup "labels" (by simp [schema]), hlookup "annotations" (by simp [schema])⟩

/-- A name that a block declares is kept when its gaps are filled. -/
theorem hasName_fill (h : schema.Accepts block) (hname : hasName (schema.fill none block) = true)
    (prior : Option Block) : hasName (schema.fill prior block) = true := by
  have hkept : ∀ key presence, Field.text key presence ∈ schema →
      (Block.text? (schema.fill none block) key).isSome →
      (Block.text? (schema.fill prior block) key).isSome := by
    intro key presence hfield hsome
    cases hvalue : block.lookup key with
    | none =>
        have hlookup : (schema.fill none block).lookup (Field.text key presence).name = none := by
          rw [Schema.lookup_fill (by decide) hfield]
          show Schema.fillValue _ none (block.lookup key) = none
          rw [hvalue]
          exact Schema.fillValue_default (.inl rfl)
        rw [Block.text?, show key = (Field.text key presence).name from rfl, hlookup] at hsome
        cases hsome
    | some value =>
        have hfilled : ∀ prior, (schema.fill prior block).lookup key = some value :=
          Schema.lookup_fill_of_some (by decide) h hfield (by rintro _ _ ⟨⟩) hvalue
        rw [Block.text?, hfilled] at hsome ⊢
        exact hsome
  rw [hasName, Bool.or_eq_true] at hname ⊢
  exact hname.imp (hkept "name" .optionalComputed (by simp [schema]))
    (hkept "generate_name" .optional (by simp [schema]))

/-- The block of metadata that a canonical block declares can be stored. -/
theorem flatten_storable (h : schema.Canonical block) (hm : m.DeclaredBy (some block)) :
    schema.Every Schema.Storable (m.flatten (some block)) := by
  have hlabels : (m.flatten (some block)).lookup "labels" = block.lookup "labels" := by
    rw [lookup_flatten, ← h.plain.ofTexts?_texts rfl]
    show Block.ofTexts? (mergeLabels (some block) m.labels) = _
    rw [hm.mergeLabels_eq, ← hm.labels]
    rfl
  have hannotations : (m.flatten (some block)).lookup "annotations" =
      block.lookup "annotations" := by
    rw [lookup_flatten, ← h.plain.ofTexts?_texts rfl]
    show Block.ofTexts? (filterAnnotations (some block) m.annotations) = _
    rw [hm.filterAnnotations_eq, ← hm.annotations]
    rfl
  refine Schema.every_storable fun field hfield => ?_
  have hstored := h.storableField hfield
  have hcases : field.type = .text ∨ field.type = .int ∨ field.type = .bool ∨
      field.name = "labels" ∨ field.name = "annotations" := by
    revert field
    simp [schema, Field.text, Field.int, Field.textMap]
  rcases hcases with htype | htype | htype | hname | hname
  · exact Schema.storableField_scalar (.inl htype) _
  · exact Schema.storableField_scalar (.inr (.inl htype)) _
  · exact Schema.storableField_scalar (.inr (.inr htype)) _
  · rw [hname] at hstored ⊢
    rwa [hlabels]
  · rw [hname] at hstored ⊢
    rwa [hannotations]

end Reconcile.ObjectMeta
