import Mathlib.Data.List.Basic
import Reconcile.Proofs.Block.Readers
import Reconcile.Proofs.Metadata.Wire
import Reconcile.Proofs.Schema.Fitting

/-!
# Declared metadata

Metadata are shown against a prior block. If the prior block declares the labels and the annotations
that the metadata have, nothing is merged and nothing is filtered, and the block that shows the
metadata declares them again (`labels_flatten`, `annotations_flatten`, `expand_flattenTemplate`).
-/

namespace Reconcile.ObjectMeta

variable {m : ObjectMeta} {prior : Option Block}

/-- A prior block declares the labels and the annotations that metadata have. -/
structure DeclaredBy (m : ObjectMeta) (prior : Option Block) : Prop where
  labels : (prior.map (Block.texts · "labels")).getD Dict.empty = m.labels.getD Dict.empty
  annotations :
    (prior.map (Block.texts · "annotations")).getD Dict.empty = m.annotations.getD Dict.empty

/-- Metadata are declared by the block that they are read from. -/
theorem declaredBy_expand (block : Block) : (expand block).DeclaredBy (some block) :=
  ⟨(nonEmpty?_getD _).symm, (nonEmpty?_getD _).symm⟩

/-- Metadata with the same labels and annotations are declared by the same blocks. -/
theorem DeclaredBy.congr {other : ObjectMeta} (h : other.DeclaredBy prior)
    (hlabels : m.labels.getD Dict.empty = other.labels.getD Dict.empty)
    (hannotations : m.annotations.getD Dict.empty = other.annotations.getD Dict.empty) :
    m.DeclaredBy prior :=
  ⟨h.labels.trans hlabels.symm, h.annotations.trans hannotations.symm⟩

/-- Nothing is merged into labels that are declared. -/
theorem DeclaredBy.mergeLabels_eq (h : m.DeclaredBy prior) :
    mergeLabels prior m.labels = m.labels.getD Dict.empty := by
  show ((prior.map (Block.texts · "labels")).getD Dict.empty).union (m.labels.getD Dict.empty) = _
  rw [h.labels, Dict.union_self]

/-- No annotation that is declared is filtered out. -/
theorem DeclaredBy.filterAnnotations_eq (h : m.DeclaredBy prior) :
    filterAnnotations prior m.annotations = m.annotations.getD Dict.empty := by
  unfold filterAnnotations
  refine Dict.filter_eq_self fun key hkey value => ?_
  rw [h.annotations, Dict.contains_eq, hkey, Bool.or_true]

/-! ## Metadata of objects -/

/-- What the block of metadata holds under a key. -/
theorem lookup_flatten (m : ObjectMeta) (prior : Option Block) (k : String) :
    (m.flatten prior).lookup k =
      (List.lookup k
        [("name", Block.ofText? m.name),
         ("generate_name", Block.ofText? m.generateName),
         ("labels", Block.ofTexts? (mergeLabels prior m.labels)),
         ("annotations", Block.ofTexts? (filterAnnotations prior m.annotations)),
         ("namespace", Block.ofText? m.ns),
         ("generation", Block.ofInt? (m.generation.map Int64.toInt)),
         ("resource_version", Block.ofText? m.resourceVersion),
         ("self_link", Block.ofText? m.selfLink),
         ("uid", Block.ofText? m.uid)]).join :=
  Block.lookup_ofFields (by simp [sharedFields]) k

/-- The labels that the block of metadata declares. -/
theorem labels_flatten (h : m.DeclaredBy prior) :
    (expand (m.flatten prior)).labels.getD Dict.empty = m.labels.getD Dict.empty := by
  show (nonEmpty? (Block.texts (m.flatten prior) "labels")).getD Dict.empty = _
  rw [nonEmpty?_getD, Block.texts_of_lookup (m.lookup_flatten prior "labels"), h.mergeLabels_eq]

/-- The annotations that the block of metadata declares. -/
theorem annotations_flatten (h : m.DeclaredBy prior) :
    (expand (m.flatten prior)).annotations.getD Dict.empty = m.annotations.getD Dict.empty := by
  show (nonEmpty? (Block.texts (m.flatten prior) "annotations")).getD Dict.empty = _
  rw [nonEmpty?_getD, Block.texts_of_lookup (m.lookup_flatten prior "annotations"),
    h.filterAnnotations_eq]

/-- The block of an object with a name declares one. -/
theorem hasName_flatten {name : String} (hname : m.name = some name) (hne : name ≠ "")
    (prior : Option Block) : hasName (m.flatten prior) = true := by
  have htext : Block.text? (m.flatten prior) "name" = m.name :=
    Block.text?_of_lookup (m.lookup_flatten prior "name") fun h =>
      hne (Option.some.inj (hname.symm.trans h))
  rw [hasName, htext, hname]
  rfl

/-- The block of metadata is accepted. -/
theorem flatten_accepts (m : ObjectMeta) (prior : Option Block) :
    schema.Accepts (m.flatten prior) := by
  refine Schema.accepts_ofFields (by decide) (by simp [sharedFields]) ?_
  simp only [sharedFields, List.cons_append, List.nil_append, List.forall_mem_cons]
  exact ⟨Schema.fits_text rfl _, Schema.fits_text rfl _, Schema.fits_texts rfl _,
    Schema.fits_texts rfl _, Schema.fits_text rfl _, Schema.fits_int64 rfl _,
    Schema.fits_text rfl _, Schema.fits_text rfl _, Schema.fits_text rfl _, List.forall_mem_nil _⟩

/-! ## Metadata of templates -/

/-- Metadata that a template can declare. -/
structure DeclaredTemplate (m : ObjectMeta) : Prop where
  name : m.name ≠ some ""
  generateName : m.generateName ≠ some ""
  labels : m.labels ≠ some Dict.empty
  annotations : m.annotations ≠ some Dict.empty
  only : m = {
    name := m.name
    generateName := m.generateName
    labels := m.labels
    annotations := m.annotations }

/-- The metadata that the block of a template declares, if there is one. -/
def ofTemplate (block : Option Block) : ObjectMeta := (block.map expand).getD {}

theorem declaredTemplate_ofTemplate {block : Option Block}
    (h : ∀ b, block = some b → b.lookup "namespace" = none) :
    (ofTemplate block).DeclaredTemplate := by
  cases block with
  | none =>
      refine ⟨?_, ?_, ?_, ?_, rfl⟩
      all_goals exact Option.some_ne_none _ |>.symm
  | some b =>
      have hns : Block.text? b "namespace" = none := by
        rw [Block.text?, h b rfl]
        rfl
      refine ⟨Block.text?_ne _ _, Block.text?_ne _ _, nonEmpty?_ne _, nonEmpty?_ne _, ?_⟩
      show expand b = _
      rw [expand, hns]
      rfl

theorem declaredBy_ofTemplate (block : Option Block) : (ofTemplate block).DeclaredBy block := by
  cases block with
  | none => exact ⟨rfl, rfl⟩
  | some b => exact declaredBy_expand b

/-- What the block of a template's metadata holds under a key. -/
theorem lookup_flattenTemplate (m : ObjectMeta) (prior : Option Block) (k : String) :
    (m.flattenTemplate prior).lookup k =
      (List.lookup k
        [("name", Block.ofText? m.name),
         ("generate_name", Block.ofText? m.generateName),
         ("labels", Block.ofTexts? (mergeLabels prior m.labels)),
         ("annotations", Block.ofTexts? (filterAnnotations prior m.annotations))]).join :=
  Block.lookup_ofFields (by simp [sharedFields]) k

/-- Declared metadata of a template are declared by the block that shows them. -/
theorem expand_flattenTemplate (hm : m.DeclaredTemplate) (h : m.DeclaredBy prior) :
    expand (m.flattenTemplate prior) = m := by
  have hname := Block.text?_of_lookup (m.lookup_flattenTemplate prior "name") hm.name
  have hgenerateName :=
    Block.text?_of_lookup (m.lookup_flattenTemplate prior "generate_name") hm.generateName
  have hns : Block.text? (m.flattenTemplate prior) "namespace" = none := by
    rw [Block.text?, m.lookup_flattenTemplate prior "namespace"]
    rfl
  have hlabels := Block.texts_of_lookup (m.lookup_flattenTemplate prior "labels")
  have hannotations := Block.texts_of_lookup (m.lookup_flattenTemplate prior "annotations")
  rw [expand, hname, hgenerateName, hns, hlabels, hannotations, h.mergeLabels_eq,
    h.filterAnnotations_eq, nonEmpty?_of_getD hm.labels, nonEmpty?_of_getD hm.annotations]
  exact hm.only.symm

/-- The block of a template's metadata is accepted. -/
theorem flattenTemplate_accepts (m : ObjectMeta) (prior : Option Block) :
    templateSchema.Accepts (m.flattenTemplate prior) := by
  refine Schema.accepts_ofFields (by decide) (by simp [sharedFields]) ?_
  simp only [sharedFields, List.forall_mem_cons]
  exact ⟨Schema.fits_text rfl _, Schema.fits_text rfl _, Schema.fits_texts rfl _,
    Schema.fits_texts rfl _, List.forall_mem_nil _⟩

end Reconcile.ObjectMeta
