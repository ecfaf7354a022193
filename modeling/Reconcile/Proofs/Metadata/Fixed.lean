import Mathlib.Data.List.Basic
import Reconcile.Proofs.Metadata.Declaration

/-!
# Metadata that are shown again

The block that shows declared metadata declares the same metadata, and showing them against it makes
the same block. Metadata depend on the prior block by the labels and the annotations that it
declares only, so all blocks that declare those of the metadata serve as well.
-/

namespace Reconcile.ObjectMeta

variable {m : ObjectMeta} {block : Block} {prior other : Option Block}

/-- The block that shows the metadata that a block declares declares them again. -/
theorem expand_flatten_expand (block : Block) :
    expand ((expand block).flatten (some block)) = expand block := by
  have hdeclared := declaredBy_expand block
  have hlookup := (expand block).lookup_flatten (some block)
  have hname := Block.text?_of_lookup (hlookup "name") (Block.text?_ne _ _)
  have hgenerateName := Block.text?_of_lookup (hlookup "generate_name") (Block.text?_ne _ _)
  have hns := Block.text?_of_lookup (hlookup "namespace") (Block.text?_ne _ _)
  have hlabels := Block.texts_of_lookup (hlookup "labels")
  have hannotations := Block.texts_of_lookup (hlookup "annotations")
  have hkeptLabels : nonEmpty? ((expand block).labels.getD Dict.empty) = (expand block).labels :=
    nonEmpty?_of_getD (nonEmpty?_ne _)
  have hkeptAnnotations : nonEmpty? ((expand block).annotations.getD Dict.empty) =
      (expand block).annotations := nonEmpty?_of_getD (nonEmpty?_ne _)
  rw [expand, hname, hgenerateName, hns, hlabels, hannotations, hdeclared.mergeLabels_eq,
    hdeclared.filterAnnotations_eq, hkeptLabels, hkeptAnnotations]
  rfl

/-- The block that shows declared metadata has a name if the block that declares them has one. -/
theorem hasName_flatten_expand (h : hasName block = true) :
    hasName ((expand block).flatten (some block)) = true := by
  have hagain := expand_flatten_expand block
  have hname : Block.text? ((expand block).flatten (some block)) "name" =
      Block.text? block "name" := congrArg ObjectMeta.name hagain
  have hgenerateName : Block.text? ((expand block).flatten (some block)) "generate_name" =
      Block.text? block "generate_name" := congrArg ObjectMeta.generateName hagain
  rw [hasName, hname, hgenerateName]
  exact h

/-- The block that shows metadata declares the labels and the annotations that they have. -/
theorem DeclaredBy.flatten (h : m.DeclaredBy prior) : m.DeclaredBy (some (m.flatten prior)) :=
  (declaredBy_expand (m.flatten prior)).congr (labels_flatten h).symm (annotations_flatten h).symm

/-- Metadata are shown as the same block against all blocks that declare theirs. -/
theorem sharedFields_congr (h : m.DeclaredBy prior) (hother : m.DeclaredBy other) :
    m.sharedFields prior = m.sharedFields other := by
  rw [sharedFields, sharedFields, h.mergeLabels_eq, hother.mergeLabels_eq, h.filterAnnotations_eq,
    hother.filterAnnotations_eq]

theorem flatten_congr (h : m.DeclaredBy prior) (hother : m.DeclaredBy other) :
    m.flatten prior = m.flatten other := by
  rw [flatten, flatten, sharedFields_congr h hother]

theorem flattenTemplate_congr (h : m.DeclaredBy prior) (hother : m.DeclaredBy other) :
    m.flattenTemplate prior = m.flattenTemplate other := by
  rw [flattenTemplate, flattenTemplate, sharedFields_congr h hother]

end Reconcile.ObjectMeta
