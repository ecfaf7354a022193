import Mathlib.Data.List.Basic
import Reconcile.Proofs.Metadata.Declaration

/-!
# Metadata that are read twice

The block that one reading shows is the prior block of the next one. It declares the merged labels,
into which the observed ones have gone already, and the annotations that were kept, which are kept
once more. So the second reading shows what the first one showed, whatever was observed and whatever
was declared before.
-/

namespace Reconcile.ObjectMeta

variable {block : Block} {prior : Option Block} {observed : Option (Dict String)}

/-- Observed labels are merged into merged ones without a change. -/
theorem mergeLabels_again (h : Block.texts block "labels" = mergeLabels prior observed) :
    mergeLabels (some block) observed = mergeLabels prior observed := by
  refine Dict.ext_get? fun key => ?_
  show ((Block.texts block "labels").union (observed.getD Dict.empty)).get? key = _
  rw [Dict.get?_union, h, mergeLabels, Dict.get?_union, ← Option.or_assoc, Option.or_self]

/-- Annotations that were kept are kept against a block that declares them. -/
theorem filterAnnotations_again
    (h : Block.texts block "annotations" = filterAnnotations prior observed) :
    filterAnnotations (some block) observed = filterAnnotations prior observed := by
  refine Dict.ext_get? fun key => ?_
  have hdeclared := congrArg (·.contains key) h
  simp only [filterAnnotations, Option.map_some, Option.getD_some, Dict.get?_filter,
    Dict.contains_eq] at hdeclared ⊢
  rw [hdeclared]
  cases (observed.getD Dict.empty).get? key with
  | none => rfl
  | some value =>
      simp only [Option.filter_some]
      -- The block declares the annotation exactly if the first reading kept it.
      split <;> simp_all

/-- Metadata are shown alike against a block that declares what was shown. -/
theorem sharedFields_again {m : ObjectMeta}
    (hlabels : Block.texts block "labels" = mergeLabels prior m.labels)
    (hannotations : Block.texts block "annotations" = filterAnnotations prior m.annotations) :
    m.sharedFields (some block) = m.sharedFields prior := by
  rw [sharedFields, sharedFields, mergeLabels_again hlabels, filterAnnotations_again hannotations]

variable (m : ObjectMeta) (prior)

/-- Metadata of an object are shown alike against the block that shows them. -/
theorem flatten_again : m.flatten (some (m.flatten prior)) = m.flatten prior := by
  have hshared := sharedFields_again (Block.texts_of_lookup (m.lookup_flatten prior "labels"))
    (Block.texts_of_lookup (m.lookup_flatten prior "annotations"))
  rw [flatten, hshared, ← flatten]

/-- Metadata of a template are shown alike against the block that shows them, also if this block is
left out because it is empty. -/
theorem flattenTemplate_again :
    m.flattenTemplate ((some (m.flattenTemplate prior)).filter (!·.isEmpty)) =
      m.flattenTemplate prior := by
  have hshared := sharedFields_again
    (Block.texts_of_lookup (m.lookup_flattenTemplate prior "labels"))
    (Block.texts_of_lookup (m.lookup_flattenTemplate prior "annotations"))
  rw [Option.filter_some]
  cases hempty : (m.flattenTemplate prior).isEmpty with
  | false => exact congrArg Block.ofFields hshared
  | true =>
      -- A block that is not there declares as much as one without fields.
      have hnone : m.sharedFields none = m.sharedFields (some []) := rfl
      rw [List.isEmpty_iff.1 hempty, ← hnone] at hshared
      exact congrArg Block.ofFields hshared

end Reconcile.ObjectMeta
