import Mathlib.Data.List.Basic
import Reconcile.Proofs.Block.Carried

/-!
# Metadata that reach the wire

What a block declares as metadata carries what the block holds exactly if the block is typed. This
is so for the metadata of an object and for those of a template.
-/

namespace Reconcile.ObjectMeta

open Schema (Written carriesField typedField carriesField_member carriesField_computed)

/-- Every field of the metadata of an object reaches the wire exactly if it is typed. -/
theorem carriesField_expand (block : Block) : ∀ field ∈ schema,
    carriesField field block (expand block).toJson = typedField field block := by
  have hlookup := (expand block).lookup_fields
  simp only [schema, List.forall_mem_cons]
  exact ⟨carriesField_member rfl rfl (by decide) (hlookup "name") (Written.text block "name"),
    carriesField_member rfl rfl (by decide) (hlookup "generateName")
      (Written.text block "generate_name"),
    carriesField_member rfl rfl (by decide) (hlookup "namespace") (Written.text block "namespace"),
    carriesField_member rfl rfl (by decide) (hlookup "labels") (Written.texts block "labels"),
    carriesField_member rfl rfl (by decide) (hlookup "annotations")
      (Written.texts block "annotations"),
    carriesField_computed rfl _ _, carriesField_computed rfl _ _, carriesField_computed rfl _ _,
    carriesField_computed rfl _ _, List.forall_mem_nil _⟩

theorem carries_expand (block : Block) :
    schema.carries block (expand block).toJson = schema.typed block :=
  Schema.carries_eq_typed (carriesField_expand block)

/-- The fields of a template's metadata are fields of an object's, but for where the name comes
from. -/
theorem carries_expand_template (block : Block) :
    templateSchema.carries block (expand block).toJson = templateSchema.typed block := by
  have hshared := carriesField_expand block
  refine Schema.carries_eq_typed ?_
  simp only [templateSchema, List.forall_mem_cons]
  exact ⟨carriesField_member rfl rfl (by decide) ((expand block).lookup_fields "name")
      (Written.text block "name"),
    hshared _ (by simp [schema]), hshared _ (by simp [schema]), hshared _ (by simp [schema]),
    List.forall_mem_nil _⟩

end Reconcile.ObjectMeta
