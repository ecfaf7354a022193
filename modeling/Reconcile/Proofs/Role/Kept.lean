import Mathlib.Data.List.Basic
import Reconcile.Proofs.Metadata.Kept
import Reconcile.Proofs.Role.Declaration
import Reconcile.Proofs.Role.Wire

/-!
# Roles in the trees that show them

The tree of a role holds nothing empty, and it can be stored if the wire form of the role can be
recorded.
-/

namespace Reconcile

open Schema (Kept every_of_fields)

variable {clean : Prop}

/-- A shown rule holds nothing empty, and can be stored if its wire form can be recorded. -/
theorem PolicyRule.flatten_kept {r : PolicyRule} (h : clean → r.toJson.recordable = true) :
    schema.Every (Kept clean) r.flatten := by
  have hlist {key : String} {items : Option (List String)}
      (hlookup : (r.toJson.obj?.getD []).lookup key = items.map (Wire.array .str)) (hc : clean) :=
    (Json.items_recordable (h hc) hlookup).1
  have hverbs : (r.toJson.obj?.getD []).lookup "verbs" = (some r.verbs).map (Wire.array .str) :=
    r.lookup_toJson "verbs"
  refine every_of_fields ?_
  simp only [schema, List.forall_mem_cons, lookup_flatten]
  exact ⟨Schema.kept_textList rfl (hlist (r.lookup_toJson "apiGroups")),
    Schema.kept_textList rfl (hlist (r.lookup_toJson "nonResourceURLs")),
    Schema.kept_textList rfl (hlist (r.lookup_toJson "resourceNames")),
    Schema.kept_textList rfl (hlist (r.lookup_toJson "resources")),
    Schema.kept_textList rfl (hlist hverbs), List.forall_mem_nil _⟩

/-- The tree of a role holds nothing empty. -/
theorem Role.shown_kept {r : Role} {prior : Option Block}
    (h : clean → r.toJson.recordable = true)
    (hprior : clean → (ObjectMeta.declaredLabels prior).get? "%" = none) :
    schema.Every (Kept clean) (r.shown prior) := by
  have hmeta (hc : clean) := Json.recordable_member (h hc) (r.lookup_toJson "metadata")
  have hrules (hc : clean) := Json.items_recordable (h hc) (r.lookup_toJson "rules")
  refine every_of_fields ?_
  simp only [schema, List.forall_mem_cons, lookup_shown]
  exact ⟨Schema.kept_single rfl (ObjectMeta.flatten_kept hmeta hprior),
    Schema.kept_children rfl (fun hc => (hrules hc).1) fun rule hmem =>
      rule.flatten_kept fun hc => (hrules hc).2 rule hmem,
    List.forall_mem_nil _⟩

end Reconcile
