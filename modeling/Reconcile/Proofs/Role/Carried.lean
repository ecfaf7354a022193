import Mathlib.Data.List.Basic
import Reconcile.Proofs.Metadata.Carried
import Reconcile.Proofs.Role.Laws
import Reconcile.Proofs.Role.Wire

/-!
# Roles that reach the wire

The role that a tree declares carries what the tree holds exactly if the tree is typed.
-/

namespace Reconcile

open Schema (Written carriesField_member carriesField_repeated carriesField_singular resolve?_place)

variable {block : Block}

/-- What is set in the block of a rule reaches the wire exactly if it is typed. -/
theorem PolicyRule.carries_expand {path : String} {r : PolicyRule}
    (hexpand : expand path block = .ok r) :
    schema.carries block r.toJson = schema.typed block := by
  have hlookup := r.lookup_toJson
  simp only [expand] at hexpand
  split at hexpand
  · cases hexpand
  · cases hexpand
    refine Schema.carries_eq_typed ?_
    simp only [schema, List.forall_mem_cons]
    exact ⟨carriesField_member rfl rfl (by decide) (hlookup "apiGroups")
        (Written.textList (.inr rfl)),
      carriesField_member rfl rfl (by decide) (hlookup "nonResourceURLs")
        (Written.textList (.inr rfl)),
      carriesField_member rfl rfl (by decide) (hlookup "resourceNames")
        (Written.textList (.inr rfl)),
      carriesField_member rfl rfl (by decide) (hlookup "resources")
        (Written.textList (.inr rfl)),
      carriesField_member rfl rfl (by decide) (hlookup "verbs") (Written.textList (.inl rfl)),
      List.forall_mem_nil _⟩

/-- What is set in the tree of a role reaches the wire exactly if it is typed. -/
theorem Role.carries_expand {r : Role} (hexpand : expand (.obj block) = .ok r) :
    schema.carries block r.toJson = schema.typed block := by
  have hlookup := r.lookup_toJson
  obtain ⟨metaBlock, rules, hmeta, _, hrules, rfl⟩ := expand_eq_ok.1 hexpand
  refine Schema.carries_eq_typed ?_
  simp only [schema, List.forall_mem_cons]
  refine ⟨carriesField_singular rfl (resolve?_place (by decide) (hlookup "metadata")) ?_,
    carriesField_repeated rfl (resolve?_place (by decide) (hlookup "rules")) hrules
      (Declaration.map_nonEmpty? _) fun _ _ _ => PolicyRule.carries_expand,
    List.forall_mem_nil _⟩
  intro child hchild
  cases hmeta.symm.trans hchild
  exact ⟨_, rfl, ObjectMeta.carries_expand metaBlock⟩

end Reconcile
