import Mathlib.Data.List.Basic
import Reconcile.Proofs.Metadata.Declaration
import Reconcile.Proofs.Role.Laws

/-!
# Declared roles

A declared rule is declared again by the block that shows it, and the tree that shows a role is
accepted by the schema of roles.
-/

namespace Reconcile

namespace PolicyRule

/-- A rule with verbs and without empty lists. -/
structure Declared (r : PolicyRule) : Prop where
  apiGroups : r.apiGroups ≠ some []
  nonResourceURLs : r.nonResourceURLs ≠ some []
  resourceNames : r.resourceNames ≠ some []
  resources : r.resources ≠ some []
  verbs : r.verbs ≠ []

theorem declared_of_expand {path : String} {block : Block} {r : PolicyRule}
    (h : expand path block = .ok r) : r.Declared := by
  simp only [expand] at h
  split at h
  · cases h
  · rename_i hverbs
    cases h
    refine ⟨Declaration.nonEmpty?_ne _, Declaration.nonEmpty?_ne _, Declaration.nonEmpty?_ne _,
      Declaration.nonEmpty?_ne _, fun heq => hverbs ?_⟩
    exact List.isEmpty_iff.2 heq

/-- What the block of a rule holds under a key. -/
theorem lookup_flatten (r : PolicyRule) (k : String) : r.flatten.lookup k =
    (List.lookup k
      [("api_groups", Block.ofTextList? (r.apiGroups.getD [])),
       ("non_resource_urls", Block.ofTextList? (r.nonResourceURLs.getD [])),
       ("resource_names", Block.ofTextList? (r.resourceNames.getD [])),
       ("resources", Block.ofTextList? (r.resources.getD [])),
       ("verbs", Block.ofTextList? r.verbs)]).join :=
  Block.lookup_ofFields (by simp) k

/-- A declared rule is declared by the block that shows it. -/
theorem expand_flatten {r : PolicyRule} (h : r.Declared) (path : String) :
    expand path r.flatten = .ok r := by
  have hapiGroups := Block.textList_of_lookup (r.lookup_flatten "api_groups")
  have hnonResourceURLs := Block.textList_of_lookup (r.lookup_flatten "non_resource_urls")
  have hresourceNames := Block.textList_of_lookup (r.lookup_flatten "resource_names")
  have hresources := Block.textList_of_lookup (r.lookup_flatten "resources")
  have hverbs := Block.textList_of_lookup (r.lookup_flatten "verbs")
  have hnonempty : ¬ r.verbs.isEmpty = true := fun hempty => h.verbs (List.isEmpty_iff.1 hempty)
  simp only [expand, hapiGroups, hnonResourceURLs, hresourceNames, hresources, hverbs,
    if_neg hnonempty, Declaration.nonEmpty?_getD h.apiGroups,
    Declaration.nonEmpty?_getD h.nonResourceURLs, Declaration.nonEmpty?_getD h.resourceNames,
    Declaration.nonEmpty?_getD h.resources]

/-- The block of a rule is accepted. -/
theorem flatten_accepts (r : PolicyRule) : schema.Accepts r.flatten := by
  refine Schema.accepts_ofFields (by decide) (by simp) ?_
  simp only [List.forall_mem_cons]
  exact ⟨Schema.fits_textList rfl _, Schema.fits_textList rfl _, Schema.fits_textList rfl _,
    Schema.fits_textList rfl _, Schema.fits_textList rfl _, List.forall_mem_nil _⟩

end PolicyRule

namespace Role

/-- The fields of the tree that shows a role. -/
def shown (r : Role) (prior : Option Block) : Block :=
  Block.ofFields
    [("metadata", some (Block.singular (r.metadata.flatten prior))),
     ("policy_rule", Block.ofChildren? ((r.rules.getD []).map PolicyRule.flatten))]

theorem flatten_eq (r : Role) (prior : Tree) :
    r.flatten prior = .obj (r.shown (Tree.block? prior "metadata")) := rfl

/-- What the tree that shows a role holds under a key. -/
theorem lookup_shown (r : Role) (prior : Option Block) (k : String) :
    (r.shown prior).lookup k =
      (List.lookup k
        [("metadata", some (Block.singular (r.metadata.flatten prior))),
         ("policy_rule", Block.ofChildren? ((r.rules.getD []).map PolicyRule.flatten))]).join :=
  Block.lookup_ofFields (by simp) k

/-- The tree that shows a role is accepted. -/
theorem shown_accepts (r : Role) (prior : Option Block) : schema.Accepts (r.shown prior) := by
  have hrules : ∀ b ∈ (r.rules.getD []).map PolicyRule.flatten, PolicyRule.schema.Accepts b := by
    intro b hb
    obtain ⟨rule, _, rfl⟩ := List.mem_map.1 hb
    exact rule.flatten_accepts
  have hmeta : ∀ b, some (r.metadata.flatten prior) = some b → ObjectMeta.schema.Accepts b := by
    rintro _ ⟨⟩
    exact r.metadata.flatten_accepts prior
  refine Schema.accepts_ofFields (by decide) (by simp) ?_
  simp only [List.forall_mem_cons]
  exact ⟨Schema.fits_singular rfl hmeta, Schema.fits_children rfl hrules, List.forall_mem_nil _⟩

/-- The tree that shows a role with declared rules declares these rules. -/
theorem expand_shown {r : Role} {prior : Option Block}
    (hname : ObjectMeta.hasName (r.metadata.flatten prior) = true) (hempty : r.rules ≠ some [])
    (hrules : ∀ rule ∈ r.rules.getD [], rule.Declared) :
    expand (.obj (r.shown prior)) = .ok
      { metadata := ObjectMeta.expand (r.metadata.flatten prior), rules := r.rules } := by
  have hmeta : Block.child? (r.shown prior) "metadata" = some (r.metadata.flatten prior) :=
    Block.child?_of_lookup (r.lookup_shown prior "metadata")
  have hchildren := Declaration.children_of_lookup (r.lookup_shown prior "policy_rule")
    (fun rule hrule => PolicyRule.expand_flatten (hrules rule hrule)) "policy_rule"
  refine expand_eq_ok.2 ⟨_, _, hmeta, hname, hchildren, ?_⟩
  rw [Declaration.nonEmpty?_getD hempty]

end Role

end Reconcile
