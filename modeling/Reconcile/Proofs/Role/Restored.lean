import Mathlib.Data.List.Basic
import Reconcile.Proofs.Kind.Restored
import Reconcile.Proofs.Role.Observable

/-!
# Roles shown as they were declared

A rule is shown as the plain block that declares it, so the tree that shows a role has the rules of
the tree that declares it.
-/

namespace Reconcile

variable {block : Block}

theorem PolicyRule.flatten_expand {path : String} {r : PolicyRule} (h : schema.Plain block)
    (hexpand : expand path block = .ok r) : r.flatten = block := by
  have hlist : ∀ key, schema.typeOf? key = some .textList →
      Block.ofTextList? ((Declaration.nonEmpty? (Block.textList block key)).getD []) =
        block.lookup key := by
    intro key htype
    rw [Declaration.getD_nonEmpty?]
    exact h.ofTextList?_textList htype
  simp only [expand] at hexpand
  split at hexpand
  · cases hexpand
  · cases hexpand
    refine h.accepts.ofFields_eq (by decide) rfl ?_
    simp only [List.forall_mem_cons]
    exact ⟨hlist "api_groups" rfl, hlist "non_resource_urls" rfl, hlist "resource_names" rfl,
      hlist "resources" rfl, h.ofTextList?_textList rfl, List.forall_mem_nil _⟩

namespace Role

/-- The rules that a plain tree declares are shown as they are declared. -/
theorem ofChildren?_rules {r : Role} (h : schema.Plain block)
    (hexpand : expand (.obj block) = .ok r) :
    Block.ofChildren? ((r.rules.getD []).map PolicyRule.flatten) = block.lookup "policy_rule" := by
  obtain ⟨_, rules, _, _, hrules, rfl⟩ := expand_eq_ok.1 hexpand
  have htype : schema.typeOf? "policy_rule" = some (.block PolicyRule.schema false) := rfl
  show Block.ofChildren? (((Declaration.nonEmpty? rules).getD []).map _) = _
  rw [Declaration.getD_nonEmpty?]
  exact h.ofChildren?_children htype hrules fun _ hchild _ _ =>
    PolicyRule.flatten_expand (h.element htype hchild)

/-- A role that a plain tree declares is shown as this tree. -/
theorem flatten_expand {r : Role} (h : schema.Plain block) (hset : schema.UserSet block)
    (hexpand : expand (.obj block) = .ok r) : r.flatten (.obj block) = .obj block := by
  have hrules := ofChildren?_rules h hexpand
  obtain ⟨metaBlock, rules, hmeta, _, _, rfl⟩ := expand_eq_ok.1 hexpand
  have hmetaBack : (ObjectMeta.expand metaBlock).flatten (some metaBlock) = metaBlock :=
    ObjectMeta.flatten_expand (h.element rfl (Schema.mem_children_of_child? hmeta))
      (hset.child h.accepts rfl hmeta)
  have hprior : Tree.block? (.obj block) "metadata" = some metaBlock := hmeta
  rw [flatten_eq, hprior]
  refine congrArg Json.obj ((shown_accepts _ _).ext h.accepts ?_)
  simp only [schema, List.forall_mem_cons, lookup_shown]
  refine ⟨?_, hrules, List.forall_mem_nil _⟩
  rw [show (Field.single "metadata" ObjectMeta.schema .required).name = "metadata" from rfl,
    ← h.singular_child? rfl, hmeta]
  exact congrArg (fun b => some (Block.singular b)) hmetaBack

/-- The tree that shows a role can be stored if its metadata and its rules can. -/
theorem shown_storable {r : Role} {prior : Option Block}
    (hmeta : ObjectMeta.schema.Every Schema.Storable (r.metadata.flatten prior))
    (hrules : Schema.StorableField (.repeated "policy_rule" PolicyRule.schema .optional)
      ((r.shown prior).lookup "policy_rule")) :
    schema.Every Schema.Storable (r.shown prior) := by
  have hstored : Schema.StorableField (.single "metadata" ObjectMeta.schema .required)
      ((some (r.metadata.flatten prior)).map Block.singular) := by
    refine Schema.storableField_singular rfl ?_
    rintro _ ⟨⟩
    exact hmeta
  have hshown : (r.shown prior).lookup "metadata" =
      (some (r.metadata.flatten prior)).map Block.singular := r.lookup_shown prior "metadata"
  refine Schema.every_storable (List.forall_mem_cons.2 ⟨?_, List.forall_mem_cons.2 ⟨hrules,
    List.forall_mem_nil _⟩⟩)
  show Schema.StorableField _ ((r.shown prior).lookup "metadata")
  rw [hshown]
  exact hstored

/-- A role that a canonical tree declares is shown as it was declared. -/
theorem restoring : kind.Restoring "policy_rule" "rules" where
  canonicalDefaults := by decide
  metadata_mem := rfl
  expand_congr hexpand hmeta hname hroot := by
    obtain ⟨_, rules, _, _, hrules, rfl⟩ := expand_eq_ok.1 hexpand
    rw [Declaration.children, ← Block.children_congr hroot] at hrules
    exact ⟨_, expand_eq_ok.2 ⟨_, rules, hmeta, hname, hrules, rfl⟩⟩
  exists_shown {tree metaBlock declared live} htree hexpand hfollows hmeta hstored := by
    have hnodup : (schema.map (·.name)).Nodup := by decide
    have hnormal := htree.normal_fill lawful.wellNamed lawful.typedDefaults (by decide)
    have hrules : live.rules = declared.rules := rules_eq hfollows.content_eq
    have hfield : Field.repeated "policy_rule" PolicyRule.schema .optional ∈ schema := by
      simp [schema]
    have hshown : (live.shown (some metaBlock)).lookup "policy_rule" =
        (schema.fill none tree).lookup "policy_rule" := by
      have hdeclaredRules := ofChildren?_rules hnormal.toCanonical.plain hexpand
      rw [← hrules] at hdeclaredRules
      exact (live.lookup_shown _ "policy_rule").trans hdeclaredRules
    refine ⟨live.shown (some metaBlock), ?_, ?_, ?_⟩
    · have hprior : Tree.block? (.obj (schema.fill none tree)) "metadata" = some metaBlock := hmeta
      rw [← hprior]
      exact live.flatten_eq (.obj (schema.fill none tree))
    · have hfilled : (schema.fill (some (live.shown (some metaBlock))) tree).lookup "policy_rule" =
          Schema.fillValue (.repeated "policy_rule" PolicyRule.schema .optional)
            ((live.shown (some metaBlock)).lookup "policy_rule") (tree.lookup "policy_rule") :=
        Schema.lookup_fill hnodup hfield
      show (live.shown (some metaBlock)).lookup "policy_rule" =
        (schema.fill (some (live.shown (some metaBlock))) tree).lookup "policy_rule"
      rw [hfilled]
      exact (Schema.fillValue_again lawful.wellNamed htree.accepts hfield hshown).symm
    · refine shown_storable hstored ?_
      rw [hshown]
      exact hnormal.storableField hfield

end Role

end Reconcile
