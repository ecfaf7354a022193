import Mathlib.Data.List.Basic
import Reconcile.Proofs.Kind.Observable
import Reconcile.Proofs.Role.Declaration
import Reconcile.Proofs.Role.Wire

/-!
# Roles are observable

A role that is deleted is not emptied first, so its rules are always the declared ones.
-/

namespace Reconcile.Role

/-- Roles with the same content have the same rules. -/
theorem rules_eq {r r' : Role} (h : kind.content "rules" r = kind.content "rules" r') :
    r.rules = r'.rules := by
  rw [content_rules, content_rules] at h
  have hread : ∀ rules : Option (List PolicyRule),
      (rules.map (Wire.array PolicyRule.toJson)).bind (Wire.list? PolicyRule.ofJson?) = rules := by
    intro rules
    cases rules with
    | none => rfl
    | some items => exact Wire.list?_array fun rule _ => rule.ofJson?_toJson
  rw [← hread r.rules, h, hread]

/-- The rules that a tree declares are declared ones. -/
theorem declared_rules {block : Block} {r : Role} (h : expand (.obj block) = .ok r) :
    r.rules ≠ some [] ∧ ∀ rule ∈ r.rules.getD [], rule.Declared := by
  obtain ⟨_, rules, _, _, hrules, rfl⟩ := expand_eq_ok.1 h
  refine ⟨Declaration.nonEmpty?_ne _, fun rule hrule => ?_⟩
  rw [Declaration.getD_nonEmpty?] at hrule
  obtain ⟨_, _, _, hexpand⟩ := Declaration.exists_of_mem_children hrules hrule
  exact PolicyRule.declared_of_expand hexpand

/-- A role that follows a declared one has its rules. -/
theorem rules_of_follows {interrupted : Bool} {declared live : Role}
    (h : kind.Follows "rules" interrupted declared live) : live.rules = declared.rules := by
  rcases h.content with hsame | ⟨_, hdrained⟩
  · exact rules_eq hsame
  · exact rules_eq hdrained

/-- The tree that shows a role declares it again. -/
theorem observable : kind.Observable "rules" where
  key_ne_status := by decide
  ofJson?_toJson := ofJson?_toJson
  metadata_withMetadata _ _ := rfl
  content_withMetadata r m := by rw [content_rules, content_rules]; rfl
  exists_graft live other m := by
    refine ⟨{ metadata := m, rules := other.rules }, fun k => ?_⟩
    rw [content_rules]
    have hfields : ∀ r : Role, (kind.fields r).lookup k = _ := fun r => r.lookup_toJson k
    rw [hfields, hfields]
    by_cases hrules : k = "rules"
    · subst hrules
      rfl
    · by_cases hmeta : k = "metadata"
      · subst hmeta
        rfl
      · have hrules' : (k == "rules") = false := beq_eq_false_iff_ne.2 hrules
        have hmeta' : (k == "metadata") = false := beq_eq_false_iff_ne.2 hmeta
        simp only [if_neg hrules, if_neg hmeta, List.lookup_cons, hrules', hmeta']
  isSome_drained _ _ := rfl
  drained_congr _ _ _ _ h := h
  performAll?_drain _ _ _ h := nomatch h
  flatten_follows {block declared live name} _ hexpand hfollows hname hne := by
    obtain ⟨metaBlock, hprior, hdeclared⟩ := hfollows.declaredBy lawful hexpand
    obtain ⟨hempty, hrules⟩ := declared_rules hexpand
    rw [← rules_of_follows hfollows] at hempty hrules
    refine ⟨live.shown (some metaBlock), _, ?_, live.shown_accepts _,
      expand_shown (ObjectMeta.hasName_flatten hname hne _) hempty hrules, ?_⟩
    · rw [← hprior]
      exact live.flatten_eq (.obj block)
    · refine ⟨(ObjectMeta.labels_flatten hdeclared).symm,
        (ObjectMeta.annotations_flatten hdeclared).symm, .inl ?_⟩
      rw [content_rules, content_rules]

end Reconcile.Role
