import Mathlib.Data.List.Basic
import Reconcile.Proofs.Kind.Laws
import Reconcile.Role.Kind

/-!
# Roles are lawful

The content of a role are its rules.
-/

namespace Reconcile.Role

/-- A tree declares a role if its metadata block names it and every rule is well formed. -/
theorem expand_eq_ok {block : Block} {role : Role} : expand (.obj block) = .ok role ↔
    ∃ metaBlock rules, Block.child? block "metadata" = some metaBlock ∧
      ObjectMeta.hasName metaBlock = true ∧
      Declaration.children block "policy_rule" "policy_rule" PolicyRule.expand = .ok rules ∧
      role = { metadata := ObjectMeta.expand metaBlock, rules := Declaration.nonEmpty? rules } := by
  have hroot : Declaration.root (.obj block) = .ok block := rfl
  simp only [expand, hroot, Steps.bind_ok, Steps.bind_eq_ok_iff, Declaration.requiredBlock_eq_ok,
    ObjectMeta.requireName_eq_ok, Steps.pure_eq_ok, Except.ok.injEq]
  constructor
  · rintro ⟨metaBlock, hchild, _, hname, rules, hrules, rfl⟩
    exact ⟨metaBlock, rules, hchild, hname, hrules, rfl⟩
  · rintro ⟨metaBlock, rules, hchild, hname, hrules, rfl⟩
    exact ⟨metaBlock, hchild, (), hname, rules, hrules, rfl⟩

theorem content_rules (role : Role) : kind.content "rules" role =
    role.rules.map (Wire.array PolicyRule.toJson) := by
  show (Block.ofFields _).lookup "rules" = _
  rw [Block.lookup_ofFields (by simp)]
  rfl

/-- The rules of a role are declared by its tree and kept in one place of its wire form. -/
theorem lawful : kind.Lawful "policy_rule" "rules" where
  wellNamed := by decide
  typedDefaults := by decide
  mutablePaths_eq := rfl
  tokens?_key := by decide
  key_ne := by decide
  key_not_textMap := by decide
  toJson_eq _ := rfl
  ascending _ := Block.ascending_ofFields _
  lookup_metadata role := by
    show (Block.ofFields _).lookup "metadata" = _
    rw [Block.lookup_ofFields (by simp)]
    rfl
  metadata_expand h := by
    obtain ⟨metaBlock, rules, hchild, hname, _, rfl⟩ := expand_eq_ok.1 h
    exact ⟨metaBlock, hchild, hname, rfl⟩
  isSome_content haccepts h := by
    obtain ⟨metaBlock, rules, _, _, hrules, rfl⟩ := expand_eq_ok.1 h
    have hempty := Declaration.isEmpty_of_children hrules
    have hfield : Field.repeated "policy_rule" PolicyRule.schema .optional ∈ schema := by
      simp [schema]
    have hdeclared : Change.isDeclared (List.lookup "policy_rule" _) =
        !(Block.children _ "policy_rule").isEmpty := haccepts.isDeclared_eq hfield rfl
    rw [content_rules, Option.isSome_map, Declaration.nonEmpty?_isSome, hdeclared, hempty]
  content_congr h h' heq := by
    obtain ⟨_, rules, _, _, hrules, rfl⟩ := expand_eq_ok.1 h
    obtain ⟨_, rules', _, _, hrules', rfl⟩ := expand_eq_ok.1 h'
    rw [Declaration.children, Block.children_congr heq] at hrules
    rw [Declaration.children, hrules] at hrules'
    cases hrules'
    rw [content_rules, content_rules]

end Reconcile.Role
