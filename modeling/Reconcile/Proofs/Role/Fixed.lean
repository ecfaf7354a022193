import Mathlib.Data.List.Basic
import Reconcile.Proofs.Metadata.Fixed
import Reconcile.Proofs.Role.Observable

/-!
# Roles that are shown again

The tree that shows a declared role declares it again, and showing it against this tree makes the
same tree.
-/

namespace Reconcile.Role

variable {tree : Block} {r : Role}

/-- A role is shown against the metadata block of a tree. -/
theorem flatten_of_block (r : Role) {metaBlock : Block}
    (hmeta : Block.child? tree "metadata" = some metaBlock) :
    r.flatten (.obj tree) = .obj (r.shown (some metaBlock)) := by
  rw [← hmeta]
  exact r.flatten_eq (.obj tree)

/-- A declared role is declared again by the tree that shows it. -/
theorem expand_flatten (h : expand (.obj tree) = .ok r) :
    expand (r.flatten (.obj tree)) = .ok r := by
  obtain ⟨hempty, hrules⟩ := declared_rules h
  obtain ⟨metaBlock, rules, hmeta, hname, _, hr⟩ := expand_eq_ok.1 h
  have hmetadata : r.metadata = ObjectMeta.expand metaBlock := by rw [hr]
  have hnameShown : ObjectMeta.hasName (r.metadata.flatten (some metaBlock)) = true := by
    rw [hmetadata]
    exact ObjectMeta.hasName_flatten_expand hname
  rw [r.flatten_of_block hmeta, expand_shown hnameShown hempty hrules, hmetadata,
    ObjectMeta.expand_flatten_expand, ← hmetadata]

/-- A declared role is shown the same against the tree that shows it. -/
theorem flatten_flatten (h : expand (.obj tree) = .ok r) :
    r.flatten (r.flatten (.obj tree)) = r.flatten (.obj tree) := by
  obtain ⟨metaBlock, rules, hmeta, _, _, hr⟩ := expand_eq_ok.1 h
  have hdeclared : r.metadata.DeclaredBy (some metaBlock) := by
    rw [hr]
    exact ObjectMeta.declaredBy_expand metaBlock
  have hmetaShown : Block.child? (r.shown (some metaBlock)) "metadata" =
      some (r.metadata.flatten (some metaBlock)) :=
    Block.child?_of_lookup (r.lookup_shown _ "metadata")
  have hsame := ObjectMeta.flatten_congr hdeclared.flatten hdeclared
  rw [r.flatten_of_block hmeta, r.flatten_of_block hmetaShown, shown, shown, hsame]

end Reconcile.Role
