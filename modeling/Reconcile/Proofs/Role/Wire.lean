import Mathlib.Data.List.Basic
import Reconcile.Proofs.Metadata.Wire
import Reconcile.Role.Object

/-!
# Roles on the wire

A role is read from its wire form, and so are its rules.
-/

namespace Reconcile

/-- What the wire form of a rule holds under a key. -/
theorem PolicyRule.lookup_toJson (r : PolicyRule) (k : String) :
    ((r.toJson.obj?).getD []).lookup k =
      (List.lookup k
        [("apiGroups", Wire.textList r.apiGroups),
         ("nonResourceURLs", Wire.textList r.nonResourceURLs),
         ("resourceNames", Wire.textList r.resourceNames),
         ("resources", Wire.textList r.resources),
         ("verbs", Wire.textList (some r.verbs))]).join :=
  Block.lookup_ofFields (by simp) k

theorem PolicyRule.ofJson?_toJson (r : PolicyRule) : ofJson? r.toJson = some r := by
  have hapiGroups := Wire.field?_textList (r.lookup_toJson "apiGroups")
  have hnonResourceURLs := Wire.field?_textList (r.lookup_toJson "nonResourceURLs")
  have hresourceNames := Wire.field?_textList (r.lookup_toJson "resourceNames")
  have hresources := Wire.field?_textList (r.lookup_toJson "resources")
  have hverbs : Wire.fieldD (Wire.list? Json.str?) [] _ "verbs" = some r.verbs :=
    Wire.fieldD_of_field? (Wire.field?_textList (r.lookup_toJson "verbs"))
  show (do let fields ← some ((r.toJson.obj?).getD []); _) = _
  simp only [Wire.some_bind, hapiGroups, hnonResourceURLs, hresourceNames,
    hresources, hverbs]

namespace Role

/-- What the wire form of a role holds under a key. -/
theorem lookup_toJson (r : Role) (k : String) :
    ((r.toJson.obj?).getD []).lookup k =
      (List.lookup k
        [("apiVersion", some (.str apiVersion)),
         ("kind", some (.str typeName)),
         ("metadata", some r.metadata.toJson),
         ("rules", r.rules.map (Wire.array PolicyRule.toJson))]).join :=
  Block.lookup_ofFields (by simp) k

/-- A role is read from its wire form. -/
theorem ofJson?_toJson (r : Role) : ofJson? r.toJson = some r := by
  have hapiVersion : Wire.constant? ((r.toJson.obj?).getD []) "apiVersion" apiVersion = some () :=
    Wire.constant?_of_lookup (r.lookup_toJson "apiVersion")
  have hkind : Wire.constant? ((r.toJson.obj?).getD []) "kind" typeName = some () :=
    Wire.constant?_of_lookup (r.lookup_toJson "kind")
  have hmetadata : Wire.fieldD ObjectMeta.ofJson? {} _ "metadata" = some r.metadata :=
    Wire.fieldD_of_lookup (r.lookup_toJson "metadata") r.metadata.ofJson?_toJson fun h => nomatch h
  have hrules := Wire.field?_list (r.lookup_toJson "rules") PolicyRule.ofJson?_toJson
  show (do let fields ← some ((r.toJson.obj?).getD []); _) = _
  simp only [Wire.some_bind, hapiVersion, hkind, hmetadata, hrules]

end Role

end Reconcile
