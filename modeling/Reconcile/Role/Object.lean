import Reconcile.Metadata.Object

/-!
# Roles

A role grants verbs on resources of the API within one namespace.
-/

namespace Reconcile

/-- What a rule of a role allows to do with what. -/
structure PolicyRule where
  apiGroups : Option (List String) := none
  nonResourceURLs : Option (List String) := none
  resourceNames : Option (List String) := none
  resources : Option (List String) := none
  verbs : List String := []
  deriving DecidableEq, Inhabited

/-- A role. -/
structure Role where
  metadata : ObjectMeta := {}
  rules : Option (List PolicyRule) := none
  deriving DecidableEq, Inhabited

/-- The wire form of a rule. -/
def PolicyRule.toJson (r : PolicyRule) : Json :=
  Wire.object
    [("apiGroups", Wire.textList r.apiGroups),
     ("nonResourceURLs", Wire.textList r.nonResourceURLs),
     ("resourceNames", Wire.textList r.resourceNames),
     ("resources", Wire.textList r.resources),
     ("verbs", Wire.textList (some r.verbs))]

/-- The rule of a wire form. -/
def PolicyRule.ofJson? (value : Json) : Option PolicyRule := do
  let fields ← value.obj?
  some {
    apiGroups := ← Wire.field? (Wire.list? Json.str?) fields "apiGroups"
    nonResourceURLs := ← Wire.field? (Wire.list? Json.str?) fields "nonResourceURLs"
    resourceNames := ← Wire.field? (Wire.list? Json.str?) fields "resourceNames"
    resources := ← Wire.field? (Wire.list? Json.str?) fields "resources"
    verbs := ← Wire.fieldD (Wire.list? Json.str?) [] fields "verbs" }

namespace Role

/-- The version of the API that roles belong to. -/
def apiVersion : String := "rbac.authorization.k8s.io/v1"

/-- The name of the type in the API. -/
def typeName : String := "Role"

/-- The wire form of a role. -/
def toJson (r : Role) : Json :=
  Wire.object
    [("apiVersion", some (.str apiVersion)),
     ("kind", some (.str typeName)),
     ("metadata", some r.metadata.toJson),
     ("rules", r.rules.map (Wire.array PolicyRule.toJson))]

/-- The role of a wire form. -/
def ofJson? (value : Json) : Option Role := do
  let fields ← value.obj?
  Wire.constant? fields "apiVersion" apiVersion
  Wire.constant? fields "kind" typeName
  some {
    metadata := ← Wire.fieldD ObjectMeta.ofJson? {} fields "metadata"
    rules := ← Wire.field? (Wire.list? PolicyRule.ofJson?) fields "rules" }

end Role

end Reconcile
