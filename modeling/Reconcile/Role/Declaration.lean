import Reconcile.Declaration
import Reconcile.Metadata.Declaration
import Reconcile.Role.Object

/-!
# Roles in configuration trees

`Role.expand` reads the role that a tree declares, and `Role.flatten` shows an observed role as a
tree. A rule without verbs would allow nothing and is refused.
-/

namespace Reconcile

/-- The block of a rule. -/
def PolicyRule.schema : Schema :=
  [.textList "api_groups" .optional,
   .textList "non_resource_urls" .optional,
   .textList "resource_names" .optional,
   .textList "resources" .optional,
   .textList "verbs" .required]

/-- The tree of a role. -/
def Role.schema : Schema :=
  [.single "metadata" ObjectMeta.schema .required,
   .repeated "policy_rule" PolicyRule.schema .optional]

/-- The rule that a block declares. -/
def PolicyRule.expand (path : String) (block : Block) : Except Failure PolicyRule :=
  let verbs := Block.textList block "verbs"
  if verbs.isEmpty then .error (.malformed (.verbsRequired path))
  else .ok {
    apiGroups := Declaration.nonEmpty? (Block.textList block "api_groups")
    nonResourceURLs := Declaration.nonEmpty? (Block.textList block "non_resource_urls")
    resourceNames := Declaration.nonEmpty? (Block.textList block "resource_names")
    resources := Declaration.nonEmpty? (Block.textList block "resources")
    verbs := verbs }

/-- The block of an observed rule. -/
def PolicyRule.flatten (r : PolicyRule) : Block :=
  Block.ofFields
    [("api_groups", Block.ofTextList? (r.apiGroups.getD [])),
     ("non_resource_urls", Block.ofTextList? (r.nonResourceURLs.getD [])),
     ("resource_names", Block.ofTextList? (r.resourceNames.getD [])),
     ("resources", Block.ofTextList? (r.resources.getD [])),
     ("verbs", Block.ofTextList? r.verbs)]

namespace Role

/-- The role that a tree declares. -/
def expand (tree : Tree) : Except Failure Role := do
  let root ← Declaration.root tree
  let metaBlock ← Declaration.requiredBlock root "metadata" "metadata"
  ObjectMeta.requireName metaBlock
  let rules ← Declaration.children root "policy_rule" "policy_rule" PolicyRule.expand
  pure { metadata := ObjectMeta.expand metaBlock, rules := Declaration.nonEmpty? rules }

/-- The tree of an observed role, with a prior tree to merge and filter against. -/
def flatten (r : Role) (prior : Tree) : Tree :=
  .obj <| Block.ofFields
    [("metadata",
       some (Block.singular (r.metadata.flatten (Tree.block? prior "metadata")))),
     ("policy_rule", Block.ofChildren? ((r.rules.getD []).map PolicyRule.flatten))]

end Role

end Reconcile
