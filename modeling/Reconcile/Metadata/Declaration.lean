import Reconcile.Failure
import Reconcile.Metadata.Object
import Reconcile.Schema.Basic

/-!
# Metadata in configuration trees

`ObjectMeta.expand` reads the metadata that a tree declares, and `ObjectMeta.flatten` shows
observed metadata as a block. Labels are merged: a declared label stays in the block even where
the object has lost it. Annotations are filtered: the cluster's own annotations stay out unless
they were declared.
-/

namespace Reconcile.ObjectMeta

/-- The metadata block of an object. -/
def schema : Schema :=
  [.text "name" .optionalComputed,
   .text "generate_name" .optional,
   .text "namespace" .optionalComputed,
   .textMap "labels" .optional,
   .textMap "annotations" .optional,
   .int "generation" .computed,
   .text "resource_version" .computed,
   .text "self_link" .computed,
   .text "uid" .computed]

/-- The metadata block of the pods of a template. -/
def templateSchema : Schema :=
  [.text "name" .optional,
   .text "generate_name" .optional,
   .textMap "labels" .optional,
   .textMap "annotations" .optional]

/-- A dictionary, if it is not empty. -/
def nonEmpty? (d : Dict String) : Option (Dict String) := if d.isEmpty then none else some d

/-- The metadata that a block declares. -/
def expand (block : Block) : ObjectMeta where
  name := Block.text? block "name"
  generateName := Block.text? block "generate_name"
  ns := Block.text? block "namespace"
  labels := nonEmpty? (Block.texts block "labels")
  annotations := nonEmpty? (Block.texts block "annotations")

/-- Whether a block declares a name or the beginning of one. -/
def hasName (block : Block) : Bool :=
  (Block.text? block "name").isSome || (Block.text? block "generate_name").isSome

/-- A metadata block has to declare a name or the beginning of one. -/
def requireName (block : Block) : Except Failure Unit :=
  if hasName block then .ok () else .error (.malformed .nameRequired)

/-- The domains that the cluster keeps for its own keys. -/
def internalDomains : List String := ["kubernetes.io", "k8s.io"]

/-- Whether a domain is the given one or one below it. -/
def isWithin (domain given : String) : Bool :=
  domain == given || ('.' :: given.toList).isSuffixOf domain.toList

/-- Whether a key belongs to the cluster: its part before the first slash is one of the cluster's
domains or below one. -/
def isInternalKey (key : String) : Bool :=
  match Text.cut? '/' key with
  | some (domain, _) => internalDomains.any (isWithin domain)
  | none => false

/-- The labels that a prior block declares and those observed, which win. -/
def mergeLabels (prior : Option Block) (observed : Option (Dict String)) : Dict String :=
  let declared := (prior.map (Block.texts · "labels")).getD Dict.empty
  declared.union (observed.getD Dict.empty)

/-- The observed annotations without the cluster's own, unless a prior block declares them. -/
def filterAnnotations (prior : Option Block) (observed : Option (Dict String)) : Dict String :=
  let declared := (prior.map (Block.texts · "annotations")).getD Dict.empty
  (observed.getD Dict.empty).filter fun key _ => !isInternalKey key || declared.contains key

/-- The fields that the metadata of objects and of templates share. -/
def sharedFields (m : ObjectMeta) (prior : Option Block) : List (String × Option Json) :=
  [("name", Block.ofText? m.name),
   ("generate_name", Block.ofText? m.generateName),
   ("labels", Block.ofTexts? (mergeLabels prior m.labels)),
   ("annotations", Block.ofTexts? (filterAnnotations prior m.annotations))]

/-- The block of a template's metadata. -/
def flattenTemplate (m : ObjectMeta) (prior : Option Block) : Block :=
  Block.ofFields (m.sharedFields prior)

/-- The block of an object's metadata, with what the server assigned. -/
def flatten (m : ObjectMeta) (prior : Option Block) : Block :=
  Block.ofFields <| m.sharedFields prior ++
    [("namespace", Block.ofText? m.ns),
     ("generation", Block.ofInt? (m.generation.map Int64.toInt)),
     ("resource_version", Block.ofText? m.resourceVersion),
     ("self_link", Block.ofText? m.selfLink),
     ("uid", Block.ofText? m.uid)]

end Reconcile.ObjectMeta
