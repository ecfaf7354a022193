import Mathlib.Data.List.Basic
import Reconcile.Deployment.Kind
import Reconcile.Proofs.Block.Fields
import Reconcile.Proofs.Block.Nested
import Reconcile.Proofs.Record.RoundTrip
import Reconcile.Resource.Basic

/-!
# Trees of deployments of version 0

A tree of version 0 has its name beside the metadata and the fields of the pods' specification
beside the metadata of the template. `upgraded` is the tree of the current shape that holds the same
values. What a record keeps of a tree is `remaining`: where the metadata are there but have no
element, the name gets lost (`NameLost`).
-/

namespace Reconcile

/-- The block of a template in version 0, with the fields of the pods' specification beside the
metadata. -/
def PodTemplate.schema0 : Schema :=
  .single "metadata" ObjectMeta.templateSchema .optional :: PodSpec.schema

/-- The block of a deployment's desired content in version 0. -/
def DeploymentSpec.schema0 : Schema :=
  DeploymentSpec.schema.map fun field =>
    if field.name = "template" then .single "template" PodTemplate.schema0 .required else field

namespace Deployment

open Schema

/-- The tree of a deployment in version 0, with the name beside the metadata. -/
def schema0 : Schema :=
  [.text "name" .optional,
   .single "metadata" ObjectMeta.schema .required,
   .single "spec" DeploymentSpec.schema0 .required,
   .single "status" DeploymentStatus.schema .computed]

/-- A tree of version 0 with its specification and the template in it. -/
structure Version0 (block spec template : Block) : Prop where
  accepts : schema0.Accepts block
  storable : schema0.Every Storable block
  name_ne : block.lookup "name" ≠ some (.str "")
  metadata_le : (Block.children block "metadata").length ≤ 1
  spec_eq : block.lookup "spec" = some (Block.singular spec)
  template_eq : spec.lookup "template" = some (Block.singular template)
  /-- A field of the pods' specification is there. -/
  loose : ∃ key ∈ template.map (·.1), key ≠ "metadata"

/-- The record that a tree of version 0 was stored as. -/
def record0 (id : Option Identity) (block : Block) : Record where
  id := (id.map Identity.text).getD ""
  version := 0
  attributes := Schema.toAttributes schema0 (.obj block)

/-- The first version has the content of a deployment in a singular block. -/
theorem spec_mem_schema0 :
    Field.single "spec" DeploymentSpec.schema0 .required ∈ schema0 := by
  simp [schema0]

/-- The first version has the template in a singular block of the content. -/
theorem template_mem_schema0 :
    Field.single "template" PodTemplate.schema0 .required ∈ DeploymentSpec.schema0 :=
  List.mem_map.2 ⟨.single "template" PodTemplate.schema .required, by simp [DeploymentSpec.schema],
    rfl⟩

/-! ## Trees in the current shape -/

/-- The template with the fields of the pods' specification in a block of their own. -/
def upgradedTemplate (template : Block) : Block :=
  Block.ofFields
    [("metadata", template.lookup "metadata"),
     ("spec", some (Block.singular (Entries.erase "metadata" template)))]

/-- The desired content with the template in its current shape and the two defaults. -/
def upgradedSpec (spec : Block) : Block :=
  let template := (Block.child? spec "template").getD []
  let paused := (spec.lookup "paused").getD (.bool false)
  let deadline := (spec.lookup "progress_deadline_seconds").getD (.int 600)
  Entries.insert "template" (Block.singular (upgradedTemplate template))
    (Entries.insert "paused" paused (Entries.insert "progress_deadline_seconds" deadline spec))

/-- The metadata with the name in them, unless they have one that is not empty. -/
def upgradedMetadata (block : Block) : Option Json :=
  match Block.text? block "name" with
  | none => block.lookup "metadata"
  | some name =>
    let metaBlock := (Block.child? block "metadata").getD []
    some <| Block.singular <|
      if (Block.text? metaBlock "name").isSome then metaBlock
      else Entries.insert "name" (.str name) metaBlock

/-- The tree of version 0 in the current shape. -/
def upgraded (block : Block) : Block :=
  Block.ofFields
    [("metadata", upgradedMetadata block),
     ("spec", (Block.child? block "spec").map fun spec => Block.singular (upgradedSpec spec)),
     ("status", block.lookup "status")]

/-- There is a name to be moved into metadata that are there but have no element. -/
def NameLost (block : Block) : Prop :=
  (Block.text? block "name").isSome ∧ block.lookup "metadata" = some (.arr [])

instance : DecidablePred NameLost := fun block =>
  inferInstanceAs (Decidable ((Block.text? block "name").isSome ∧ _))

/-- What is left of a tree: all of it, unless its name is lost. -/
def remaining (block : Block) : Block :=
  if NameLost block then Entries.erase "name" block else block

/-! ## What the trees hold -/

section Lookups

variable {block spec template : Block} {key : String}

/-- An upgraded template has its metadata, and everything else in a block for the pod. -/
theorem lookup_upgradedTemplate (template : Block) (key : String) :
    (upgradedTemplate template).lookup key =
      if key = "metadata" then template.lookup "metadata"
      else if key = "spec" then some (Block.singular (Entries.erase "metadata" template))
      else none := by
  rw [upgradedTemplate, Block.lookup_ofFields (by simp)]
  by_cases hmeta : key = "metadata"
  · subst hmeta
    rfl
  · by_cases hspec : key = "spec"
    · subst hspec
      rfl
    · rw [Entries.lookup_cons_of_ne hmeta, Entries.lookup_cons_of_ne hspec, if_neg hmeta,
        if_neg hspec]
      rfl

/-- Upgraded content has the upgraded template and the two new defaults, and is otherwise as it was.
-/
theorem lookup_upgradedSpec (htemplate : spec.lookup "template" = some (Block.singular template))
    (key : String) : (upgradedSpec spec).lookup key =
      if key = "template" then some (Block.singular (upgradedTemplate template))
      else if key = "paused" then some ((spec.lookup "paused").getD (.bool false))
      else if key = "progress_deadline_seconds" then
        some ((spec.lookup "progress_deadline_seconds").getD (.int 600))
      else spec.lookup key := by
  have hchild : Block.child? spec "template" = some template :=
    Block.child?_eq_some_iff.2 ⟨[], htemplate⟩
  simp only [upgradedSpec, hchild, Option.getD_some, Entries.lookup_insert]

/-- An upgraded tree has metadata, content and status. Its name has gone into the metadata. -/
theorem lookup_upgraded (hspec : block.lookup "spec" = some (Block.singular spec)) (key : String) :
    (upgraded block).lookup key =
      if key = "metadata" then upgradedMetadata block
      else if key = "spec" then some (Block.singular (upgradedSpec spec))
      else if key = "status" then block.lookup "status"
      else none := by
  have hchild : Block.child? block "spec" = some spec :=
    Block.child?_eq_some_iff.2 ⟨[], hspec⟩
  rw [upgraded, Block.lookup_ofFields (by simp), hchild]
  by_cases hmeta : key = "metadata"
  · subst hmeta
    rfl
  · by_cases hkey : key = "spec"
    · subst hkey
      rfl
    · by_cases hstatus : key = "status"
      · subst hstatus
        rfl
      · rw [Entries.lookup_cons_of_ne hmeta, Entries.lookup_cons_of_ne hkey,
          Entries.lookup_cons_of_ne hstatus, if_neg hmeta, if_neg hkey, if_neg hstatus]
        rfl

/-- Without a name the metadata stay as they are. -/
theorem upgradedMetadata_of_unnamed (h : Block.text? block "name" = none) :
    upgradedMetadata block = block.lookup "metadata" := by
  rw [upgradedMetadata, h]

/-- A name goes into the first block of the metadata, unless this block has a name of its own. -/
theorem upgradedMetadata_of_named {name : String} {metaBlock : Block}
    (h : Block.text? block "name" = some name)
    (hchild : (Block.child? block "metadata").getD [] = metaBlock) :
    upgradedMetadata block = some (Block.singular
      (if (Block.text? metaBlock "name").isSome then metaBlock
        else Entries.insert "name" (.str name) metaBlock)) := by
  rw [upgradedMetadata, h, hchild]

/-- All of a tree remains if its name is not lost. -/
theorem remaining_of_not_lost (h : ¬ NameLost block) : remaining block = block := if_neg h

/-- Nothing but the name is lost. -/
theorem lookup_remaining {key : String} (hne : key ≠ "name") :
    (remaining block).lookup key = block.lookup key := by
  unfold remaining
  split
  · rw [Entries.lookup_erase, if_neg hne]
  · rfl

/-- Metadata without elements remain so. -/
theorem upgradedMetadata_remaining_of_empty (h : block.lookup "metadata" = some (.arr [])) :
    upgradedMetadata (remaining block) = some (.arr []) := by
  cases htext : Block.text? block "name" with
  | none =>
      have hkept : ¬ NameLost block := fun hlost => by simpa [htext] using hlost.1
      rw [remaining_of_not_lost hkept, upgradedMetadata_of_unnamed htext, h]
  | some name =>
      have hlost : NameLost block := ⟨by rw [htext]; rfl, h⟩
      have hunnamed : Block.text? (Entries.erase "name" block) "name" = none := by
        rw [Block.text?, Entries.lookup_erase, if_pos rfl]
        rfl
      rw [remaining, if_pos hlost, upgradedMetadata_of_unnamed hunnamed, Entries.lookup_erase,
        if_neg (by decide), h]

end Lookups

end Deployment

end Reconcile
