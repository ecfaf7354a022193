import Mathlib.Data.List.Basic
import Reconcile.Proofs.Deployment.Gathered
import Reconcile.Proofs.Resource.Stored

/-!
# Loading deployments of version 0

A record that a tree of version 0 was stored as is always loaded, and `load_version0` says as what.
The tree keeps all of its values, except that a name is lost beside metadata that are there without
an element: their counter is not raised when the name is moved into them.
-/

namespace Reconcile.Deployment

open Schema

variable {block spec template : Block}

/-- The record holds the tree that was stored. -/
theorem holdsBlock_record0 (id : Option Identity) (h : Version0 block spec template) :
    HoldsBlock (record0 id block).attributes schema0 "" block :=
  write_holdsBlock (by decide) h.accepts h.storable fun _ _ _ _ => rfl

section Upgraded

variable {attributes : Attributes} (hheld : HoldsBlock attributes schema0 "" block)
  (h : Version0 block spec template)

include hheld h

/-- After both steps the metadata hold what is left of the name. -/
theorem holdsField_upgraded_metadata :
    HoldsField (bothSteps attributes) (.block ObjectMeta.schema true) "metadata"
      (upgradedMetadata (remaining block)) := by
  have hname := hheld.field (List.mem_cons_self : Field.text "name" .optional ∈ schema0)
  have hmeta := hheld.field (by simp [schema0] :
    Field.single "metadata" ObjectMeta.schema .required ∈ schema0)
  rw [String.empty_append] at hname hmeta
  exact holdsField_metadata hname h.name_ne hmeta h.metadata_le

/-- After both steps the specification holds a template that surrounds what it was made of. -/
theorem holdsValue_upgraded_spec (hfree : Vacant attributes podKey) :
    HoldsValue (bothSteps attributes) (.block DeploymentSpec.schema true) "spec"
      (Block.singular (upgradedSpec spec)) := by
  have hvalue := hheld.present _ spec_mem_schema0 _ h.spec_eq
  rw [String.empty_append] at hvalue
  obtain ⟨hcounter, hblock⟩ := hvalue.element
  have hbegin : elementPrefix "spec" 0 = "spec.0." := by decide
  refine .of_element (get?_bothSteps_specCounter.trans hcounter) ?_
  exact hbegin.symm ▸ holdsBlock_spec hfree (hbegin ▸ hblock) h.template_eq h.loose

omit h in
/-- Neither step touches the status. -/
theorem holdsField_upgraded_status :
    HoldsField (bothSteps attributes) (.block DeploymentStatus.schema true) "status"
      (block.lookup "status") := by
  have hfield := hheld.field (by simp [schema0] :
    Field.single "status" DeploymentStatus.schema .computed ∈ schema0)
  rw [String.empty_append] at hfield
  exact hfield.congr fun k hk =>
    get?_bothSteps_of_root (by decide) (by decide) (by decide) (by decide) hk

end Upgraded

/-- After both steps the record holds what is left of the tree, in the current shape. -/
theorem holdsBlock_upgraded (id : Option Identity) (h : Version0 block spec template) :
    HoldsBlock (bothSteps (record0 id block).attributes) Deployment.schema ""
      (upgraded (remaining block)) := by
  have hheld := holdsBlock_record0 id h
  have hspec : (remaining block).lookup "spec" = some (Block.singular spec) := by
    rw [lookup_remaining (by decide), h.spec_eq]
  have hlookup := lookup_upgraded hspec
  refine holdsBlock_iff.2 ⟨.of_lookup (Block.ascending_ofFields _) fun key hkey => ?_, ?_⟩
  · simp only [Deployment.schema, Field.single, List.map_cons, List.map_nil, List.mem_cons,
      List.not_mem_nil, or_false, not_or] at hkey
    rw [hlookup, if_neg hkey.1, if_neg hkey.2.1, if_neg hkey.2.2]
  · rw [Deployment.schema, List.forall_mem_cons, List.forall_mem_cons, List.forall_mem_singleton]
    simp only [String.empty_append]
    refine ⟨?_, ?_, ?_⟩
    · show HoldsField _ _ "metadata" ((upgraded (remaining block)).lookup "metadata")
      rw [hlookup, if_pos rfl]
      exact holdsField_upgraded_metadata hheld h
    · show HoldsField _ _ "spec" ((upgraded (remaining block)).lookup "spec")
      rw [hlookup, if_neg (by decide), if_pos rfl]
      exact holdsValue_upgraded_spec hheld h (vacant_podKey block)
    · show HoldsField _ _ "status" ((upgraded (remaining block)).lookup "status")
      rw [hlookup, if_neg (by decide), if_neg (by decide), if_pos rfl,
        lookup_remaining (by decide)]
      exact holdsField_upgraded_status hheld

/-- A tree survives as a whole exactly if its name does. -/
theorem upgraded_remaining_eq_iff (h : Version0 block spec template) :
    upgraded (remaining block) = upgraded block ↔ ¬ NameLost block := by
  constructor
  · intro heq hlost
    obtain ⟨name, hname⟩ := Option.isSome_iff_exists.1 hlost.1
    have hspec : (remaining block).lookup "spec" = some (Block.singular spec) := by
      rw [lookup_remaining (by decide), h.spec_eq]
    have hmetadata : (upgraded (remaining block)).lookup "metadata" =
        (upgraded block).lookup "metadata" := by rw [heq]
    rw [lookup_upgraded hspec, if_pos rfl, lookup_upgraded h.spec_eq, if_pos rfl,
      upgradedMetadata_remaining_of_empty hlost.2, upgradedMetadata_of_named hname rfl] at hmetadata
    cases hmetadata
  · intro hkept
    rw [remaining_of_not_lost hkept]

/-- A record of version 0 is brought to the latest version by both steps. -/
theorem upgradeRecord_record0 (id : Option Identity) (h : Version0 block spec template) :
    upgrades.upgradeRecord (record0 id block) = .ok ⟨(record0 id block).id, upgrades.latest,
      bothSteps (record0 id block).attributes⟩ := by
  have hnonempty : (record0 id block).attributes.isEmpty = false := by
    rw [Bool.eq_false_iff, Ne, Dict.isEmpty_iff]
    intro hempty
    have hheld := (holdsBlock_record0 id h).present _ spec_mem_schema0 _ h.spec_eq
    have hcounter := hheld.element.1
    rw [hempty] at hcounter
    cases hcounter
  have hversion : (record0 id block).version ≤ upgrades.latest := Nat.zero_le _
  rw [Upgrades.upgradeRecord, Record.isEmpty, hnonempty, if_neg Bool.false_ne_true,
    Upgrades.upgrade_eq hnonempty hversion]
  rfl

/-- What is left of a tree of version 0 is loaded from its record, in the current shape. -/
theorem load_record0 (id : Option Identity) (h : Version0 block spec template) :
    Resource.load kind (record0 id block) = .ok ⟨id, .obj (upgraded (remaining block))⟩ := by
  refine Resource.load_of_upgraded (upgradeRecord_record0 id h) (Identity.ofStored_getD id) ?_
  show (Schema.read Deployment.schema _ "" []).map Json.obj = _
  rw [(holdsBlock_upgraded id h).read_eq]
  rfl

/-- A tree of version 0 is always loaded. It is loaded as the same tree in the current shape, with
the name and the fields of the pods' specification in blocks of their own and with defaults for the
two new fields, exactly if it does not have a name beside metadata without an element; the name
alone is lost otherwise. -/
theorem load_version0 (id : Option Identity) (h : Version0 block spec template) :
    Resource.load kind (record0 id block) = .ok ⟨id, .obj (upgraded (remaining block))⟩ ∧
      (Resource.load kind (record0 id block) = .ok ⟨id, .obj (upgraded block)⟩ ↔
        ¬ NameLost block) := by
  refine ⟨load_record0 id h, ?_⟩
  rw [load_record0 id h, Except.ok.injEq, Resource.mk.injEq, Json.obj.injEq]
  exact (and_iff_right rfl).trans (upgraded_remaining_eq_iff h)

/-! ## Two records -/

/-- A template of version 0 with a container and a selector whose keys look like paths. -/
def looseTemplate : Block :=
  [("container", .arr [.obj [("name", .str "web"), ("port", .arr [.obj [("container_port",
      .int 80)]])]]),
   ("metadata", .arr [.obj [("labels", .obj [("app", .str "web")])]]),
   ("node_selector", .obj [("metadata.0", .str "a"), ("spec.#", .str "b")])]

/-- The desired content of version 0 around the template. -/
def looseSpec : Block := [("replicas", .int 2), ("template", Block.singular looseTemplate)]

/-- A name and labels of version 0. -/
def labelledBlock : Block :=
  [("metadata", .arr [.obj [("labels", .obj [("name", .str "web")])]]), ("name", .str "web"),
   ("spec", Block.singular looseSpec)]

/-- The name joins the labels, and keys that look like paths stay keys of the selector. -/
theorem load_version0_labelled : Version0 labelledBlock looseSpec looseTemplate ∧
    Resource.load kind (record0 none labelledBlock) = .ok ⟨none, .obj
      [("metadata", .arr [.obj [("labels", .obj [("name", .str "web")]), ("name", .str "web")]]),
       ("spec", .arr [.obj [("paused", .bool false), ("progress_deadline_seconds", .int 600),
         ("replicas", .int 2),
         ("template", .arr [.obj
           [("metadata", .arr [.obj [("labels", .obj [("app", .str "web")])]]),
            ("spec", .arr [.obj
              [("container", .arr [.obj [("name", .str "web"),
                 ("port", .arr [.obj [("container_port", .int 80)]])]]),
               ("node_selector",
                 .obj [("metadata.0", .str "a"), ("spec.#", .str "b")])]])]])]])]⟩ := by
  have hversion : Version0 labelledBlock looseSpec looseTemplate :=
    ⟨by decide, by decide, by decide, by decide, rfl, rfl, by decide⟩
  exact ⟨hversion, (load_version0 none hversion).1.trans (by decide)⟩

/-- A template of version 0 with nothing but a container. -/
def plainTemplate : Block := [("container", Block.singular [("name", .str "web")])]

/-- A name beside metadata without an element. -/
def emptiedBlock : Block :=
  [("metadata", .arr []), ("name", .str "web"),
   ("spec", Block.singular [("template", Block.singular plainTemplate)])]

/-- The name is moved below metadata that are counted as having no element, and gets lost. -/
theorem load_record0_emptied :
    let spec : Json := .arr [.obj [("paused", .bool false), ("progress_deadline_seconds", .int 600),
      ("template", .arr [.obj [("spec", .arr [.obj plainTemplate])]])]]
    Version0 emptiedBlock [("template", Block.singular plainTemplate)] plainTemplate ∧
      Resource.load kind (record0 none emptiedBlock) =
        .ok ⟨none, .obj [("metadata", .arr []), ("spec", spec)]⟩ ∧
      upgraded emptiedBlock =
        [("metadata", .arr [.obj [("name", .str "web")]]), ("spec", spec)] := by
  have hversion : Version0 emptiedBlock [("template", Block.singular plainTemplate)]
      plainTemplate := ⟨by decide, by decide, by decide, by decide, rfl, rfl, by decide⟩
  exact ⟨hversion, (load_record0 none hversion).trans (by decide), by decide⟩

end Reconcile.Deployment
