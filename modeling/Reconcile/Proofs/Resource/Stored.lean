import Mathlib.Data.List.Basic
import Reconcile.Proofs.Identity.Texts
import Reconcile.Proofs.Kind.Managed
import Reconcile.Proofs.Record.Decoded
import Reconcile.Proofs.Record.Legible
import Reconcile.Proofs.Record.Upgrading
import Reconcile.Resource.Basic

/-!
# Stored resources

A resource whose tree conforms to the schema of its kind is loaded again from the record that it
was stored as (`Resource.load_store`), since nothing is left to upgrade in it. What was loaded
from any record at all is such a resource, so storing it and loading it again is stable
(`Resource.load_stable`). Any other tree is stored as a record that can be loaded all the same
(`Resource.exists_load_store`).
-/

namespace Reconcile

namespace Resource

variable {α : Type} {kind : Kind α} {block : Block} {root key : String}

/-- The record of an object has the text of its identity. -/
theorem id_store {resource : Resource} {id : Identity} (h : resource.id = some id) :
    (store kind resource).id = id.text := by
  rw [store, h]
  rfl

/-- A resource is loaded from what the upgrades make of its record. -/
theorem load_of_upgraded {record upgraded : Record} {id : Option Identity} {config : Tree}
    (hupgrade : kind.upgrades.upgradeRecord record = .ok upgraded)
    (hid : Identity.ofStored upgraded.id = .ok id)
    (hconfig : Schema.ofAttributes kind.schema upgraded.attributes = .ok config) :
    load kind record = .ok ⟨id, config⟩ := by
  rw [load, hupgrade, Steps.bind_ok, hid, Steps.bind_ok, hconfig]
  rfl

/-- A resource is loaded again from the record that it was stored as. -/
theorem load_store (id : Option Identity)
    (hsteps : kind.upgrades.steps.length ≤ Record.maxVersion) (hschema : kind.schema.WellNamed)
    (haccepts : kind.schema.Accepts block) (hstorable : kind.schema.Every Schema.Storable block) :
    load kind (store kind ⟨id, .obj block⟩) = .ok ⟨id, .obj block⟩ := by
  have htree : Schema.ofAttributes kind.schema (Schema.toAttributes kind.schema (.obj block)) =
      .ok (.obj block) := by
    show (Schema.read kind.schema (Schema.write kind.schema "" block Dict.empty) "" []).map _ = _
    rw [Schema.read_write hschema haccepts hstorable]
    rfl
  exact load_of_upgraded (Upgrades.upgradeRecord_latest hsteps rfl) (Identity.ofStored_getD id)
    htree

/-- A record is loaded with the identity of the resource that was stored, whatever its tree is. -/
theorem exists_load_store (hsteps : kind.upgrades.steps.length ≤ Record.maxVersion)
    (hschema : kind.schema.WellNamed) (resource : Resource) :
    ∃ config, load kind (store kind resource) = .ok ⟨resource.id, config⟩ := by
  obtain ⟨config, hconfig⟩ := Schema.exists_ofAttributes_toAttributes hschema resource.config
  exact ⟨config, load_of_upgraded (Upgrades.upgradeRecord_latest hsteps rfl)
    (Identity.ofStored_getD resource.id) hconfig⟩

/-- An upgraded record is loaded as the same resource. -/
theorem load_upgradeRecord {record upgraded : Record}
    (hsteps : kind.upgrades.steps.length ≤ Record.maxVersion)
    (h : kind.upgrades.upgradeRecord record = .ok upgraded) :
    load kind upgraded = load kind record := by
  rw [load, load, h, (Upgrades.upgradeRecord_again hsteps h).2]

/-- What was loaded from a record, whatever its version, its counters and its keys, is loaded again
from the record that it is stored as, and nothing is left to upgrade in that one. -/
theorem load_stable {record : Record} {resource : Resource} (hkind : kind.Managed root key)
    (hload : load kind record = .ok resource) :
    load kind (store kind resource) = .ok resource ∧
      kind.upgrades.upgradeRecord (store kind resource) = .ok (store kind resource) := by
  obtain ⟨upgraded, -, hload⟩ := Steps.bind_eq_ok_iff.1 hload
  obtain ⟨id, -, hload⟩ := Steps.bind_eq_ok_iff.1 hload
  obtain ⟨config, hconfig, hload⟩ := Steps.bind_eq_ok_iff.1 hload
  obtain rfl := Except.ok.inj hload
  have hlatest : kind.upgrades.upgradeRecord (store kind ⟨id, config⟩) =
      .ok (store kind ⟨id, config⟩) := Upgrades.upgradeRecord_latest hkind.steps_le rfl
  refine ⟨load_of_upgraded hlatest (Identity.ofStored_getD id) ?_, hlatest⟩
  exact Schema.ofAttributes_stable hkind.lawful.wellNamed hconfig

/-- A record of version 1 in which counters are missing, too great or stale, a number has a sign
and zeros, and some keys are those of no field. -/
def looseRecord : Record where
  id := "prod/web"
  version := 1
  attributes := Dict.ofList
    [("metadata.0.labels.%", "7"), ("metadata.0.labels.app.kubernetes.io/name", "web"),
     ("metadata.0.name", "web"), ("spec.0.replicas", "+03"),
     ("spec.0.template.0.spec.0.container.#", "2"),
     ("spec.0.template.0.spec.0.container.0.args.#", "5"),
     ("spec.0.template.0.spec.0.container.0.args.3", "-v"),
     ("spec.0.template.0.spec.0.container.7.name", "lost"),
     ("spec.0.template.0.spec.0.image", "unknown"), ("status.0", "")]

/-- What the loose record is loaded as. -/
def tidyResource : Resource where
  id := (Identity.ofText "prod/web").toOption
  config := .obj
    [("metadata", Block.singular
       [("labels", .obj [("app.kubernetes.io/name", .str "web")]), ("name", .str "web")]),
     ("spec", Block.singular
       [("paused", .bool false), ("progress_deadline_seconds", .int 600), ("replicas", .int 3),
        ("template", Block.singular [("spec", Block.singular
          [("container", .arr [.obj [("args", .arr [.str "-v"])], .obj []])])])]),
     ("status", Block.singular [])]

/-- The loose record is tidied up by loading it once, and stays as it is from then on. -/
theorem load_stable_loose : load Deployment.kind looseRecord = .ok tidyResource ∧
    load Deployment.kind (store Deployment.kind tidyResource) = .ok tidyResource ∧
    Deployment.kind.upgrades.upgradeRecord (store Deployment.kind tidyResource) =
      .ok (store Deployment.kind tidyResource) := by
  have hload : load Deployment.kind looseRecord = .ok tidyResource := by decide +kernel
  exact ⟨hload, load_stable .deployment hload⟩

end Resource

end Reconcile
