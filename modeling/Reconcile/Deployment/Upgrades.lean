import Reconcile.Record.Upgrade
import Reconcile.Text.Split

/-!
# Upgrading deployment records

Version 0 kept the name beside the metadata and the fields of the pods' specification directly
within the template. Version 1 moved both into blocks of their own. Version 2 brought `paused` and
`progress_deadline_seconds`, which get their defaults.
-/

namespace Reconcile.Deployment

/-- What the keys within the template of a deployment begin with. -/
def templatePrefix : String := "spec.0.template.0."

/-- What follows the template's prefix in a key that is neither of the template's metadata nor of
its specification block. -/
def looseTemplateField? (key : String) : Option String :=
  (Text.dropPrefix? templatePrefix key).filter fun rest =>
    (Text.dropPrefix? "spec." rest).isNone && (Text.dropPrefix? "metadata." rest).isNone

/-- The attributes with one loose field of the template moved into the specification block, and
whether it or an earlier one has been moved there. -/
def moveTemplateField (state : Bool × Attributes) (key : String) : Bool × Attributes :=
  let (moved, attributes) := state
  match looseTemplateField? key with
  | none => (moved, attributes)
  | some rest =>
    let (outcome, changed) :=
      attributes.rename key (templatePrefix ++ "spec.0." ++ rest)
    (moved || outcome = .moved, changed)

/-- The attributes with a counter of one for a block that a field has moved into. -/
def countBlock (moved : Bool) (key : String) (attributes : Attributes) : Attributes :=
  if moved then (attributes.insertDefault key "1").2 else attributes

/-- The step that gives the name and the pods' specification blocks of their own. -/
def gatherBlocks (attributes : Attributes) : Attributes :=
  let (outcome, named) := attributes.rename "name" "metadata.0.name"
  let named := countBlock (outcome = .moved) "metadata.#" named
  let (moved, gathered) := named.keys.foldl moveTemplateField (false, named)
  countBlock moved (templatePrefix ++ "spec.#") gathered

/-- The step that gives the fields of version 2 their defaults. -/
def addDefaults (attributes : Attributes) : Attributes :=
  let (_, paused) := attributes.insertDefault "spec.0.paused" "false"
  (paused.insertDefault "spec.0.progress_deadline_seconds" "600").2

/-- The upgrades of deployment records. -/
def upgrades : Upgrades := ⟨"deployment", [gatherBlocks, addDefaults]⟩

end Reconcile.Deployment
