import Reconcile.Failure
import Reconcile.Record.Basic

/-!
# Upgrading stored records

A record that was written under an older version of the schema is upgraded by the steps that lead
from that version to the latest one. A step rearranges attributes: it moves a value to another key
unless one is there, or gives a new field its default. A record without attributes is left alone.
-/

namespace Reconcile

/-- What came of moving a value to another key. -/
inductive Renaming where
  /-- The value is now at the target. -/
  | moved
  /-- The target held a value, which it keeps; that of the source is gone. -/
  | kept
  /-- The source held no value. -/
  | missing
  deriving DecidableEq

namespace Attributes

/-- The attributes with the value of `source` moved to `target`, unless a text that is not empty
is there. The source is unbound in every case. -/
def rename (source target : String) (attributes : Attributes) : Renaming × Attributes :=
  match attributes.get? source with
  | none => (.missing, attributes)
  | some value =>
    let rest := attributes.erase source
    match rest.get? target with
    | none => (.moved, rest.insert target value)
    | some existing =>
      if existing = "" then (.moved, rest.insert target value) else (.kept, rest)

/-- The attributes with a value for a key that has none, and whether it had none. -/
def insertDefault (key value : String) (attributes : Attributes) : Bool × Attributes :=
  if attributes.contains key then (false, attributes) else (true, attributes.insert key value)

end Attributes

/-- A change of attributes from one version of a schema to the next. -/
abbrev UpgradeStep := Attributes → Attributes

/-- The steps of a kind of object; the step at index `v` leads from version `v` to `v + 1`. -/
structure Upgrades where
  kind : String
  steps : List UpgradeStep

namespace Upgrades

/-- The version that the last step leads to, a number of 32 bits. -/
def latest (upgrades : Upgrades) : Nat := upgrades.steps.length % (Record.maxVersion + 1)

/-- A chain that is not too long leads to a version of as many steps. -/
theorem latest_eq {upgrades : Upgrades} (h : upgrades.steps.length ≤ Record.maxVersion) :
    upgrades.latest = upgrades.steps.length :=
  Nat.mod_eq_of_lt (Nat.lt_succ_of_le h)

/-- The latest version is a number of 32 bits. -/
theorem latest_le (upgrades : Upgrades) : upgrades.latest ≤ Record.maxVersion :=
  Nat.le_of_lt_succ (Nat.mod_lt _ (Nat.succ_pos _))

/-- Attributes of a version brought to the latest one. -/
def upgrade (upgrades : Upgrades) (version : Nat) (attributes : Attributes) :
    Except Failure Attributes :=
  if attributes.isEmpty then .ok attributes
  else if upgrades.latest < version then
    .error (.unknownVersion upgrades.kind version upgrades.latest)
  else .ok ((upgrades.steps.drop version).foldl (fun attrs step => step attrs) attributes)

/-- A record brought to the latest version. -/
def upgradeRecord (upgrades : Upgrades) (record : Record) : Except Failure Record :=
  if record.isEmpty then .ok record
  else do
    let attributes ← upgrades.upgrade record.version record.attributes
    pure ⟨record.id, upgrades.latest, attributes⟩

end Upgrades

end Reconcile
