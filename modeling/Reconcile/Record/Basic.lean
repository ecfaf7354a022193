import Reconcile.Dict.Basic

/-!
# State records

What is known of a managed object is kept as a flat record: the text of its identity, the version
of the schema that it was written under, and attributes, which bind dotted paths to texts.
-/

namespace Reconcile

/-- Values as texts, by their dotted paths. -/
abbrev Attributes := Dict String

/-- The stored state of one object. -/
structure Record where
  /-- The text of the identity, empty for an object that has not been created. -/
  id : String
  /-- The version of the schema, a number of 32 bits. -/
  version : Nat
  attributes : Attributes
  deriving DecidableEq

/-- A record without attributes stands for an object that has never been created. -/
def Record.isEmpty (record : Record) : Bool := record.attributes.isEmpty

/-- The greatest version number. -/
def Record.maxVersion : Nat := 4294967295

end Reconcile
