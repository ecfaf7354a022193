import Reconcile.Json.Parser
import Reconcile.Json.Printer
import Reconcile.Record.Basic
import Reconcile.Store.Timestamp

/-!
# The store of records

The store keeps a row for each kind and identity: a version, a text of attributes and a text of a
time. The store writes a record as such a row (`Row.ofRecord`), and other programs may put rows
there whose columns do not make sense. So a row is decoded before it is used. The lemmas
`row?_setRow` and `row?_delete` say that a change of one row leaves all others alone.
-/

namespace Reconcile

/-- A row of the store. -/
structure Row where
  version : Int
  attributes : String
  time : String
  deriving DecidableEq

/-- The row of a record that is written at a time. -/
def Row.ofRecord (record : Record) (now : Timestamp) : Row where
  version := record.version
  attributes := (Json.ofTexts record.attributes).render
  time := now.text

/-- A record with the time of its writing. -/
structure StoredRecord where
  record : Record
  time : Timestamp
  deriving DecidableEq

/-- Why the store cannot be used. -/
inductive StoreFault where
  /-- The place of the store cannot be opened. -/
  | unopened (path : String)
  /-- A record without identity was to be kept. -/
  | nameless (kind : String)
  /-- The version of a row is no version. -/
  | version (kind id : String) (found : Int)
  /-- The attributes of a row are no object of strings. -/
  | attributes (kind id : String)
  /-- The time of a row is no time. -/
  | time (kind id : String)
  deriving DecidableEq

namespace StoreFault

/-- The wording of a fault. -/
def message : StoreFault → String
  | .unopened path => "opening sqlite db at " ++ path
  | .nameless kind => "refusing to store a " ++ kind ++ " record without identity"
  | .version kind id _ => "reading " ++ kind ++ " " ++ id
  | .attributes kind id => "decoding attributes of " ++ kind ++ " " ++ id
  | .time kind id => "parsing updated_at of " ++ kind ++ " " ++ id

/-- The wordings of the causes behind a fault. -/
def causes : StoreFault → List String
  | .version _ _ found => ["Integer " ++ toString found ++ " out of range at index 0"]
  | _ => []

end StoreFault

/-- The rows by kind and identity. -/
structure Store where
  tables : Dict (Dict Row)

namespace Store

/-- The store without rows. -/
def empty : Store := ⟨∅⟩

instance : EmptyCollection Store := ⟨empty⟩

/-- The rows of a kind by identity. -/
def table (store : Store) (kind : String) : Dict Row := (store.tables.get? kind).getD ∅

/-- The row of a kind and identity. -/
def row? (store : Store) (kind id : String) : Option Row := (store.table kind).get? id

/-- The store with a row replaced or added. -/
def setRow (store : Store) (kind id : String) (row : Row) : Store :=
  ⟨store.tables.insert kind ((store.table kind).insert id row)⟩

/-- The attributes that a text holds: an object of strings, of which the later of two fields of
one key counts. -/
def attributes? (text : String) : Option Attributes := do
  let fields ← (← Json.parseWritten? text).obj?
  if fields.all fun field => field.2.str?.isSome then some (Json.texts fields) else none

/-- The record that a row holds. Its version is looked at first, then its attributes, then its
time. -/
def decode (kind id : String) (row : Row) : Except StoreFault StoredRecord :=
  if 0 ≤ row.version ∧ row.version ≤ Record.maxVersion then
    match attributes? row.attributes, Timestamp.ofText? row.time with
    | some attributes, some time => .ok ⟨⟨id, row.version.toNat, attributes⟩, time⟩
    | none, _ => .error (.attributes kind id)
    | some _, none => .error (.time kind id)
  else .error (.version kind id row.version)

/-- The record of a kind and identity, if there is one. -/
def get (store : Store) (kind id : String) : Except StoreFault (Option StoredRecord) :=
  match store.row? kind id with
  | none => .ok none
  | some row => (decode kind id row).map some

/-- The store with a record of a kind, written at a time. -/
def put (store : Store) (kind : String) (record : Record) (now : Timestamp) :
    Except StoreFault Store :=
  if record.id = "" then .error (.nameless kind)
  else .ok (store.setRow kind record.id (.ofRecord record now))

/-- The store without a row. -/
def delete (store : Store) (kind id : String) : Store :=
  ⟨store.tables.insert kind ((store.table kind).erase id)⟩

/-- The identities of a kind's rows in ascending order. -/
def list (store : Store) (kind : String) : List String := (store.table kind).keys

/-- All rows with their kind and identity, in ascending order of both. -/
def rows (store : Store) : List (String × String × Row) :=
  store.tables.entries.flatMap fun (kind, table) =>
    table.entries.map fun (id, row) => (kind, id, row)

/-- A table takes the place of the one of its kind. -/
theorem table_insert (store : Store) (kind k : String) (table : Dict Row) :
    Store.table ⟨store.tables.insert kind table⟩ k =
      if k = kind then table else store.table k := by
  simp only [Store.table, Dict.get?_insert]
  split <;> rfl

/-- A row is written under its kind and identity, and no other row changes. -/
theorem row?_setRow (store : Store) (kind id k i : String) (row : Row) :
    (store.setRow kind id row).row? k i =
      if k = kind ∧ i = id then some row else store.row? k i := by
  simp only [row?, setRow, table_insert]
  by_cases hkind : k = kind
  · subst hkind
    simp [Dict.get?_insert]
  · simp [hkind]

/-- A row is dropped under its kind and identity, and no other row changes. -/
theorem row?_delete (store : Store) (kind id k i : String) :
    (store.delete kind id).row? k i = if k = kind ∧ i = id then none else store.row? k i := by
  simp only [row?, delete, table_insert]
  by_cases hkind : k = kind
  · subst hkind
    simp [Dict.get?_erase]
  · simp [hkind]

end Store

end Reconcile
