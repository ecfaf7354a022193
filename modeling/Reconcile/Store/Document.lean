import Reconcile.Store.Basic

/-!
# A store as a document

A store is kept between runs as the text of a JSON array with an object for each row. The columns
of a row are kept as they are, so reading a document checks their types and nothing else.
-/

namespace Reconcile.Store

/-- The folder below the home folder in which the document of a store is kept. -/
def homeFolder : String := ".kform"

/-- The path of the document of a store, for environment variables: the one that is given, or one
below the home folder, or else one in the current folder. -/
def path (env : Dict String) : String :=
  match env.get? "KFORM_DB_PATH", env.get? "HOME" with
  | some path, _ => path
  | none, some home => home ++ "/" ++ homeFolder ++ "/state.db"
  | none, none => "kform-state.db"

/-- The object of a row. -/
def rowToJson (kind id : String) (row : Row) : Json :=
  .obj [("attributes", .str row.attributes), ("id", .str id), ("kind", .str kind),
    ("schema_version", .int row.version), ("updated_at", .str row.time)]

/-- The document of a store. -/
def document (store : Store) : String :=
  (Json.arr (store.rows.map fun (kind, id, row) => rowToJson kind id row)).render

/-- The store with the row of an object. -/
def addRow? (store : Store) (value : Json) : Option Store := do
  let fields ← value.obj?
  let kind ← (← fields.lookup "kind").str?
  let id ← (← fields.lookup "id").str?
  let version ← (← fields.lookup "schema_version").int64?
  let attributes ← (← fields.lookup "attributes").str?
  let time ← (← fields.lookup "updated_at").str?
  some (store.setRow kind id ⟨version.toInt, attributes, time⟩)

/-- The store of a document. -/
def ofDocument? (text : String) : Option Store := do
  (← (← Json.parse? text).arr?).foldlM addRow? empty

end Reconcile.Store
