import Mathlib.Data.List.Basic
import Reconcile.Kind
import Reconcile.Proofs.Block.Nested
import Reconcile.Proofs.Metadata.Wire
import Reconcile.Proofs.Schema.Checks
import Reconcile.Proofs.Schema.Filling

/-!
# Laws of a kind

Objects of a kind have metadata and a content, which lies at one place of their wire form and is
declared at one place of their trees. `Kind.Lawful` says how the functions of a kind agree on these
two places.
-/

namespace Reconcile

variable {α : Type} {kind : Kind α} {root key : String} {object : α}

namespace Kind

/-- The members of the wire form of an object. -/
def fields (kind : Kind α) (object : α) : Json.Fields := ((kind.toJson object).obj?).getD []

/-- The value that an object has at a place of its wire form. -/
def content (kind : Kind α) (key : String) (object : α) : Option Json :=
  (kind.fields object).lookup key

/-- The functions of a kind agree on where the metadata of an object and its content are: the
content is the field `root` of a tree and the member `key` of a wire form. -/
structure Lawful (kind : Kind α) (root key : String) : Prop where
  /-- The names of the fields of the schema can be told apart. -/
  wellNamed : kind.schema.WellNamed
  /-- Every default of the schema has the type of its field. -/
  typedDefaults : kind.schema.Throughout Schema.TypedDefaults
  mutablePaths_eq : kind.mutablePaths = metadataPaths ++ [.subtree [root] ("/" ++ key)]
  tokens?_key : Json.Pointer.tokens? ("/" ++ key) = some [key]
  key_ne : key ≠ "metadata"
  key_not_textMap : Change.isTextMap kind.mutablePaths ("/" ++ key) = false
  toJson_eq : ∀ object, kind.toJson object = .obj (kind.fields object)
  ascending : ∀ object, Entries.Ascending (kind.fields object)
  lookup_metadata : ∀ object, (kind.fields object).lookup "metadata" =
    some (.obj (kind.metadata object).fields)
  /-- The metadata of a declared object are those that the tree declares. -/
  metadata_expand : ∀ {block : Block} {object : α}, kind.expand (.obj block) = .ok object →
    ∃ metaBlock, Block.child? block "metadata" = some metaBlock ∧
      ObjectMeta.hasName metaBlock = true ∧ kind.metadata object = ObjectMeta.expand metaBlock
  /-- A declared object has content exactly if its tree says so. -/
  isSome_content : ∀ {block : Block} {object : α}, kind.schema.Accepts block →
    kind.expand (.obj block) = .ok object →
    (kind.content key object).isSome = Change.isDeclared (block.lookup root)
  /-- The content of a declared object depends on nothing else of the tree. -/
  content_congr : ∀ {block other : Block} {object object' : α},
    kind.expand (.obj block) = .ok object → kind.expand (.obj other) = .ok object' →
    block.lookup root = other.lookup root → kind.content key object = kind.content key object'

end Kind

end Reconcile
