import Reconcile.Block
import Reconcile.Failure
import Reconcile.Json.Edit

/-!
# Changes between two trees

Only some paths of a tree may change once its object has been created. `Change.between` compares
two trees there and gives the edits that take the object of the one to that of the other: a map of
texts is changed key by key, and a subtree is replaced as a whole by what the typed object holds
in its place. An edit that adds a whole map would wipe out the keys that the object has from
elsewhere; `Change.rebase` splits it where the object already holds a map.
-/

namespace Reconcile

/-- A path of a tree that may change, with the pointer text of its place in the typed object. -/
inductive MutablePath where
  /-- A map of texts, changed key by key. -/
  | textMap (config : List String) (wire : String)
  /-- Any value, replaced as a whole. -/
  | subtree (config : List String) (wire : String)
  deriving DecidableEq

namespace Change

open Json (Edit)

/-- The edit that a key of a map needs whose new value is given. -/
def keyEdit? (path : String) (old : Option String) (new : String) : Option Edit :=
  match old with
  | none => some (.add path (.str new))
  | some value => if value = new then none else some (.replace path (.str new))

/-- The edits that take a map of texts at a pointer text to another one: one that adds the whole
map where there was none, and else the removals before the other changes, each in the order of
the keys. -/
def ofTextMaps (pointer : String) (old new : Dict String) : List Edit :=
  let base := Text.trimEnd '/' pointer
  if old.isEmpty then
    if new.isEmpty then [] else [.add base (Json.ofTexts new)]
  else
    let removals := (old.keys.filter fun k => !new.contains k).map fun k =>
      Edit.remove (Json.Pointer.child base k)
    let changes := new.entries.filterMap fun (k, v) =>
      keyEdit? (Json.Pointer.child base k) (old.get? k) v
    removals ++ changes

/-- Whether a pointer text is the place of a map of texts. -/
def isTextMap (paths : List MutablePath) (pointer : String) : Bool :=
  paths.any fun
    | .textMap _ wire => wire == pointer
    | .subtree _ _ => false

/-- Whether an edit adds a whole map at the place of a map of texts. -/
def addsWholeMap (paths : List MutablePath) : Edit → Bool
  | .add path (.obj _) => isTextMap paths path
  | _ => false

/-- The edits that add the entries of a map one by one. -/
def entryEdits (path : String) (entries : Json.Fields) : List Edit :=
  entries.map fun (k, v) => .add (Json.Pointer.child path k) v

/-- The edits that do the work of one edit without wiping out a map that is there. -/
def rebaseEdit (paths : List MutablePath) (live : Json) (edit : Edit) : List Edit :=
  match edit with
  | .add path (.obj entries) =>
    match isTextMap paths path, Json.Pointer.find? path live with
    | true, some (.obj _) => entryEdits path entries
    | _, _ => [edit]
  | _ => [edit]

/-- The edits that do the work of edits without wiping out maps that a live object holds. -/
def rebase (paths : List MutablePath) (live : Json) (edits : List Edit) : List Edit :=
  edits.flatMap (rebaseEdit paths live)

/-- The map of texts at a path of a tree, empty where there is none. -/
def textsAt (tree : Tree) (path : List String) : Dict String :=
  match (Tree.find? path tree).bind Json.obj? with
  | some fields => Json.texts fields
  | none => Dict.empty

/-- Whether a tree says anything at a place: null, empty arrays and empty objects do not. -/
def isDeclared : Option Tree → Bool
  | none | some .null => false
  | some (.arr items) => !items.isEmpty
  | some (.obj fields) => !fields.isEmpty
  | some _ => true

/-- The edits that set the place of a subtree to what the typed object holds there. -/
def ofProjection (wire : String) (declaredBefore : Bool) (value : Option Json) : List Edit :=
  match value, declaredBefore with
  | some v, true => [.replace wire v]
  | some v, false => [.add wire v]
  | none, true => [.remove wire]
  | none, false => []

/-- Whether the edits at a path depend on the typed object. -/
def needsProjection (old new : Tree) : MutablePath → Bool
  | .textMap _ _ => false
  | .subtree config _ =>
    let after := Tree.find? config new
    Tree.find? config old ≠ after && isDeclared after

/-- The edits at one path; `projection` is the typed object of the new tree. -/
def atPath (old new : Tree) (projection : Except Failure Json) :
    MutablePath → Except Failure (List Edit)
  | .textMap config wire => .ok (ofTextMaps wire (textsAt old config) (textsAt new config))
  | .subtree config wire => do
    let before := Tree.find? config old
    let after := Tree.find? config new
    if before = after then pure []
    else if isDeclared after then
      let object ← projection
      pure (ofProjection wire (isDeclared before) (Json.Pointer.find? wire object))
    else if isDeclared before then pure [.remove wire]
    else pure []

/-- The edits between two trees at all paths that may change. -/
def between (old new : Tree) (paths : List MutablePath) (projection : Except Failure Json) :
    Except Failure (List Edit) :=
  (paths.mapM (atPath old new projection)).map List.flatten

end Change

end Reconcile
