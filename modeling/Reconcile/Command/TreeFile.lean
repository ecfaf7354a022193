import Reconcile.Block
import Reconcile.Command.Trouble
import Reconcile.Settings
import Reconcile.Yaml.Node

/-!
# Trees in files

A tree is read from a JSON file, if its name says so, and from a YAML file else. The object that a
tree declares is known by the namespace and the name in its metadata, so a tree that leaves the
name to the cluster cannot be tracked.
-/

namespace Reconcile.TreeFile

/-- The part of a file's name after its last point, if the name does not begin with it. -/
def extension? (path : String) : Option String :=
  let name := ((Text.split '/' path).filter (· ≠ "")).getLast?.getD ""
  match (Text.split '.' name).reverse with
  | last :: before :: rest => if before = "" ∧ rest = [] then none else some last
  | _ => none

/-- The format of a file. -/
def format (path : String) : TreeFormat := if extension? path = some "json" then .json else .yaml

/-- The value that a text of a format holds. -/
def decode? : TreeFormat → String → Option Json
  | .json, text => Json.parse? text
  | .yaml, text => Yaml.parse? text

/-- The tree that the text of a file holds. -/
def decode (path text : String) : Except Trouble Tree :=
  match decode? (format path) text with
  | none => .error (.unreadable path (format path))
  | some tree => if tree.obj?.isSome then .ok tree else .error (.notMapping path)

/-- The identity of the object that a tree declares. -/
def identity (settings : Settings) (tree : Tree) : Except Trouble Identity :=
  match Tree.block? tree "metadata" with
  | none => .error .metadataRequired
  | some metadata =>
    match Block.text? metadata "name" with
    | none => .error (.nameRequired (Block.text? metadata "generate_name"))
    | some name =>
      let ns := (Block.text? metadata "namespace").getD settings.defaultNamespace
      (Identity.ofParts ns name).mapError .operation

end Reconcile.TreeFile
