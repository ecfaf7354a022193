import Reconcile.Identity
import Reconcile.Store.Basic

/-!
# Why a command fails

A command fails because of a file, of the store, of the cluster, or of what it was asked to do.
`Trouble.report` words the reason and numbers the causes behind it.
-/

namespace Reconcile

/-- Why a file cannot be read. -/
inductive FileFault where
  | missing
  | folder
  /-- A part of the path is a file. -/
  | beneathFile
  | denied
  /-- The content is no text. -/
  | undecodable
  deriving DecidableEq

/-- The wording of a fault. -/
def FileFault.message : FileFault → String
  | .missing => "No such file or directory (os error 2)"
  | .folder => "Is a directory (os error 21)"
  | .beneathFile => "Not a directory (os error 20)"
  | .denied => "Permission denied (os error 13)"
  | .undecodable => "stream did not contain valid UTF-8"

/-- The formats of files with trees. -/
inductive TreeFormat where
  | json
  | yaml
  deriving DecidableEq

/-- The name of a format. -/
def TreeFormat.name : TreeFormat → String
  | .json => "JSON"
  | .yaml => "YAML"

/-- Why a command fails. -/
inductive Trouble where
  | file (path : String) (fault : FileFault)
  /-- A file is not of its format. -/
  | unreadable (path : String) (format : TreeFormat)
  /-- A file holds something else than a tree. -/
  | notMapping (path : String)
  | metadataRequired
  /-- A tree names no object, though it may say how to make names up. -/
  | nameRequired (generateName : Option String)
  | store (fault : StoreFault)
  | operation (failure : Failure)
  /-- No cluster is known. -/
  | unconnected
  /-- It is not known whether an object that has to be updated is there. -/
  | unchecked (failure : Failure)
  /-- It is not known whether an object is there. -/
  | unknownExistence (id : Identity) (failure : Failure)
  | unrecorded (kind id : String)
  deriving DecidableEq

namespace Trouble

/-- The wording of the reason. -/
def message : Trouble → String
  | .file path _ => "reading " ++ path
  | .unreadable path format => "parsing " ++ path ++ " as " ++ format.name
  | .notMapping path => path ++ ": configuration must be a mapping"
  | .metadataRequired => "metadata block is required"
  | .nameRequired none => "metadata.name is required"
  | .nameRequired (some generateName) =>
    "metadata.name is required: generate_name " ++ Text.quoted generateName
      ++ " alone would create a new object on every apply"
  | .store fault => fault.message
  | .operation failure => failure.message
  | .unconnected => "connecting to the cluster"
  | .unchecked _ => "checking whether the resource exists"
  | .unknownExistence id _ => "existence of " ++ id.text ++ " is unknown"
  | .unrecorded kind id => "no stored " ++ kind ++ " record for " ++ id

/-- The wordings of the causes behind the reason, the nearest first. -/
def causes : Trouble → List String
  | .file _ fault => [fault.message]
  | .store fault => fault.causes
  | .operation failure => failure.causes
  | .unchecked failure => failure.message :: failure.causes
  | .unknownExistence _ failure => failure.message :: failure.causes
  | _ => []

/-- A text with blanks in front of every line but the first. -/
def indentRest (width : Nat) (text : String) : String :=
  ("\n" ++ String.ofList (List.replicate width ' ')).intercalate (Text.split '\n' text)

/-- The position of a cause, right-aligned. -/
def ordinal (i : Nat) : String :=
  let digits := Nat.repr i
  String.ofList (List.replicate (5 - digits.length) ' ') ++ digits ++ ": "

/-- The lines that list causes. -/
def causeLines : List String → String
  | [] => ""
  | [cause] => "\n\nCaused by:\n    " ++ indentRest 4 cause
  | causes =>
    "\n\nCaused by:" ++ String.join
      (causes.mapIdx fun i cause => "\n" ++ ordinal i ++ indentRest 7 cause)

/-- The reason and its causes. -/
def report (t : Trouble) : String := t.message ++ causeLines t.causes

end Trouble

end Reconcile
