import Reconcile.Text.Split

/-!
# The command line

A command line names an action and what it acts on. Two options may stand anywhere: the kind of
object, and the form of what is printed. An option takes its value from the same word or from the
next one, and may be given once on each side of the action's name; the one behind the name counts.
`Line.parse` reads the words from left to right and stops at the first that does not fit.
-/

namespace Reconcile

/-- The kinds of objects that can be managed. -/
inductive KindName where
  | deployment
  | role
  deriving DecidableEq, Inhabited

/-- The forms of what is printed. -/
inductive OutputForm where
  /-- Lines for people. -/
  | human
  /-- A JSON document. -/
  | json
  deriving DecidableEq, Inhabited

/-- What is to be done. -/
inductive Action where
  /-- Bring an object to the tree in a file. -/
  | apply (file : String)
  /-- Take over what the cluster knows of an object. -/
  | read (id : String)
  /-- Delete an object. -/
  | delete (id : String)
  /-- Tell whether an object exists. -/
  | probe (id : String)
  /-- Upgrade a stored record. -/
  | migrate (id : String)
  /-- Show what bringing an object to the tree in a file would change. -/
  | plan (file : String)
  /-- Show the stored records. -/
  | list
  deriving DecidableEq

/-- What a command line asks for. -/
structure Command where
  kind : KindName
  output : OutputForm
  action : Action
  deriving DecidableEq

/-- How the words of a command line are understood. -/
inductive Line where
  | command (command : Command)
  /-- The version is asked for. -/
  | version
  /-- An overview is asked for. -/
  | overview
  /-- The words do not fit. -/
  | misuse
  deriving DecidableEq

namespace Line

/-- What the name of an action asks for. -/
inductive Verb where
  /-- An action on the tree in a file. -/
  | onFile (action : String → Action)
  /-- An action on an identity. -/
  | onId (action : String → Action)
  /-- An action on nothing in particular. -/
  | alone (action : Action)

/-- The actions by their names. -/
def verbs : List (String × Verb) :=
  [("apply", .onFile .apply), ("read", .onId .read), ("delete", .onId .delete),
   ("exists", .onId .probe), ("migrate", .onId .migrate), ("plan", .onFile .plan),
   ("list", .alone .list)]

/-- The kind that a word names. -/
def kind? (word : String) : Option KindName :=
  if word = "deployment" then some .deployment
  else if word = "role" then some .role
  else none

/-- The form that a word names. -/
def output? (word : String) : Option OutputForm :=
  if word = "human" then some .human
  else if word = "json" then some .json
  else none

/-- The options that take a value. -/
inductive Switch where
  | kind
  | output
  | file
  deriving DecidableEq

/-- What a word is by its spelling. -/
inductive Word where
  /-- An option, with its value if the same word holds one. -/
  | switch (switch : Switch) (value : Option String)
  | overview
  | version
  /-- The end of the options. -/
  | stop
  /-- An option that does not exist. -/
  | unknown
  /-- A word that is no option. -/
  | operand
  deriving DecidableEq

/-- The option with a long name. -/
def longSwitch? (name : String) : Option Switch :=
  [("kind", Switch.kind), ("output", .output), ("file", .file)].lookup name

/-- The option with a short name. -/
def shortSwitch? (name : Char) : Option Switch :=
  [('k', Switch.kind), ('o', .output), ('f', .file)].lookup name

/-- A word after two hyphens. -/
def longWord (text : String) : Word :=
  match Text.cut? '=' text with
  | some (name, value) =>
    match longSwitch? name with
    | some switch => .switch switch (some value)
    | none => .unknown
  | none =>
    if text = "" then .stop
    else if text = "help" then .overview
    else if text = "version" then .version
    else
      match longSwitch? text with
      | some switch => .switch switch none
      | none => .unknown

/-- A word after one hyphen. The value of an option may follow its letter, after an equals sign or
at once. -/
def shortWord (name : Char) (value : List Char) : Word :=
  if name = 'h' then .overview
  else if name = 'V' then .version
  else
    match shortSwitch? name, value with
    | some switch, [] => .switch switch none
    | some switch, '=' :: value => .switch switch (some (String.ofList value))
    | some switch, value => .switch switch (some (String.ofList value))
    | none, _ => .unknown

/-- What a word is by its spelling. A hyphen alone is no option. -/
def word (text : String) : Word :=
  match text.toList with
  | '-' :: '-' :: cs => longWord (String.ofList cs)
  | '-' :: c :: cs => shortWord c cs
  | _ => .operand

/-- The options that every action has. -/
structure Shared where
  kind : Option KindName
  output : Option OutputForm

/-- What has been read of a command line. -/
structure Reading where
  /-- The options in front of the action's name. -/
  before : Shared
  verb : Option Verb
  /-- The options behind the action's name. -/
  behind : Shared
  file : Option String
  id : Option String
  /-- Whether the options have ended. -/
  stopped : Bool

namespace Reading

/-- Nothing has been read. -/
def start : Reading := ⟨⟨none, none⟩, none, ⟨none, none⟩, none, none, false⟩

/-- The reading with an option among those that every action has. -/
def withShared (r : Reading) (change : Shared → Option Shared) : Option Reading :=
  match r.verb with
  | none => (change r.before).map fun s => { r with before := s }
  | some _ => (change r.behind).map fun s => { r with behind := s }

/-- The reading with the value of an option, which has to make sense and to be the first. -/
def set (r : Reading) (switch : Switch) (value : String) : Option Reading :=
  match switch with
  | .kind => r.withShared fun s =>
    if s.kind.isSome then none else (kind? value).map fun k => { s with kind := some k }
  | .output => r.withShared fun s =>
    if s.output.isSome then none else (output? value).map fun o => { s with output := some o }
  | .file =>
    match r.verb, r.file with
    | some (.onFile _), none => if value = "" then none else some { r with file := some value }
    | _, _ => none

/-- The reading with a word that is no option: the name of an action, or an identity. -/
def add (r : Reading) (text : String) : Option Reading :=
  match r.verb, r.id with
  | none, _ =>
    if r.stopped then none else (verbs.lookup text).map fun v => { r with verb := some v }
  | some (.onId _), none => some { r with id := some text }
  | _, _ => none

/-- What the words ask for once all have been read. -/
def finish (r : Reading) : Line :=
  let kind := (r.behind.kind <|> r.before.kind).getD .deployment
  let output := (r.behind.output <|> r.before.output).getD .human
  match r.verb, r.file, r.id with
  | some (.onFile action), some file, _ => .command ⟨kind, output, action file⟩
  | some (.onId action), _, some id => .command ⟨kind, output, action id⟩
  | some (.alone action), _, _ => .command ⟨kind, output, action⟩
  | _, _, _ => .misuse

/-- What the words that are left ask for. -/
def run (r : Reading) : List String → Line
  | [] => r.finish
  | text :: words =>
    match if r.stopped then .operand else word text with
    | .operand =>
      if r.verb.isNone ∧ ¬ r.stopped ∧ text = "help" then .overview
      else
        match r.add text with
        | some r => r.run words
        | none => .misuse
    | .stop => { r with stopped := true }.run words
    | .overview => .overview
    | .version => if r.verb.isNone then .version else .misuse
    | .unknown => .misuse
    | .switch switch (some value) =>
      match r.set switch value with
      | some r => r.run words
      | none => .misuse
    | .switch switch none =>
      match words with
      | [] => .misuse
      | value :: words =>
        if word value = .operand then
          match r.set switch value with
          | some r => r.run words
          | none => .misuse
        else .misuse

end Reading

/-- What the words of a command line ask for. -/
def parse (words : List String) : Line := Reading.start.run words

end Line

end Reconcile
