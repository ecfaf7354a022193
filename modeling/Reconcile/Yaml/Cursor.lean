import Reconcile.Json.Basic

/-!
# A place in a YAML text

A reader of YAML needs to know what follows and in which column it stands, because indentation
decides what belongs together. A `Cursor` holds both, together with the values that anchors have
named so far. Lines end with a line feed here; other line ends are replaced beforehand.
-/

namespace Reconcile.Yaml

/-- A place in a text. -/
structure Cursor where
  rest : List Char
  column : Nat
  /-- Whether there are only spaces in front of the place on its line. -/
  startsLine : Bool
  anchors : List (String × Json)

/-- A reader takes what it reads off the text, or fails. -/
abbrev Reader (α : Type) := StateT Cursor Option α

/-- Whether a character separates words of one line. -/
def isBlank (c : Char) : Bool := c = ' ' || c = '\t'

/-- Whether a word ends in front of a text. -/
def endsWord : List Char → Bool
  | [] => true
  | c :: _ => isBlank c || c = '\n'

/-- Whether a text begins with a marker between documents. -/
def isMarker : List Char → Bool
  | '-' :: '-' :: '-' :: cs | '.' :: '.' :: '.' :: cs => endsWord cs
  | _ => false

/-- Whether the document ends at a place. -/
def Cursor.isDone (c : Cursor) : Bool := c.rest = [] || (c.column = 0 && isMarker c.rest)

/-- The column after a text that begins in a column. -/
def columnAfter : Nat → List Char → Nat
  | column, [] => column
  | column, c :: cs => columnAfter (if c = '\n' then 0 else column + 1) cs

/-- Whether a line holds only spaces after a text, given whether it does before the text. -/
def startsLineAfter : Bool → List Char → Bool
  | starts, [] => starts
  | starts, c :: cs => startsLineAfter (c = '\n' || (starts && c = ' ')) cs

/-- Go on to a later part of the text. -/
def moveTo (rest : List Char) : Reader Unit :=
  modify fun c =>
    let read := c.rest.take (c.rest.length - rest.length)
    { c with
      rest := rest
      column := columnAfter c.column read
      startsLine := startsLineAfter c.startsLine read }

/-- What follows a gap, which is made of blanks, comments and line ends. Tabs count only up to the
first line end, and everywhere in a flow collection. -/
def afterGap (tabs flow comment : Bool) : List Char → List Char
  | [] => []
  | c :: cs =>
    if c = '\n' then afterGap flow flow false cs
    else if comment || c = '#' then afterGap tabs flow true cs
    else if c = ' ' || (c = '\t' && tabs) then afterGap tabs flow false cs
    else c :: cs

/-- Skip a gap of a block. -/
def skipGap (tabs : Bool) : Reader Unit := do
  moveTo (afterGap tabs false false (← get).rest)

/-- Skip a gap of a flow collection. -/
def skipFlowGap : Reader Unit := do
  moveTo (afterGap true true false (← get).rest)

/-- Skip blanks of the line. -/
def skipBlanks : Reader Unit := do
  moveTo ((← get).rest.dropWhile isBlank)

/-- What a run of blanks and line ends inside a scalar stands for: a single line end for a
blank, and more of them for themselves less one. -/
def fold (run : List Char) : List Char :=
  match run.count '\n' with
  | 0 => run
  | 1 => [' ']
  | n + 2 => List.replicate (n + 1) '\n'

/-- Whether a character can be part of the name of an anchor. -/
def isNameChar (c : Char) : Bool := c.isAlphanum || c = '_' || c = '-'

/-- The name of an anchor. -/
def name : Reader String := do
  let rest := (← get).rest
  let name := rest.takeWhile isNameChar
  let after := rest.dropWhile isNameChar
  if name = [] ∨ !(endsWord after || (after.head?.any (· ∈ [',', ']', '\x7d']))) then failure
  moveTo after
  pure (String.ofList name)

end Reconcile.Yaml
