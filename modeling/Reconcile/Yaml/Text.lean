import Reconcile.Json.Parser
import Reconcile.Yaml.Cursor

/-!
# Texts in YAML

A text is written plainly, in quotes, or as a block of lines. A plain or quoted text may continue
on further lines, whose ends are folded. A block of lines keeps its line ends, or folds those
between lines that begin with no blank.
-/

namespace Reconcile.Yaml

/-- The character of a number, which may not be half of a pair. -/
def charOf? (n : Nat) : Option Char := if h : n.isValidChar then some (Char.ofNatAux n h) else none

/-- The characters that stand for another one after a backslash. -/
def escapes : List (Char × Char) :=
  [('0', '\x00'), ('a', '\x07'), ('b', '\x08'), ('t', '\t'), ('\t', '\t'), ('n', '\n'),
   ('v', '\x0b'), ('f', '\x0c'), ('r', '\r'), ('e', '\x1b'), (' ', ' '), ('"', '"'), ('/', '/'),
   ('\\', '\\'), ('N', '\u0085'), ('_', '\u00a0'), ('L', '\u2028'), ('P', '\u2029')]

/-- The character of a number with `width` hexadecimal digits, and what follows. -/
def hexEscape? (width : Nat) (cs : List Char) : Option (Char × List Char) := do
  let digits ← (cs.take width).mapM Json.hexDigit?
  if digits.length = width then
    some (← charOf? (digits.foldl (fun n d => 16 * n + d) 0), cs.drop width)
  else none

/-- The character that follows a backslash means, and what follows. -/
def escape? : List Char → Option (Char × List Char)
  | 'x' :: cs => hexEscape? 2 cs
  | 'u' :: cs => hexEscape? 4 cs
  | 'U' :: cs => hexEscape? 8 cs
  | c :: cs => (escapes.lookup c).map (·, cs)
  | [] => none

/-- Whether a character separates words. -/
def isSpace (c : Char) : Bool := isBlank c || c = '\n'

/-- Whether a run of blanks and line ends leads to a marker, which no text may hold. -/
def leadsToMarker (run rest : List Char) : Bool := run.getLast? = some '\n' && isMarker rest

/-- The rest of a text in double quotes, after the characters of `read` in reverse order, and what
follows its end. -/
def doubleQuoted? : Nat → List Char → List Char → Option (List Char × List Char)
  | 0, _, _ => none
  | _, _, [] => none
  | steps + 1, read, c :: cs =>
    if c = '"' then some (read.reverse, cs)
    else if c = '\\' then
      match cs with
      | '\n' :: cs =>
        let run := cs.takeWhile isSpace
        let rest := cs.dropWhile isSpace
        if leadsToMarker ('\n' :: run) rest then none
        else doubleQuoted? steps (List.replicate (run.count '\n') '\n' ++ read) rest
      | cs => (escape? cs).bind fun (c, rest) => doubleQuoted? steps (c :: read) rest
    else if isSpace c then
      let run := c :: cs.takeWhile isSpace
      let rest := cs.dropWhile isSpace
      if leadsToMarker run rest then none
      else doubleQuoted? steps ((fold run).reverse ++ read) rest
    else doubleQuoted? steps (c :: read) cs

/-- The rest of a text in single quotes, after the characters of `read` in reverse order, and what
follows its end. A quote inside is written twice. -/
def singleQuoted? : Nat → List Char → List Char → Option (List Char × List Char)
  | 0, _, _ => none
  | _, _, [] => none
  | steps + 1, read, c :: cs =>
    if c = '\'' then
      match cs with
      | '\'' :: cs => singleQuoted? steps ('\'' :: read) cs
      | cs => some (read.reverse, cs)
    else if isSpace c then
      let run := c :: cs.takeWhile isSpace
      let rest := cs.dropWhile isSpace
      if leadsToMarker run rest then none
      else singleQuoted? steps ((fold run).reverse ++ read) rest
    else singleQuoted? steps (c :: read) cs

/-- The text in quotes that begins a text, and what follows it. -/
def quoted? : List Char → Option (List Char × List Char)
  | '"' :: cs => doubleQuoted? (cs.length + 1) [] cs
  | '\'' :: cs => singleQuoted? (cs.length + 1) [] cs
  | _ => none

/-- The characters that separate the parts of a flow collection. -/
def isFlowMark (c : Char) : Bool := c ∈ [',', '[', ']', '\x7b', '\x7d']

/-- Whether a plain text ends in front of a text, after a blank or not. -/
def endsPlain (flow afterBlank : Bool) : List Char → Bool
  | [] => true
  | c :: cs =>
    c = '\n' || (c = ':' && endsWord cs) || (flow && isFlowMark c) || (afterBlank && c = '#')

/-- The part of a plain text that is on one line, and what follows. -/
def plainLine (flow afterBlank : Bool) : List Char → List Char × List Char
  | [] => ([], [])
  | c :: cs =>
    if endsPlain flow afterBlank (c :: cs) then ([], c :: cs)
    else
      let (line, rest) := plainLine flow (isBlank c) cs
      (c :: line, rest)

/-- The characters that mean something else at the beginning of a text. -/
def indicators : List Char := ['#', '&', '*', '!', '|', '>', '\'', '"', '%', '@', '\x60']

/-- Whether a text can begin a plain text. -/
def beginsPlain (flow : Bool) : List Char → Bool
  | [] => false
  | c :: cs =>
    if c = '-' then !endsWord cs
    else if c = '?' ∨ c = ':' then !flow && !endsWord cs
    else !(isSpace c || isFlowMark c || c ∈ indicators)

/-- A text without blanks at its end. -/
def trimBlanks (cs : List Char) : List Char := (cs.reverse.dropWhile isBlank).reverse

/-- The further lines of a plain text, each in a column beyond `indent` unless in a flow
collection, and what follows. -/
def plainLines (flow : Bool) (indent : Int) : Nat → List Char → List Char × List Char
  | 0, cs => ([], cs)
  | steps + 1, cs =>
    let run := cs.takeWhile isSpace
    let rest := cs.dropWhile isSpace
    let goesOn :=
      run.contains '\n' && !leadsToMarker run rest && !endsPlain flow true rest
        && (flow || indent < columnAfter 0 run)
    if goesOn then
      let (line, after) := plainLine flow false rest
      let (lines, after) := plainLines flow indent steps after
      (fold run ++ trimBlanks line ++ lines, after)
    else ([], cs)

/-- Whether a plain text of a flow collection ends with a colon that touches the next mark. -/
def touchesMark (line rest : List Char) : Bool :=
  line.getLast? = some ':' && rest.head?.any isFlowMark

/-- How a block of lines ends. -/
inductive Chomping where
  /-- Without line end. -/
  | strip
  /-- With one line end. -/
  | clip
  /-- With all line ends. -/
  | keep
  deriving DecidableEq

/-- The head of a block of lines: how it ends and how far it is indented, if that is said, and
what follows its line. -/
def blockHead? (cs : List Char) : Option (Chomping × Option Nat × List Char) := do
  let marks := cs.takeWhile fun c => c = '+' || c = '-' || c.isDigit
  let line := (cs.dropWhile fun c => c = '+' || c = '-' || c.isDigit).takeWhile (· ≠ '\n')
  let after := cs.dropWhile (· ≠ '\n')
  let comment := line.dropWhile isBlank
  if comment ≠ [] ∧ (comment.head? ≠ some '#' ∨ comment.length = line.length) then none
  let chomping (c : Char) : Option Chomping :=
    if c = '+' then some .keep else if c = '-' then some .strip else none
  let indent (c : Char) : Option Nat :=
    if '1' ≤ c ∧ c ≤ '9' then some (c.toNat - '0'.toNat) else none
  match marks with
  | [] => some (.clip, none, after)
  | [c] =>
    match chomping c with
    | some how => some (how, none, after)
    | none => (indent c).map fun n => (.clip, some n, after)
  | [c, d] =>
    match chomping c, indent d, indent c, chomping d with
    | some how, some n, _, _ => some (how, some n, after)
    | _, _, some n, some how => some (how, some n, after)
    | _, _, _, _ => none
  | _ => none

/-- The lines of a text, each without its end. -/
def lines : List Char → List (List Char)
  | [] => [[]]
  | c :: cs =>
    if c = '\n' then [] :: lines cs
    else
      match lines cs with
      | [] => [[c]]
      | line :: rest => (c :: line) :: rest

/-- The number of spaces that begin a line. -/
def indentation (line : List Char) : Nat := (line.takeWhile (· = ' ')).length

/-- Whether a line holds nothing but spaces. -/
def isEmptyLine (line : List Char) : Bool := line.all (· = ' ')

/-- The indentation of a block of lines that follows an indentation of `indent`. -/
def blockIndent (indent : Int) (body : List (List Char)) : Nat :=
  let leading := body.takeWhile isEmptyLine
  let first := (body.drop leading.length).head?.toList
  let widest := ((leading ++ first).map indentation).foldl max 0
  max (max widest (indent + 1).toNat) 1

/-- The text of folded lines, of which the one before begins with a blank or not. Nothing stands
before the first line. -/
def foldLines (before : Option Bool) (gap : Nat) : List (List Char) → List Char
  | [] => []
  | [] :: rest => foldLines before (gap + 1) rest
  | line :: rest =>
    let blank := line.head?.any isBlank
    let joint :=
      match before with
      | none => List.replicate gap '\n'
      | some other =>
        if other || blank then List.replicate (gap + 1) '\n'
        else if gap = 0 then [' ']
        else List.replicate gap '\n'
    joint ++ line ++ foldLines (some blank) 0 rest

/-- The text of a block of lines with a head, where the block around it is indented by `indent`,
and what follows. -/
def block? (folded : Bool) (indent : Int) (cs : List Char) : Option (List Char × List Char) := do
  let (chomping, more, after) ← blockHead? cs
  match after with
  | [] => some ([], [])
  | _ :: text =>
    let all := lines text
    let width :=
      match more with
      | some n => indent.toNat + n
      | none => blockIndent indent all
    let body := all.takeWhile fun line => isEmptyLine line || width ≤ indentation line
    let closed := body.length < all.length
    let content := body.map (·.drop width)
    let trailing := (content.reverse.takeWhile (· = [])).length
    let kept := content.take (content.length - trailing)
    let inner := if folded then foldLines none 0 kept else ['\n'].intercalate kept
    let ends := if closed then trailing + 1 else trailing
    let ending :=
      match chomping with
      | .strip => 0
      | .clip => if kept = [] then 0 else min ends 1
      | .keep => if kept = [] then ends - 1 else ends
    let consumed := body.flatten.length + body.length
    some (inner ++ List.replicate ending '\n', after.drop consumed)

end Reconcile.Yaml
