import Reconcile.Text.Split
import Reconcile.Yaml.Scalar
import Reconcile.Yaml.Text

/-!
# Values in YAML

`parse?` reads a text of one YAML document as a JSON value. A block belongs to what stands around
it as long as its lines are indented further, except that the items of a sequence may stand right
below the key that they belong to. The keys of a mapping are the texts of its scalars, whatever
they spell. Keys that are collections, and keys after a question mark, are refused.
-/

namespace Reconcile.Yaml

/-- What stands in front of a value: the name for it and the tag. -/
structure Properties where
  anchor : Option String
  tag : Option Tag
  /-- Whether there is a name or a tag. -/
  present : Bool

/-- No name and no tag. -/
def Properties.none : Properties := ⟨Option.none, Option.none, false⟩

/-- Where a value stands. -/
structure Place where
  /-- The column of the block around it. -/
  indent : Int
  /-- Whether a mapping or a sequence may begin on the same line. -/
  fresh : Bool
  /-- Whether a sequence may begin in the column of the block around it. -/
  besideKey : Bool

/-- The beginning of all tags that the format itself defines. -/
def coreTags : String := "tag:yaml.org,2002:"

/-- The tag of a full name that does not belong to an application. Collections have their own,
which change nothing, and so does every unknown one. -/
def tagOf (name : String) : Tag :=
  if name = "null" then .null
  else if name = "bool" then .bool
  else if name = "int" then .int
  else if name = "float" then .float
  else .text

/-- A tag after its exclamation mark. -/
def tag : Reader Tag := do
  let rest := (← get).rest
  match rest with
  | '!' :: cs => do
    let name := cs.takeWhile Char.isAlphanum
    let after := cs.dropWhile Char.isAlphanum
    if name = [] ∨ !endsWord after then failure
    moveTo after
    pure (tagOf (String.ofList name))
  | '<' :: cs => do
    let name := cs.takeWhile (· ≠ '>')
    match cs.dropWhile (· ≠ '>'), Text.dropPrefix? coreTags (String.ofList name) with
    | '>' :: after, some name => do
      if !endsWord after then failure
      moveTo after
      pure (tagOf name)
    | _, _ => failure
  | _ => failure

/-- The name and the tag in front of a value, in any order. -/
def properties : Nat → Properties → Reader Properties
  | 0, found => pure found
  | steps + 1, found => do
    match (← get).rest with
    | '&' :: cs => do
      if found.anchor.isSome then failure
      moveTo cs
      let anchor ← name
      skipBlanks
      properties steps { found with anchor := some anchor, present := true }
    | '!' :: cs => do
      if found.tag.isSome then failure
      moveTo cs
      let tag ← tag
      skipBlanks
      properties steps { found with tag := some tag, present := true }
    | _ => pure found

/-- Give a value its name. -/
def named (props : Properties) (value : Json) : Reader Json := do
  match props.anchor with
  | some name =>
    modify fun c => { c with anchors := (name, value) :: c.anchors }
    pure value
  | none => pure value

/-- The value of a scalar. -/
def scalar (props : Properties) (plain : Bool) (text : List Char) : Reader Json := do
  let text := String.ofList text
  let value : Option Json :=
    match props.tag with
    | some tag => Scalar.ofTag? tag text
    | none => if plain then Scalar.resolve? text else some (.str text)
  match value with
  | some value => named props value
  | none => failure

/-- The value that a name stands for. -/
def reference (props : Properties) : Reader Json := do
  if props.present then failure
  let name ← name
  match (← get).anchors.lookup name with
  | some value => pure value
  | none => failure

/-- Go past the colon after a key on the same line. -/
def keyEnd (flow : Bool) : Reader Bool := do
  let rest := (← get).rest.dropWhile isBlank
  match rest with
  | ':' :: after =>
    if flow || endsWord after then do
      moveTo after
      pure true
    else pure false
  | _ => pure false

/-- Whether what is left begins with an item of a block sequence. -/
def atItem (c : Cursor) : Bool :=
  match c.rest with
  | '-' :: cs => endsWord cs
  | _ => false

/-- The first line of a scalar at a place, whether it is plain, and whether that is all of it. -/
def scalarLine (flow : Bool) : Reader (List Char × Bool × Bool) := do
  let c ← get
  match c.rest with
  | '"' :: _ | '\'' :: _ =>
    match quoted? c.rest with
    | some (text, after) => do
      let read := c.rest.take (c.rest.length - after.length)
      moveTo after
      pure (text, false, !read.contains '\n')
    | none => failure
  | rest => do
    if !beginsPlain flow rest then failure
    let (line, after) := plainLine flow false rest
    if flow && touchesMark line after then failure
    moveTo after
    pure (trimBlanks line, true, true)

/-- The further lines of a plain scalar. -/
def furtherLines (flow : Bool) (indent : Int) : Reader (List Char) := do
  let rest := (← get).rest
  let (lines, after) := plainLines flow indent rest.length rest
  moveTo after
  pure lines

/-- Check that nothing follows on the line, and go to the next token. -/
def finishLine : Reader Unit := do
  skipGap true
  let c ← get
  if !c.startsLine && !c.isDone then failure

/-- The key that the next line of a mapping begins with. -/
def blockKey : Reader String := do
  let props ← properties 2 .none
  let (text, _, oneLine) ← scalarLine false
  if !oneLine then failure
  if ← keyEnd false then do
    let key := String.ofList text
    let _ ← named props (.str key)
    pure key
  else failure

/-- A key of a flow collection with its colon, if there is one on the line. -/
def flowKey : Reader (Option String) := do
  let c ← get
  let isScalar := c.rest.head?.any (fun q => q = '"' || q = '\'') || beginsPlain true c.rest
  if !isScalar then pure none
  else do
    let (text, _, oneLine) ← scalarLine true
    if oneLine then
      if ← keyEnd true then pure (some (String.ofList text)) else pure none
    else pure none

/-- A scalar of a flow collection. -/
def flowScalar (props : Properties) : Reader Json := do
  let (text, plain, _) ← scalarLine true
  let lines ← if plain then furtherLines true 0 else pure []
  scalar props plain (text ++ lines)

/-- The text of a key of a flow mapping that has no colon. -/
def bareKey : Reader String := do
  let (text, plain, _) ← scalarLine true
  let lines ← if plain then furtherLines true 0 else pure []
  pure (String.ofList (text ++ lines))

mutual

/-- A value of a flow collection. -/
def flowValue : Nat → Reader Json
  | 0 => failure
  | steps + 1 => do
    skipFlowGap
    let props ← properties 2 .none
    skipFlowGap
    let c ← get
    match c.rest with
    | '[' :: cs => do
      moveTo cs
      let items ← flowItems steps
      named props (.arr items)
    | '\x7b' :: cs => do
      moveTo cs
      let fields ← flowFields steps
      named props (.obj fields)
    | '*' :: cs => do
      moveTo cs
      reference props
    | ',' :: _ | ']' :: _ | '\x7d' :: _ => scalar props true []
    | _ => flowScalar props

/-- The items of a flow sequence up to its end. A key with a value is an item of its own. -/
def flowItems : Nat → Reader (List Json)
  | 0 => failure
  | steps + 1 => do
    skipFlowGap
    match (← get).rest with
    | ']' :: cs => do
      moveTo cs
      pure []
    | ',' :: _ => failure
    | _ => do
      let item ← flowItem steps
      skipFlowGap
      match (← get).rest with
      | ',' :: cs => do
        moveTo cs
        pure (item :: (← flowItems steps))
      | ']' :: cs => do
        moveTo cs
        pure [item]
      | _ => failure

/-- An item of a flow sequence. -/
def flowItem : Nat → Reader Json
  | 0 => failure
  | steps + 1 => do
    let start ← get
    match ← flowKey with
    | some key => do
      let value ← flowValue steps
      pure (.obj [(key, value)])
    | none => do
      set start
      flowValue steps

/-- The fields of a flow mapping up to its end. A key without colon has the value null. -/
def flowFields : Nat → Reader (List (String × Json))
  | 0 => failure
  | steps + 1 => do
    skipFlowGap
    match (← get).rest with
    | '\x7d' :: cs => do
      moveTo cs
      pure []
    | _ => do
      let start ← get
      let field ← (do
        match ← flowKey with
        | some key => do
          let value ← flowValue steps
          pure (key, value)
        | none => do
          set start
          let key ← bareKey
          pure (key, .null))
      skipFlowGap
      match (← get).rest with
      | ',' :: cs => do
        moveTo cs
        pure (field :: (← flowFields steps))
      | '\x7d' :: cs => do
        moveTo cs
        pure [field]
      | _ => failure

end

/-- Whether there is no value at a place, because the text or the block around it ends. -/
def outside (place : Place) : Reader Bool := do
  let c ← get
  pure (c.isDone || (c.startsLine && c.column ≤ place.indent
    && !(place.besideKey && c.column = place.indent && atItem c)))

/-- A block of lines after its mark. -/
def blockText (cs : List Char) (folded : Bool) (place : Place) (props : Properties) :
    Reader Json := do
  match block? folded place.indent cs with
  | some (text, after) => do
    moveTo after
    scalar props false text
  | none => failure

mutual

/-- The value at a place. -/
def value : Nat → Place → Reader Json
  | 0, _ => failure
  | steps + 1, place => do
    skipGap (!place.fresh)
    if ← outside place then scalar .none true []
    else do
      let c ← get
      let fresh := place.fresh || c.startsLine
      let props ← properties 2 .none
      if props.present then do
        skipGap true
        let d ← get
        if ← outside place then scalar props true []
        else if d.startsLine then content steps place d.column true true props
        else content steps place c.column fresh false props
      else content steps place c.column fresh fresh props

/-- A value that begins right here. A mapping, if one may begin, has its keys in column `start`.
Where no sequence may begin, a name on the line belongs to the first key and not to the mapping. -/
def content : Nat → Place → Nat → Bool → Bool → Properties → Reader Json
  | 0, _, _, _, _, _ => failure
  | steps + 1, place, start, mayMap, mayList, props => do
    let c ← get
    if atItem c then do
      if !mayList then failure
      let items ← sequence steps c.column (c.column = place.indent)
      named props (.arr items)
    else
      match c.rest with
      | '[' :: cs => do
        moveTo cs
        let items ← flowItems (2 * cs.length + 2)
        named props (.arr items)
      | '\x7b' :: cs => do
        moveTo cs
        let fields ← flowFields (2 * cs.length + 2)
        named props (.obj fields)
      | '*' :: cs => do
        moveTo cs
        reference props
      | '|' :: cs => blockText cs false place props
      | '>' :: cs => blockText cs true place props
      | _ => do
        let (text, plain, oneLine) ← scalarLine false
        if oneLine && (← keyEnd false) then do
          if !mayMap then failure
          let key := String.ofList text
          if mayList then do
            let fields ← mapping steps start key
            named props (.obj fields)
          else do
            let _ ← named props (.str key)
            let fields ← mapping steps start key
            pure (.obj fields)
        else do
          let lines ← if plain then furtherLines false place.indent else pure []
          scalar props plain (text ++ lines)

/-- The items of a block sequence in a column, the first of which is next. -/
def sequence : Nat → Nat → Bool → Reader (List Json)
  | 0, _, _ => failure
  | steps + 1, column, besideKey => do
    moveTo (← get).rest.tail
    let item ← value steps ⟨column, true, false⟩
    finishLine
    let c ← get
    if c.isDone || c.column < column then pure [item]
    else if c.column = column then
      if atItem c then do
        let items ← sequence steps column besideKey
        pure (item :: items)
      else if besideKey then pure [item]
      else failure
    else failure

/-- The fields of a block mapping in a column, the first of which has a key that has been read. -/
def mapping : Nat → Nat → String → Reader (List (String × Json))
  | 0, _, _ => failure
  | steps + 1, column, key => do
    let value ← value steps ⟨column, false, true⟩
    finishLine
    let c ← get
    if c.isDone || c.column < column then pure [(key, value)]
    else if c.column = column && !atItem c then do
      let next ← blockKey
      let fields ← mapping steps column next
      pure ((key, value) :: fields)
    else failure

end

/-- Go past the lines of directives and the marker that begins a document. The answer tells
whether the document begins on the line of the marker. -/
def opening : Reader Bool := do
  skipGap true
  let c ← get
  let isDirective (line : List Char) : Bool := line.head? = some '%'
  let directives := (lines c.rest).takeWhile fun line => isDirective line || line = []
  let rest :=
    if isDirective c.rest then
      c.rest.drop (directives.flatten.length + directives.length)
    else c.rest
  moveTo rest
  match rest with
  | '-' :: '-' :: '-' :: cs =>
    if (← get).column = 0 ∧ endsWord cs then do
      moveTo cs
      pure true
    else pure false
  | _ => if isDirective c.rest then failure else pure false

/-- Go past the markers that end a document, after which nothing may follow. -/
def closing : Nat → Reader Unit
  | 0 => failure
  | steps + 1 => do
    skipGap true
    match (← get).rest with
    | [] => pure ()
    | '.' :: '.' :: '.' :: cs => do
      if !endsWord cs then failure
      moveTo cs
      closing steps
    | _ => failure

/-- The value of a text of one document. -/
def document (steps : Nat) : Reader Json := do
  let marked ← opening
  let result ← value steps ⟨-1, !marked, false⟩
  finishLine
  closing steps
  pure result

/-- Whether a character may be part of a text. -/
def isAllowed (c : Char) : Bool :=
  c = '\t' || c = '\n' || (' ' ≤ c && c ≤ '~') || c = '\u0085'
    || ('\u00a0' ≤ c && c ≠ '\ufeff' && c ≠ '\ufffe' && c ≠ '\uffff')

/-- A text with a line feed at the end of every line. -/
def unifyLineEnds : List Char → List Char
  | '\r' :: '\n' :: cs => '\n' :: unifyLineEnds cs
  | '\r' :: cs => '\n' :: unifyLineEnds cs
  | c :: cs => c :: unifyLineEnds cs
  | [] => []

/-- A text without a byte order mark at its beginning. -/
def dropOrderMark : List Char → List Char
  | '\ufeff' :: cs => cs
  | cs => cs

/-- The value of a YAML text. -/
def parse? (text : String) : Option Json := do
  let cs := unifyLineEnds (dropOrderMark text.toList)
  if cs.all isAllowed then
    let (value, _) ← (document (4 * cs.length + 8)).run ⟨cs, 0, true, []⟩
    some value.ordered
  else none

end Reconcile.Yaml
