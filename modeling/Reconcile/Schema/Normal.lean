import Reconcile.Schema.Basic

/-!
# Filling the gaps of a desired tree

Two trees can be compared once their gaps are filled. `Schema.normalize` gives an absent field the
value that the prior tree holds, if the field is one that carries over, and else its default. It
visits only blocks that are there, and it pairs the elements of a block with those of the prior
tree by their position. A field that is there keeps its value.
-/

namespace Reconcile.Schema

/-- The fields of the element with an index in a nested block. -/
def elementAt? (value : Option Json) (i : Nat) : Option Block := do
  (← (← (← value).arr?)[i]?).obj?

mutual

/-- A block with its gaps filled from a prior block. -/
def fill : Schema → Option Block → Block → Block
  | [], _, block => block
  | field :: fields, prior, block => fill fields prior (fillField field prior block)

/-- A block with the gap of one field filled from a prior block. -/
def fillField : Field → Option Block → Block → Block
  | ⟨name, type, presence, default⟩, prior, block =>
    let before := prior.bind (·.lookup name)
    match block.lookup name with
    | none =>
      let carried := if presence.carries then before else none
      Block.put block name (carried <|> default.map Scalar.toJson)
    | some (.arr items) => Entries.insert name (.arr (fillItems type before items)) block
    | some _ => block

/-- The elements of a block type with their gaps filled; the items of other types as they are. -/
def fillItems : FieldType → Option Json → List Json → List Json
  | .block fields _, before, items =>
    items.mapIdx fun i item =>
      match item with
      | .obj block => .obj (fill fields (elementAt? before i) block)
      | _ => item
  | .text, _, items => items
  | .int, _, items => items
  | .bool, _, items => items
  | .textList, _, items => items
  | .textMap, _, items => items

end

/-- A desired tree with its gaps filled from a prior tree. -/
def normalize (schema : Schema) (prior : Option Tree) (desired : Tree) : Tree :=
  match desired with
  | .obj block => .obj (schema.fill (prior.bind Json.obj?) block)
  | other => other

end Reconcile.Schema
