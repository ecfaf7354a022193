import Mathlib.Data.List.Basic
import Reconcile.Change
import Reconcile.Declaration
import Reconcile.Proofs.Except.Steps
import Reconcile.Proofs.Schema.Conformance

/-!
# Nested blocks of accepted blocks

The readers of nested blocks skip what is not there or of another type. In a block that a schema
accepts nothing is skipped: a nested block is an array of objects, and its elements are what the
readers see.
-/

namespace Reconcile

namespace Block

variable {block child : Block} {key : String}

/-- The first element of a nested block is at the front of an array. -/
theorem child?_eq_some_iff : child? block key = some child ↔
    ∃ items, block.lookup key = some (.arr (.obj child :: items)) := by
  constructor
  · intro h
    obtain ⟨value, hvalue, h⟩ := Option.bind_eq_some_iff.1 h
    obtain ⟨items, hitems, h⟩ := Option.bind_eq_some_iff.1 h
    obtain ⟨item, hitem, h⟩ := Option.bind_eq_some_iff.1 h
    cases value with
    | arr values =>
        cases hitems
        cases items with
        | nil => cases hitem
        | cons first rest =>
            cases hitem
            cases item with
            | obj fields =>
                cases h
                exact ⟨rest, hvalue⟩
            | _ => cases h
    | _ => cases hitems
  · rintro ⟨items, h⟩
    rw [child?, h]
    rfl

/-- Blocks with the same value have the same first element. -/
theorem child?_congr {other : Block} (h : block.lookup key = other.lookup key) :
    child? block key = child? other key := by
  rw [child?, child?, h]

theorem children_congr {other : Block} (h : block.lookup key = other.lookup key) :
    children block key = children other key := by
  rw [children, children, h]

/-- The elements of an array of objects are its objects. -/
theorem children_of_lookup {blocks : List Block}
    (h : block.lookup key = some (.arr (blocks.map .obj))) : children block key = blocks := by
  rw [children, h]
  exact Json.elements_arr blocks

theorem children_of_none (h : block.lookup key = none) : children block key = [] := by
  rw [children, h]
  rfl

end Block

/-- An accepted nested block is absent or an array of objects. -/
theorem Schema.Accepts.exists_blocks {schema : Schema} {block : Block}
    (h : schema.Accepts block) {field : Field} (hfield : field ∈ schema) {fields : Schema}
    {singular : Bool} (htype : field.type = .block fields singular) {value : Json}
    (hvalue : block.lookup field.name = some value) :
    ∃ blocks : List Block, value = .arr (blocks.map .obj) ∧
      ∀ element ∈ blocks, fields.Accepts element := by
  have hadmits := h.typed.here hfield hvalue
  rw [htype] at hadmits
  cases hadmits with
  | block _ _ blocks _ =>
      refine ⟨blocks, rfl, fun element helement => ?_⟩
      refine h.element hfield hvalue htype ?_
      rw [Json.elements_arr]
      exact helement

/-- An accepted nested block says something exactly if it has elements. -/
theorem Schema.Accepts.isDeclared_eq {schema : Schema} {block : Block}
    (h : schema.Accepts block) {field : Field} (hfield : field ∈ schema) {fields : Schema}
    {singular : Bool} (htype : field.type = .block fields singular) :
    Change.isDeclared (block.lookup field.name) =
      !(Block.children block field.name).isEmpty := by
  cases hvalue : block.lookup field.name with
  | none =>
      rw [Block.children_of_none hvalue]
      rfl
  | some value =>
      obtain ⟨blocks, rfl, _⟩ := h.exists_blocks hfield htype hvalue
      rw [Block.children_of_lookup hvalue]
      cases blocks with
      | nil => rfl
      | cons first rest => rfl

namespace Declaration

variable {α : Type} {block : Block} {key path : String} {expand : String → Block → Except Failure α}

/-- Something is made of the elements of a nested block if it has some. -/
theorem isEmpty_of_children {items : List α} (h : children block key path expand = .ok items) :
    items.isEmpty = (Block.children block key).isEmpty := by
  have hlength := (Steps.mapM_eq_ok_iff.1 h).length_eq
  rw [List.length_zipIdx] at hlength
  rw [Bool.eq_iff_iff, List.isEmpty_iff_length_eq_zero, List.isEmpty_iff_length_eq_zero, hlength]

theorem requiredBlock_eq_ok {child : Block} :
    requiredBlock block key path = .ok child ↔ Block.child? block key = some child := by
  unfold requiredBlock
  cases Block.child? block key with
  | none => simp
  | some found => simp

theorem nonEmpty?_isSome (items : List α) : (nonEmpty? items).isSome = !items.isEmpty := by
  unfold nonEmpty?
  cases items with
  | nil => rfl
  | cons item items => rfl

end Declaration

/-- The map at a path through the first element of a nested block is the one that its reader
sees. -/
theorem Change.textsAt_child {block child : Block} {outer : String}
    (h : Block.child? block outer = some child) (key : String) :
    textsAt (.obj block) [outer, "0", key] = Block.texts child key := by
  obtain ⟨items, hitems⟩ := Block.child?_eq_some_iff.1 h
  have hfind : Tree.find? [outer, "0", key] (.obj block) = child.lookup key := by
    have hindex : Tree.index? "0" = some 0 := by decide
    simp only [Tree.find?, hitems, hindex, Option.bind_some, List.getElem?_cons_zero]
    exact Option.bind_fun_some _
  rw [textsAt, hfind]
  rfl

end Reconcile
