import Mathlib.Data.List.Basic
import Reconcile.Proofs.Block.Readers
import Reconcile.Proofs.Schema.Checks
import Reconcile.Proofs.Schema.Fitting

/-!
# Numbers that stand for bounds

The bounds of a rolling update are texts, but a number may be written for one. Which numbers are
meant is not the same everywhere: integers alone, or all numbers. The rule for a value therefore has
them as a parameter (`Schema.Tolerated`). A block whose values keep to the rule differs from one of
its schema in nothing else: its nested blocks are of their types, and their elements keep to the
rule as well.
-/

namespace Reconcile.Schema

/-- Whether a field holds a bound of a rolling update, which is a number or a share. -/
def isBound (name : String) : Bool := name ∈ ["max_surge", "max_unavailable"]

/-- Whether a value is an integer of any size. -/
def isInteger : Json → Bool
  | .int _ => true
  | _ => false

/-- Whether a value is a number, with or without a fraction. -/
def isNumber : Json → Bool
  | .int _ => true
  | .float _ => true
  | _ => false

/-- Whether a value is one of some numbers and stands for a bound, which is a text. -/
def isBareBound (numbers : Json → Bool) : Field → Json → Bool
  | ⟨name, .text, _, _⟩, value => isBound name && numbers value
  | _, _ => false

/-- A value has the type of its field, or it is one of some numbers and stands for a bound. -/
def Tolerated (numbers : Json → Bool) (field : Field) (value : Json) : Prop :=
  field.type.Admits value ∨ isBareBound numbers field value = true

instance (numbers : Json → Bool) (field : Field) (value : Json) :
    Decidable (Tolerated numbers field value) :=
  inferInstanceAs (Decidable (field.type.Admits value ∨ isBareBound numbers field value = true))

/-- A block that holds fields of a schema only, each with a tolerated value. -/
structure Tolerates (schema : Schema) (numbers : Json → Bool) (block : Block) : Prop where
  covers : schema.Covers block
  tolerated : schema.Every (Tolerated numbers) block

variable {schema fields : Schema} {numbers : Json → Bool} {block inner : Block}
  {field : Field} {singular : Bool}

instance : Decidable (schema.Tolerates numbers block) :=
  decidable_of_iff (schema.Covers block ∧ schema.Every (Tolerated numbers) block)
    ⟨fun h => ⟨h.1, h.2⟩, fun h => ⟨h.covers, h.tolerated⟩⟩

namespace Tolerates

/-- The value of a nested block is of its type. -/
theorem admits (h : schema.Tolerates numbers block) (hfield : field ∈ schema)
    (htype : field.type = .block fields singular) {value : Json}
    (hvalue : block.lookup field.name = some value) :
    (FieldType.block fields singular).Admits value := by
  obtain ⟨name, type, presence, default⟩ := field
  cases htype
  rcases h.tolerated.here hfield hvalue with hadmits | hbound
  · exact hadmits
  · cases hbound

/-- The elements of a nested block are tolerated. -/
theorem element (h : schema.Tolerates numbers block) (hfield : field ∈ schema) {value : Json}
    (hvalue : block.lookup field.name = some value) (htype : field.type = .block fields singular)
    (hinner : inner ∈ value.elements) : fields.Tolerates numbers inner := by
  refine ⟨?_, h.tolerated.inside hfield hvalue htype hinner⟩
  cases h.admits hfield htype hvalue with
  | block _ _ blocks hcovers =>
      rw [Json.elements_arr] at hinner
      exact hcovers inner hinner

/-- The elements of an array of objects that a nested block holds are tolerated. -/
theorem getElem (h : schema.Tolerates numbers block) (hfield : field ∈ schema)
    (htype : field.type = .block fields singular) {blocks : List Block}
    (hvalue : block.lookup field.name = some (.arr (blocks.map .obj))) {i : Nat}
    (hinner : blocks[i]? = some inner) : fields.Tolerates numbers inner := by
  refine h.element hfield hvalue htype ?_
  rw [Json.elements_arr]
  exact List.mem_of_getElem? hinner

/-- The first element of a nested block is tolerated. -/
theorem child (h : schema.Tolerates numbers block) {name : String}
    (htype : schema.typeOf? name = some (.block fields singular))
    (hchild : Block.child? block name = some inner) : fields.Tolerates numbers inner := by
  obtain ⟨field, hfield, rfl, hfieldType⟩ := exists_of_typeOf? htype
  obtain ⟨items, hitems⟩ := Block.child?_eq_some_iff.1 hchild
  exact h.element hfield hitems hfieldType List.mem_cons_self

end Tolerates

end Reconcile.Schema
