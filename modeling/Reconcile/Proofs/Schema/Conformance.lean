import Mathlib.Data.List.Nodup
import Reconcile.Json.Basic
import Reconcile.Proofs.Dict.Bindings
import Reconcile.Schema.Basic

/-!
# Trees that conform to a schema

A block conforms to a schema if it holds fields of the schema only and every value has the type of
its field, in the block itself and in the blocks nested in it. `Schema.Every` carries a rule for
single values through all levels of a block, so conformance and every stricter form of it is one
rule. `Schema.Throughout` carries a rule for schemas through their levels, such as
`Schema.WellNamed`, by which keys made of field names and points can be told apart, and
`Schema.induction` is the induction over the levels of a schema.
-/

namespace Reconcile

/-- The elements of a nested block's value. -/
def Json.elements (value : Json) : List Block := (value.arr?.getD []).filterMap Json.obj?

@[simp]
theorem Json.elements_arr (blocks : List Block) :
    (Json.arr (blocks.map Json.obj)).elements = blocks := by
  simp [elements, arr?, obj?, List.filterMap_map, Function.comp_def]

/-- An integer of 64 bits is read as one. -/
theorem Json.int64?_int {i : Int} (hlow : minInt64 ≤ i) (hhigh : i ≤ maxInt64) :
    (Json.int i).int64? = some (Int64.ofInt i) := by
  rw [int64?, if_pos ⟨hlow, hhigh⟩]

namespace Schema

/-- A block that holds fields of a schema only, in the order of their keys. -/
structure Covers (schema : Schema) (block : Block) : Prop where
  ascending : Entries.Ascending block
  known : ∀ key ∈ block.map (·.1), key ∈ schema.map (·.name)

/-- Every value of a block satisfies a rule for its field, and so do the values of the blocks
nested in it. -/
inductive Every (rule : Field → Json → Prop) : Schema → Block → Prop where
  | intro {schema : Schema} {block : Block}
      (here : ∀ field ∈ schema, ∀ value, block.lookup field.name = some value → rule field value)
      (below : ∀ field ∈ schema, ∀ value, block.lookup field.name = some value →
        ∀ fields singular, field.type = .block fields singular →
          ∀ element ∈ value.elements, Every rule fields element) :
      Every rule schema block

end Schema

/-- The values of a type. An integer has 64 bits, and the elements of a block hold fields of its
schema only. -/
inductive FieldType.Admits : FieldType → Json → Prop where
  | text (s : String) : Admits .text (.str s)
  | int (i : Int) (hlow : Json.minInt64 ≤ i) (hhigh : i ≤ Json.maxInt64) : Admits .int (.int i)
  | bool (b : Bool) : Admits .bool (.bool b)
  | textList (items : List String) : Admits .textList (.arr (items.map .str))
  | textMap (texts : Dict String) : Admits .textMap (Json.ofTexts texts)
  | block (fields : Schema) (singular : Bool) (blocks : List Block)
      (hcovers : ∀ element ∈ blocks, fields.Covers element) :
      Admits (.block fields singular) (.arr (blocks.map .obj))

namespace Schema

/-- A block whose fields are those of a schema, each with a value of its type. -/
structure Accepts (schema : Schema) (block : Block) : Prop where
  covers : schema.Covers block
  typed : Every (fun field value => field.type.Admits value) schema block

end Schema

/-- A value of a type whose elements, if it is a nested block, are accepted. -/
def FieldType.Fits (type : FieldType) (value : Json) : Prop :=
  type.Admits value ∧ ∀ (fields : Schema) (singular : Bool), type = .block fields singular →
    ∀ element ∈ value.elements, fields.Accepts element

/-- Accepted elements make a fitting nested block. -/
theorem FieldType.fits_blocks {fields : Schema} {blocks : List Block}
    (h : ∀ element ∈ blocks, fields.Accepts element) (singular : Bool) :
    (FieldType.block fields singular).Fits (.arr (blocks.map .obj)) := by
  refine ⟨.block fields singular blocks fun element helement => (h element helement).covers, ?_⟩
  rintro _ _ ⟨⟩ element helement
  rw [Json.elements_arr] at helement
  exact h element helement

namespace Schema

/-- A tree whose root is a block that a schema accepts. -/
def Conforms (schema : Schema) (tree : Tree) : Prop :=
  ∃ block, tree = .obj block ∧ schema.Accepts block

/-- A schema satisfies a rule, and so do the schemas of its blocks. -/
inductive Throughout (rule : Schema → Prop) : Schema → Prop where
  | intro {schema : Schema} (here : rule schema)
      (below : ∀ field ∈ schema, ∀ fields singular, field.type = .block fields singular →
        Throughout rule fields) :
      Throughout rule schema

/-- The names of the fields are distinct and hold no point. -/
def DistinctNames (schema : Schema) : Prop :=
  (schema.map (·.name)).Nodup ∧ ∀ field ∈ schema, '.' ∉ field.name.toList

/-- The names of the fields of each level are distinct and hold no point. -/
def WellNamed (schema : Schema) : Prop := Throughout DistinctNames schema

/-- Every default has the type of its field. -/
def TypedDefaults (schema : Schema) : Prop :=
  ∀ field ∈ schema, ∀ default, field.default = some default →
    field.type.Admits default.toJson

/-- What holds of a schema if it holds of the schemas of its blocks holds of every schema. -/
theorem induction {motive : Schema → Prop}
    (step : ∀ schema : Schema, (∀ field ∈ schema, ∀ fields singular,
      field.type = .block fields singular → motive fields) → motive schema)
    (schema : Schema) : motive schema :=
  step schema fun field hfield fields singular htype =>
    have hlt : sizeOf fields < sizeOf schema := by
      have hmem := List.sizeOf_lt_of_mem hfield
      obtain ⟨name, type, presence, default⟩ := field
      cases htype
      simp only [FieldOf.mk.sizeOf_spec, FieldType.block.sizeOf_spec] at hmem
      omega
    induction step fields
termination_by sizeOf schema

variable {schema : Schema} {block : Block} {rule other : Field → Json → Prop}

theorem Every.here (h : schema.Every rule block) {field : Field} (hfield : field ∈ schema)
    {value : Json} (hvalue : block.lookup field.name = some value) : rule field value := by
  cases h with
  | intro here _ => exact here field hfield value hvalue

theorem Every.inside (h : schema.Every rule block) {field : Field} (hfield : field ∈ schema)
    {value : Json} (hvalue : block.lookup field.name = some value) {fields : Schema}
    {singular : Bool} (htype : field.type = .block fields singular) {element : Block}
    (helement : element ∈ value.elements) : fields.Every rule element := by
  cases h with
  | intro _ below => exact below field hfield value hvalue fields singular htype element helement

theorem WellNamed.nodup (h : schema.WellNamed) : (schema.map (·.name)).Nodup := by
  cases h with
  | intro here _ => exact here.1

/-- A rule may be replaced by one that it implies. -/
theorem Every.mono (h : schema.Every rule block)
    (himp : ∀ field value, rule field value → other field value) : schema.Every other block := by
  induction h with
  | intro here _ ih =>
      exact .intro (fun field hfield value hvalue =>
        himp field value (here field hfield value hvalue)) ih

/-- Two rules may be put together. -/
theorem Every.and (h : schema.Every rule block) (h' : schema.Every other block) :
    schema.Every (fun field value => rule field value ∧ other field value) block := by
  induction h with
  | intro here _ ih =>
      refine .intro (fun field hfield value hvalue =>
        ⟨here field hfield value hvalue, h'.here hfield hvalue⟩) ?_
      exact fun field hfield value hvalue fields singular htype element helement =>
        ih field hfield value hvalue fields singular htype element helement
          (h'.inside hfield hvalue htype helement)

/-- A value, if there is one, satisfies a rule for its field, and so do the values of the blocks
nested in it. -/
def Meets (rule : Field → Json → Prop) (field : Field) (value : Option Json) : Prop :=
  ∀ v, value = some v → rule field v ∧ ∀ (fields : Schema) (singular : Bool),
    field.type = .block fields singular → ∀ element ∈ v.elements, fields.Every rule element

/-- A block satisfies a rule if the value of each of its fields does. -/
theorem every_of_fields (h : ∀ field ∈ schema, Meets rule field (block.lookup field.name)) :
    schema.Every rule block :=
  .intro (fun field hfield value hvalue => (h field hfield value hvalue).1)
    fun field hfield value hvalue => (h field hfield value hvalue).2

/-- A block that holds nothing under other names holds fields of a schema only. -/
theorem Covers.of_lookup (hasc : Entries.Ascending block)
    (h : ∀ key, key ∉ schema.map (·.name) → block.lookup key = none) : schema.Covers block := by
  refine ⟨hasc, fun key hkey => ?_⟩
  by_contra hunknown
  exact Entries.lookup_eq_none_iff.1 (h key hunknown) hkey

/-- An accepted block holds nothing under a key that is no field. -/
theorem Accepts.lookup_eq_none (h : schema.Accepts block) {key : String}
    (hkey : key ∉ schema.map (·.name)) : block.lookup key = none :=
  Entries.lookup_eq_none_iff.2 fun hmem => hkey (h.covers.known key hmem)

/-- Accepted blocks are the same if they hold the same under the name of every field. -/
theorem Accepts.ext {other : Block} (h : schema.Accepts block) (h' : schema.Accepts other)
    (hfields : ∀ field ∈ schema, block.lookup field.name = other.lookup field.name) :
    block = other := by
  refine Entries.Ascending.ext h.covers.ascending h'.covers.ascending fun key => ?_
  by_cases hkey : key ∈ schema.map (·.name)
  · obtain ⟨field, hfield, rfl⟩ := List.mem_map.1 hkey
    exact hfields field hfield
  · rw [h.lookup_eq_none hkey, h'.lookup_eq_none hkey]

/-- The elements of a block of an accepted block are accepted by the block's schema. -/
theorem Accepts.element (h : schema.Accepts block) {field : Field} (hfield : field ∈ schema)
    {value : Json} (hvalue : block.lookup field.name = some value) {fields : Schema}
    {singular : Bool} (htype : field.type = .block fields singular) {element : Block}
    (helement : element ∈ value.elements) : fields.Accepts element := by
  refine ⟨?_, h.typed.inside hfield hvalue htype helement⟩
  have hadmits := h.typed.here hfield hvalue
  rw [htype] at hadmits
  cases hadmits with
  | block _ _ blocks hcovers =>
      rw [Json.elements_arr] at helement
      exact hcovers element helement

/-- The value of a field of an accepted block fits. -/
theorem Accepts.fits (h : schema.Accepts block) {field : Field} (hfield : field ∈ schema)
    {value : Json} (hvalue : block.lookup field.name = some value) : field.type.Fits value :=
  ⟨h.typed.here hfield hvalue, fun _ _ htype _ => h.element hfield hvalue htype⟩

/-- A block that holds fields of a schema only is accepted if their values fit. -/
theorem accepts_of_fits (hcovers : schema.Covers block)
    (h : ∀ field ∈ schema, ∀ value, block.lookup field.name = some value →
      field.type.Fits value) : schema.Accepts block := by
  refine ⟨hcovers, .intro (fun field hfield value hvalue => (h field hfield value hvalue).1) ?_⟩
  intro field hfield value hvalue fields singular htype element helement
  exact ((h field hfield value hvalue).2 fields singular htype element helement).typed

end Schema

end Reconcile
