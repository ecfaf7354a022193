import Mathlib.Data.List.Basic
import Reconcile.Deployment.Declaration
import Reconcile.Proofs.Record.RoundTrip
import Reconcile.Proofs.Schema.Fitting
import Reconcile.Proofs.Schema.Refilling

/-!
# Canonical blocks

A canonical block says nothing that is empty and spells everything as it is shown again. Filling
the gaps of a canonical block makes a normal one, which also holds a value for every field with a
default (`Canonical.normal_fill`). A plain block is canonical but for what keeps it from being
stored, and an explicit one is plain and has no gaps.
-/

namespace Reconcile

/-- A nested block that has one element at most. -/
def FieldType.isSingular : FieldType → Bool
  | .block _ singular => singular
  | _ => false

namespace Schema

/-- A value that is neither empty nor spelled in another way than it is shown. A singular block has
one element, a block of metadata says something, and a bound that is a number is written as the
number is printed. -/
structure CanonicalValue (field : Field) (value : Json) : Prop where
  storable : Storable field value
  text_ne : value ≠ .str ""
  list_ne : value ≠ .arr []
  map_ne : value ≠ .obj []
  single : field.type.isSingular = true → value.elements.length = 1
  metadata : field.name = "metadata" → ∀ element ∈ value.elements, element ≠ []
  spelling : field.name ∈ ["max_surge", "max_unavailable"] →
    ∀ s ∈ value.str?, (IntOrText.ofText s).toText = s

instance (field : Field) (value : Json) : Decidable (CanonicalValue field value) :=
  decidable_of_iff
    (Storable field value ∧ value ≠ .str "" ∧ value ≠ .arr [] ∧ value ≠ .obj [] ∧
      (field.type.isSingular = true → value.elements.length = 1) ∧
      (field.name = "metadata" → ∀ element ∈ value.elements, element ≠ []) ∧
      (field.name ∈ ["max_surge", "max_unavailable"] →
        ∀ s ∈ value.str?, (IntOrText.ofText s).toText = s))
    ⟨fun ⟨h₁, h₂, h₃, h₄, h₅, h₆, h₇⟩ => ⟨h₁, h₂, h₃, h₄, h₅, h₆, h₇⟩,
      fun h => ⟨h.storable, h.text_ne, h.list_ne, h.map_ne, h.single, h.metadata, h.spelling⟩⟩

/-- A value that is neither empty nor spelled in another way than it is shown, whatever the keys of
its map are and however many items it has. -/
structure PlainValue (field : Field) (value : Json) : Prop where
  text_ne : value ≠ .str ""
  list_ne : value ≠ .arr []
  map_ne : value ≠ .obj []
  single : field.type.isSingular = true → value.elements.length = 1
  metadata : field.name = "metadata" → ∀ element ∈ value.elements, element ≠ []
  spelling : field.name ∈ ["max_surge", "max_unavailable"] →
    ∀ s ∈ value.str?, (IntOrText.ofText s).toText = s

/-- A canonical value is a plain one that can be stored. -/
theorem canonicalValue_iff {field : Field} {value : Json} :
    CanonicalValue field value ↔ Storable field value ∧ PlainValue field value :=
  ⟨fun h => ⟨h.storable, h.text_ne, h.list_ne, h.map_ne, h.single, h.metadata, h.spelling⟩,
    fun ⟨hstorable, h⟩ =>
      ⟨hstorable, h.text_ne, h.list_ne, h.map_ne, h.single, h.metadata, h.spelling⟩⟩

/-- Every default is canonical. -/
def CanonicalDefaults (schema : Schema) : Prop :=
  ∀ field ∈ schema, ∀ default, field.default = some default → CanonicalValue field default.toJson

instance : DecidablePred CanonicalDefaults := fun schema =>
  decidable_of_iff
    (∀ field ∈ schema, ∀ default ∈ field.default, CanonicalValue field default.toJson) Iff.rfl

/-- A block that a schema accepts and whose values are all canonical. -/
structure Canonical (schema : Schema) (block : Block) : Prop where
  accepts : schema.Accepts block
  values : schema.Every CanonicalValue block

/-- Every field with a default is there, in the block and in the blocks nested in it. -/
inductive Complete : Schema → Block → Prop where
  | intro {schema : Schema} {block : Block}
      (here : ∀ field ∈ schema, field.default.isSome → (block.lookup field.name).isSome)
      (below : ∀ field ∈ schema, ∀ value, block.lookup field.name = some value →
        ∀ fields singular, field.type = .block fields singular →
          ∀ element ∈ value.elements, Complete fields element) :
      Complete schema block

/-- A canonical block without gaps. -/
structure Normal (schema : Schema) (block : Block) : Prop extends schema.Canonical block where
  complete : schema.Complete block

/-- A block that a schema accepts and whose values are all plain. -/
structure Plain (schema : Schema) (block : Block) : Prop where
  accepts : schema.Accepts block
  values : schema.Every PlainValue block

/-- A plain block without gaps. -/
structure Explicit (schema : Schema) (block : Block) : Prop extends schema.Plain block where
  complete : schema.Complete block

/-- A block whose values a user may have set, in itself and in the blocks nested in it. -/
def UserSet (schema : Schema) (block : Block) : Prop :=
  schema.Every (fun field _ => field.presence ≠ .computed) block

instance (schema : Schema) (block : Block) : Decidable (schema.UserSet block) :=
  inferInstanceAs (Decidable (schema.Every (fun field _ => field.presence ≠ .computed) block))

variable {schema : Schema} {block : Block}

/-! ## Filled blocks are normal -/

theorem fill_ne_nil (h : block ≠ []) (prior : Option Block) : fill schema prior block ≠ [] := by
  -- A field only ever puts a value in, and a block with a value is not empty.
  have hinsert : ∀ (key : String) (value : Json) (block : Block),
      Entries.insert key value block ≠ [] := by
    intro key value block hnil
    have hlookup : (Entries.insert key value block).lookup key = some value := by
      rw [Entries.lookup_insert, if_pos rfl]
    rw [hnil] at hlookup
    cases hlookup
  induction schema generalizing block with
  | nil => exact h
  | cons field fields ih =>
      refine ih ?_
      rw [fillField_eq]
      split
      · cases fillValue field (prior.bind (·.lookup field.name)) none with
        | none => exact h
        | some value => exact hinsert _ _ _
      · exact hinsert _ _ _
      · exact h

/-- A canonical nested block is canonical with its elements filled. -/
theorem CanonicalValue.filled {field : Field} {fields : Schema} {singular : Bool}
    {blocks : List Block} (htype : field.type = .block fields singular)
    (h : CanonicalValue field (.arr (blocks.map .obj))) :
    CanonicalValue field (.arr ((blocks.map (fill fields none)).map .obj)) := by
  have hstorable := h.storable
  have hsingle := h.single
  have hmetadata := h.metadata
  rw [Json.elements_arr] at hsingle hmetadata
  refine ⟨?_, fun heq => (nomatch heq), ?_, fun heq => (nomatch heq), ?_, ?_,
    fun _ s hs => (nomatch hs)⟩
  · unfold Storable at hstorable ⊢
    rw [htype] at hstorable ⊢
    have hlength : ∀ items : List Block,
        ((Json.arr (items.map .obj)).arr?.getD []).length = items.length :=
      fun items => List.length_map _
    simp only [hlength, List.length_map] at hstorable ⊢
    exact hstorable
  · intro heq
    have hblocks : blocks = [] := List.map_eq_nil_iff.1 (List.map_eq_nil_iff.1 (Json.arr.inj heq))
    exact h.list_ne (by rw [hblocks]; rfl)
  · rw [Json.elements_arr, List.length_map]
    exact hsingle
  · rw [Json.elements_arr]
    intro hname element helement
    obtain ⟨unfilled, hmem, rfl⟩ := List.mem_map.1 helement
    exact fill_ne_nil (hmetadata hname unfilled hmem) none

/-- A block whose gaps have been filled is complete. -/
theorem complete_fill (hschema : schema.WellNamed) (hblock : schema.Accepts block) :
    schema.Complete (fill schema none block) := by
  induction hschema generalizing block with
  | @intro schema here _ ih =>
      refine .intro (fun field hfield hdefault => ?_) ?_
      · rw [lookup_fill here.1 hfield]
        cases hown : block.lookup field.name with
        | none =>
            have hfill : fillValue field none none = field.default.map Scalar.toJson :=
              fillValue_default (.inl rfl)
            show (fillValue field none none).isSome
            rw [hfill, Option.isSome_map]
            exact hdefault
        | some own =>
            rw [fillValue_some (hblock.typed.here hfield hown)]
            rfl
      · intro field hfield value hlookup fields singular htype element helement
        obtain ⟨_, unfilled, hown, hunfilled, rfl⟩ :=
          exists_unfilled here.1 hblock hfield hlookup htype helement
        exact ih field hfield fields singular htype
          (hblock.element hfield hown htype hunfilled)

/-- A canonical block is normal once its gaps have been filled. -/
theorem Canonical.normal_fill (h : schema.Canonical block) (hschema : schema.WellNamed)
    (htyped : schema.Throughout TypedDefaults) (hdefaults : schema.Throughout CanonicalDefaults) :
    schema.Normal (fill schema none block) where
  accepts := fill_accepts hschema htyped (fun _ heq => (nomatch heq)) h.accepts
  values := every_fill hschema hdefaults
    (fun _ _ _ _ htype hvalue => hvalue.filled htype) h.accepts h.values
  complete := complete_fill hschema h.accepts

/-! ## What plain blocks hold -/

theorem Canonical.plain (h : schema.Canonical block) : schema.Plain block :=
  ⟨h.accepts, h.values.mono fun _ _ hvalue => (canonicalValue_iff.1 hvalue).2⟩

theorem Normal.explicit (h : schema.Normal block) : schema.Explicit block :=
  ⟨h.toCanonical.plain, h.complete⟩

/-- The value of a field of a plain block. -/
theorem Plain.value (h : schema.Plain block) {name : String} {type : FieldType}
    (htype : schema.typeOf? name = some type) {value : Json}
    (hvalue : block.lookup name = some value) :
    type.Admits value ∧ ∃ field ∈ schema, field.name = name ∧ field.type = type ∧
      PlainValue field value := by
  obtain ⟨field, hfield, rfl, rfl⟩ := exists_of_typeOf? htype
  exact ⟨h.accepts.typed.here hfield hvalue, field, hfield, rfl, rfl, h.values.here hfield hvalue⟩

/-- An element that a reader of nested blocks sees is one of the elements of a value. -/
theorem Accepts.mem_elements (h : schema.Accepts block) {name : String} {fields : Schema}
    {singular : Bool} (htype : schema.typeOf? name = some (.block fields singular))
    {element : Block} (helement : element ∈ Block.children block name) :
    ∃ field ∈ schema, field.name = name ∧ field.type = .block fields singular ∧
      ∃ value, block.lookup field.name = some value ∧ element ∈ value.elements := by
  obtain ⟨field, hfield, rfl, hfieldType⟩ := exists_of_typeOf? htype
  cases hvalue : block.lookup field.name with
  | none =>
      rw [Block.children_of_none hvalue] at helement
      cases helement
  | some value =>
      obtain ⟨blocks, rfl, _⟩ := h.exists_blocks hfield hfieldType hvalue
      rw [Block.children_of_lookup hvalue] at helement
      refine ⟨field, hfield, rfl, hfieldType, _, hvalue, ?_⟩
      rw [Json.elements_arr]
      exact helement

theorem mem_children_of_child? {child : Block} {name : String}
    (h : Block.child? block name = some child) : child ∈ Block.children block name := by
  obtain ⟨items, hitems⟩ := Block.child?_eq_some_iff.1 h
  rw [Block.children, hitems]
  exact List.mem_cons_self

/-- The element of a nested block of a canonical block is canonical. -/
theorem Canonical.child (h : schema.Canonical block) {name : String} {fields : Schema}
    {singular : Bool} {child : Block}
    (htype : schema.typeOf? name = some (.block fields singular))
    (hchild : Block.child? block name = some child) : fields.Canonical child := by
  obtain ⟨field, hfield, _, hfieldType, value, hvalue, hmem⟩ :=
    h.accepts.mem_elements htype (mem_children_of_child? hchild)
  exact ⟨h.accepts.element hfield hvalue hfieldType hmem,
    h.values.inside hfield hvalue hfieldType hmem⟩

/-- The elements of the nested blocks of a plain block are plain. -/
theorem Plain.element (h : schema.Plain block) {name : String} {fields : Schema}
    {singular : Bool} (htype : schema.typeOf? name = some (.block fields singular))
    {element : Block} (helement : element ∈ Block.children block name) :
    fields.Plain element := by
  obtain ⟨field, hfield, _, hfieldType, value, hvalue, hmem⟩ :=
    h.accepts.mem_elements htype helement
  exact ⟨h.accepts.element hfield hvalue hfieldType hmem,
    h.values.inside hfield hvalue hfieldType hmem⟩

/-- The elements of the nested blocks of a block without gaps have none. -/
theorem Explicit.element (h : schema.Explicit block) {name : String} {fields : Schema}
    {singular : Bool} (htype : schema.typeOf? name = some (.block fields singular))
    {element : Block} (helement : element ∈ Block.children block name) :
    fields.Explicit element := by
  refine ⟨h.toPlain.element htype helement, ?_⟩
  obtain ⟨field, hfield, _, hfieldType, value, hvalue, hmem⟩ :=
    h.accepts.mem_elements htype helement
  cases h.complete with
  | intro _ below => exact below field hfield value hvalue fields singular hfieldType element hmem

theorem Explicit.child (h : schema.Explicit block) {name : String} {fields : Schema}
    {singular : Bool} {child : Block}
    (htype : schema.typeOf? name = some (.block fields singular))
    (hchild : Block.child? block name = some child) : fields.Explicit child :=
  h.element htype (mem_children_of_child? hchild)

theorem Normal.child (h : schema.Normal block) {name : String} {fields : Schema} {singular : Bool}
    {child : Block} (htype : schema.typeOf? name = some (.block fields singular))
    (hchild : Block.child? block name = some child) : fields.Normal child :=
  ⟨h.toCanonical.child htype hchild, (h.explicit.child htype hchild).complete⟩

/-- A field with a default is there. -/
theorem Explicit.isSome_lookup (h : schema.Explicit block) {name : String}
    (hdefault : ((schema.find? fun field => field.name = name).bind (·.default)).isSome) :
    (block.lookup name).isSome := by
  obtain ⟨default, hbind⟩ := Option.isSome_iff_exists.1 hdefault
  obtain ⟨field, hfind, hfieldDefault⟩ := Option.bind_eq_some_iff.1 hbind
  have hname : field.name = name := by simpa using List.find?_some hfind
  cases h.complete with
  | intro here _ =>
      rw [← hname]
      exact here field (List.mem_of_find?_eq_some hfind) (by rw [hfieldDefault]; rfl)

/-- A block that a user has set holds nothing that only the observed state sets. -/
theorem UserSet.lookup_eq_none (h : schema.UserSet block) {field : Field} (hfield : field ∈ schema)
    (hcomputed : field.presence = .computed) : block.lookup field.name = none :=
  Option.eq_none_iff_forall_ne_some.2 fun _ hvalue => h.here hfield hvalue hcomputed

theorem UserSet.child (h : schema.UserSet block) (haccepts : schema.Accepts block) {name : String}
    {fields : Schema} {singular : Bool} {child : Block}
    (htype : schema.typeOf? name = some (.block fields singular))
    (hchild : Block.child? block name = some child) : fields.UserSet child := by
  obtain ⟨field, hfield, _, hfieldType, value, hvalue, hmem⟩ :=
    haccepts.mem_elements htype (mem_children_of_child? hchild)
  exact h.inside hfield hvalue hfieldType hmem

/-! ## What can be stored -/

/-- A value, if there is one, can be stored for a field, and so can the blocks nested in it. -/
def StorableField (field : Field) (value : Option Json) : Prop :=
  ∀ v, value = some v → Storable field v ∧ ∀ (fields : Schema) (singular : Bool),
    field.type = .block fields singular → ∀ element ∈ v.elements, fields.Every Storable element

/-- A block can be stored if each of its fields can. -/
theorem every_storable (h : ∀ field ∈ schema, StorableField field (block.lookup field.name)) :
    schema.Every Storable block :=
  every_of_fields h

theorem Canonical.every_storable (h : schema.Canonical block) : schema.Every Storable block :=
  h.values.mono fun _ _ hvalue => hvalue.storable

/-- What can be stored for a field of a canonical block. -/
theorem Canonical.storableField (h : schema.Canonical block) {field : Field}
    (hfield : field ∈ schema) : StorableField field (block.lookup field.name) :=
  fun _ hvalue => ⟨h.every_storable.here hfield hvalue, fun _ _ htype _ helement =>
    h.every_storable.inside hfield hvalue htype helement⟩

/-- Texts, integers and booleans can always be stored. -/
theorem storableField_scalar {field : Field}
    (htype : field.type = .text ∨ field.type = .int ∨ field.type = .bool) (value : Option Json) :
    StorableField field value := by
  intro v _
  unfold Storable
  rcases htype with htype | htype | htype
  all_goals
    rw [htype]
    exact ⟨trivial, fun _ _ heq => (nomatch heq)⟩

/-- A singular block can be stored if its element can. -/
theorem storableField_singular {field : Field} {fields : Schema} {singular : Bool}
    (htype : field.type = .block fields singular) {child : Option Block}
    (h : ∀ c, child = some c → fields.Every Storable c) :
    StorableField field (child.map Block.singular) := by
  intro v hv
  obtain ⟨c, hc, rfl⟩ := Option.map_eq_some_iff.1 hv
  refine ⟨?_, ?_⟩
  · unfold Storable
    rw [htype]
    show 1 ≤ Decimal.maxNat64
    decide
  · rw [htype]
    rintro _ _ ⟨⟩ element helement
    obtain rfl : element = c := List.mem_singleton.1 helement
    exact h element hc

end Schema

end Reconcile
