import Mathlib.Data.List.Basic
import Reconcile.Proofs.Dict.Bindings
import Reconcile.Proofs.Schema.Conformance

/-!
# Checks for schemas and blocks

Whether names can be told apart, whether every value of a block satisfies a rule and whether a block
is accepted by a schema are found out by going through the schema. Each check is proved to decide
its property, so that `decide` settles it for a schema and a block at hand.
-/

namespace Reconcile

instance (schema : Schema) (block : Block) : Decidable (schema.Covers block) :=
  decidable_of_iff (Entries.Ascending block ∧ ∀ key ∈ block.map (·.1), key ∈ schema.map (·.name))
    ⟨fun h => ⟨h.1, h.2⟩, fun h => ⟨h.ascending, h.known⟩⟩

/-- The test of `FieldType.Admits`. -/
def FieldType.admits : FieldType → Json → Bool
  | .text, .str _ => true
  | .int, .int i => decide (Json.minInt64 ≤ i ∧ i ≤ Json.maxInt64)
  | .bool, .bool _ => true
  | .textList, .arr items => items.all fun item => item.str?.isSome
  | .textMap, .obj fields =>
    decide (Entries.Ascending fields) && fields.all fun (_, v) => v.str?.isSome
  | .block fields _, .arr items =>
    items.all fun item =>
      match item with
      | .obj element => decide (Schema.Covers fields element)
      | _ => false
  | _, _ => false

namespace Schema

mutual

/-- The test of `Every` for a rule with a test. -/
def every (rule : Field → Json → Bool) : Schema → Block → Bool
  | [], _ => true
  | field :: fields, block => everyField rule field block && every rule fields block

/-- The test of a rule for the value of one field, if it is there. -/
def everyField (rule : Field → Json → Bool) : Field → Block → Bool
  | ⟨name, type, presence, default⟩, block =>
    match block.lookup name with
    | none => true
    | some value => rule ⟨name, type, presence, default⟩ value && everyValue rule type value

/-- The test of a rule for the elements of a value. -/
def everyValue (rule : Field → Json → Bool) : FieldType → Json → Bool
  | .block fields _, value => value.elements.all fun element => every rule fields element
  | .text, _ => true
  | .int, _ => true
  | .bool, _ => true
  | .textList, _ => true
  | .textMap, _ => true

end

mutual

/-- The test of a rule for the schemas of the blocks of a schema. -/
def below (test : Schema → Bool) : Schema → Bool
  | [] => true
  | field :: fields => belowField test field && below test fields

/-- The test of a rule for the schemas in one field. -/
def belowField (test : Schema → Bool) : Field → Bool
  | ⟨_, type, _, _⟩ => belowType test type

/-- The test of a rule for the schemas in a type. -/
def belowType (test : Schema → Bool) : FieldType → Bool
  | .block fields _ => test fields && below test fields
  | .text => true
  | .int => true
  | .bool => true
  | .textList => true
  | .textMap => true

end

/-- The test of `Throughout` for a rule with a test. -/
def throughout (test : Schema → Bool) (schema : Schema) : Bool := test schema && below test schema

end Schema

/-- A list whose items are all what `wrap` makes of something comes from a list of such things. -/
theorem exists_map_eq {α β : Type} {wrap : α → β} {items : List β}
    (h : ∀ item ∈ items, ∃ a, item = wrap a) : ∃ as : List α, items = as.map wrap := by
  induction items with
  | nil => exact ⟨[], rfl⟩
  | cons item items ih =>
      obtain ⟨a, rfl⟩ := h _ List.mem_cons_self
      obtain ⟨as, rfl⟩ := ih fun x hx => h x (List.mem_cons_of_mem _ hx)
      exact ⟨a :: as, rfl⟩

theorem Json.str?_isSome_iff {value : Json} : value.str?.isSome ↔ ∃ s, value = .str s := by
  cases value <;> simp [Json.str?]

/-- An object whose values are texts is one that binds texts. -/
theorem Json.exists_ofTexts_eq {fields : Json.Fields} (hasc : Entries.Ascending fields)
    (htexts : ∀ e ∈ fields, ∃ s, e.2 = Json.str s) :
    ∃ texts, Json.obj fields = Json.ofTexts texts := by
  have hitems : ∀ e ∈ fields, ∃ a : String × String, e = (a.1, Json.str a.2) := by
    intro e he
    obtain ⟨s, hs⟩ := htexts e he
    exact ⟨(e.1, s), by rw [← hs]⟩
  obtain ⟨as, rfl⟩ := exists_map_eq hitems
  rw [Entries.Ascending, List.pairwise_map] at hasc
  exact ⟨⟨as, hasc⟩, rfl⟩

/-- The test of a type decides whether a value is of the type. -/
theorem FieldType.admits_iff {type : FieldType} {value : Json} :
    type.admits value = true ↔ type.Admits value := by
  constructor
  · intro h
    unfold FieldType.admits at h
    split at h
    · exact .text _
    · exact .int _ (of_decide_eq_true h).1 (of_decide_eq_true h).2
    · exact .bool _
    · rename_i items
      obtain ⟨texts, rfl⟩ := exists_map_eq fun item hitem =>
        Json.str?_isSome_iff.1 (List.all_eq_true.1 h item hitem)
      exact .textList texts
    · rename_i fields
      obtain ⟨hasc, htexts⟩ := Bool.and_eq_true_iff.1 h
      obtain ⟨texts, hobj⟩ := Json.exists_ofTexts_eq (of_decide_eq_true hasc) fun e he =>
        Json.str?_isSome_iff.1 (List.all_eq_true.1 htexts e he)
      rw [hobj]
      exact .textMap texts
    · rename_i fields singular items
      have hitems : ∀ item ∈ items, ∃ element, item = Json.obj element := by
        intro item hitem
        have hobj := List.all_eq_true.1 h item hitem
        cases item with
        | obj element => exact ⟨element, rfl⟩
        | _ => cases hobj
      obtain ⟨blocks, rfl⟩ := exists_map_eq hitems
      refine .block fields singular blocks fun element helement => ?_
      exact of_decide_eq_true (List.all_eq_true.1 h (.obj element) (List.mem_map_of_mem helement))
    · cases h
  · intro h
    cases h with
    | text s => rfl
    | int i hlow hhigh => exact decide_eq_true ⟨hlow, hhigh⟩
    | bool b => rfl
    | textList items => simp [FieldType.admits, Json.str?]
    | textMap texts =>
        have hasc := Entries.Ascending.map_value texts.ascending Json.str
        simp only [Json.ofTexts, FieldType.admits, hasc, decide_true, Bool.true_and]
        simp [Json.str?]
    | block fields singular blocks hcovers => simpa [FieldType.admits] using hcovers

instance (type : FieldType) (value : Json) : Decidable (type.Admits value) :=
  decidable_of_iff _ FieldType.admits_iff

namespace Schema

variable {schema : Schema} {block : Block} {rule : Field → Json → Prop}
  {test : Field → Json → Bool}

/-- The test of a rule for a value looks at the elements of a nested block only. -/
theorem everyValue_iff {type : FieldType} {value : Json} :
    everyValue test type value = true ↔ ∀ fields singular, type = .block fields singular →
      ∀ element ∈ value.elements, every test fields element = true := by
  cases type with
  | block fields singular => simp [everyValue]
  | _ => simp [everyValue]

/-- The test of a rule for a block looks at each field that is there. -/
theorem every_iff_forall : every test schema block = true ↔
    ∀ field ∈ schema, ∀ value, block.lookup field.name = some value →
      test field value = true ∧ everyValue test field.type value = true := by
  induction schema with
  | nil => simp [every]
  | cons field fields ih =>
      rw [every, Bool.and_eq_true, ih, List.forall_mem_cons]
      refine and_congr_left fun _ => ?_
      obtain ⟨name, type, presence, default⟩ := field
      rw [everyField]
      cases block.lookup name with
      | none => simp
      | some value => simp

/-- The test decides whether all values satisfy the rule. -/
theorem every_iff (htest : ∀ field value, test field value = true ↔ rule field value) :
    every test schema block = true ↔ schema.Every rule block := by
  constructor
  · intro h
    induction schema using Schema.induction generalizing block with
    | step schema ih =>
        rw [every_iff_forall] at h
        refine .intro (fun field hfield value hvalue =>
          (htest field value).1 (h field hfield value hvalue).1) ?_
        intro field hfield value hvalue fields singular htype element helement
        have hbelow := everyValue_iff.1 (h field hfield value hvalue).2
        exact ih field hfield fields singular htype (hbelow fields singular htype element helement)
  · intro h
    induction h with
    | intro here _ ih =>
        rw [every_iff_forall]
        intro field hfield value hvalue
        refine ⟨(htest field value).2 (here field hfield value hvalue), everyValue_iff.2 ?_⟩
        exact ih field hfield value hvalue

instance [∀ field value, Decidable (rule field value)] : Decidable (schema.Every rule block) :=
  decidable_of_iff _ (every_iff fun field value => decide_eq_true_iff (p := rule field value))

instance : Decidable (schema.Accepts block) :=
  decidable_of_iff
    (schema.Covers block ∧ schema.Every (fun field value => field.type.Admits value) block)
    ⟨fun h => ⟨h.1, h.2⟩, fun h => ⟨h.covers, h.typed⟩⟩

section Levels

variable {test : Schema → Bool} {rule : Schema → Prop}

/-- The test of a rule for a type looks at the schema of a nested block only. -/
theorem belowType_iff {type : FieldType} : belowType test type = true ↔
    ∀ fields singular, type = .block fields singular → throughout test fields = true := by
  cases type with
  | block fields singular => simp [belowType, throughout]
  | _ => simp [belowType]

/-- The test of a rule for the schemas below looks at each field. -/
theorem below_iff_forall : below test schema = true ↔
    ∀ field ∈ schema, belowType test field.type = true := by
  induction schema with
  | nil => simp [below]
  | cons field fields ih =>
      obtain ⟨name, type, presence, default⟩ := field
      rw [below, belowField, Bool.and_eq_true, ih, List.forall_mem_cons]

/-- The test decides whether all levels satisfy the rule. -/
theorem throughout_iff (htest : ∀ schema, test schema = true ↔ rule schema) :
    throughout test schema = true ↔ schema.Throughout rule := by
  constructor
  · intro h
    induction schema using Schema.induction with
    | step schema ih =>
        obtain ⟨hhere, hbelow⟩ := Bool.and_eq_true_iff.1 h
        refine .intro ((htest schema).1 hhere) fun field hfield fields singular htype => ?_
        refine ih field hfield fields singular htype ?_
        exact belowType_iff.1 (below_iff_forall.1 hbelow field hfield) fields singular htype
  · intro h
    induction h with
    | intro here _ ih =>
        refine Bool.and_eq_true_iff.2 ⟨(htest _).2 here, below_iff_forall.2 ?_⟩
        exact fun field hfield => belowType_iff.2 (ih field hfield)

end Levels

instance {rule : Schema → Prop} [DecidablePred rule] : Decidable (schema.Throughout rule) :=
  decidable_of_iff _ (throughout_iff fun schema => decide_eq_true_iff (p := rule schema))

instance : DecidablePred DistinctNames := fun schema =>
  inferInstanceAs (Decidable ((schema.map (·.name)).Nodup ∧
    ∀ field ∈ schema, '.' ∉ field.name.toList))

instance : Decidable schema.WellNamed := inferInstanceAs (Decidable (schema.Throughout _))

instance : DecidablePred TypedDefaults := fun schema =>
  decidable_of_iff (∀ field ∈ schema, ∀ default ∈ field.default.toList,
      field.type.Admits default.toJson)
    ⟨fun h field hfield default hdefault => h field hfield default (by simp [hdefault]),
      fun h field hfield default hdefault => h field hfield default (by simpa using hdefault)⟩

end Schema

end Reconcile
