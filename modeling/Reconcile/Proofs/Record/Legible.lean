import Mathlib.Data.List.Basic
import Reconcile.Proofs.Record.RoundTrip

/-!
# Attributes that can be read

A tree that does not conform to its schema is written all the same, though what is not of the type
of its field is left out. `LegibleValue` says of attributes that a value can be read from them,
without saying which one: numbers, booleans and counters are written as such, if they are there at
all. Writing any value whatever keeps attributes legible (`write_legible`), and legible attributes
are read without a failure (`LegibleBlock.exists_read`). So what is written for a tree can always
be read, if not as the same tree (`exists_ofAttributes_toAttributes`).
-/

namespace Reconcile.Schema

/-- The counter with a key, if it is there, is a machine word. -/
def LegibleCount (attributes : Attributes) (key : String) : Prop :=
  ∀ s, attributes.get? key = some s → (Decimal.natUpTo? Decimal.maxNat64 s).isSome

/-- A value of a type, or none, can be read from the attributes below a key. -/
inductive LegibleValue (attributes : Attributes) : FieldType → String → Prop where
  | text {key : String} : LegibleValue attributes .text key
  | int {key : String} (h : ∀ s, attributes.get? key = some s →
      (Decimal.intIn? Json.minInt64 Json.maxInt64 s).isSome) : LegibleValue attributes .int key
  | bool {key : String} (h : ∀ s, attributes.get? key = some s → s = "true" ∨ s = "false") :
      LegibleValue attributes .bool key
  | textList {key : String} (hcount : LegibleCount attributes (lengthKey key)) :
      LegibleValue attributes .textList key
  | textMap {key : String} : LegibleValue attributes .textMap key
  | block {key : String} {fields : Schema} {singular : Bool}
      (hcount : LegibleCount attributes (lengthKey key))
      (inside : ∀ (i : Nat), ∀ field ∈ fields,
        LegibleValue attributes field.type (elementPrefix key i ++ field.name)) :
      LegibleValue attributes (.block fields singular) key

/-- A block can be read from the attributes whose keys begin with `start`. -/
def LegibleBlock (attributes : Attributes) (schema : Schema) (start : String) : Prop :=
  ∀ field ∈ schema, LegibleValue attributes field.type (start ++ field.name)

variable {attributes other out : Attributes} {schema : Schema} {key start : String}

/-! ## Where attributes are legible -/

theorem LegibleCount.congr (h : LegibleCount attributes key)
    (hagree : other.get? key = attributes.get? key) : LegibleCount other key :=
  fun s hs => h s (hagree ▸ hs)

/-- Legibility depends on the attributes below a key only. -/
theorem LegibleValue.congr {type : FieldType} (h : LegibleValue attributes type key)
    (hagree : ∀ k, Under key k → other.get? k = attributes.get? k) :
    LegibleValue other type key := by
  induction h with
  | text => exact .text
  | int h => exact .int fun s hs => h s (hagree _ (.refl _) ▸ hs)
  | bool h => exact .bool fun s hs => h s (hagree _ (.refl _) ▸ hs)
  | textList hcount => exact .textList (hcount.congr (hagree _ (.lengthKey _)))
  | textMap => exact .textMap
  | block hcount _ ih =>
      refine .block (hcount.congr (hagree _ (.lengthKey _))) fun i field hfield => ?_
      exact ih i field hfield fun k hk => hagree k hk.of_elementPrefix.of_member

theorem LegibleBlock.congr (h : LegibleBlock attributes schema start)
    (hagree : ∀ field ∈ schema, ∀ k, Under (start ++ field.name) k →
      other.get? k = attributes.get? k) : LegibleBlock other schema start :=
  fun field hfield => (h field hfield).congr (hagree field hfield)

/-- A counter that is not there is legible. -/
theorem Vacant.legibleCount (h : Vacant attributes key) :
    LegibleCount attributes (lengthKey key) := by
  intro s hs
  rw [h _ (.lengthKey key)] at hs
  cases hs

/-- Where there are no attributes, there are none that cannot be read. -/
theorem legibleBlock_of_vacant
    (h : ∀ field ∈ schema, Vacant attributes (start ++ field.name)) :
    LegibleBlock attributes schema start := by
  induction schema using Schema.induction generalizing start with
  | step schema ih =>
      intro field hfield
      have hvacant := h field hfield
      have hinside := ih field hfield
      obtain ⟨name, type, presence, default⟩ := field
      cases type with
      | text => exact .text
      | int => exact .int fun s hs => nomatch (hvacant _ (.refl _)).symm.trans hs
      | bool => exact .bool fun s hs => nomatch (hvacant _ (.refl _)).symm.trans hs
      | textList => exact .textList hvacant.legibleCount
      | textMap => exact .textMap
      | block fields singular =>
          refine .block hvacant.legibleCount fun i => ?_
          refine hinside fields singular rfl fun inner _ k hk => ?_
          exact hvacant k hk.of_elementPrefix.of_member

/-! ## Reading legible attributes -/

theorem LegibleCount.exists_readLength (h : LegibleCount attributes (lengthKey key)) :
    ∃ length, readLength attributes key = .ok length := by
  unfold readLength
  split
  · rename_i s hs
    obtain ⟨n, hn⟩ := Option.isSome_iff_exists.1 (h s hs)
    rw [hn]
    exact ⟨some n, rfl⟩
  · exact ⟨_, rfl⟩

/-- A block is read if each of its fields is. -/
theorem exists_read_of_readValue {acc : Block} (h : ∀ field ∈ schema, ∃ value,
    readValue field.type attributes (start ++ field.name) = .ok value) :
    ∃ block, read schema attributes start acc = .ok block := by
  induction schema generalizing acc with
  | nil => exact ⟨acc, rfl⟩
  | cons field fields ih =>
      obtain ⟨value, hvalue⟩ := h field List.mem_cons_self
      obtain ⟨block, hblock⟩ := @ih (Block.put acc field.name value) fun field hfield =>
        h field (List.mem_cons_of_mem _ hfield)
      obtain ⟨name, type, presence, default⟩ := field
      refine ⟨block, ?_⟩
      rw [read, hvalue]
      exact hblock

/-- A legible value is read, whatever it is. -/
theorem LegibleValue.exists_readValue {type : FieldType}
    (h : LegibleValue attributes type key) :
    ∃ value, readValue type attributes key = .ok value := by
  induction h with
  | text => exact ⟨_, rfl⟩
  | @int key h =>
      rw [readValue, readInt]
      split
      · exact ⟨none, rfl⟩
      · rename_i s hs
        obtain ⟨i, hi⟩ := Option.isSome_iff_exists.1 (h s hs)
        rw [hi]
        exact ⟨some (.int i), rfl⟩
  | @bool key h =>
      rw [readValue, readBool]
      split
      · exact ⟨none, rfl⟩
      · rename_i s hs
        rcases h s hs with rfl | rfl
        · exact ⟨some (.bool true), rfl⟩
        · exact ⟨some (.bool false), rfl⟩
  | textList hcount =>
      obtain ⟨length, hlength⟩ := hcount.exists_readLength
      rw [readValue, hlength]
      exact ⟨_, rfl⟩
  | textMap => exact ⟨_, rfl⟩
  | @block key fields singular hcount _ ih =>
      obtain ⟨length, hlength⟩ := hcount.exists_readLength
      rw [readValue, hlength]
      cases length with
      | none => exact ⟨none, rfl⟩
      | some n =>
          have hread : ∀ i ∈ List.range n,
              ∃ block, read fields attributes (elementPrefix key i) [] = .ok block :=
            fun i _ => exists_read_of_readValue (ih i)
          obtain ⟨blocks, hblocks⟩ := Steps.exists_mapM hread
          refine ⟨some (.arr (blocks.map .obj)), ?_⟩
          simp only [Steps.bind_ok, hblocks, Steps.pure_eq_ok]

theorem LegibleBlock.exists_read (h : LegibleBlock attributes schema start) (acc : Block) :
    ∃ block, read schema attributes start acc = .ok block :=
  exists_read_of_readValue fun field hfield => (h field hfield).exists_readValue

/-! ## Writing keeps attributes legible -/

/-- The counter that is written for a number of elements is legible. -/
theorem legibleCount_insert (n : Nat) :
    LegibleCount (out.insert key (toString (Decimal.word n))) key := by
  intro s hs
  rw [get?_insert_self] at hs
  obtain rfl := Option.some.inj hs
  rw [Decimal.natUpTo?_toString (Decimal.word_le n)]
  rfl

/-- The attribute of a scalar is what was written, if anything was. -/
theorem get?_writeScalar_self {value : Option String} {s : String}
    (h : (writeScalar key value out).get? key = some s) :
    value = some s ∨ out.get? key = some s := by
  cases value with
  | none => exact .inr h
  | some t => exact .inl (congrArg _ (Option.some.inj ((get?_insert_self _ _ _).symm.trans h)))

theorem legibleValue_writeInt (value : Json) (h : LegibleValue out .int key) :
    LegibleValue (writeValue .int key value out) .int key := by
  cases h with
  | int h =>
      refine .int fun s hs => ?_
      rcases get?_writeScalar_self hs with hwritten | hbefore
      · obtain ⟨i, _, rfl⟩ := Option.map_eq_some_iff.1 hwritten
        have hlow := i.le_toInt
        have hhigh := i.toInt_lt
        rw [Decimal.intIn?_toString (by rw [Json.minInt64]; omega) (by rw [Json.maxInt64]; omega)]
        rfl
      · exact h s hbefore

theorem legibleValue_writeBool (value : Json) (h : LegibleValue out .bool key) :
    LegibleValue (writeValue .bool key value out) .bool key := by
  cases h with
  | bool h =>
      refine .bool fun s hs => ?_
      rcases get?_writeScalar_self hs with hwritten | hbefore
      · obtain ⟨b, _, rfl⟩ := Option.map_eq_some_iff.1 hwritten
        cases b with
        | false => exact .inr rfl
        | true => exact .inl rfl
      · exact h s hbefore

theorem legibleValue_writeTextList (items : List String) :
    LegibleValue (writeTextList key items out) .textList key := by
  have hcount : LegibleCount (out.insert (lengthKey key) _) (lengthKey key) :=
    legibleCount_insert items.length
  refine .textList (hcount.congr ?_)
  exact foldl_unchanged (fun out : Attributes => out.get? (lengthKey key)) fun x _ out =>
    get?_insert_of_not_under (.refl _) (not_under_lengthKey key x.2)

/-- The elements of a nested block keep it legible one after another, if each of them keeps its own
attributes legible. -/
theorem legibleValue_writeBlocks {fields : Schema} {singular : Bool} (value : Json)
    (h : LegibleValue out (.block fields singular) key)
    (hblock : ∀ element i out, LegibleBlock out fields (elementPrefix key i) →
      LegibleBlock (write fields (elementPrefix key i) element out) fields
        (elementPrefix key i)) :
    LegibleValue (writeValue (.block fields singular) key value out) (.block fields singular)
      key := by
  cases h with
  | block _ inside =>
      rw [writeValue]
      refine List.foldlRecOn (motive := fun out =>
        LegibleValue out (.block fields singular) key) _ _ ?_ ?_
      · refine .block (legibleCount_insert _) fun i field hfield => ?_
        refine (inside i field hfield).congr fun k hk => ?_
        rw [Dict.get?_insert, if_neg]
        rintro rfl
        exact not_under_lengthKey key i hk.of_elementPrefix
      · rintro out hout ⟨element, j⟩ -
        cases hout with
        | block hcount inside =>
            refine .block (hcount.congr ?_) fun i => ?_
            · exact write_frame fun field _ hunder =>
                not_under_lengthKey key j hunder.of_elementPrefix
            · by_cases hij : i = j
              · subst hij
                exact hblock element i out (inside i)
              · refine LegibleBlock.congr (inside i) fun field _ k hk => ?_
                exact write_frame fun inner _ hunder =>
                  hk.of_elementPrefix.disjoint_index hij hunder.of_elementPrefix

/-- Writing a value keeps its own attributes legible, if the same is true of the blocks in it. -/
theorem legibleValue_writeValue {type : FieldType} (value : Json)
    (h : LegibleValue out type key)
    (hblock : ∀ fields singular, type = .block fields singular → ∀ element i out,
      LegibleBlock out fields (elementPrefix key i) →
        LegibleBlock (write fields (elementPrefix key i) element out) fields
          (elementPrefix key i)) :
    LegibleValue (writeValue type key value out) type key := by
  cases type with
  | text => exact .text
  | int => exact legibleValue_writeInt value h
  | bool => exact legibleValue_writeBool value h
  | textList => exact legibleValue_writeTextList _
  | textMap => exact .textMap
  | block fields singular => exact legibleValue_writeBlocks value h (hblock fields singular rfl)

/-- Writing any block keeps attributes legible. -/
theorem write_legible {block : Block} (hschema : schema.WellNamed)
    (h : LegibleBlock out schema start) :
    LegibleBlock (write schema start block out) schema start := by
  induction hschema generalizing start block out with
  | @intro schema here _ ih =>
      rw [write_eq_foldl]
      refine List.foldlRecOn (motive := fun out => LegibleBlock out schema start) _ _ h ?_
      -- A field is legible after it has been written, and the others are as they were.
      intro out hout field hfield other hother
      by_cases hname : field.name = other.name
      · obtain rfl := List.inj_on_of_nodup_map here.1 hfield hother hname
        cases hvalue : block.lookup field.name with
        | none =>
            rw [writeField_of_none hvalue]
            exact hout field hfield
        | some value =>
            rw [writeField_of_some hvalue]
            refine legibleValue_writeValue value (hout field hfield) ?_
            exact fun fields singular htype element i out => ih field hfield fields singular htype
      · exact (hout other hother).congr fun k hk => writeField_frame fun hunder =>
          hunder.disjoint (here.2 field hfield) (here.2 other hother) hname hk

/-- What is written for a tree can be read, whether the tree conforms to the schema or not. -/
theorem exists_ofAttributes_toAttributes (hschema : schema.WellNamed) (tree : Tree) :
    ∃ shown, ofAttributes schema (toAttributes schema tree) = .ok shown := by
  have hempty : LegibleBlock Dict.empty schema "" := legibleBlock_of_vacant fun _ _ _ _ => rfl
  have hlegible : LegibleBlock (toAttributes schema tree) schema "" := by
    unfold toAttributes
    split
    · exact write_legible hschema hempty
    · exact hempty
  obtain ⟨block, hblock⟩ := hlegible.exists_read []
  exact ⟨.obj block, by rw [ofAttributes, hblock]; rfl⟩

end Reconcile.Schema
