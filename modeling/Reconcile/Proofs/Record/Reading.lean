import Mathlib.Data.List.Basic
import Reconcile.Proofs.Except.Steps
import Reconcile.Proofs.Record.Keys
import Reconcile.Proofs.Schema.Conformance

/-!
# What attributes hold

`HoldsBlock` and `HoldsValue` say which attributes a block and a value have below their keys, and
`Vacant` that a key has none. Reading gives the value that the attributes hold: `readValue_eq` for
the value of a field, `HoldsBlock.read_eq` for a block.
-/

namespace Reconcile.Schema

/-- No attribute has the key or one below it. -/
def Vacant (attributes : Attributes) (key : String) : Prop :=
  ∀ k, Under key k → attributes.get? k = none

/-- The attributes below a key hold exactly a value of a type. -/
inductive HoldsValue (attributes : Attributes) : FieldType → String → Json → Prop where
  | text {key s : String} (h : attributes.get? key = some s) :
      HoldsValue attributes .text key (.str s)
  | int {key : String} {i : Int} (hlow : Json.minInt64 ≤ i) (hhigh : i ≤ Json.maxInt64)
      (h : attributes.get? key = some (toString i)) : HoldsValue attributes .int key (.int i)
  | bool {key : String} {b : Bool} (h : attributes.get? key = some (toString b)) :
      HoldsValue attributes .bool key (.bool b)
  | textList {key : String} {items : List String} (hbound : items.length ≤ Decimal.maxNat64)
      (hlength : attributes.get? (lengthKey key) = some (toString items.length))
      (hitems : ∀ (i : Nat) (s : String), items[i]? = some s →
        attributes.get? (memberKey key (toString i)) = some s) :
      HoldsValue attributes .textList key (.arr (items.map .str))
  | textMap {key : String} {texts : Dict String} (hreserved : texts.get? "%" = none)
      (hsize : (attributes.get? (sizeKey key)).isSome)
      (hentries : ∀ k, k ≠ "%" → attributes.get? (memberKey key k) = texts.get? k) :
      HoldsValue attributes .textMap key (Json.ofTexts texts)
  | block {key : String} {fields : Schema} {singular : Bool} {blocks : List Block}
      (hbound : blocks.length ≤ Decimal.maxNat64)
      (hlength : attributes.get? (lengthKey key) = some (toString blocks.length))
      (hcovers : ∀ element ∈ blocks, fields.Covers element)
      (present : ∀ (i : Nat) (element : Block), blocks[i]? = some element → ∀ field ∈ fields,
        ∀ value, element.lookup field.name = some value →
          HoldsValue attributes field.type (elementPrefix key i ++ field.name) value)
      (absent : ∀ (i : Nat) (element : Block), blocks[i]? = some element → ∀ field ∈ fields,
        element.lookup field.name = none → Vacant attributes (elementPrefix key i ++ field.name)) :
      HoldsValue attributes (.block fields singular) key (.arr (blocks.map .obj))

/-- The attributes whose keys begin with `start` hold exactly the fields of a block. -/
structure HoldsBlock (attributes : Attributes) (schema : Schema) (start : String)
    (block : Block) : Prop where
  covers : schema.Covers block
  present : ∀ field ∈ schema, ∀ value, block.lookup field.name = some value →
    HoldsValue attributes field.type (start ++ field.name) value
  absent : ∀ field ∈ schema, block.lookup field.name = none →
    Vacant attributes (start ++ field.name)

/-! ## Attributes that agree below a key -/

section Agreement

variable {attributes other : Attributes} {key : String}

theorem Vacant.congr (h : Vacant attributes key)
    (hagree : ∀ k, Under key k → other.get? k = attributes.get? k) : Vacant other key :=
  fun k hk => (hagree k hk).trans (h k hk)

/-- A value is held by all attributes that agree below its key. -/
theorem HoldsValue.congr {type : FieldType} {value : Json}
    (h : HoldsValue attributes type key value)
    (hagree : ∀ k, Under key k → other.get? k = attributes.get? k) :
    HoldsValue other type key value := by
  induction h with
  | text h => exact .text ((hagree _ (.refl _)).trans h)
  | int hlow hhigh h => exact .int hlow hhigh ((hagree _ (.refl _)).trans h)
  | bool h => exact .bool ((hagree _ (.refl _)).trans h)
  | textList hbound hlength hitems =>
      refine .textList hbound ((hagree _ (.lengthKey _)).trans hlength) fun i s hs => ?_
      exact (hagree _ (.member _ _)).trans (hitems i s hs)
  | textMap hreserved hsize hentries =>
      refine .textMap hreserved ?_ fun k hk => ?_
      · rw [hagree _ (.sizeKey _)]
        exact hsize
      · exact (hagree _ (.member _ _)).trans (hentries k hk)
  | block hbound hlength hcovers _ absent ih =>
      refine .block hbound ((hagree _ (.lengthKey _)).trans hlength) hcovers ?_ ?_
      · intro i element helement field hfield value hvalue
        refine ih i element helement field hfield value hvalue fun k hk => ?_
        exact hagree k hk.of_elementPrefix.of_member
      · intro i element helement field hfield hvalue
        refine (absent i element helement field hfield hvalue).congr fun k hk => ?_
        exact hagree k hk.of_elementPrefix.of_member

/-- A block is held by all attributes that agree below the keys of its fields. -/
theorem HoldsBlock.congr {schema : Schema} {start : String} {block : Block}
    (h : HoldsBlock attributes schema start block)
    (hagree : ∀ field ∈ schema, ∀ k, Under (start ++ field.name) k →
      other.get? k = attributes.get? k) :
    HoldsBlock other schema start block where
  covers := h.covers
  present field hfield value hvalue :=
    (h.present field hfield value hvalue).congr (hagree field hfield)
  absent field hfield hvalue := (h.absent field hfield hvalue).congr (hagree field hfield)

/-- The attributes below a key hold exactly what a field has, a value or nothing. -/
def HoldsField (attributes : Attributes) (type : FieldType) (key : String) :
    Option Json → Prop
  | some value => HoldsValue attributes type key value
  | none => Vacant attributes key

theorem HoldsField.congr {type : FieldType} {value : Option Json}
    (h : HoldsField attributes type key value)
    (hagree : ∀ k, Under key k → other.get? k = attributes.get? k) :
    HoldsField other type key value := by
  cases value with
  | none => exact Vacant.congr h hagree
  | some value => exact HoldsValue.congr h hagree

/-- A block is held if each of its fields is. -/
theorem holdsBlock_iff {schema : Schema} {start : String} {block : Block} :
    HoldsBlock attributes schema start block ↔ schema.Covers block ∧ ∀ field ∈ schema,
      HoldsField attributes field.type (start ++ field.name) (block.lookup field.name) := by
  constructor
  · refine fun h => ⟨h.covers, fun field hfield => ?_⟩
    cases hvalue : block.lookup field.name with
    | none => exact h.absent field hfield hvalue
    | some value => exact h.present field hfield value hvalue
  · rintro ⟨hcovers, hfields⟩
    refine ⟨hcovers, fun field hfield value hvalue => ?_, fun field hfield hvalue => ?_⟩
    · have hheld := hfields field hfield
      rwa [hvalue] at hheld
    · have hheld := hfields field hfield
      rwa [hvalue] at hheld

theorem HoldsBlock.field {schema : Schema} {start : String} {block : Block}
    (h : HoldsBlock attributes schema start block) {field : Field} (hfield : field ∈ schema) :
    HoldsField attributes field.type (start ++ field.name) (block.lookup field.name) :=
  (holdsBlock_iff.1 h).2 field hfield

end Agreement

/-! ## Reading what attributes hold -/

section Reading

variable {attributes : Attributes} {key start : String}

/-- Nothing is found under a vacant key. -/
theorem readLength_of_vacant (h : Vacant attributes key) :
    readLength attributes key = .ok none := by
  have hcounter : attributes.get? (lengthKey key) = none := h _ (.lengthKey key)
  have hindices : (attributes.keys.filterMap fun k =>
      (Text.dropPrefix? (memberKey key "") k).bind fun rest =>
        (Text.split '.' rest).head?.bind Tree.index?) = [] := by
    refine List.filterMap_eq_nil_iff.2 fun k hk => ?_
    cases hdrop : Text.dropPrefix? (memberKey key "") k with
    | none => rfl
    | some rest =>
        have hbound := Dict.mem_keys_iff.1 hk
        rw [Text.dropPrefix?_eq_some_iff.1 hdrop, memberKey, String.append_empty,
          h _ (.inr ⟨rest, rfl⟩)] at hbound
        cases hbound
  simp only [readLength, hcounter, inferredLength?, hindices]
  rfl

/-- The entries that a reader of a map looks at are the bindings of the members. -/
theorem mem_members_iff {k s : String} :
    (k, s) ∈ (attributes.entries.filterMap fun (k, v) =>
      ((Text.dropPrefix? (memberKey key "") k).filter (· ≠ "%")).map (·, v)) ↔
    k ≠ "%" ∧ attributes.get? (memberKey key k) = some s := by
  simp only [List.mem_filterMap, Option.map_eq_some_iff, Option.filter_eq_some_iff,
    Prod.mk.injEq, Prod.exists, decide_eq_true_eq, Text.dropPrefix?_eq_some_iff]
  constructor
  · rintro ⟨full, v, hmem, rest, ⟨rfl, hne⟩, rfl, rfl⟩
    refine ⟨hne, Dict.mem_entries_iff.1 ?_⟩
    simpa [memberKey] using hmem
  · rintro ⟨hne, hget⟩
    refine ⟨memberKey key k, s, Dict.mem_entries_iff.2 hget, k, ⟨?_, hne⟩, rfl, rfl⟩
    simp [memberKey]

theorem readTextMap_of_vacant (h : Vacant attributes key) : readTextMap attributes key = none := by
  have hentries : (attributes.entries.filterMap fun (k, v) =>
      ((Text.dropPrefix? (memberKey key "") k).filter (· ≠ "%")).map (·, v)) = [] := by
    refine List.eq_nil_iff_forall_not_mem.2 fun ⟨k, s⟩ hmem => ?_
    have hget := (mem_members_iff.1 hmem).2
    rw [h _ (.member key k)] at hget
    cases hget
  simp only [readTextMap, hentries, Dict.contains_eq, h _ (.sizeKey key)]
  rfl

/-- A vacant key has no value of any type. -/
theorem readValue_of_vacant (type : FieldType) (h : Vacant attributes key) :
    readValue type attributes key = .ok none := by
  have hkey : attributes.get? key = none := h key (.refl key)
  cases type with
  | text => simp only [readValue, hkey, Option.map_none]
  | int => simp only [readValue, readInt, hkey]
  | bool => simp only [readValue, readBool, hkey]
  | textList => simp only [readValue, readLength_of_vacant h]; rfl
  | textMap => simp only [readValue, readTextMap_of_vacant h]
  | block fields singular => simp only [readValue, readLength_of_vacant h]; rfl

/-- A counter within the bounds of a machine word is read. -/
theorem readLength_of_counter {n : Nat} (hbound : n ≤ Decimal.maxNat64)
    (h : attributes.get? (lengthKey key) = some (toString n)) :
    readLength attributes key = .ok (some n) := by
  simp only [readLength, h, Decimal.natUpTo?_toString hbound]

/-- A map is read if its counter is there or it has an entry. -/
theorem readTextMap_of_entries {texts : Dict String} (hreserved : texts.get? "%" = none)
    (hthere : (attributes.get? (sizeKey key)).isSome ∨ texts ≠ Dict.empty)
    (hentries : ∀ k, k ≠ "%" → attributes.get? (memberKey key k) = texts.get? k) :
    readTextMap attributes key = some (Json.ofTexts texts) := by
  have htexts : Dict.ofList (attributes.entries.filterMap fun (k, v) =>
      ((Text.dropPrefix? (memberKey key "") k).filter (· ≠ "%")).map (·, v)) = texts := by
    refine Dict.ext_get? fun k => Dict.get?_ofList_of_mem_iff (fun k s => ?_) k
    rw [mem_members_iff]
    constructor
    · rintro ⟨hne, hget⟩
      rwa [← hentries k hne]
    · intro hget
      have hne : k ≠ "%" := by
        rintro rfl
        rw [hreserved] at hget
        cases hget
      exact ⟨hne, (hentries k hne).trans hget⟩
  rw [readTextMap, if_neg, htexts]
  rw [Bool.and_eq_true, List.isEmpty_iff, Dict.contains_eq]
  rintro ⟨hempty, hcounter⟩
  rcases hthere with hsome | hne
  · rw [hsome] at hcounter
    cases hcounter
  · rw [hempty] at htexts
    exact hne htexts.symm

/-- What is found at every index makes up a list. -/
theorem filterMap_range {α β : Type} {f : Nat → Option β} {g : α → β} {items : List α}
    (h : ∀ (i : Nat) (item : α), items[i]? = some item → f i = some (g item)) :
    (List.range items.length).filterMap f = items.map g := by
  induction items generalizing f with
  | nil => rfl
  | cons item items ih =>
      have htail := @ih (fun i => f (i + 1)) fun i x hx => h (i + 1) x (by simpa using hx)
      rw [List.length_cons, List.range_succ_eq_map, List.filterMap_cons_some (h 0 item rfl),
        List.filterMap_map, List.map_cons]
      exact congrArg _ htail

/-- Fields that are read one by one make up the block. -/
theorem read_of_readValue {schema : Schema} {block acc : Block} (hacc : Entries.Ascending acc)
    (h : ∀ field ∈ schema,
      readValue field.type attributes (start ++ field.name) = .ok (block.lookup field.name)) :
    ∃ result, read schema attributes start acc = .ok result ∧ Entries.Ascending result ∧
      ∀ k, result.lookup k =
        if k ∈ schema.map (·.name) then (block.lookup k).or (acc.lookup k) else acc.lookup k := by
  induction schema generalizing acc with
  | nil => exact ⟨acc, rfl, hacc, fun k => by simp⟩
  | cons field fields ih =>
      obtain ⟨name, type, presence, default⟩ := field
      have hvalue := h ⟨name, type, presence, default⟩ List.mem_cons_self
      have hput : Entries.Ascending (Block.put acc name (block.lookup name)) := by
        unfold Block.put
        split
        · exact hacc.insert _ _
        · exact hacc
      obtain ⟨result, hread, hasc, hlookup⟩ :=
        ih hput fun field hfield => h field (List.mem_cons_of_mem _ hfield)
      refine ⟨result, ?_, hasc, fun k => ?_⟩
      · rw [read, hvalue]
        exact hread
      · simp only [hlookup, Block.lookup_put, List.map_cons, List.mem_cons]
        by_cases hk : k = name
        · subst hk
          simp only [if_true, true_or]
          cases block.lookup k <;> simp
        · simp only [hk, if_false, false_or]

/-- The block that attributes hold is read from them. -/
theorem read_of_covers {schema : Schema} {block : Block} (hcovers : schema.Covers block)
    (h : ∀ field ∈ schema,
      readValue field.type attributes (start ++ field.name) = .ok (block.lookup field.name)) :
    read schema attributes start [] = .ok block := by
  obtain ⟨result, hread, hasc, hlookup⟩ := read_of_readValue List.Pairwise.nil h
  rw [hread]
  refine congrArg _ (hasc.ext hcovers.ascending fun k => ?_)
  rw [hlookup]
  split
  · simp
  · rename_i hunknown
    refine (Entries.lookup_eq_none_iff.2 fun hmem => ?_).symm
    exact hunknown (hcovers.known k hmem)

/-- What the attributes below a key hold is read from them. -/
theorem readValue_eq {type : FieldType} {value : Json} (h : HoldsValue attributes type key value) :
    readValue type attributes key = .ok (some value) := by
  induction h with
  | text h => simp only [readValue, h, Option.map_some]
  | int hlow hhigh h => simp only [readValue, readInt, h, Decimal.intIn?_toString hlow hhigh]
  | @bool _ b h =>
      rw [readValue, readBool, h]
      cases b with
      | false => rfl
      | true => rfl
  | textList hbound hlength hitems =>
      simp only [readValue, readLength_of_counter hbound hlength]
      refine congrArg (fun texts => Except.ok (some (Json.arr texts))) ?_
      exact filterMap_range fun i s hs => by rw [hitems i s hs, Option.map_some]
  | textMap hreserved hsize hentries =>
      simp only [readValue, readTextMap_of_entries hreserved (.inl hsize) hentries]
  | @block key fields singular blocks hbound hlength hcovers _ absent ih =>
      have hblocks : (List.range blocks.length).mapM
          (fun i => read fields attributes (elementPrefix key i) []) = .ok blocks := by
        refine Steps.mapM_range fun i element helement => ?_
        refine read_of_covers (hcovers _ (List.mem_of_getElem? helement)) fun field hfield => ?_
        cases hvalue : element.lookup field.name with
        | none => exact readValue_of_vacant _ (absent i element helement field hfield hvalue)
        | some value => exact ih i element helement field hfield value hvalue
      simp only [readValue, readLength_of_counter hbound hlength, Steps.bind_ok, hblocks,
        Steps.pure_eq_ok]

/-- What the attributes of a block hold is read from them. -/
theorem HoldsBlock.read_eq {schema : Schema} {block : Block}
    (h : HoldsBlock attributes schema start block) :
    read schema attributes start [] = .ok block := by
  refine read_of_covers h.covers fun field hfield => ?_
  cases hvalue : block.lookup field.name with
  | none => exact readValue_of_vacant _ (h.absent field hfield hvalue)
  | some value => exact readValue_eq (h.present field hfield value hvalue)

end Reading

end Reconcile.Schema
