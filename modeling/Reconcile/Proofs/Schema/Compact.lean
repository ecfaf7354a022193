import Mathlib.Data.List.Basic
import Reconcile.Proofs.Schema.Canonical

/-!
# Blocks that hold nothing empty

The writers of blocks leave out what is empty, and a singular block that they write has one element.
`Schema.Kept` joins this with what can be stored: the maps and the lists of an object that can be
recorded can be stored. There is one lemma for each way of writing a value.
-/

namespace Reconcile.Schema

/-- A value that is no empty list and no empty map, with one element if its block is singular. -/
structure Compact (field : Field) (value : Json) : Prop where
  list_ne : value ≠ .arr []
  map_ne : value ≠ .obj []
  single : field.type.isSingular = true → value.elements.length = 1

/-- A compact value that can be stored if a condition holds. -/
structure Kept (clean : Prop) (field : Field) (value : Json) : Prop
    extends Compact field value where
  storable : clean → Storable field value

variable {fields : Schema} {field : Field} {clean : Prop}

theorem meets_none {rule : Field → Json → Prop} : Meets rule field none := fun _ h => nomatch h

/-- A value of a type that is no block type has no blocks in it. -/
theorem kept_leaf (hleaf : ∀ fields singular, field.type ≠ .block fields singular) {value : Json}
    (hlist : value ≠ .arr []) (hmap : value ≠ .obj []) (hstorable : clean → Storable field value) :
    Meets (Kept clean) field (some value) := by
  rintro _ ⟨⟩
  refine ⟨⟨⟨hlist, hmap, fun hsingular => ?_⟩, hstorable⟩, fun fields singular htype => ?_⟩
  · cases htype : field.type with
    | block fields singular => exact absurd htype (hleaf fields singular)
    | _ =>
        rw [htype] at hsingular
        cases hsingular
  · exact absurd htype (hleaf fields singular)

/-- Texts, integers and booleans can always be stored. -/
theorem kept_scalar (htype : field.type = .text ∨ field.type = .int ∨ field.type = .bool)
    {value : Json} (hlist : value ≠ .arr []) (hmap : value ≠ .obj []) :
    Meets (Kept clean) field (some value) := by
  refine kept_leaf (fun fields singular hblock => ?_) hlist hmap fun _ =>
    (storableField_scalar htype (some value) value rfl).1
  rw [hblock] at htype
  exact htype.elim nofun fun h => h.elim nofun nofun

/-- A text is written compactly and can be stored. -/
theorem kept_text (htype : field.type = .text) (value : Option String) :
    Meets (Kept clean) field (Block.ofText? value) := by
  cases value with
  | none => exact meets_none
  | some s => exact kept_scalar (.inl htype) nofun nofun

/-- An integer is written compactly and can be stored. -/
theorem kept_int (htype : field.type = .int) (value : Option Int) :
    Meets (Kept clean) field (Block.ofInt? value) := by
  cases value with
  | none => exact meets_none
  | some i => exact kept_scalar (.inr (.inl htype)) nofun nofun

/-- A truth value is written compactly and can be stored. -/
theorem kept_bool (htype : field.type = .bool) (value : Option Bool) :
    Meets (Kept clean) field (Block.ofBool? value) := by
  cases value with
  | none => exact meets_none
  | some b => exact kept_scalar (.inr (.inr htype)) nofun nofun

/-- A map that leaves the key of its counter free can be stored. -/
theorem kept_texts (htype : field.type = .textMap) {d : Dict String}
    (hclean : clean → d.get? "%" = none) : Meets (Kept clean) field (Block.ofTexts? d) := by
  unfold Block.ofTexts?
  split
  · exact meets_none
  · rename_i hempty
    refine kept_leaf (by rw [htype]; nofun) nofun (fun h => hempty ?_) fun h => ?_
    · exact List.isEmpty_iff.2 (List.map_eq_nil_iff.1 (Json.obj.inj h))
    · rw [Storable, htype]
      exact (Entries.lookup_map_value Json.str d.entries "%").trans
        (Option.map_eq_none_iff.2 (hclean h))

/-- A list that a word counts can be stored. -/
theorem kept_textList (htype : field.type = .textList) {items : List String}
    (hclean : clean → items.length ≤ Decimal.maxNat64) :
    Meets (Kept clean) field (Block.ofTextList? items) := by
  unfold Block.ofTextList?
  split
  · exact meets_none
  · rename_i hempty
    refine kept_leaf (by rw [htype]; nofun) (fun h => hempty ?_) nofun fun h => ?_
    · exact List.isEmpty_iff.2 (List.map_eq_nil_iff.1 (Json.arr.inj h))
    · rw [Storable, htype]
      show (items.map Json.str).length ≤ Decimal.maxNat64
      rw [List.length_map]
      exact hclean h

/-- The blocks of a list that a word counts make a repeated block that is kept if each of them
is. -/
theorem kept_children {α : Type} (htype : field.type = .block fields false) {items : List α}
    {flatten : α → Block} (hclean : clean → items.length ≤ Decimal.maxNat64)
    (hitems : ∀ item ∈ items, fields.Every (Kept clean) (flatten item)) :
    Meets (Kept clean) field (Block.ofChildren? (items.map flatten)) := by
  unfold Block.ofChildren?
  split
  · exact meets_none
  · rename_i hempty
    rintro _ ⟨⟩
    refine ⟨⟨⟨fun h => hempty ?_, nofun, ?_⟩, fun h => ?_⟩, ?_⟩
    · exact List.isEmpty_iff.2 (List.map_eq_nil_iff.1 (Json.arr.inj h))
    · rw [htype]
      exact nofun
    · rw [Storable, htype]
      show ((items.map flatten).map Json.obj).length ≤ Decimal.maxNat64
      rw [List.length_map, List.length_map]
      exact hclean h
    · rw [htype, Json.elements_arr]
      rintro _ _ ⟨⟩
      exact List.forall_mem_map.2 hitems

/-- A block that is kept makes a singular block that is kept. -/
theorem kept_single (htype : field.type = .block fields true) {element : Block}
    (helement : fields.Every (Kept clean) element) :
    Meets (Kept clean) field (some (Block.singular element)) := by
  rintro _ ⟨⟩
  refine ⟨⟨⟨nofun, nofun, fun _ => rfl⟩, fun _ => ?_⟩, ?_⟩
  · rw [Storable, htype]
    show 1 ≤ Decimal.maxNat64
    decide
  · rw [htype]
    rintro _ _ ⟨⟩ other hother
    obtain rfl : other = element := List.mem_singleton.1 hother
    exact helement

/-- A singular block is written compactly, and can be stored if its element can. -/
theorem kept_singular (htype : field.type = .block fields true) {child : Option Block}
    (hchild : ∀ element, child = some element → fields.Every (Kept clean) element) :
    Meets (Kept clean) field (child.map Block.singular) := by
  cases child with
  | none => exact meets_none
  | some element => exact kept_single htype (hchild element rfl)

/-- What is shown as a block that is kept makes a singular block that is kept. -/
theorem kept_shown {α : Type} (htype : field.type = .block fields true) {value : Option α}
    {flatten : α → Block} (hvalue : ∀ a, value = some a → fields.Every (Kept clean) (flatten a)) :
    Meets (Kept clean) field ((value.map flatten).map Block.singular) := by
  refine kept_singular htype fun element helement => ?_
  obtain ⟨a, ha, rfl⟩ := Option.map_eq_some_iff.1 helement
  exact hvalue a ha

end Reconcile.Schema
