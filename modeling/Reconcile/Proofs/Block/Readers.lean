import Mathlib.Data.List.Basic
import Reconcile.Proofs.Block.Fields
import Reconcile.Proofs.Block.Nested
import Reconcile.Proofs.Wire.Fields

/-!
# Fields that are written and read

A reader finds in a block what the writer of the same type put there. The readers of texts, lists
and maps take an empty value for an absent one, so they find what is not empty.
-/

namespace Reconcile

namespace Block

variable {block : Block} {key : String}

/-- No reader gives an empty text. -/
theorem text?_ne (block : Block) (key : String) : text? block key ≠ some "" := by
  intro h
  have hne := (Option.filter_eq_some_iff.1 h).2
  simp at hne

/-- A text that was written is read again, unless it is empty. -/
theorem text?_of_lookup {value : Option String} (h : block.lookup key = ofText? value)
    (hne : value ≠ some "") : text? block key = value := by
  rw [text?, h]
  cases value with
  | none => rfl
  | some s =>
      have hs : s ≠ "" := fun heq => hne (congrArg some heq)
      show (some s).filter (· ≠ "") = some s
      rw [Option.filter_some, if_pos (by simpa using hs)]

/-- A value that is not the empty text is read as the text that it is. -/
theorem text?_of_ne (hne : block.lookup key ≠ some (.str "")) :
    text? block key = (block.lookup key).bind Json.str? := by
  cases hvalue : block.lookup key with
  | none =>
      rw [text?, hvalue]
      rfl
  | some value =>
      cases value with
      | str s =>
          refine text?_of_lookup hvalue fun hempty => hne ?_
          rw [hvalue, Option.some.inj hempty]
      | _ =>
          rw [text?, hvalue]
          rfl

/-- An integer that was written is read again. -/
theorem int?_of_lookup {value : Option Int64}
    (h : block.lookup key = ofInt? (value.map Int64.toInt)) : int? block key = value := by
  rw [int?, h]
  cases value with
  | none => rfl
  | some i => exact Wire.int64?_toInt i

/-- A text that is absent is written as absent. -/
theorem ofText?_text?_of_none (h : block.lookup key = none) : ofText? (text? block key) = none := by
  rw [text?, h]
  rfl

/-- An integer that is absent is written as absent. -/
theorem ofInt?_int?_of_none (h : block.lookup key = none) :
    ofInt? ((int? block key).map Int64.toInt) = none := by
  rw [int?, h]
  rfl

/-- A truth value that was written is read again. -/
theorem bool?_of_lookup {value : Option Bool} (h : block.lookup key = ofBool? value) :
    bool? block key = value := by
  rw [bool?, h]
  cases value with
  | none => rfl
  | some b => rfl

/-- The texts of the wire form of a map are those of the map. -/
theorem texts_entries (d : Dict String) :
    Json.texts (d.entries.map fun (k, v) => (k, Json.str v)) = d := by
  rw [Json.texts, List.filterMap_map]
  simp [Function.comp_def, Json.str?, Dict.ofList_entries]

/-- A map of texts that was written is read again. -/
theorem texts_of_lookup {d : Dict String} (h : block.lookup key = ofTexts? d) :
    texts block key = d := by
  rw [texts, h, ofTexts?]
  cases hempty : d.isEmpty with
  | true => exact (Dict.isEmpty_iff.1 hempty).symm
  | false => exact texts_entries d

/-- A list of texts that was written is read again. -/
theorem textList_of_lookup {items : List String} (h : block.lookup key = ofTextList? items) :
    textList block key = items := by
  rw [textList, h, ofTextList?]
  cases items with
  | nil => rfl
  | cons item items => simp [Json.arr?, Json.str?, List.filterMap_map, Function.comp_def]

/-- The elements of a nested block that were written are read again. -/
theorem children_of_ofChildren? {blocks : List Block}
    (h : block.lookup key = ofChildren? blocks) : children block key = blocks := by
  unfold ofChildren? at h
  cases blocks with
  | nil => exact children_of_none h
  | cons first rest => exact children_of_lookup h

/-- The element of a singular block that was written is read again. -/
theorem child?_of_lookup {child : Option Block} (h : block.lookup key = child.map singular) :
    child? block key = child := by
  rw [child?, h]
  cases child with
  | none => rfl
  | some c => rfl

end Block

namespace Declaration

variable {α : Type} {block : Block} {key path : String}

/-- An integer of 32 bits is within its bounds. -/
theorem int32_toInt (i : Int32) (path : String) :
    int32 (Int64.ofInt i.toInt) path = .ok i := by
  have hlow : -2 ^ 31 ≤ i.toInt := i.minValue_le_toInt
  have hhigh : i.toInt ≤ 2 ^ 31 - 1 := i.toInt_le
  have hvalue : (Int64.ofInt i.toInt).toInt = i.toInt :=
    Int64.toInt_ofInt_of_le (by omega) (by omega)
  rw [int32, hvalue, if_pos ⟨hlow, hhigh⟩, Int32.ofInt_toInt]

/-- An integer of 32 bits that was written is read as one of 64 bits. -/
theorem int?_of_int32 {i : Int32} (h : block.lookup key = some (.int i.toInt)) :
    Block.int? block key = some (Int64.ofInt i.toInt) := by
  have hlow : -2 ^ 31 ≤ i.toInt := i.minValue_le_toInt
  have hhigh : i.toInt ≤ 2 ^ 31 - 1 := i.toInt_le
  rw [Block.int?, h]
  refine Json.int64?_int ?_ ?_
  · rw [Json.minInt64]
    omega
  · rw [Json.maxInt64]
    omega

/-- An integer that was written is read in place of its default. -/
theorem int32D_of_lookup {i : Int32} (h : block.lookup key = some (.int i.toInt))
    (default : Int32) (path : String) : int32D block key default path = .ok i := by
  rw [int32D, int?_of_int32 h]
  exact int32_toInt i path

/-- An integer with a default depends on the value under its key only. -/
theorem int32D_congr {other : Block} (h : block.lookup key = other.lookup key) (default : Int32)
    (path : String) : int32D block key default path = int32D other key default path := by
  rw [int32D, int32D, Block.int?, Block.int?, h]

/-- An optional integer that was written is read again. -/
theorem int32?_of_lookup {value : Option Int32}
    (h : block.lookup key = Block.ofInt? (value.map Int32.toInt)) (path : String) :
    int32? block key path = .ok value := by
  cases value with
  | none =>
      rw [int32?, Block.int?, h]
      rfl
  | some i =>
      rw [int32?, int?_of_int32 h]
      show (int32 (Int64.ofInt i.toInt) path).map some = _
      rw [int32_toInt]
      rfl

/-- No reader of a required text gives an empty one. -/
theorem requiredText_ne {s : String} (h : requiredText block key path = .ok s) : s ≠ "" := by
  unfold requiredText at h
  split at h
  · rename_i text htext
    cases h
    rintro rfl
    exact Block.text?_ne block key htext
  · cases h

/-- A required text that was written is read again, unless it is empty. -/
theorem requiredText_of_lookup {s : String} (h : block.lookup key = Block.ofText? (some s))
    (hne : s ≠ "") (path : String) : requiredText block key path = .ok s := by
  rw [requiredText, Block.text?_of_lookup h fun heq => hne (Option.some.inj heq)]

/-- A list that is left out where it is empty is the same list. -/
theorem getD_nonEmpty? (items : List α) : (nonEmpty? items).getD [] = items := by
  cases items with
  | nil => rfl
  | cons item items => rfl

/-- An empty list is left out. -/
theorem nonEmpty?_ne (items : List α) : nonEmpty? items ≠ some [] := by
  cases items with
  | nil => exact fun h => nomatch h
  | cons item items => exact fun h => nomatch h

/-- A list that is left out where it is empty is the same list. -/
theorem nonEmpty?_getD {items : Option (List α)} (h : items ≠ some []) :
    nonEmpty? (items.getD []) = items := by
  cases items with
  | none => rfl
  | some list =>
      cases list with
      | nil => exact absurd rfl h
      | cons item rest => rfl

/-- What was shown as the elements of a nested block is declared by them. -/
theorem children_of_lookup {expand : String → Block → Except Failure α} {flatten : α → Block}
    {items : List α} (h : block.lookup key = Block.ofChildren? (items.map flatten))
    (hexpand : ∀ item ∈ items, ∀ path, expand path (flatten item) = .ok item) (path : String) :
    children block key path expand = .ok items := by
  have hall : ∀ (items : List α) (n : Nat),
      (∀ item ∈ items, ∀ path, expand path (flatten item) = .ok item) →
      ((items.map flatten).zipIdx n).mapM
        (fun x => expand (path ++ "." ++ toString x.2) x.1) = .ok items := by
    intro items
    induction items with
    | nil => exact fun _ _ => rfl
    | cons item items ih =>
        intro n hitems
        rw [List.map_cons, List.zipIdx_cons, List.mapM_cons]
        show (expand (path ++ "." ++ toString n) (flatten item) >>= _) = _
        rw [hitems item List.mem_cons_self, Steps.bind_ok,
          ih (n + 1) fun x hx => hitems x (List.mem_cons_of_mem _ hx)]
        rfl
  rw [children, Block.children_of_ofChildren? h]
  exact hall items 0 hexpand

/-- Everything that is made of a nested block is made of one of its elements. -/
theorem exists_of_mem_children {expand : String → Block → Except Failure α} {items : List α}
    (h : children block key path expand = .ok items) {item : α} (hitem : item ∈ items) :
    ∃ child ∈ Block.children block key, ∃ path, expand path child = .ok item := by
  obtain ⟨⟨child, i⟩, hchild, hexpand⟩ :=
    Steps.exists_of_mem_mapM h hitem
  exact ⟨child, List.fst_mem_of_mem_zipIdx hchild, _, hexpand⟩

end Declaration

end Reconcile
