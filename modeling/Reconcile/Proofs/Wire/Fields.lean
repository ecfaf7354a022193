import Mathlib.Data.List.Basic
import Reconcile.Proofs.Block.Fields
import Reconcile.Proofs.Except.Steps

/-!
# Fields of wire forms

A field of a typed object is read back from the member that was written for it. There is one lemma
for each way of writing a field; all of them are cases of `field?_of_lookup`.
-/

namespace Reconcile.Wire

variable {α : Type} {fields : Json.Fields} {key : String}

/-- A reader goes on with a field that has been read. -/
theorem some_bind {β : Type} (a : α) (f : α → Option β) : (some a >>= f) = f a := rfl

/-- What was written for a field is read from it. -/
theorem field?_of_lookup {decode : Json → Option α} (encode : α → Json) (value : Option α)
    (h : fields.lookup key = value.map encode)
    (hdecode : ∀ a, value = some a → decode (encode a) = some a)
    (hnull : ∀ a, encode a ≠ .null) : field? decode fields key = some value := by
  cases value with
  | none =>
      rw [field?, h]
      rfl
  | some a =>
      have hread : field? decode fields key = (decode (encode a)).map some := by
        unfold field?
        rw [h, Option.map_some]
        cases hencode : encode a with
        | null => exact absurd hencode (hnull a)
        | _ => rfl
      rw [hread, hdecode a rfl]
      rfl

/-- A member that holds a text is read. -/
theorem field?_text {value : Option String} (h : fields.lookup key = text value) :
    field? Json.str? fields key = some value :=
  field?_of_lookup _ _ h (fun _ _ => rfl) fun _ h => nomatch h

/-- A member that holds a truth value is read. -/
theorem field?_bool {value : Option Bool} (h : fields.lookup key = bool value) :
    field? Json.bool? fields key = some value :=
  field?_of_lookup _ _ h (fun _ _ => rfl) fun _ h => nomatch h

/-- An integer of 32 bits is within its bounds. -/
theorem int32?_toInt (i : Int32) : (Json.int i.toInt).int32? = some i := by
  have hlow : Json.minInt32 ≤ i.toInt := i.minValue_le_toInt
  have hhigh : i.toInt ≤ Json.maxInt32 := i.toInt_le
  rw [Json.int32?, if_pos ⟨hlow, hhigh⟩, Int32.ofInt_toInt]

/-- An integer of 64 bits is within its bounds. -/
theorem int64?_toInt (i : Int64) : (Json.int i.toInt).int64? = some i := by
  have hlow : Json.minInt64 ≤ i.toInt := i.minValue_le_toInt
  have hhigh : i.toInt ≤ Json.maxInt64 := i.toInt_le
  rw [Json.int64?, if_pos ⟨hlow, hhigh⟩, Int64.ofInt_toInt]

/-- A member that holds an integer of 32 bits is read. -/
theorem field?_int32 {value : Option Int32} (h : fields.lookup key = int32 value) :
    field? Json.int32? fields key = some value :=
  field?_of_lookup _ _ h (fun i _ => int32?_toInt i) fun _ h => nomatch h

/-- A member that holds an integer of 64 bits is read. -/
theorem field?_int64 {value : Option Int64} (h : fields.lookup key = int64 value) :
    field? Json.int64? fields key = some value :=
  field?_of_lookup _ _ h (fun i _ => int64?_toInt i) fun _ h => nomatch h

/-- The texts of a map are read from its wire form. -/
theorem texts?_ofTexts (d : Dict String) : texts? (Json.ofTexts d) = some d := by
  let encode (e : String × String) : String × Json := (e.1, .str e.2)
  let decode (e : String × Json) : Option (String × String) := e.2.str?.map (e.1, ·)
  have hentries : (d.entries.map encode).mapM decode = some d.entries :=
    Steps.mapM_map_eq_some fun _ _ => rfl
  show ((d.entries.map encode).mapM decode).bind (fun entries => some (Dict.ofList entries)) = _
  rw [hentries, Option.bind_some, Dict.ofList_entries]

/-- A member that holds a map of texts is read. -/
theorem field?_texts {value : Option (Dict String)} (h : fields.lookup key = texts value) :
    field? texts? fields key = some value :=
  field?_of_lookup _ _ h (fun d _ => texts?_ofTexts d) fun _ h => nomatch h

/-- The items of an array are read back, if each of them is. -/
theorem list?_array {encode : α → Json} {decode : Json → Option α} {items : List α}
    (h : ∀ item ∈ items, decode (encode item) = some item) :
    list? decode (array encode items) = some items :=
  Steps.mapM_map_eq_some h

/-- A member that holds a list is read if each item is. -/
theorem field?_list {encode : α → Json} {decode : Json → Option α} {value : Option (List α)}
    (h : fields.lookup key = value.map (array encode))
    (hdecode : ∀ a, decode (encode a) = some a) :
    field? (list? decode) fields key = some value :=
  field?_of_lookup _ _ h (fun _ _ => list?_array fun a _ => hdecode a) fun _ h => nomatch h

/-- A member that holds a list of texts is read. -/
theorem field?_textList {value : Option (List String)} (h : fields.lookup key = textList value) :
    field? (list? Json.str?) fields key = some value :=
  field?_list h fun _ => rfl

/-- A field that always has a value is read back where there is a default for it. -/
theorem fieldD_of_field? {decode : Json → Option α} {default a : α}
    (h : field? decode fields key = some (some a)) :
    fieldD decode default fields key = some a := by
  rw [fieldD, h]
  rfl

/-- A value that was written for a field is read where there is a default for it. -/
theorem fieldD_of_lookup {decode : Json → Option α} {default a : α} {value : Json}
    (h : fields.lookup key = some value) (hdecode : decode value = some a) (hnull : value ≠ .null) :
    fieldD decode default fields key = some a := by
  refine fieldD_of_field? (field?_of_lookup (fun _ => value) (some a) h ?_ fun _ => hnull)
  intro b hb
  rw [hdecode, hb]

/-- A field that holds the text that it has to hold. -/
theorem constant?_of_lookup {s : String} (h : fields.lookup key = some (.str s)) :
    constant? fields key s = some () := by
  rw [constant?, h]
  exact if_pos rfl

end Reconcile.Wire
