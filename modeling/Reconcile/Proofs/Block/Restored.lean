import Mathlib.Data.List.Basic
import Reconcile.Proofs.Block.Readers
import Reconcile.Proofs.Schema.Canonical

/-!
# Values written as they were read

What a reader sees in a plain block is written back as the value that it was read from, for each
type of field. A block that is made of such fields is the block that they were read from
(`Accepts.ofFields_eq`).
-/

namespace Reconcile

/-- An integer that fits 32 bits is the same with 32 bits. -/
theorem Declaration.toInt_of_int32 {number : Int64} {path : String} {i : Int32}
    (h : int32 number path = .ok i) : i.toInt = number.toInt := by
  unfold int32 at h
  split at h
  · rename_i hbounds
    cases h
    obtain ⟨hlow, hhigh⟩ := hbounds
    rw [Json.minInt32] at hlow
    rw [Json.maxInt32] at hhigh
    exact Int32.toInt_ofInt_of_le (by omega) (by omega)
  · cases h

namespace Schema

variable {schema : Schema} {block : Block} {key path : String}

/-- A block is made again from the values of its fields. -/
theorem Accepts.ofFields_eq (h : schema.Accepts block) {fields : List (String × Option Json)}
    (hnodup : (schema.map (·.name)).Nodup) (hnames : schema.map (·.name) = fields.map (·.1))
    (hvalues : ∀ e ∈ fields, e.2 = block.lookup e.1) : Block.ofFields fields = block := by
  refine Entries.Ascending.ext (Block.ascending_ofFields fields) h.covers.ascending fun k => ?_
  rw [Block.lookup_ofFields (hnames ▸ hnodup)]
  cases hvalue : fields.lookup k with
  | none =>
      have hk : k ∉ schema.map (·.name) := hnames ▸ Entries.lookup_eq_none_iff.1 hvalue
      exact (h.lookup_eq_none hk).symm
  | some value => exact hvalues (k, value) (Entries.mem_of_lookup_eq_some hvalue)

namespace Plain

/-- Writing the text that was read restores the field of a plain block. -/
theorem ofText?_text? (h : schema.Plain block) (htype : schema.typeOf? key = some .text) :
    Block.ofText? (Block.text? block key) = block.lookup key := by
  rw [Block.text?]
  cases hvalue : block.lookup key with
  | none => rfl
  | some value =>
      obtain ⟨hadmits, _, _, _, _, hplain⟩ := h.value htype hvalue
      cases hadmits with
      | text s =>
          have hs : s ≠ "" := fun heq => hplain.text_ne (by rw [heq])
          show Block.ofText? ((some s).filter (· ≠ "")) = _
          rw [Option.filter_some, if_pos (by simpa using hs)]
          rfl

/-- Writing the required text that was read restores the field of a plain block. -/
theorem ofText?_requiredText (h : schema.Plain block) (htype : schema.typeOf? key = some .text)
    {s : String} (hread : Declaration.requiredText block key path = .ok s) :
    Block.ofText? (some s) = block.lookup key := by
  rw [← h.ofText?_text? htype]
  unfold Declaration.requiredText at hread
  split at hread
  · rename_i text htext
    cases hread
    rw [htext]
  · cases hread

/-- Writing the integer that was read restores the field of a plain block. -/
theorem ofInt?_int? (h : schema.Plain block) (htype : schema.typeOf? key = some .int) :
    Block.ofInt? ((Block.int? block key).map Int64.toInt) = block.lookup key := by
  rw [Block.int?]
  cases hvalue : block.lookup key with
  | none => rfl
  | some value =>
      obtain ⟨hadmits, _⟩ := h.value htype hvalue
      cases hadmits with
      | int i hlow hhigh =>
          show Block.ofInt? ((Json.int i).int64?.map Int64.toInt) = _
          rw [Json.int64?_int hlow hhigh, Option.map_some, Int64.toInt_ofInt_of_le hlow
            (by rw [Json.maxInt64] at hhigh; omega)]
          rfl

/-- An integer that has to be there and to fit 32 bits is written back. -/
theorem ofInt?_requiredInt (h : schema.Plain block) (htype : schema.typeOf? key = some .int)
    {number : Int64} {i : Int32} (hread : Declaration.requiredInt block key path = .ok number)
    (hfits : Declaration.int32 number path = .ok i) :
    Block.ofInt? (some i.toInt) = block.lookup key := by
  rw [← h.ofInt?_int? htype]
  unfold Declaration.requiredInt at hread
  split at hread
  · rename_i value hvalue
    cases hread
    rw [hvalue, Option.map_some, Declaration.toInt_of_int32 hfits]
  · cases hread

/-- An integer that has to fit 32 bits is written back. -/
theorem ofInt?_int32? (h : schema.Plain block) (htype : schema.typeOf? key = some .int)
    {value : Option Int32} (hread : Declaration.int32? block key path = .ok value) :
    Block.ofInt? (value.map Int32.toInt) = block.lookup key := by
  rw [← h.ofInt?_int? htype]
  unfold Declaration.int32? at hread
  split at hread
  · rename_i number hnumber
    obtain ⟨i, hfits, rfl⟩ := Steps.map_eq_ok_iff.1 hread
    rw [hnumber, Option.map_some, Option.map_some, Declaration.toInt_of_int32 hfits]
  · rename_i hnone
    cases hread
    rw [hnone]
    rfl

/-- An integer with a default that has to fit 32 bits is written back. -/
theorem ofInt?_int32D (h : schema.Plain block) (htype : schema.typeOf? key = some .int)
    (hdefault : (block.lookup key).isSome) {default i : Int32}
    (hread : Declaration.int32D block key default path = .ok i) :
    Block.ofInt? (some i.toInt) = block.lookup key := by
  have hback := h.ofInt?_int? htype
  unfold Declaration.int32D at hread
  split at hread
  · rename_i number hnumber
    rw [← hback, hnumber, Option.map_some, Declaration.toInt_of_int32 hread]
  · rename_i hnone
    rw [← hback, hnone] at hdefault
    cases hdefault

/-- Writing the truth value that was read restores the field of a plain block. -/
theorem ofBool?_bool? (h : schema.Plain block) (htype : schema.typeOf? key = some .bool) :
    Block.ofBool? (Block.bool? block key) = block.lookup key := by
  rw [Block.bool?]
  cases hvalue : block.lookup key with
  | none => rfl
  | some value =>
      obtain ⟨hadmits, _⟩ := h.value htype hvalue
      cases hadmits with
      | bool b => rfl

/-- A switch with a default is written back. -/
theorem ofBool?_getD (h : schema.Plain block) (htype : schema.typeOf? key = some .bool)
    (hdefault : (block.lookup key).isSome) (default : Bool) :
    Block.ofBool? (some ((Block.bool? block key).getD default)) = block.lookup key := by
  have hread := h.ofBool?_bool? htype
  cases hvalue : Block.bool? block key with
  | none =>
      rw [← hread, hvalue] at hdefault
      cases hdefault
  | some b =>
      rw [← hread, hvalue]
      rfl

/-- Writing the list of texts that was read restores the field of a plain block. -/
theorem ofTextList?_textList (h : schema.Plain block)
    (htype : schema.typeOf? key = some .textList) :
    Block.ofTextList? (Block.textList block key) = block.lookup key := by
  rw [Block.textList]
  cases hvalue : block.lookup key with
  | none => rfl
  | some value =>
      obtain ⟨hadmits, _, _, _, _, hplain⟩ := h.value htype hvalue
      cases hadmits with
      | textList items =>
          cases items with
          | nil => exact absurd rfl hplain.list_ne
          | cons item rest =>
              have htexts : ((item :: rest).map Json.str).filterMap Json.str? = item :: rest := by
                simp [List.filterMap_map, Function.comp_def, Json.str?]
              show Block.ofTextList? (((item :: rest).map Json.str).filterMap Json.str?) = _
              rw [htexts]
              rfl

/-- Writing the map of texts that was read restores the field of a plain block. -/
theorem ofTexts?_texts (h : schema.Plain block) (htype : schema.typeOf? key = some .textMap) :
    Block.ofTexts? (Block.texts block key) = block.lookup key := by
  rw [Block.texts]
  cases hvalue : block.lookup key with
  | none => rfl
  | some value =>
      obtain ⟨hadmits, _, _, _, _, hplain⟩ := h.value htype hvalue
      cases hadmits with
      | textMap texts =>
          refine (congrArg Block.ofTexts? (Block.texts_entries texts)).trans ?_
          rw [Block.ofTexts?]
          cases hempty : texts.isEmpty with
          | true =>
              rw [Dict.isEmpty_iff.1 hempty] at hplain
              exact absurd rfl hplain.map_ne
          | false => rfl

/-- The elements of a nested block are written back if each of them is. -/
theorem ofChildren?_children {α : Type} (h : schema.Plain block) {fields : Schema}
    {singular : Bool} (htype : schema.typeOf? key = some (.block fields singular))
    {expand : String → Block → Except Failure α} {flatten : α → Block} {items : List α}
    (hread : Declaration.children block key path expand = .ok items)
    (hflatten : ∀ child ∈ Block.children block key, ∀ item path, expand path child = .ok item →
      flatten item = child) :
    Block.ofChildren? (items.map flatten) = block.lookup key := by
  have hall : ∀ (pairs : List (Block × Nat)) (items : List α),
      List.Forall₂ (fun x item => expand (path ++ "." ++ toString x.2) x.1 = .ok item) pairs items →
      (∀ x ∈ pairs, x.1 ∈ Block.children block key) → items.map flatten = pairs.map (·.1) := by
    intro pairs items hall hmem
    induction hall with
    | nil => rfl
    | cons hitem _ ih =>
        rw [List.map_cons, List.map_cons, hflatten _ (hmem _ List.mem_cons_self) _ _ hitem,
          ih fun x hx => hmem x (List.mem_cons_of_mem _ hx)]
  have hitems : items.map flatten = Block.children block key := by
    rw [hall _ _ (Steps.mapM_eq_ok_iff.1 hread) fun x hx =>
      List.fst_mem_of_mem_zipIdx hx, List.zipIdx_map_fst]
  rw [hitems]
  cases hvalue : block.lookup key with
  | none =>
      rw [Block.children_of_none hvalue]
      rfl
  | some value =>
      obtain ⟨hadmits, _, _, _, _, hplain⟩ := h.value htype hvalue
      cases hadmits with
      | block _ _ blocks _ =>
          rw [Block.children_of_lookup hvalue]
          cases blocks with
          | nil => exact absurd rfl hplain.list_ne
          | cons first rest => rfl

/-- The element of a singular block is written back. -/
theorem singular_child? (h : schema.Plain block) {fields : Schema}
    (htype : schema.typeOf? key = some (.block fields true)) :
    (Block.child? block key).map Block.singular = block.lookup key := by
  rw [Block.child?]
  cases hvalue : block.lookup key with
  | none => rfl
  | some value =>
      obtain ⟨hadmits, field, _, _, hfieldType, hplain⟩ := h.value htype hvalue
      have hsingle := hplain.single (by rw [hfieldType]; rfl)
      cases hadmits with
      | block _ _ blocks _ =>
          rw [Json.elements_arr] at hsingle
          obtain ⟨child, rfl⟩ := List.length_eq_one_iff.1 hsingle
          rfl

/-- A block of metadata in a plain block says something. -/
theorem metadata_ne_nil (h : schema.Plain block) {fields : Schema} {singular : Bool}
    {child : Block} (htype : schema.typeOf? "metadata" = some (.block fields singular))
    (hchild : Block.child? block "metadata" = some child) : child ≠ [] := by
  obtain ⟨items, hitems⟩ := Block.child?_eq_some_iff.1 hchild
  obtain ⟨_, field, _, hname, _, hplain⟩ := h.value htype hitems
  exact hplain.metadata hname child List.mem_cons_self

end Plain

end Schema

end Reconcile
