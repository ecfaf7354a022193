import Mathlib.Data.List.Basic
import Reconcile.Proofs.Record.Reading
import Reconcile.Record.Upgrade

/-!
# Attributes that are moved

What the steps of an upgrade do to attributes is said key by key (`Attributes.get?_rename`,
`Attributes.get?_insertDefault`). A value that attributes hold below one key is held below another
one by attributes that have there what the first ones have here (`HoldsValue.relocate`).
-/

namespace Reconcile

namespace Attributes

variable {attributes : Attributes} {source target : String}

/-- A value is moved if there is one and its target holds no text that is not empty. -/
theorem rename_eq_moved_iff (hne : source ≠ target) :
    (attributes.rename source target).1 = .moved ↔ (attributes.get? source).isSome ∧
      ∀ s, attributes.get? target = some s → s = "" := by
  have hrest : (attributes.erase source).get? target = attributes.get? target := by
    rw [Dict.get?_erase, if_neg hne.symm]
  unfold rename
  cases attributes.get? source with
  | none => simp
  | some value =>
      simp only [hrest]
      cases attributes.get? target with
      | none => simp
      | some existing =>
          by_cases hempty : existing = ""
          · simp [hempty]
          · simp [hempty]

/-- Nothing is moved from a key that is not bound. -/
theorem rename_eq_missing (h : attributes.get? source = none) (target : String) :
    attributes.rename source target = (.missing, attributes) := by
  rw [rename, h]

/-- Whether a value is moved depends on what its source and its target hold only. -/
theorem rename_eq_moved_congr {other : Attributes} (hne : source ≠ target)
    (hsource : other.get? source = attributes.get? source)
    (htarget : other.get? target = attributes.get? target) :
    (other.rename source target).1 = .moved ↔ (attributes.rename source target).1 = .moved := by
  rw [rename_eq_moved_iff hne, rename_eq_moved_iff hne, hsource, htarget]

/-- What attributes bind after a value was moved, or was to be moved. -/
theorem get?_rename (hne : source ≠ target) (k : String) :
    (attributes.rename source target).2.get? k =
      if k = source then none
      else if k = target ∧ (attributes.rename source target).1 = .moved then
        attributes.get? source
      else attributes.get? k := by
  have hrest : (attributes.erase source).get? target = attributes.get? target := by
    rw [Dict.get?_erase, if_neg hne.symm]
  have hmoved : ∀ value, ((attributes.erase source).insert target value).get? k =
      if k = source then none else if k = target then some value else attributes.get? k := by
    intro value
    rw [Dict.get?_insert, Dict.get?_erase]
    by_cases hk : k = target
    · rw [if_pos hk, if_neg fun h => hne (h.symm.trans hk), if_pos hk]
    · rw [if_neg hk, if_neg hk]
  unfold rename
  cases hsource : attributes.get? source with
  | none =>
      by_cases hk : k = source
      · simp [hk, hsource]
      · simp [hk]
  | some value =>
      simp only [hrest]
      cases attributes.get? target with
      | none => simp [hmoved]
      | some existing =>
          by_cases hempty : existing = ""
          · simp [hempty, hmoved]
          · simp [hempty, Dict.get?_erase]

/-- The target of a value keeps its own text, unless that is empty. -/
theorem get?_rename_target (hne : source ≠ target) (hbound : (attributes.get? source).isSome) :
    (attributes.rename source target).2.get? target =
      ((attributes.get? target).filter (· ≠ "")).or (attributes.get? source) := by
  rw [get?_rename hne, if_neg hne.symm]
  by_cases hmoved : (attributes.rename source target).1 = .moved
  · rw [if_pos ⟨rfl, hmoved⟩]
    have hempty := ((rename_eq_moved_iff hne).1 hmoved).2
    cases htarget : attributes.get? target with
    | none => rfl
    | some s => simp [Option.filter, hempty s htarget]
  · rw [if_neg fun h => hmoved h.2]
    have hkept := fun h => hmoved ((rename_eq_moved_iff hne).2 ⟨hbound, h⟩)
    cases htarget : attributes.get? target with
    | none => exact absurd (fun s hs => nomatch htarget.symm.trans hs) hkept
    | some s =>
        have hs : s ≠ "" := fun hs => hkept fun s' hs' => by
          rw [← Option.some.inj (htarget.symm.trans hs'), hs]
        simp [Option.filter, hs]

/-- A target that holds nothing takes what the source holds. -/
theorem get?_rename_of_free (hne : source ≠ target) (hfree : attributes.get? target = none) :
    (attributes.rename source target).2.get? target = attributes.get? source := by
  cases hsource : attributes.get? source with
  | none =>
      have hmissing : (attributes.rename source target).1 ≠ .moved := fun hmoved => by
        have hbound := ((rename_eq_moved_iff hne).1 hmoved).1
        rw [hsource] at hbound
        cases hbound
      rw [get?_rename hne, if_neg hne.symm, if_neg fun h => hmissing h.2, hfree]
  | some value => rw [get?_rename_target hne (by rw [hsource]; rfl), hfree, hsource]; rfl

/-- A key that is bound needs no default. -/
theorem insertDefault_eq_self {key : String} (h : (attributes.get? key).isSome) (value : String) :
    (attributes.insertDefault key value).2 = attributes := by
  rw [insertDefault, Dict.contains_eq, if_pos h]

/-- What attributes bind with a default. -/
theorem get?_insertDefault (key value k : String) :
    (attributes.insertDefault key value).2.get? k =
      if k = key then some ((attributes.get? key).getD value) else attributes.get? k := by
  unfold insertDefault
  rw [Dict.contains_eq]
  cases hbound : attributes.get? key with
  | none => simp [Dict.get?_insert]
  | some existing =>
      by_cases hk : k = key
      · simp [hk, hbound]
      · simp [hk]

end Attributes

namespace Schema

variable {attributes other : Attributes} {key key' : String}

/-- The other attributes bind below one key what these bind below another one. -/
def Relocated (attributes : Attributes) (key : String) (other : Attributes) (key' : String) :
    Prop :=
  ∀ suffix, Under "" suffix → other.get? (key' ++ suffix) = attributes.get? (key ++ suffix)

theorem Relocated.member (h : Relocated attributes key other key') (member : String) :
    other.get? (memberKey key' member) = attributes.get? (memberKey key member) := by
  have hmember := h ("." ++ member) (.inr ⟨member, by simp⟩)
  rwa [← String.append_assoc, ← String.append_assoc] at hmember

/-- A field of an element is moved with the list of the element. -/
theorem Relocated.element (h : Relocated attributes key other key') (i : Nat) (name : String) :
    Relocated attributes (elementPrefix key i ++ name) other (elementPrefix key' i ++ name) := by
  intro suffix _
  have hmember := h.member (toString i ++ ("." ++ (name ++ suffix)))
  simpa only [elementPrefix, memberKey, String.append_assoc] using hmember

theorem Vacant.relocate (h : Vacant attributes key) (hother : Relocated attributes key other key') :
    Vacant other key' := by
  rintro k (rfl | ⟨rest, rfl⟩)
  · have hkey := hother "" (.inl rfl)
    rw [String.append_empty, String.append_empty] at hkey
    exact hkey.trans (h key (.refl key))
  · exact (hother.member rest).trans (h _ (.member key rest))

/-- A value is held below another key by attributes that bind there what was bound before. -/
theorem HoldsValue.relocate {type : FieldType} {value : Json}
    (h : HoldsValue attributes type key value) (hother : Relocated attributes key other key') :
    HoldsValue other type key' value := by
  -- The keys of a value differ in what follows its own key, and that stays the same.
  induction h generalizing key' with
  | text h =>
      have hkey := hother "" (.inl rfl)
      rw [String.append_empty, String.append_empty] at hkey
      exact .text (hkey.trans h)
  | int hlow hhigh h =>
      have hkey := hother "" (.inl rfl)
      rw [String.append_empty, String.append_empty] at hkey
      exact .int hlow hhigh (hkey.trans h)
  | bool h =>
      have hkey := hother "" (.inl rfl)
      rw [String.append_empty, String.append_empty] at hkey
      exact .bool (hkey.trans h)
  | textList hbound hlength hitems =>
      refine .textList hbound ?_ fun i s hs => (hother.member _).trans (hitems i s hs)
      rw [lengthKey_eq] at hlength ⊢
      exact (hother.member _).trans hlength
  | textMap hreserved hsize hentries =>
      refine .textMap hreserved ?_ fun k hk => (hother.member k).trans (hentries k hk)
      rw [sizeKey_eq] at hsize ⊢
      rw [hother.member]
      exact hsize
  | block hbound hlength hcovers _ absent ih =>
      refine .block hbound ?_ hcovers ?_ ?_
      · rw [lengthKey_eq] at hlength ⊢
        exact (hother.member _).trans hlength
      · intro i element helement field hfield value hvalue
        exact ih i element helement field hfield value hvalue (hother.element i field.name)
      · intro i element helement field hfield hvalue
        exact (absent i element helement field hfield hvalue).relocate
          (hother.element i field.name)

theorem HoldsField.relocate {type : FieldType} {value : Option Json}
    (h : HoldsField attributes type key value) (hother : Relocated attributes key other key') :
    HoldsField other type key' value := by
  cases value with
  | none => exact Vacant.relocate h hother
  | some value => exact HoldsValue.relocate h hother

/-- The key of a nested block itself is of no account. -/
theorem HoldsValue.congr_members {fields : Schema} {singular : Bool} {value : Json}
    (h : HoldsValue attributes (.block fields singular) key value)
    (hagree : ∀ member,
      other.get? (memberKey key member) = attributes.get? (memberKey key member)) :
    HoldsValue other (.block fields singular) key value := by
  have hunder : ∀ (i : Nat) (name k : String), Under (elementPrefix key i ++ name) k →
      other.get? k = attributes.get? k := by
    intro i name k hk
    rcases hk.of_elementPrefix with rfl | ⟨rest, rfl⟩
    · exact hagree _
    · have hmember := hagree (toString i ++ "." ++ rest)
      simpa only [memberKey, String.append_assoc] using hmember
  cases h with
  | block hbound hlength hcovers present absent =>
      refine .block hbound ?_ hcovers ?_ ?_
      · rw [lengthKey_eq] at hlength ⊢
        exact (hagree _).trans hlength
      · exact fun i element helement field hfield value hvalue =>
          (present i element helement field hfield value hvalue).congr (hunder i field.name)
      · exact fun i element helement field hfield hvalue =>
          (absent i element helement field hfield hvalue).congr (hunder i field.name)

/-- Where a value is held, some key is bound. -/
theorem HoldsValue.exists_bound {type : FieldType} {value : Json}
    (h : HoldsValue attributes type key value) :
    ∃ k, Under key k ∧ (attributes.get? k).isSome := by
  cases h with
  | text h => exact ⟨key, .refl key, by rw [h]; rfl⟩
  | int _ _ h => exact ⟨key, .refl key, by rw [h]; rfl⟩
  | bool h => exact ⟨key, .refl key, by rw [h]; rfl⟩
  | textList _ h _ => exact ⟨_, .lengthKey key, by rw [h]; rfl⟩
  | textMap _ h _ => exact ⟨_, .sizeKey key, h⟩
  | block _ h _ _ _ => exact ⟨_, .lengthKey key, by rw [h]; rfl⟩

/-! ## Scalars -/

/-- What attributes bind for a text is the text. -/
theorem HoldsField.get?_text {value : Option Json} (h : HoldsField attributes .text key value) :
    attributes.get? key = value.bind Json.str? := by
  cases value with
  | none => exact h key (.refl key)
  | some value =>
      cases h with
      | text h => exact h

/-- A boolean that is not there is added. -/
theorem HoldsField.getD_bool {value : Option Json} (h : HoldsField attributes .bool key value)
    {b : Bool} (hother : other.get? key = some ((attributes.get? key).getD (toString b))) :
    HoldsValue other .bool key (value.getD (.bool b)) := by
  cases value with
  | none =>
      have hkey : attributes.get? key = none := h key (.refl key)
      rw [hkey] at hother
      exact .bool hother
  | some value =>
      cases h with
      | bool h =>
          rw [h] at hother
          exact .bool hother

/-- A number that is not there is added. -/
theorem HoldsField.getD_int {value : Option Json} (h : HoldsField attributes .int key value)
    {i : Int} (hlow : Json.minInt64 ≤ i) (hhigh : i ≤ Json.maxInt64)
    (hother : other.get? key = some ((attributes.get? key).getD (toString i))) :
    HoldsValue other .int key (value.getD (.int i)) := by
  cases value with
  | none =>
      have hkey : attributes.get? key = none := h key (.refl key)
      rw [hkey] at hother
      exact .int hlow hhigh hother
  | some value =>
      cases h with
      | int hlow hhigh h =>
          rw [h] at hother
          exact .int hlow hhigh hother

/-! ## Blocks with one element -/

variable {fields : Schema} {singular : Bool} {block : Block}

theorem toString_one : toString 1 = "1" := by decide

/-- A block with one element is held if its counter says so and the element is held. -/
theorem HoldsValue.of_element (hlength : attributes.get? (lengthKey key) = some "1")
    (h : HoldsBlock attributes fields (elementPrefix key 0) block) :
    HoldsValue attributes (.block fields singular) key (Block.singular block) := by
  have hfirst : ∀ (i : Nat) (b : Block), [block][i]? = some b → i = 0 ∧ b = block := by
    intro i b hb
    cases i with
    | zero => exact ⟨rfl, (Option.some.inj hb).symm⟩
    | succ i => cases hb
  have hbound : [block].length ≤ Decimal.maxNat64 := by
    show 1 ≤ Decimal.maxNat64
    decide
  show HoldsValue attributes _ key (.arr ([block].map .obj))
  refine .block hbound (hlength.trans (congrArg some toString_one.symm)) ?_ ?_ ?_
  · rintro b hb
    rw [List.mem_singleton.1 hb]
    exact h.covers
  · intro i b hb field hfield value hvalue
    obtain ⟨rfl, rfl⟩ := hfirst i b hb
    exact h.present field hfield value hvalue
  · intro i b hb field hfield hvalue
    obtain ⟨rfl, rfl⟩ := hfirst i b hb
    exact h.absent field hfield hvalue

theorem HoldsValue.element
    (h : HoldsValue attributes (.block fields singular) key (Block.singular block)) :
    attributes.get? (lengthKey key) = some "1" ∧
      HoldsBlock attributes fields (elementPrefix key 0) block := by
  generalize hvalue : Block.singular block = value at h
  cases h with
  | @block _ _ _ blocks _ hlength hcovers present absent =>
      have hblocks : [block].map Json.obj = blocks.map Json.obj := Json.arr.inj hvalue
      obtain rfl : [block] = blocks := by
        have helements := Json.elements_arr blocks
        rw [← hblocks, Json.elements_arr] at helements
        exact helements
      exact ⟨hlength.trans (congrArg some toString_one), hcovers block List.mem_cons_self,
        present 0 block rfl, absent 0 block rfl⟩

end Schema

end Reconcile
