import Mathlib.Data.List.Basic
import Reconcile.Dict.Basic

/-!
# Bindings of entry lists and dictionaries

An ascending entry list is known by its bindings: `lookup` finds exactly its members, and two
changes are the same when they bind the same keys. `Dict.get?_ofList_of_mem_iff` reads a
dictionary off a list of entries, and `Dict.get?_union` and `Dict.get?_filter` say what the two
operations of merging and filtering bind.
-/

namespace Reconcile

namespace Entries

variable {α β : Type}

/-- What a look-up finds is a member. -/
theorem mem_of_lookup_eq_some {entries : List (String × α)} {key : String} {value : α}
    (h : entries.lookup key = some value) : (key, value) ∈ entries := by
  obtain ⟨before, after, rfl, _⟩ := List.lookup_eq_some_iff.1 h
  simp

/-- A key that no entry has is not bound. -/
theorem lookup_eq_none_iff {κ : Type} [BEq κ] [LawfulBEq κ] {entries : List (κ × α)} {key : κ} :
    entries.lookup key = none ↔ key ∉ entries.map (·.1) := by
  rw [List.lookup_eq_none_iff]
  simp only [bne_iff_ne, List.mem_map, not_exists, not_and]
  exact ⟨fun h e he heq => h e he heq.symm, fun h e he heq => h e he heq.symm⟩

/-- Every member of an ascending list is found under its key. -/
theorem Ascending.lookup_eq_some_iff {entries : List (String × α)} (hasc : Ascending entries)
    {key : String} {value : α} :
    entries.lookup key = some value ↔ (key, value) ∈ entries := by
  refine ⟨mem_of_lookup_eq_some, fun hmem => ?_⟩
  induction entries with
  | nil => simp at hmem
  | cons entry rest ih =>
      obtain ⟨hhead, htail⟩ := List.pairwise_cons.1 hasc
      obtain ⟨k, v⟩ := entry
      rcases List.mem_cons.1 hmem with heq | hrest
      · cases heq
        simp
      · have hne : key ≠ k := fun h => String.lt_irrefl k (by simpa [h] using hhead _ hrest)
        rw [lookup_cons_of_ne hne]
        exact ih htail hrest

/-- The keys of an ascending list are distinct. -/
theorem Ascending.nodup_keys {entries : List (String × α)} (hasc : Ascending entries) :
    (entries.map (·.1)).Nodup := by
  refine List.pairwise_map.2 (hasc.imp fun hlt heq => ?_)
  exact String.lt_irrefl _ (heq ▸ hlt)

/-- A change of the values alone is seen by every look-up. -/
theorem lookup_map_value (f : α → β) (entries : List (String × α)) (key : String) :
    (entries.map fun (k, v) => (k, f v)).lookup key = (entries.lookup key).map f := by
  induction entries with
  | nil => rfl
  | cons entry rest ih =>
      obtain ⟨k, v⟩ := entry
      rw [List.map_cons, List.lookup_cons, List.lookup_cons]
      cases key == k with
      | true => rfl
      | false => exact ih

/-- A change of the values alone keeps the order of the keys. -/
theorem Ascending.map_value {entries : List (String × α)} (hasc : Ascending entries)
    (f : α → β) : Ascending (entries.map fun (k, v) => (k, f v)) :=
  List.pairwise_map.2 hasc

/-- The second of two values for one key counts. -/
theorem insert_insert (key : String) (first second : α) (entries : List (String × α)) :
    insert key second (insert key first entries) = insert key second entries := by
  induction entries with
  | nil => simp [insert]
  | cons entry rest ih =>
      obtain ⟨k, v⟩ := entry
      simp only [insert]
      split
      · simp [insert]
      · split
        · simp [insert]
        · rename_i hlt hne
          simp [insert, hlt, hne, ih]

/-- An entry more at most. -/
theorem length_insert_le (key : String) (value : α) (entries : List (String × α)) :
    (insert key value entries).length ≤ entries.length + 1 := by
  induction entries with
  | nil => exact Nat.le_refl _
  | cons entry rest ih =>
      simp only [insert]
      split
      · exact Nat.le_refl _
      · split
        · exact Nat.le_succ _
        · exact Nat.succ_le_succ ih

/-- Erasing a key that is not bound changes nothing. -/
theorem erase_eq_self {key : String} {entries : List (String × α)}
    (h : entries.lookup key = none) : erase key entries = entries := by
  refine List.filter_eq_self.2 fun e he => ?_
  have hne : e.1 ≠ key := fun heq =>
    lookup_eq_none_iff.1 h (List.mem_map.2 ⟨e, he, heq⟩)
  simpa using hne

/-- Binding a key to the value that it has changes nothing. -/
theorem Ascending.insert_eq_self {entries : List (String × α)} (hasc : Ascending entries)
    {key : String} {value : α} (h : entries.lookup key = some value) :
    Entries.insert key value entries = entries := by
  refine Ascending.ext (hasc.insert key value) hasc fun k => ?_
  rw [lookup_insert]
  split
  · rename_i heq
    rw [heq, h]
  · rfl

/-- The entries in which a key is bound to a value or to nothing. -/
def assign (key : String) (value : Option α) (entries : List (String × α)) : List (String × α) :=
  match value with
  | some v => insert key v entries
  | none => erase key entries

theorem lookup_assign (key k : String) (value : Option α) (entries : List (String × α)) :
    (assign key value entries).lookup k = if k = key then value else entries.lookup k := by
  cases value with
  | some v => exact lookup_insert key k v entries
  | none => exact lookup_erase key k entries

theorem Ascending.assign {entries : List (String × α)} (hasc : Ascending entries) (key : String)
    (value : Option α) : Ascending (Entries.assign key value entries) := by
  cases value with
  | some v => exact hasc.insert key v
  | none => exact hasc.erase key

/-- Binding a key to what it is bound to changes nothing. -/
theorem Ascending.assign_eq_self {entries : List (String × α)} (hasc : Ascending entries)
    {key : String} {value : Option α} (h : entries.lookup key = value) :
    Entries.assign key value entries = entries := by
  cases value with
  | some v => exact hasc.insert_eq_self h
  | none => exact erase_eq_self h

end Entries

namespace Dict

variable {α : Type}

/-- The entries of a dictionary are its bindings. -/
theorem mem_entries_iff {d : Dict α} {key : String} {value : α} :
    (key, value) ∈ d.entries ↔ d.get? key = some value :=
  d.ascending.lookup_eq_some_iff.symm

/-- A key is listed exactly if it is bound. -/
theorem mem_keys_iff {d : Dict α} {key : String} : key ∈ d.keys ↔ (d.get? key).isSome := by
  rw [keys, ← Option.ne_none_iff_isSome, get?, Ne, Entries.lookup_eq_none_iff, not_not]

@[simp]
theorem contains_eq {d : Dict α} {key : String} : d.contains key = (d.get? key).isSome := rfl

theorem isEmpty_iff {d : Dict α} : d.isEmpty = true ↔ d = empty := by
  obtain ⟨entries, hasc⟩ := d
  cases entries with
  | nil => exact ⟨fun _ => rfl, fun _ => rfl⟩
  | cons entry rest => exact ⟨fun h => (nomatch h), fun h => (nomatch congrArg Dict.entries h)⟩

/-- Entries inserted one after another bind what the last of them says. -/
theorem get?_foldl_insert (entries : List (String × α)) (d : Dict α) (key : String) :
    (entries.foldl (fun d (k, v) => d.insert k v) d).get? key =
      ((entries.reverse).lookup key).or (d.get? key) := by
  induction entries generalizing d with
  | nil => simp
  | cons entry rest ih =>
      obtain ⟨k, v⟩ := entry
      rw [List.foldl_cons, ih, get?_insert, List.reverse_cons, List.lookup_append]
      by_cases hk : key = k
      · simp [hk]
      · rw [if_neg hk, Entries.lookup_cons_of_ne hk, List.lookup_nil, Option.or_none]

theorem get?_ofList (entries : List (String × α)) (key : String) :
    (ofList entries).get? key = (entries.reverse).lookup key := by
  simp [ofList, get?_foldl_insert]

/-- A dictionary has no more entries than the list that it was made of. -/
theorem length_ofList_le (entries : List (String × α)) :
    (ofList entries).entries.length ≤ entries.length := by
  have hfold : ∀ d : Dict α, (entries.foldl (fun d (k, v) => d.insert k v) d).entries.length ≤
      d.entries.length + entries.length := by
    induction entries with
    | nil => exact fun d => Nat.le_refl _
    | cons entry rest ih =>
        obtain ⟨k, v⟩ := entry
        intro d
        have hrest := ih (d.insert k v)
        have hinsert : (d.insert k v).entries.length ≤ d.entries.length + 1 :=
          Entries.length_insert_le _ _ _
        exact Nat.le_trans hrest (by rw [List.length_cons]; omega)
  exact Nat.le_trans (hfold empty) (Nat.le_of_eq (Nat.zero_add _))

/-- Entries that agree on every key bind what they say. -/
theorem get?_ofList_of_mem_iff {entries : List (String × α)} {f : String → Option α}
    (h : ∀ k v, (k, v) ∈ entries ↔ f k = some v) (key : String) :
    (ofList entries).get? key = f key := by
  rw [get?_ofList]
  cases hlookup : (entries.reverse).lookup key with
  | some value =>
      have hmem := Entries.mem_of_lookup_eq_some hlookup
      exact ((h key value).1 (List.mem_reverse.1 hmem)).symm
  | none =>
      cases hf : f key with
      | none => rfl
      | some value =>
          have hmem := List.mem_reverse.2 ((h key value).2 hf)
          exact absurd (List.mem_map.2 ⟨_, hmem, rfl⟩) (Entries.lookup_eq_none_iff.1 hlookup)

/-- The entries of a dictionary make it again. -/
@[simp]
theorem ofList_entries (d : Dict α) : ofList d.entries = d :=
  ext_get? fun key => get?_ofList_of_mem_iff (fun _ _ => mem_entries_iff) key

/-- The second dictionary wins where both bind a key. -/
theorem get?_union (d e : Dict α) (key : String) :
    (d.union e).get? key = (e.get? key).or (d.get? key) := by
  rw [union, get?_foldl_insert, ← get?_ofList, ofList_entries]

theorem get?_filter (p : String → α → Bool) (d : Dict α) (key : String) :
    (d.filter p).get? key = (d.get? key).filter (p key) := by
  cases h : d.get? key with
  | none =>
      refine Entries.lookup_eq_none_iff.2 fun hmem => ?_
      obtain ⟨e, he, rfl⟩ := List.mem_map.1 hmem
      have hget := mem_entries_iff.1 (List.mem_filter.1 he).1
      simp [h] at hget
  | some value =>
      cases hp : p key value with
      | true =>
          have hmem : (key, value) ∈ (d.filter p).entries :=
            List.mem_filter.2 ⟨mem_entries_iff.2 h, hp⟩
          rw [Option.filter_some, hp, if_pos rfl]
          exact mem_entries_iff.1 hmem
      | false =>
          rw [Option.filter_some, hp, if_neg Bool.false_ne_true]
          refine Entries.lookup_eq_none_iff.2 fun hmem => ?_
          obtain ⟨⟨k, v⟩, he, rfl⟩ := List.mem_map.1 hmem
          obtain ⟨hentry, hkeep⟩ := List.mem_filter.1 he
          have hget := mem_entries_iff.1 hentry
          rw [h, Option.some.injEq] at hget
          subst hget
          exact Bool.false_ne_true (hp.symm.trans hkeep)

theorem union_self (d : Dict α) : d.union d = d := by
  refine ext_get? fun key => ?_
  rw [get?_union]
  cases d.get? key with
  | none => rfl
  | some value => rfl

/-- A filter that keeps every key of a dictionary changes nothing. -/
theorem filter_eq_self {p : String → α → Bool} {d : Dict α}
    (h : ∀ key, (d.get? key).isSome → ∀ value, p key value = true) : d.filter p = d := by
  refine ext_get? fun key => ?_
  rw [get?_filter]
  cases hkey : d.get? key with
  | none => rfl
  | some value =>
      have hkeep : p key value = true := h key (by rw [hkey]; rfl) value
      rw [Option.filter_some, if_pos hkeep]

end Dict

end Reconcile
