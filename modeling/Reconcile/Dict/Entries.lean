/-!
# Key-ordered entry lists

A list of entries is a list of pairs of a key and a value. `insert` keeps ascending keys
ascending and replaces the value of a key that is already there, and `erase` removes a key. The
lemmas describe both through `List.lookup`, and `Ascending.ext` says that ascending entry lists
with the same lookups are equal.
-/

namespace Reconcile.Entries

variable {α β : Type}

/-- The entries with `key` bound to `value`, in the place that the order of keys gives it. -/
def insert (key : String) (value : α) : List (String × α) → List (String × α)
  | [] => [(key, value)]
  | (k, v) :: rest =>
    if key < k then (key, value) :: (k, v) :: rest
    else if key = k then (key, value) :: rest
    else (k, v) :: insert key value rest

/-- The entries without those of `key`. -/
def erase (key : String) (entries : List (String × α)) : List (String × α) :=
  entries.filter (·.1 ≠ key)

/-- The keys ascend strictly, so no key occurs twice. -/
def Ascending (entries : List (String × α)) : Prop :=
  entries.Pairwise fun a b => a.1 < b.1

instance (entries : List (String × α)) : Decidable (Ascending entries) :=
  inferInstanceAs (Decidable (List.Pairwise _ _))

theorem eq_of_not_lt {a b : String} (hab : ¬ a < b) (hba : ¬ b < a) : a = b :=
  String.le_antisymm (String.not_lt.1 hba) (String.not_lt.1 hab)

/-- The first entry does not count for another key. -/
theorem lookup_cons_of_ne {κ : Type} [BEq κ] [LawfulBEq κ] {key k : κ} {value : α}
    {entries : List (κ × α)} (hne : k ≠ key) :
    ((key, value) :: entries).lookup k = entries.lookup k := by
  rw [List.lookup_cons, beq_eq_false_iff_ne.2 hne]

/-- An insertion sets its key and no other one. -/
theorem lookup_insert (key k : String) (value : α) (entries : List (String × α)) :
    (insert key value entries).lookup k = if k = key then some value else entries.lookup k := by
  induction entries with
  | nil =>
    by_cases hk : k = key
    · simp [insert, hk]
    · simp [insert, lookup_cons_of_ne hk, hk]
  | cons entry rest ih =>
    obtain ⟨k', v'⟩ := entry
    simp only [insert]
    split
    · by_cases hk : k = key
      · simp [hk]
      · rw [lookup_cons_of_ne hk, if_neg hk]
    · split
      · rename_i _ heq
        by_cases hk : k = key
        · simp [hk]
        · have hk' : k ≠ k' := heq ▸ hk
          rw [lookup_cons_of_ne hk, lookup_cons_of_ne hk', if_neg hk]
      · rename_i _ hne
        by_cases hk' : k = k'
        · have hk : k ≠ key := fun h => hne (h ▸ hk' ▸ rfl)
          simp [hk', show ¬ k' = key from fun h => hne h.symm]
        · rw [lookup_cons_of_ne hk', lookup_cons_of_ne hk', ih]

/-- Erasing a key removes its entries and no other ones. -/
theorem lookup_erase (key k : String) (entries : List (String × α)) :
    (erase key entries).lookup k = if k = key then none else entries.lookup k := by
  induction entries with
  | nil => simp [erase]
  | cons entry rest ih =>
    obtain ⟨k', v'⟩ := entry
    simp only [erase, List.filter_cons] at ih ⊢
    by_cases hkey : k' = key
    · subst hkey
      simp only [ne_eq, decide_not, decide_true, Bool.not_true, Bool.false_eq_true,
        ↓reduceIte] at ih ⊢
      rw [ih]
      by_cases hk : k = k'
      · simp [hk]
      · rw [lookup_cons_of_ne hk]
    · simp only [ne_eq, hkey, not_false_eq_true, decide_true, ↓reduceIte] at ih ⊢
      by_cases hk : k = k'
      · subst hk
        simp [hkey]
      · rw [lookup_cons_of_ne hk, lookup_cons_of_ne hk]
        exact ih

/-- A key after an insertion is the new one, or was there before. -/
theorem mem_insert_key {key k : String} {value v : α} {entries : List (String × α)}
    (hmem : (k, v) ∈ insert key value entries) : k = key ∨ ∃ v', (k, v') ∈ entries := by
  induction entries with
  | nil => simp_all [insert]
  | cons entry rest ih =>
    obtain ⟨k', v'⟩ := entry
    simp only [insert] at hmem
    split at hmem
    · simp only [List.mem_cons, Prod.mk.injEq] at hmem ⊢
      rcases hmem with ⟨rfl, _⟩ | ⟨rfl, rfl⟩ | hrest
      · exact .inl rfl
      · exact .inr ⟨v, .inl ⟨rfl, rfl⟩⟩
      · exact .inr ⟨v, .inr hrest⟩
    · split at hmem
      · simp only [List.mem_cons, Prod.mk.injEq] at hmem ⊢
        rcases hmem with ⟨rfl, _⟩ | hrest
        · exact .inl rfl
        · exact .inr ⟨v, .inr hrest⟩
      · simp only [List.mem_cons, Prod.mk.injEq] at hmem ⊢
        rcases hmem with ⟨rfl, rfl⟩ | hrest
        · exact .inr ⟨v, .inl ⟨rfl, rfl⟩⟩
        · rcases ih hrest with hkey | ⟨w, hw⟩
          · exact .inl hkey
          · exact .inr ⟨w, .inr hw⟩

/-- An insertion keeps the keys ascending. -/
theorem Ascending.insert {entries : List (String × α)} (hasc : Ascending entries) (key : String)
    (value : α) : Ascending (insert key value entries) := by
  induction entries with
  | nil => simp [Entries.insert, Ascending]
  | cons entry rest ih =>
    obtain ⟨k', v'⟩ := entry
    obtain ⟨hhead, htail⟩ := List.pairwise_cons.1 hasc
    simp only [Entries.insert]
    split
    · rename_i hlt
      refine List.pairwise_cons.2 ⟨fun e he => ?_, hasc⟩
      rcases List.mem_cons.1 he with rfl | he
      · exact hlt
      · exact String.lt_trans hlt (hhead e he)
    · rename_i hnlt
      split
      · rename_i heq
        exact List.pairwise_cons.2 ⟨fun e he => heq ▸ hhead e he, htail⟩
      · rename_i hne
        refine List.pairwise_cons.2 ⟨fun e he => ?_, ih htail⟩
        obtain ⟨k, v⟩ := e
        rcases mem_insert_key he with rfl | ⟨w, hw⟩
        · exact Classical.byContradiction fun hge => hne (eq_of_not_lt hnlt hge)
        · exact hhead (k, w) hw

/-- Erasing a key keeps the keys ascending. -/
theorem Ascending.erase {entries : List (String × α)} (hasc : Ascending entries) (key : String) :
    Ascending (erase key entries) :=
  List.Pairwise.filter _ hasc

/-- A selection of the entries keeps the keys ascending. -/
theorem Ascending.filter {entries : List (String × α)} (hasc : Ascending entries)
    (p : String × α → Bool) : Ascending (entries.filter p) :=
  List.Pairwise.filter _ hasc

/-- A key before all others is not there. -/
theorem Ascending.lookup_eq_none_of_lt {entries : List (String × α)} {key : String}
    (hlt : ∀ e ∈ entries, key < e.1) : entries.lookup key = none := by
  induction entries with
  | nil => rfl
  | cons entry rest ih =>
    have hne : key ≠ entry.1 := fun h =>
      String.lt_irrefl key (by have := hlt entry List.mem_cons_self; rwa [← h] at this)
    obtain ⟨k, v⟩ := entry
    rw [lookup_cons_of_ne hne]
    exact ih fun e he => hlt e (List.mem_cons_of_mem _ he)

/-- Ascending entries with the same lookups are equal. -/
theorem Ascending.ext {xs ys : List (String × α)} (hxs : Ascending xs) (hys : Ascending ys)
    (hlookup : ∀ k, xs.lookup k = ys.lookup k) : xs = ys := by
  induction xs generalizing ys with
  | nil =>
    cases ys with
    | nil => rfl
    | cons y ys => have := (hlookup y.1).symm; simp at this
  | cons x xs ih =>
    cases ys with
    | nil => have := hlookup x.1; simp at this
    | cons y ys =>
      obtain ⟨hx, hxs'⟩ := List.pairwise_cons.1 hxs
      obtain ⟨hy, hys'⟩ := List.pairwise_cons.1 hys
      obtain ⟨kx, vx⟩ := x
      obtain ⟨ky, vy⟩ := y
      have hkey : kx = ky := by
        refine eq_of_not_lt (fun hlt => ?_) (fun hlt => ?_)
        · have hnone : ((ky, vy) :: ys).lookup kx = none :=
            lookup_eq_none_of_lt fun e he => by
              rcases List.mem_cons.1 he with rfl | he
              · exact hlt
              · exact String.lt_trans hlt (hy e he)
          rw [← hlookup] at hnone
          simp at hnone
        · have hnone : ((kx, vx) :: xs).lookup ky = none :=
            lookup_eq_none_of_lt fun e he => by
              rcases List.mem_cons.1 he with rfl | he
              · exact hlt
              · exact String.lt_trans hlt (hx e he)
          rw [hlookup] at hnone
          simp at hnone
      subst hkey
      have hval : vx = vy := by have := hlookup kx; simpa [List.lookup_cons] using this
      subst hval
      refine congrArg _ (ih hxs' hys' fun k => ?_)
      by_cases hk : k = kx
      · subst hk
        rw [lookup_eq_none_of_lt hx, lookup_eq_none_of_lt hy]
      · have := hlookup k
        rwa [lookup_cons_of_ne hk, lookup_cons_of_ne hk] at this

end Reconcile.Entries
