import Mathlib.Data.List.Basic
import Mathlib.Data.List.Forall2

/-!
# Steps that can fail

A computation that stops at its first failure succeeds exactly if each of its steps does.
`bind_eq_ok_iff` takes two steps apart and `mapM_eq_ok_iff` the steps of a list. Steps that also
change a state go on from the one that the last of them has left (`run_bind`).
-/

namespace Reconcile.Steps

variable {α β ε : Type}

@[simp]
theorem bind_ok (a : α) (f : α → Except ε β) : (Except.ok a >>= f) = f a := rfl

@[simp]
theorem bind_error (e : ε) (f : α → Except ε β) : (Except.error e >>= f) = Except.error e := rfl

@[simp]
theorem pure_eq_ok (a : α) : (pure a : Except ε α) = Except.ok a := rfl

theorem exists_of_isOk {x : Except ε α} (h : x.isOk = true) : ∃ a, x = .ok a := by
  cases x with
  | error e => cases h
  | ok a => exact ⟨a, rfl⟩

/-- Two steps succeed if the first one does and then the second one. -/
theorem bind_eq_ok_iff {x : Except ε α} {f : α → Except ε β} {b : β} :
    (x >>= f) = .ok b ↔ ∃ a, x = .ok a ∧ f a = .ok b := by
  cases x with
  | error e => simp
  | ok a => simp

/-- Two steps fail if the first one does, or the second one after it. -/
theorem bind_eq_error_iff {x : Except ε α} {f : α → Except ε β} {e : ε} :
    (x >>= f) = .error e ↔ x = .error e ∨ ∃ a, x = .ok a ∧ f a = .error e := by
  cases x with
  | error e => simp
  | ok a => simp

/-- A result that is only changed was there before. -/
theorem map_eq_ok_iff {x : Except ε α} {f : α → β} {b : β} :
    x.map f = .ok b ↔ ∃ a, x = .ok a ∧ f a = b := by
  cases x with
  | error e => simp [Except.map]
  | ok a => simp [Except.map]

/-- A result is not changed where only failures are. -/
theorem mapError_eq_ok_iff {ε' : Type} {x : Except ε α} {f : ε → ε'} {a : α} :
    x.mapError f = .ok a ↔ x = .ok a := by
  cases x with
  | error e => simp [Except.mapError]
  | ok b => simp [Except.mapError]

/-- The steps of a list succeed if each of them does. -/
theorem mapM_eq_ok_iff {f : α → Except ε β} {xs : List α} {ys : List β} :
    xs.mapM f = .ok ys ↔ List.Forall₂ (fun x y => f x = .ok y) xs ys := by
  induction xs generalizing ys with
  | nil =>
      rw [List.mapM_nil, pure_eq_ok, List.forall₂_nil_left_iff, Except.ok.injEq, eq_comm]
  | cons x xs ih =>
      rw [List.mapM_cons, bind_eq_ok_iff, List.forall₂_cons_left_iff]
      refine exists_congr fun y => ?_
      rw [bind_eq_ok_iff]
      constructor
      · rintro ⟨hx, rest, hrest, heq⟩
        exact ⟨rest, hx, ih.1 hrest, (Except.ok.inj heq).symm⟩
      · rintro ⟨rest, hx, hrest, rfl⟩
        exact ⟨hx, rest, ih.2 hrest, rfl⟩

/-- The steps of a list have results if each of them has one. -/
theorem exists_mapM {f : α → Except ε β} {xs : List α} (h : ∀ x ∈ xs, ∃ y, f x = .ok y) :
    ∃ ys, xs.mapM f = .ok ys := by
  induction xs with
  | nil => exact ⟨[], rfl⟩
  | cons x xs ih =>
      obtain ⟨y, hy⟩ := h x List.mem_cons_self
      obtain ⟨ys, hys⟩ := ih fun z hz => h z (List.mem_cons_of_mem _ hz)
      exact ⟨y :: ys, mapM_eq_ok_iff.2 (.cons hy (mapM_eq_ok_iff.1 hys))⟩

/-- Every result of the steps of a list is the result of one of them. -/
theorem exists_of_mem_mapM {f : α → Except ε β} {xs : List α} {ys : List β}
    (h : xs.mapM f = .ok ys) {y : β} (hy : y ∈ ys) : ∃ x ∈ xs, f x = .ok y := by
  have hall := mapM_eq_ok_iff.1 h
  clear h
  induction hall with
  | nil => cases hy
  | cons hx _ ih =>
      rcases List.mem_cons.1 hy with rfl | hmem
      · exact ⟨_, List.mem_cons_self, hx⟩
      · obtain ⟨x, hmem, hx⟩ := ih hmem
        exact ⟨x, List.mem_cons_of_mem _ hmem, hx⟩

/-- A computation that succeeds at every index gives the list of its results. -/
theorem mapM_range {f : Nat → Except ε α} {items : List α}
    (h : ∀ (i : Nat) (item : α), items[i]? = some item → f i = .ok item) :
    (List.range items.length).mapM f = .ok items := by
  rw [mapM_eq_ok_iff, List.forall₂_iff_get]
  refine ⟨List.length_range, fun i hi hitem => ?_⟩
  rw [List.get_eq_getElem, List.getElem_range]
  exact h i _ (List.getElem?_eq_getElem hitem)

/-- What was written item by item is read item by item. -/
theorem mapM_map_eq_some {encode : α → β} {decode : β → Option α} {items : List α}
    (h : ∀ item ∈ items, decode (encode item) = some item) :
    (items.map encode).mapM decode = some items := by
  induction items with
  | nil => rfl
  | cons item items ih =>
      rw [List.map_cons, List.mapM_cons, h item List.mem_cons_self,
        ih fun x hx => h x (List.mem_cons_of_mem _ hx)]
      rfl

/-- Of two steps on a state the second one goes on from where the first one has ended, unless that
one has failed. -/
theorem run_bind {σ : Type} {first : ExceptT ε (StateM σ) α} {next : α → ExceptT ε (StateM σ) β}
    {s : σ} : (first >>= next).run s =
      match first.run s with
      | (.ok value, after) => (next value).run after
      | (.error e, after) => (.error e, after) := by
  show ExceptT.bindCont next (first.run s).1 (first.run s).2 = _
  obtain ⟨result, after⟩ := first.run s
  cases result with
  | ok value => rfl
  | error e => rfl

theorem run_bind_of_ok {σ : Type} {first : ExceptT ε (StateM σ) α}
    {next : α → ExceptT ε (StateM σ) β} {s after : σ} {value : α}
    (h : first.run s = (.ok value, after)) : (first >>= next).run s = (next value).run after := by
  rw [run_bind, h]

end Reconcile.Steps
