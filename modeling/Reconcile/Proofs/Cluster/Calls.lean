import Mathlib.Data.List.Basic
import Reconcile.Cluster.Fault
import Reconcile.Cluster.Memory
import Reconcile.Proofs.Json.Patches

/-!
# What calls do to a cluster in memory

Each call of the control API of a cluster in memory either fails and leaves the objects as they
are, or changes the one object that it is for. There is one lemma for each call that says all that
it can do.
-/

namespace Reconcile

/-- A faulty call fails before the cluster sees it, or it is the call. -/
theorem Fault.guard_cases {σ β : Type} (call : CallKind) (send : σ → Except Failure β × σ)
    (world : List Fault × σ) :
    (∃ failure faults, guard call send world = (.error failure, (faults, world.2))) ∨
      ∃ faults, guard call send world = ((send world.2).1, (faults, (send world.2).2)) := by
  unfold guard
  split
  · rename_i failure faults hconsult
    exact .inl ⟨failure, faults, rfl⟩
  · rename_i faults hconsult
    exact .inr ⟨faults, rfl⟩

/-- The entry of a key in a list without the entries of another one. -/
theorem lookup_filter_ne {α : Type} (entries : List ((String × String) × α))
    (key k : String × String) :
    (entries.filter (·.1 ≠ key)).lookup k = if k = key then none else entries.lookup k := by
  induction entries with
  | nil => simp
  | cons entry rest ih =>
      obtain ⟨first, value⟩ := entry
      by_cases hfirst : first = key
      · rw [List.filter_cons_of_neg (by simpa using hfirst), ih]
        by_cases hk : k = key
        · rw [if_pos hk, if_pos hk]
        · rw [if_neg hk, if_neg hk, Entries.lookup_cons_of_ne (hfirst ▸ hk)]
      · rw [List.filter_cons_of_pos (by simpa using hfirst)]
        by_cases hk : k = key
        · have hne : k ≠ first := fun heq => hfirst (heq.symm.trans hk)
          rw [Entries.lookup_cons_of_ne hne, ih, if_pos hk, if_pos hk]
        · rw [if_neg hk, List.lookup_cons, List.lookup_cons, ih, if_neg hk]

namespace Memory

variable {α : Type} {m : Memory α} {ns name : String}

theorem find?_insert (m : Memory α) (ns name ns' name' : String) (object : α) :
    (m.insert ns name object).find? ns' name' =
      if (ns', name') = (ns, name) then some object else m.find? ns' name' := by
  show List.lookup (ns', name') (((ns, name), object) :: m.objects.filter (·.1 ≠ (ns, name))) = _
  by_cases hkey : (ns', name') = (ns, name)
  · rw [hkey, List.lookup_cons_self, if_pos rfl]
  · rw [Entries.lookup_cons_of_ne hkey, lookup_filter_ne, if_neg hkey, if_neg hkey]
    rfl

/-- The second state has the objects of the first one and reacts in the same way. -/
structure Agrees (m after : Memory α) : Prop where
  objects : after.objects = m.objects
  reaction : after.reaction = m.reaction

theorem Agrees.find? {after : Memory α} (h : m.Agrees after) (ns name : String) :
    after.find? ns name = m.find? ns name := by
  rw [Memory.find?, h.objects]
  rfl

/-- A reading fails, or it answers with what the reaction makes of the object. -/
theorem get_cases (kind : Kind α) (ns name : String) (m : Memory α) :
    (∃ failure after, get kind ns name m = (.error failure, after) ∧ m.Agrees after) ∨
      ∃ object after, m.find? ns name = some object ∧
        get kind ns name m = (.ok (m.reaction.apply object).1, after) ∧
        after.objects = (m.insert ns name (m.reaction.apply object).1).objects ∧
        after.reaction = (m.reaction.apply object).2 := by
  simp only [get]
  split
  · rename_i failure _
    exact .inl ⟨failure, _, rfl, rfl, rfl⟩
  · split
    · exact .inl ⟨_, _, rfl, rfl, rfl⟩
    · rename_i object hfind
      exact .inr ⟨object, _, hfind, rfl, rfl, rfl⟩

/-- The metadata of a new object. -/
def issued (ns name : String) (serial : Nat) (m : ObjectMeta) : ObjectMeta :=
  { m with
    name := some name
    ns := some ns
    uid := some ("mock-uid-" ++ toString serial)
    resourceVersion := some (toString serial)
    generation := some 1 }

/-- A creation fails, or it adds the object under a name that was free. -/
theorem create_cases (kind : Kind α) (ns : String) (object : α) (m : Memory α) :
    (∃ failure after, create kind ns object m = (.error failure, after) ∧ m.Agrees after) ∨
      ∃ name created after, m.find? ns name = none ∧
        created = kind.withMetadata object (issued ns name (m.serial + 1) (kind.metadata object)) ∧
        create kind ns object m = (.ok created, after) ∧
        after.objects = (m.insert ns name created).objects ∧ after.reaction = m.reaction := by
  simp only [create]
  split
  · rename_i failure _
    exact .inl ⟨failure, _, rfl, rfl, rfl⟩
  · split
    · exact .inl ⟨_, _, rfl, rfl, rfl⟩
    · rename_i hfree
      exact .inr ⟨_, _, _, Option.not_isSome_iff_eq_none.1 hfree, rfl, rfl, rfl, rfl⟩

/-- The metadata of a changed object. -/
def revised (serial : Nat) (m : ObjectMeta) : ObjectMeta :=
  { m with
    generation := some (m.generation.getD 0 + 1)
    resourceVersion := some (toString serial) }

/-- A patch fails, or it replaces the object by what the document makes of it. -/
theorem patch_cases (kind : Kind α) (ns name : String) (document : Json) (m : Memory α) :
    (∃ failure after, patch kind ns name document m = (.error failure, after) ∧ m.Agrees after) ∨
      ∃ object changed stored after, m.find? ns name = some object ∧
        patched kind object document = .ok changed ∧
        stored = kind.withMetadata changed (revised (m.serial + 1) (kind.metadata changed)) ∧
        patch kind ns name document m = (.ok stored, after) ∧
        after.objects = (m.insert ns name stored).objects ∧ after.reaction = m.reaction := by
  simp only [patch]
  split
  · rename_i failure _
    exact .inl ⟨failure, _, rfl, rfl, rfl⟩
  · split
    · exact .inl ⟨_, _, rfl, rfl, rfl⟩
    · rename_i object hfind
      split
      · exact .inl ⟨_, _, rfl, rfl, rfl⟩
      · rename_i changed hpatched
        exact .inr ⟨object, changed, _, _, hfind, hpatched, rfl, rfl, rfl, rfl⟩

/-- A deletion fails, or it removes the object. -/
theorem delete_cases (kind : Kind α) (ns name : String) (propagation : Propagation)
    (m : Memory α) :
    (∃ failure after, delete kind ns name propagation m = (.error failure, after) ∧
        m.Agrees after) ∨
      ∃ after, delete kind ns name propagation m = (.ok (), after) ∧
        after.objects = (m.erase ns name).objects ∧ after.reaction = m.reaction := by
  simp only [delete]
  split
  · rename_i failure _
    exact .inl ⟨failure, _, rfl, rfl, rfl⟩
  · split
    · exact .inl ⟨_, _, rfl, rfl, rfl⟩
    · exact .inr ⟨_, rfl, rfl, rfl⟩

/-- Edits make of an object what is read from the document that they leave of its wire form. -/
theorem patched_edits_eq_ok_iff {kind : Kind α} {object changed : α} {edits : List Json.Edit} :
    patched kind object (Json.Edit.listToJson edits) = .ok changed ↔
      ∃ document, Json.Edit.performAll? edits (kind.toJson object) = some document ∧
        kind.ofJson? document = some changed := by
  unfold patched
  rw [Json.Operation.listOfJson?_listToJson]
  simp only [Steps.pure_eq_ok, Steps.bind_ok]
  -- A patch document fails where its edits cannot be performed, or where nothing is read back.
  cases happly : Json.Operation.applyAll (edits.map .edit) (kind.toJson object) with
  | error failure =>
      have hnone : ∀ document,
          Json.Edit.performAll? edits (kind.toJson object) ≠ some document := by
        intro document hperform
        rw [Json.Operation.applyAll_edits_eq_ok_iff.2 hperform] at happly
        cases happly
      constructor
      · exact fun h => nomatch h
      · rintro ⟨document, hperform, _⟩
        exact absurd hperform (hnone document)
  | ok document =>
      have hperform := Json.Operation.applyAll_edits_eq_ok_iff.1 happly
      rw [hperform]
      dsimp only
      cases hread : kind.ofJson? document with
      | none =>
          constructor
          · exact fun h => nomatch h
          · rintro ⟨_, ⟨⟩, hsome⟩
            rw [hread] at hsome
            cases hsome
      | some read =>
          constructor
          · rintro ⟨⟩
            exact ⟨document, rfl, hread⟩
          · rintro ⟨_, ⟨⟩, hsome⟩
            rw [hread] at hsome
            cases hsome
            rfl

end Memory

end Reconcile
