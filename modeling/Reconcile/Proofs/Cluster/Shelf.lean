import Reconcile.Cluster.Memory
import Reconcile.Proofs.Cluster.Faithful
import Reconcile.Proofs.Kind.Managed

/-!
# A shelf of objects

A shelf is a small cluster. It keeps the wire forms of objects of all kinds by their places, and it
has outages, in which a call fails before it reaches the shelf. `Shelf.faithful` says that its
answers are true whenever there are outages.
-/

namespace Reconcile

/-- The wire forms of objects by their places, and which of the next calls fail. -/
structure Shelf where
  objects : List (Place × Json)
  /-- Whether there is an outage at each of the next calls; after them there is none. -/
  outages : List Bool

namespace Shelf

variable {α β : Type} {kind : Kind α} {root key : String}

/-- The places that hold an object. -/
def held (shelf : Shelf) : Set Place := { place | place ∈ shelf.objects.map (·.1) }

theorem mem_held {shelf : Shelf} {place : Place} :
    place ∈ held shelf ↔ place ∈ shelf.objects.map (·.1) := Iff.rfl

/-- A shelf without objects holds none, whatever outages come. -/
theorem held_eq_empty (outages : List Bool) : held ⟨[], outages⟩ = ∅ :=
  Set.eq_empty_of_forall_notMem fun _ hplace => nomatch hplace

/-- A call that an outage may keep from the shelf. -/
def guard (kind : Kind α) (call : CallKind) (send : Shelf → Except Failure β × Shelf)
    (shelf : Shelf) : Except Failure β × Shelf :=
  let reached := { shelf with outages := shelf.outages.tail }
  if shelf.outages.head? = some true then
    (.error (.callFailed call kind.name .unreachable), reached)
  else send reached

/-- Put a new object on the shelf. -/
def create (kind : Kind α) (ns : String) (object : α) (shelf : Shelf) :
    Except Failure α × Shelf :=
  let name := (kind.metadata object).name.getD ""
  if (shelf.objects.lookup ⟨kind.name, ns, name⟩).isSome then
    (.error (.callFailed .create kind.name (.alreadyExists (Identity.join ns name))), shelf)
  else
    let created := kind.withMetadata object { kind.metadata object with ns := some ns }
    (.ok created,
      { shelf with objects := (⟨kind.name, ns, name⟩, kind.toJson created) :: shelf.objects })

/-- Read an object. -/
def get (kind : Kind α) (ns name : String) (shelf : Shelf) : Except Failure α × Shelf :=
  match shelf.objects.lookup ⟨kind.name, ns, name⟩ with
  | none => (.error (Memory.absent kind ns name), shelf)
  | some value =>
    match kind.ofJson? value with
    | some object => (.ok object, shelf)
    | none => (.error (.callFailed .get kind.name .undecodable), shelf)

/-- Change an object by a patch document. -/
def patch (kind : Kind α) (ns name : String) (document : Json) (shelf : Shelf) :
    Except Failure α × Shelf :=
  match (get kind ns name shelf).1 with
  | .error failure => (.error failure, shelf)
  | .ok object =>
    match Memory.patched kind object document with
    | .error failure => (.error failure, shelf)
    | .ok changed =>
      (.ok changed, { shelf with
        objects := shelf.objects.map fun (place, value) =>
          (place, if place = ⟨kind.name, ns, name⟩ then kind.toJson changed else value) })

/-- Take an object from the shelf. -/
def delete (kind : Kind α) (ns name : String) (shelf : Shelf) : Except Failure Unit × Shelf :=
  if (shelf.objects.lookup ⟨kind.name, ns, name⟩).isSome then
    (.ok (), { shelf with objects := shelf.objects.filter (·.1 ≠ ⟨kind.name, ns, name⟩) })
  else (.error (Memory.absent kind ns name), shelf)

/-- The control API of a shelf. -/
def api (kind : Kind α) : ControlApi α Shelf where
  create ns object := guard kind .create (create kind ns object)
  get ns name := guard kind .get (get kind ns name)
  patch ns name document := guard kind .patch (patch kind ns name document)
  delete ns name _ := guard kind .delete (delete kind ns name)

/-- The cluster of a shelf. -/
def cluster : Cluster Shelf := ⟨api Deployment.kind, api Role.kind⟩

/-- A call comes to what an outage makes of it or to what the shelf does. -/
theorem guard_induction {call : CallKind} {send : Shelf → Except Failure β × Shelf}
    {P : Except Failure β × Shelf → Prop} (shelf : Shelf)
    (houtage : ∀ outages,
      P (.error (.callFailed call kind.name .unreachable), { shelf with outages := outages }))
    (hsend : ∀ outages, P (send { shelf with outages := outages })) :
    P (guard kind call send shelf) := by
  unfold guard
  dsimp only
  split
  · exact houtage _
  · exact hsend _

/-- An outage adds no object. -/
theorem held_guard_subset {call : CallKind} {send : Shelf → Except Failure β × Shelf}
    (hsend : ∀ shelf, held (send shelf).2 ⊆ held shelf) (shelf : Shelf) :
    held (guard kind call send shelf).2 ⊆ held shelf :=
  guard_induction (P := fun outcome => held outcome.2 ⊆ held shelf) shelf (fun _ => subset_rfl)
    fun outages => hsend { shelf with outages := outages }

/-- A creation that fails changes nothing, and one that does not fail adds the object. -/
theorem create_cases (kind : Kind α) (ns : String) (object : α) (shelf : Shelf) :
    (∃ failure, create kind ns object shelf = (.error failure, shelf)) ∨
      ∃ value, create kind ns object shelf =
        (.ok (kind.withMetadata object { kind.metadata object with ns := some ns }),
          { shelf with objects :=
            (⟨kind.name, ns, (kind.metadata object).name.getD ""⟩, value) :: shelf.objects }) := by
  unfold create
  dsimp only
  split
  · exact .inl ⟨_, rfl⟩
  · exact .inr ⟨_, rfl⟩

/-- Reading changes nothing. -/
theorem get_snd (kind : Kind α) (ns name : String) (shelf : Shelf) :
    (get kind ns name shelf).2 = shelf := by
  unfold get
  split
  · rfl
  · split
    · rfl
    · rfl

/-- An object that is said to be absent is not on the shelf. -/
theorem not_mem_held_of_get {ns name : String} {shelf : Shelf} {failure : Failure}
    (h : (get kind ns name shelf).1 = .error failure) (habsent : failure.isNotFound = true) :
    ⟨kind.name, ns, name⟩ ∉ held shelf := by
  unfold get at h
  split at h
  · rename_i hnone
    exact Entries.lookup_eq_none_iff.1 hnone
  · split at h
    · cases h
    · cases h
      cases habsent

/-- A patch changes the objects where they are. -/
theorem held_patch_subset (kind : Kind α) (ns name : String) (document : Json) (shelf : Shelf) :
    held (patch kind ns name document shelf).2 ⊆ held shelf := by
  unfold patch
  split
  · exact subset_rfl
  · split
    · exact subset_rfl
    · intro place hplace
      obtain ⟨_, hchanged, rfl⟩ := List.mem_map.1 hplace
      obtain ⟨entry, hentry, rfl⟩ := List.mem_map.1 hchanged
      exact List.mem_map.2 ⟨entry, hentry, rfl⟩

/-- A deletion leaves the other objects, and takes its own if it succeeds. -/
theorem held_delete (kind : Kind α) (ns name : String) (shelf : Shelf) :
    held (delete kind ns name shelf).2 ⊆ held shelf ∧
      ((delete kind ns name shelf).1 = .ok () →
        ⟨kind.name, ns, name⟩ ∉ held (delete kind ns name shelf).2) := by
  unfold delete
  split
  · refine ⟨fun place hplace => ?_, fun _ hplace => ?_⟩
    · obtain ⟨entry, hentry, rfl⟩ := List.mem_map.1 hplace
      exact List.mem_map.2 ⟨entry, (List.mem_filter.1 hentry).1, rfl⟩
    · obtain ⟨entry, hentry, hat⟩ := List.mem_map.1 hplace
      exact of_decide_eq_true (List.mem_filter.1 hentry).2 hat
  · exact ⟨subset_rfl, fun h => nomatch h⟩

/-- The answers of the control API of a shelf are true. -/
theorem api_faithful (hkind : kind.Managed root key) : (api kind).Faithful kind held where
  create_error {ns object shelf failure} := by
    refine guard_induction (P := fun outcome => outcome.1 = .error failure →
      held outcome.2 ⊆ held shelf) shelf (fun _ _ => subset_rfl) fun outages => ?_
    rcases create_cases kind ns object { shelf with outages := outages } with
      ⟨_, hcreate⟩ | ⟨_, hcreate⟩
    · rw [hcreate]
      exact fun _ => subset_rfl
    · rw [hcreate]
      exact fun h => nomatch h
  create_ok {ns name object created shelf} hname _ := by
    refine guard_induction (P := fun outcome => outcome.1 = .ok created →
      (kind.metadata created).ns = some ns ∧ (kind.metadata created).name = some name ∧
        held outcome.2 ⊆ insert ⟨kind.name, ns, name⟩ (held shelf)) shelf (fun _ h => nomatch h)
      fun outages => ?_
    rcases create_cases kind ns object { shelf with outages := outages } with
      ⟨_, hcreate⟩ | ⟨_, hcreate⟩
    · rw [hcreate]
      exact fun h => nomatch h
    · rw [hcreate]
      rintro ⟨⟩
      rw [hkind.observable.metadata_withMetadata, hname]
      exact ⟨rfl, rfl, fun place hplace => List.mem_cons.1 hplace⟩
  get_subset ns name :=
    held_guard_subset fun shelf => (congrArg held (get_snd kind ns name shelf)).subset
  get_notFound {ns name shelf failure} := by
    refine guard_induction (P := fun outcome => outcome.1 = .error failure →
      failure.isNotFound = true → ⟨kind.name, ns, name⟩ ∉ held outcome.2) shelf ?_ fun outages => ?_
    · rintro _ ⟨⟩ h
      cases h
    · rw [get_snd]
      exact not_mem_held_of_get
  patch_subset ns name document := held_guard_subset (held_patch_subset kind ns name document)
  delete_subset ns name _ := held_guard_subset fun shelf => (held_delete kind ns name shelf).1
  delete_ok {ns name _ shelf} :=
    guard_induction (P := fun outcome => outcome.1 = .ok () →
      ⟨kind.name, ns, name⟩ ∉ held outcome.2) shelf (fun _ h => nomatch h)
      fun outages => (held_delete kind ns name { shelf with outages := outages }).2

/-- The answers of a shelf are true, whenever there are outages. -/
theorem faithful : cluster.Faithful held := ⟨api_faithful .deployment, api_faithful .role⟩

end Shelf

end Reconcile
