import Mathlib.Data.List.Basic
import Reconcile.Proofs.Cluster.Calls
import Reconcile.Proofs.Kind.Observable
import Reconcile.Proofs.Resource.Ensures

/-!
# What a cluster holds

While nobody else writes an object, a cluster holds it as it was written last, apart from its
status. `Kind.Holds` is kept by every reading (`Holds.get`), by the creation of another object
(`Holds.insert_of_free`) and by every call that fails (`Holds.agrees`).
-/

namespace Reconcile

variable {α : Type} {kind : Kind α} {root key : String}

/-- The changes that a reaction makes. -/
def Reaction.changes : Reaction α → List (α → α)
  | .still => []
  | .always change => [change]
  | .script changes => changes

/-- A controller of objects in a cluster in memory whose calls may be made to fail. -/
def Controller.inMemory (kind : Kind α) (settings : Settings) :
    Controller α (List Fault × Memory α) where
  kind := kind
  api := (Memory.api kind).withFaults
  settings := settings

namespace Kind

/-- A reaction changes nothing of an object but its status. -/
def StatusOnly (kind : Kind α) (reaction : Reaction α) : Prop :=
  ∀ change ∈ reaction.changes, ∀ object,
    Json.without "/status" (kind.toJson (change object)) =
      Json.without "/status" (kind.toJson object)

/-- What is left of a reaction that changes the status only changes the status only. -/
theorem StatusOnly.rest {reaction : Reaction α} (h : kind.StatusOnly reaction) (object : α) :
    kind.StatusOnly (reaction.apply object).2 := by
  cases reaction with
  | still => exact h
  | always change => exact h
  | script changes =>
      cases changes with
      | nil => exact h
      | cons change changes => exact fun c hc => h c (List.mem_cons_of_mem _ hc)

/-- Objects that differ in their status have the same metadata and content. -/
theorem Lawful.eq_of_without_status (h : kind.Lawful root key) (hkey : key ≠ "status")
    {object other : α} (heq : Json.without "/status" (kind.toJson object) =
      Json.without "/status" (kind.toJson other)) :
    kind.metadata object = kind.metadata other ∧
      kind.content key object = kind.content key other := by
  have htokens : Json.Pointer.tokens? "/status" = some ["status"] := by decide
  rw [h.toJson_eq, h.toJson_eq, Json.without_member htokens, Json.without_member htokens] at heq
  have hlookup : ∀ k, k ≠ "status" →
      (kind.fields object).lookup k = (kind.fields other).lookup k := by
    intro k hk
    have hrest := congrArg (List.lookup k) (Json.obj.inj heq)
    rwa [Entries.lookup_erase, Entries.lookup_erase, if_neg hk, if_neg hk] at hrest
  refine ⟨?_, hlookup key hkey⟩
  have hmeta := hlookup "metadata" (by decide)
  rw [h.lookup_metadata, h.lookup_metadata] at hmeta
  exact ObjectMeta.eq_of_fields_eq (Json.obj.inj (Option.some.inj hmeta))

/-- What a reaction makes of an object follows the object. -/
theorem StatusOnly.apply {reaction : Reaction α} (h : kind.StatusOnly reaction)
    (hlawful : kind.Lawful root key) (hkey : key ≠ "status") (object : α) :
    kind.metadata (reaction.apply object).1 = kind.metadata object ∧
      kind.Follows key false object (reaction.apply object).1 := by
  -- Only one of the changes is made, whatever the reaction is.
  have hsame : ∀ change ∈ reaction.changes,
      kind.metadata (change object) = kind.metadata object ∧
        kind.Follows key false object (change object) := by
    intro change hchange
    obtain ⟨hmeta, hcontent⟩ := hlawful.eq_of_without_status hkey (h change hchange object)
    exact ⟨hmeta, (Follows.refl kind key object).congr hmeta hcontent⟩
  cases reaction with
  | still => exact ⟨rfl, Follows.refl kind key object⟩
  | always change => exact hsame change List.mem_cons_self
  | script changes =>
      cases changes with
      | nil => exact ⟨rfl, Follows.refl kind key object⟩
      | cons change changes => exact hsame change List.mem_cons_self

/-- A cluster holds under an identity an object with its name, which follows the given one, and
changes nothing of it but its status. -/
structure Holds (kind : Kind α) (key : String) (id : Identity) (model : α) (memory : Memory α) :
    Prop where
  statusOnly : kind.StatusOnly memory.reaction
  object : ∃ live, memory.find? id.ns id.name = some live ∧
    (kind.metadata live).name = some id.name ∧ kind.Follows key false model live

variable {id : Identity} {model : α} {memory after : Memory α}

theorem Holds.agrees (h : kind.Holds key id model memory) (hagrees : memory.Agrees after) :
    kind.Holds key id model after := by
  refine ⟨?_, ?_⟩
  · rw [hagrees.reaction]
    exact h.statusOnly
  · obtain ⟨live, hfind, hlive⟩ := h.object
    exact ⟨live, (hagrees.find? _ _).trans hfind, hlive⟩

/-- A cluster that has written the object of an identity holds it. -/
theorem holds_insert {stored : α} (hreaction : kind.StatusOnly after.reaction)
    (hobjects : after.objects = (memory.insert id.ns id.name stored).objects)
    (hname : (kind.metadata stored).name = some id.name)
    (hfollows : kind.Follows key false model stored) : kind.Holds key id model after := by
  refine ⟨hreaction, stored, ?_, hname, hfollows⟩
  rw [Memory.find?, hobjects]
  exact (Memory.find?_insert memory id.ns id.name id.ns id.name stored).trans (if_pos rfl)

/-- The objects of other identities are held as before. -/
theorem Holds.insert_of_free (h : kind.Holds key id model memory) {ns name : String} {created : α}
    (hfree : memory.find? ns name = none) (hreaction : after.reaction = memory.reaction)
    (hobjects : after.objects = (memory.insert ns name created).objects) :
    kind.Holds key id model after := by
  obtain ⟨live, hfind, hlive⟩ := h.object
  refine ⟨?_, live, ?_, hlive⟩
  · rw [hreaction]
    exact h.statusOnly
  · have hne : (id.ns, id.name) ≠ (ns, name) := by
      intro heq
      obtain ⟨rfl, rfl⟩ := Prod.mk.inj heq
      rw [hfind] at hfree
      cases hfree
    rw [Memory.find?, hobjects]
    exact (Memory.find?_insert memory ns name id.ns id.name created).trans
      ((if_neg hne).trans hfind)

/-- A reading keeps what a cluster holds. -/
theorem Holds.get (h : kind.Holds key id model memory) (hlawful : kind.Lawful root key)
    (hkey : key ≠ "status") :
    kind.Holds key id model (Memory.get kind id.ns id.name memory).2 ∧
      ∀ live, (Memory.get kind id.ns id.name memory).1 = .ok live →
        (Memory.get kind id.ns id.name memory).2.find? id.ns id.name = some live ∧
          (kind.metadata live).name = some id.name ∧ kind.Follows key false model live := by
  obtain ⟨live, hfind, hname, hfollows⟩ := h.object
  rcases Memory.get_cases kind id.ns id.name memory with
    ⟨failure, after, hget, hagrees⟩ | ⟨object, after, hobject, hget, hobjects, hreaction⟩
  · rw [hget]
    exact ⟨h.agrees hagrees, fun _ heq => nomatch heq⟩
  · obtain rfl : live = object := Option.some.inj (hfind.symm.trans hobject)
    obtain ⟨hmeta, hsame⟩ := h.statusOnly.apply hlawful hkey live
    have hchanged : (kind.metadata (memory.reaction.apply live).1).name = some id.name := by
      rw [hmeta, hname]
    rw [hget]
    refine ⟨holds_insert ?_ hobjects hchanged (hsame.trans hfollows), ?_⟩
    · rw [hreaction]
      exact h.statusOnly.rest live
    · rintro _ ⟨⟩
      refine ⟨?_, hchanged, hsame.trans hfollows⟩
      rw [Memory.find?, hobjects]
      exact (Memory.find?_insert memory id.ns id.name id.ns id.name _).trans (if_pos rfl)

end Kind

end Reconcile
