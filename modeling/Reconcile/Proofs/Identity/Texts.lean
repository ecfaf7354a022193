import Mathlib.Data.List.Basic
import Reconcile.Resource.Basic

/-!
# Texts of identities

Reading the text of an identity is the inverse of writing it, and the texts that can be read are
those with exactly one slash and something on either side of it (`Identity.separated_iff`). So
records of different objects are stored under different keys (`Identity.texts_correspond`).
-/

namespace Reconcile.Identity

variable {s ns name : String} {id other : Identity} {failure : Failure}

theorem text_inj (h : id.text = other.text) : id = other :=
  Except.ok.inj (by rw [← id.ofText_text, h, other.ofText_text])

theorem text_ne_empty (id : Identity) : id.text ≠ "" := by
  intro hempty
  have hread := id.ofText_text
  rw [hempty] at hread
  cases hread

theorem ofStored_text (id : Identity) : ofStored id.text = .ok (some id) := by
  rw [ofStored, if_neg id.text_ne_empty, id.ofText_text]
  rfl

/-- The identity of a resource is read back, also if there is none. -/
theorem ofStored_getD (id : Option Identity) : ofStored ((id.map text).getD "") = .ok id := by
  cases id with
  | none => rfl
  | some id => exact id.ofStored_text

theorem parts_of_ofParts (h : ofParts ns name = .ok id) : id.ns = ns ∧ id.name = name := by
  unfold ofParts at h
  split at h
  · cases h
    exact ⟨rfl, rfl⟩
  · cases h

theorem exists_ofParts_iff : (∃ id, ofParts ns name = .ok id) ↔ Part ns ∧ Part name := by
  constructor
  · rintro ⟨id, hid⟩
    obtain ⟨hns, hname⟩ := parts_of_ofParts hid
    exact ⟨hns ▸ id.ns_part, hname ▸ id.name_part⟩
  · intro hparts
    exact ⟨_, dif_pos hparts⟩

/-- Two texts that no identity is made of are named in the failure. -/
theorem failure_of_ofParts (h : ∀ id, ofParts ns name ≠ .ok id) :
    ofParts ns name = .error (.invalidIdentity (join ns name)) := by
  refine dif_neg fun hparts => ?_
  obtain ⟨id, hid⟩ := exists_ofParts_iff.2 hparts
  exact h id hid

/-! ## Texts that can be read -/

/-- A text has exactly one slash, and it is not empty on either side of it. -/
def Separated (s : String) : Prop :=
  s.toList.count '/' = 1 ∧ ∃ before after, before ≠ "" ∧ after ≠ "" ∧ s = before ++ "/" ++ after

/-- Joining two texts adds one slash to theirs. -/
theorem count_join (ns name : String) : (join ns name).toList.count '/' =
    ns.toList.count '/' + 1 + name.toList.count '/' := by
  simp only [join, String.toList_append, List.count_append]
  rfl

/-- The texts of identities are the separated ones. -/
theorem separated_iff : Separated s ↔ ∃ id : Identity, id.text = s := by
  constructor
  · rintro ⟨hcount, before, after, hbefore, hafter, rfl⟩
    -- The one slash is the one between the two sides, so neither side has another.
    have hsum := (count_join before after).symm.trans hcount
    have hns : '/' ∉ before.toList := List.count_eq_zero.1 (by omega)
    have hname : '/' ∉ after.toList := List.count_eq_zero.1 (by omega)
    exact ⟨⟨before, after, ⟨hbefore, hns⟩, ⟨hafter, hname⟩⟩, rfl⟩
  · rintro ⟨id, rfl⟩
    refine ⟨?_, id.ns, id.name, id.ns_part.1, id.name_part.1, rfl⟩
    rw [text, count_join, List.count_eq_zero_of_not_mem id.ns_part.2,
      List.count_eq_zero_of_not_mem id.name_part.2]

/-- A text is read as the identity that has it. -/
theorem ofText_eq_ok_iff : ofText s = .ok id ↔ id.text = s :=
  ⟨text_ofText, fun h => h ▸ id.ofText_text⟩

/-- A text that cannot be read is named in the failure. -/
theorem failure_of_ofText (h : ofText s = .error failure) : failure = .invalidIdentity s := by
  unfold ofText at h
  split at h
  · split at h
    · cases h
    · exact (Except.error.inj h).symm
  · exact (Except.error.inj h).symm

/-- Identities and their texts correspond one to one. An identity is made of any two texts that are
not empty and hold no slash. Its text is read as this identity, also where there may be none. A text
is read exactly if it is separated, as an identity that has this text, and is named in the failure
otherwise. The records of different identities have different keys. -/
theorem texts_correspond :
    (∀ ns name, ((∃ id, ofParts ns name = .ok id) ↔
        (ns ≠ "" ∧ name ≠ "") ∧ '/' ∉ ns.toList ∧ '/' ∉ name.toList) ∧
      ∀ id, ofParts ns name = .ok id → id.ns = ns ∧ id.name = name) ∧
    (∀ id : Identity, ofText id.text = .ok id ∧ ofStored id.text = .ok (some id)) ∧
    (∀ s, ((∃ id, ofText s = .ok id) ↔ Separated s) ∧
      (∀ id, ofText s = .ok id → id.text = s) ∧
      ∀ failure, ofText s = .error failure → failure = .invalidIdentity s) ∧
    ∀ {α : Type} (kind : Kind α) (id other : Identity) (config config' : Tree), id ≠ other →
      (Resource.store kind ⟨some id, config⟩).id ≠
        (Resource.store kind ⟨some other, config'⟩).id := by
  refine ⟨fun ns name => ⟨?_, fun id => parts_of_ofParts⟩,
    fun id => ⟨id.ofText_text, id.ofStored_text⟩,
    fun s => ⟨?_, fun id => text_ofText, fun failure => failure_of_ofText⟩, ?_⟩
  · rw [exists_ofParts_iff, Part, Part]
    exact and_and_and_comm
  · rw [separated_iff]
    exact exists_congr fun id => ofText_eq_ok_iff
  · intro α kind id other config config' hne hkey
    exact hne (text_inj hkey)

/-- A text with one slash, one with two, and the keys of two objects whose namespaces and names are
alike when they are put together without a slash. -/
theorem texts_correspond_alike :
    let web : Identity := ⟨"prod", "web", by decide, by decide⟩
    let other : Identity := ⟨"prodw", "eb", by decide, by decide⟩
    ofText "prod/web" = .ok web ∧ web.text = "prod/web" ∧ ¬ Separated "prod/we/b" ∧
      ofText "prod/we/b" = .error (.invalidIdentity "prod/we/b") ∧
      ∀ {α : Type} (kind : Kind α), (Resource.store kind ⟨some web, .null⟩).id ≠
        (Resource.store kind ⟨some other, .null⟩).id := by
  intro web other
  obtain ⟨-, hread, htext, hkey⟩ := texts_correspond
  have hslashes : ¬ Separated "prod/we/b" := fun h => absurd h.1 (by decide)
  refine ⟨(hread web).1, (htext "prod/web").2.1 web (hread web).1, hslashes, ?_, ?_⟩
  · cases hfailed : ofText "prod/we/b" with
    | ok id => exact absurd ((htext "prod/we/b").1.1 ⟨id, hfailed⟩) hslashes
    | error failure => rw [(htext "prod/we/b").2.2 failure hfailed]
  · intro α kind
    exact hkey kind web other .null .null (by decide)

end Reconcile.Identity
