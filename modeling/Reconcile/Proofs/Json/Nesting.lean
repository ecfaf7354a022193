import Mathlib.Data.List.Basic
import Reconcile.Json.Pointer

/-!
# Nested places of a document

A pointer text addresses a place within the place of another one if it is that text or goes on from
it with a slash. Two places are apart if neither is within the other, and then everything within the
one is apart from everything within the other (`Apart.within`). Members of one object are apart
whatever characters their keys hold (`apart_child`), since no escaped token holds a slash.
-/

namespace Reconcile.Json.Pointer

variable {outer inner pointer other : String}

/-- The place of a pointer text is that of another one or lies below it. -/
def Within (outer pointer : String) : Prop :=
  pointer = outer ∨ ∃ rest, pointer = outer ++ "/" ++ rest

/-- The places of two pointer texts are different and neither lies below the other. -/
def Apart (pointer other : String) : Prop := ¬ Within pointer other ∧ ¬ Within other pointer

theorem Within.refl (pointer : String) : Within pointer pointer := .inl rfl

/-- A member lies within its object. -/
theorem Within.child (pointer token : String) : Within pointer (child pointer token) :=
  .inr ⟨escape token, rfl⟩

/-- Seen with a slash at their ends, texts are nested exactly if one begins as the other. -/
theorem within_iff : Within outer pointer ↔
    outer.toList ++ ['/'] <+: pointer.toList ++ ['/'] := by
  constructor
  · rintro (rfl | ⟨rest, rfl⟩)
    · exact List.prefix_refl _
    · exact ⟨rest.toList ++ ['/'], by simp [String.toList_append]⟩
  · intro h
    rcases List.prefix_concat_iff.1 h with heq | hprefix
    · exact .inl (String.toList_inj.1 (List.append_cancel_right heq).symm)
    · obtain ⟨rest, hrest⟩ := hprefix
      refine .inr ⟨String.ofList rest, String.toList_inj.1 ?_⟩
      simp [String.toList_append, ← hrest]

instance : Decidable (Within outer pointer) := decidable_of_iff _ within_iff.symm

instance : Decidable (Apart pointer other) := inferInstanceAs (Decidable (¬ _ ∧ ¬ _))

/-- What lies within something lies within all that this lies within. -/
theorem Within.trans (h : Within outer inner) (hinner : Within inner pointer) :
    Within outer pointer :=
  within_iff.2 ((within_iff.1 h).trans (within_iff.1 hinner))

/-- Two places that have something within them in common are nested. -/
theorem Within.nested (h : Within outer pointer) (hother : Within other pointer) :
    Within outer other ∨ Within other outer := by
  rw [within_iff] at h hother
  rw [within_iff, within_iff]
  exact List.prefix_or_prefix_of_prefix h hother

/-- Being apart is mutual. -/
theorem Apart.symm (h : Apart pointer other) : Apart other pointer := ⟨h.2, h.1⟩

/-- Pointers that are apart are different. -/
theorem Apart.ne (h : Apart pointer other) : pointer ≠ other := by
  rintro rfl
  exact h.1 (.refl pointer)

/-- Nothing lies within two places that are apart. -/
theorem Apart.not_within (h : Apart outer other) (hwithin : Within outer pointer) :
    ¬ Within other pointer := fun hother =>
  (hwithin.nested hother).elim h.1 h.2

/-- What lies within one of two places that are apart is apart from what lies within the other. -/
theorem Apart.within {inner' : String} (h : Apart outer other) (hinner : Within outer inner)
    (hinner' : Within other inner') : Apart inner inner' :=
  ⟨fun hnested => h.not_within (hinner.trans hnested) hinner',
    fun hnested => h.not_within hinner (hinner'.trans hnested)⟩

/-- Different members have different pointers. -/
theorem child_inj {token token' : String} (h : child pointer token = child pointer token') :
    token = token' := by
  rw [← unescape_escape token, (String.append_right_inj (pointer ++ "/")).1 h, unescape_escape]

/-- Different members of one object are apart. -/
theorem apart_child {token token' : String} (hne : token ≠ token') :
    Apart (child pointer token) (child pointer token') := by
  have hnot : ∀ {token token' : String}, token ≠ token' →
      ¬ Within (child pointer token) (child pointer token') := by
    rintro token token' hne (heq | ⟨rest, hrest⟩)
    · exact hne (child_inj heq.symm)
    · refine slash_not_mem_escape token' ?_
      have hescape : escape token' = escape token ++ "/" ++ rest := by
        refine (String.append_right_inj (pointer ++ "/")).1 (hrest.trans ?_)
        simp only [child, String.append_assoc]
      simp [hescape, String.toList_append]
  exact ⟨hnot hne, hnot hne.symm⟩

end Reconcile.Json.Pointer
