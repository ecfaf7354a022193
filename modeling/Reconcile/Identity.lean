import Reconcile.Failure

/-!
# Identities of objects

An object is identified by its namespace and its name. The identity is written with a slash
between them, so neither part may be empty or hold a slash. `ofText_text` and `text_ofText` say
that identities and their texts correspond one to one.
-/

namespace Reconcile

/-- A part of an identity is not empty and holds no slash. -/
def Identity.Part (s : String) : Prop := s ≠ "" ∧ '/' ∉ s.toList

instance (s : String) : Decidable (Identity.Part s) :=
  inferInstanceAs (Decidable (_ ∧ _))

/-- The namespace and the name of an object. -/
structure Identity where
  ns : String
  name : String
  ns_part : Identity.Part ns
  name_part : Identity.Part name
  deriving DecidableEq

namespace Identity

/-- A namespace and a name with the separator between them. -/
def join (ns name : String) : String := ns ++ "/" ++ name

/-- The text of an identity. -/
def text (id : Identity) : String := join id.ns id.name

/-- The identity with the given parts. -/
def ofParts (ns name : String) : Except Failure Identity :=
  if h : Part ns ∧ Part name then .ok ⟨ns, name, h.1, h.2⟩
  else .error (.invalidIdentity (join ns name))

/-- The identity with the given text. -/
def ofText (s : String) : Except Failure Identity :=
  match Text.cut? '/' s with
  | some (ns, name) =>
    if h : Part ns ∧ Part name then .ok ⟨ns, name, h.1, h.2⟩ else .error (.invalidIdentity s)
  | none => .error (.invalidIdentity s)

/-- The identity that a record holds; an empty text stands for an object not yet created. -/
def ofStored (s : String) : Except Failure (Option Identity) :=
  if s = "" then .ok none else (ofText s).map some

/-- The text of an identity is cut into its namespace and its name. -/
theorem cut?_text (id : Identity) : Text.cut? '/' id.text = some (id.ns, id.name) := by
  have hcut : ∀ before after : List Char, '/' ∉ before →
      Text.cutChars? '/' (before ++ '/' :: after) = some (before, after) := by
    intro before after hnot
    induction before with
    | nil => simp [Text.cutChars?]
    | cons c cs ih =>
      simp only [List.mem_cons, not_or] at hnot
      simp [Text.cutChars?, Ne.symm hnot.1, ih hnot.2]
  have hchars : id.text.toList = id.ns.toList ++ '/' :: id.name.toList := by
    simp [text, join, String.toList_append]
  simp [Text.cut?, hchars, hcut _ _ id.ns_part.2]

/-- An identity is read from its text. -/
theorem ofText_text (id : Identity) : ofText id.text = .ok id := by
  simp [ofText, cut?_text, id.ns_part, id.name_part]

/-- A text from which an identity is read is the text of this identity. -/
theorem text_ofText {s : String} {id : Identity} (hread : ofText s = .ok id) : id.text = s := by
  unfold ofText at hread
  split at hread
  · rename_i ns name hcut
    split at hread
    · simp only [Except.ok.injEq] at hread
      subst hread
      obtain ⟨⟨before, after⟩, hchars, hparts⟩ := Option.map_eq_some_iff.1 hcut
      simp only [Prod.mk.injEq] at hparts
      obtain ⟨rfl, rfl⟩ := hparts
      have hs := (Text.cutChars?_eq_some hchars).1
      apply String.toList_inj.1
      simp [text, join, String.toList_append, hs]
    · simp at hread
  · simp at hread

end Identity

end Reconcile
