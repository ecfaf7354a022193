import Mathlib.Data.List.Basic
import Reconcile.Proofs.Change.TextMaps
import Reconcile.Proofs.Except.Steps

/-!
# The edits of an update within a document

A map of texts lies two levels deep in a document. `performAll?_texts` says what the edits of an
update make of the document whether or not it holds the map yet, and `performAll?_projection` the
same of the edits that replace a subtree at the first level.
-/

namespace Reconcile.Change

open Json (Edit Fields)
open Json.Edit Json.Pointer

variable {old new : Dict String} {document inner : Fields} {outer name pointer : String}

/-- The fields of an object after the edits from one map of texts to another at one of its
members, which it may not have yet. -/
def withTexts (name : String) (old new : Dict String) (inner : Fields) : Fields :=
  match inner.lookup name with
  | some (.obj fields) => Entries.insert name (.obj (merged old new fields)) inner
  | _ => if new.isEmpty then inner else Entries.insert name (Json.ofTexts new) inner

/-- The edits to a map leave the other members alone. -/
theorem lookup_withTexts_of_ne {k : String} (hk : k ≠ name) :
    (withTexts name old new inner).lookup k = inner.lookup k := by
  unfold withTexts
  split
  · rw [Entries.lookup_insert, if_neg hk]
  · split
    · rfl
    · rw [Entries.lookup_insert, if_neg hk]

/-- The edits to a map keep the keys of its object ascending. -/
theorem ascending_withTexts (hinner : Entries.Ascending inner) :
    Entries.Ascending (withTexts name old new inner) := by
  unfold withTexts
  split
  · exact hinner.insert _ _
  · split
    · exact hinner
    · exact hinner.insert _ _

/-- The edits of an update change one member only. -/
theorem erase_withTexts (hinner : Entries.Ascending inner) :
    Entries.erase name (withTexts name old new inner) = Entries.erase name inner := by
  refine Entries.Ascending.ext ((ascending_withTexts hinner).erase _) (hinner.erase _) fun k => ?_
  rw [Entries.lookup_erase, Entries.lookup_erase]
  by_cases hk : k = name
  · rw [if_pos hk, if_pos hk]
  · rw [if_neg hk, if_neg hk, lookup_withTexts_of_ne hk]

/-- A live map of texts can take the edits from an old one: it has the keys of the old one, and it
may be missing only if the old one is empty. -/
def Mergeable (old : Dict String) : Option Json → Prop
  | none => old = Dict.empty
  | some live => ∃ fields, live = .obj fields ∧
    ∀ k, (old.get? k).isSome → (fields.lookup k).isSome

/-- A live map of texts can take the edits from an old one to a new one: it has the keys of the old
one that the new one changes. -/
def Editable (old new : Dict String) : Option Json → Prop
  | none => old = Dict.empty
  | some live => ∃ fields, live = .obj fields ∧
    ∀ k, (old.get? k).isSome → new.get? k ≠ old.get? k → (fields.lookup k).isSome

/-- What can take the edits from an old map can take those to any new one. -/
theorem Mergeable.editable {live : Option Json} (h : Mergeable old live) (new : Dict String) :
    Editable old new live := by
  cases live with
  | none => exact h
  | some value =>
      obtain ⟨fields, hvalue, hkeys⟩ := h
      exact ⟨fields, hvalue, fun k hk _ => hkeys k hk⟩

/-- The edit of a key has a path of one token. -/
theorem tokens?_of_mem_keyEdits {edit : Edit} (h : edit ∈ keyEdits old new) :
    ∃ token, tokens? edit.path = some [token] := by
  rcases List.mem_append.1 h with hremoval | hchange
  · obtain ⟨k, _, rfl⟩ := List.mem_map.1 hremoval
    exact ⟨k, tokens?_member k⟩
  · obtain ⟨e, _, he⟩ := List.mem_filterMap.1 hchange
    refine ⟨e.1, ?_⟩
    unfold entryEdit? keyEdit? at he
    split at he
    · cases he
      exact tokens?_member e.1
    · split at he
      · cases he
      · cases he
        exact tokens?_member e.1

/-- The edits of an update apply to every document whose map has the keys that are changed. -/
theorem performAll?_texts {paths : List MutablePath} {live : Json}
    (hplace : isTextMap paths pointer = true) (htrim : Text.trimEnd '/' pointer = pointer)
    (htokens : tokens? pointer = some [outer, name])
    (hdocument : Entries.Ascending document) (hinner : Entries.Ascending inner)
    (houter : document.lookup outer = some (.obj inner))
    (hlive : find? pointer live = inner.lookup name)
    (heditable : Editable old new (inner.lookup name)) :
    performAll? (rebase paths live (ofTextMaps pointer old new)) (.obj document) =
      some (.obj (Entries.insert outer (.obj (withTexts name old new inner)) document)) := by
  cases hname : inner.lookup name with
  | none =>
      rw [hname] at hlive heditable
      obtain rfl : old = Dict.empty := heditable
      rw [rebase_ofTextMaps_of_absent htrim hlive, ofTextMaps_empty, htrim, withTexts, hname]
      cases hnew : new.isEmpty with
      | true =>
          show some (Json.obj document) = _
          rw [if_pos rfl, hdocument.insert_eq_self houter]
      | false =>
          rw [if_neg Bool.false_ne_true, performAll?_cons,
            perform?_eq (.add pointer (Json.ofTexts new)) htokens]
          simp [performAt?, addAt?, update?, houter, addMember?]
  | some value =>
      rw [hname] at hlive heditable
      obtain ⟨fields, rfl, hkeys⟩ := heditable
      have hmerged : performAll? (keyEdits old new) (.obj fields) =
          some (.obj (merged old new fields)) := performAll?_keyEdits hkeys
      rw [rebase_ofTextMaps hplace htrim hlive, withTexts, hname]
      show _ = some (Json.obj (Entries.insert outer (.obj (Entries.insert name
        (.obj (merged old new fields)) inner)) document))
      by_cases hnone : keyEdits old new = []
      · rw [hnone] at hmerged ⊢
        have hsame : Json.obj fields = .obj (merged old new fields) := Option.some.inj hmerged
        rw [← hsame, hinner.insert_eq_self hname, hdocument.insert_eq_self houter]
        rfl
      · rw [performAll?_under htokens (fun _ => tokens?_of_mem_keyEdits) hnone]
        simp [update?, houter, hname, hmerged]

/-- A subtree can be set or removed where it is said to be. -/
theorem performAll?_projection {declared : Bool}
    (htokens : tokens? pointer = some [outer])
    (hdeclared : (document.lookup outer).isSome = declared) (value : Option Json) :
    performAll? (ofProjection pointer declared value) (.obj document) =
      some (.obj (Entries.assign outer value document)) := by
  cases value with
  | some v =>
      cases declared with
      | true =>
          obtain ⟨before, hbefore⟩ := Option.isSome_iff_exists.1 hdeclared
          rw [ofProjection, performAll?_cons, perform?_eq (.replace pointer v) htokens]
          simp [performAt?, replaceAt?, update?, hbefore, Entries.assign]
      | false =>
          rw [ofProjection, performAll?_cons, perform?_eq (.add pointer v) htokens]
          simp [performAt?, addAt?, update?, addMember?, Entries.assign]
  | none =>
      cases declared with
      | true =>
          obtain ⟨before, hbefore⟩ := Option.isSome_iff_exists.1 hdeclared
          rw [ofProjection, performAll?_cons, perform?_eq (.remove pointer) htokens]
          simp [performAt?, removeAt?, update?, removeMember?, hbefore, Entries.assign]
      | false =>
          rw [Option.isSome_eq_false_iff, Option.isNone_iff_eq_none] at hdeclared
          show some (Json.obj document) = some (.obj (Entries.erase outer document))
          rw [Entries.erase_eq_self hdeclared]

/-- A subtree can be set or removed wherever it is there if it is said to be. -/
theorem exists_performAll?_projection {declared : Bool} (htokens : tokens? pointer = some [outer])
    (hdeclared : declared = true → (document.lookup outer).isSome) (value : Option Json) :
    ∃ changed,
      performAll? (ofProjection pointer declared value) (.obj document) = some changed := by
  cases declared with
  | true => exact ⟨_, performAll?_projection htokens (hdeclared rfl) value⟩
  | false =>
      cases value with
      | none => exact ⟨_, rfl⟩
      | some v =>
          refine ⟨.obj (Entries.insert outer v document), ?_⟩
          rw [ofProjection, performAll?_cons, perform?_eq (.add pointer v) htokens]
          rfl

/-- A subtree is changed by one edit at its place, and by none if it is the same in both trees. -/
theorem atPath_subtree {before after : Tree} {projection : Except Failure Json}
    {config : List String} {wire : String} {part : List Edit}
    (h : atPath before after projection (.subtree config wire) = .ok part) :
    part = [] ∨ (Tree.find? config before ≠ Tree.find? config after ∧
      ∃ edit, part = [edit] ∧ edit.path = wire) := by
  unfold atPath at h
  dsimp only at h
  split at h
  · exact .inl (Except.ok.inj h).symm
  · rename_i hdiffers
    split at h
    · obtain ⟨object, -, h⟩ := Steps.bind_eq_ok_iff.1 h
      obtain rfl := Except.ok.inj h
      unfold ofProjection
      split
      · exact .inr ⟨hdiffers, _, rfl, rfl⟩
      · exact .inr ⟨hdiffers, _, rfl, rfl⟩
      · exact .inr ⟨hdiffers, _, rfl, rfl⟩
      · exact .inl rfl
    · split at h
      · obtain rfl := Except.ok.inj h
        exact .inr ⟨hdiffers, _, rfl, rfl⟩
      · exact .inl (Except.ok.inj h).symm

/-- What is added for a subtree is added at its place. -/
theorem eq_of_add_mem_atPath {before after : Tree} {projection : Except Failure Json}
    {config : List String} {wire : String} {edits : List Edit} {value : Json}
    (h : atPath before after projection (.subtree config wire) = .ok edits)
    (hmem : .add pointer value ∈ edits) : pointer = wire := by
  obtain rfl | ⟨-, edit, rfl, rfl⟩ := atPath_subtree h
  · cases hmem
  · exact congrArg Edit.path (List.mem_singleton.1 hmem)

end Reconcile.Change
