import Mathlib.Data.List.Basic
import Reconcile.Proofs.Change.Places
import Reconcile.Wire

/-!
# Texts that a live map has lost

A live map may have lost keys that the old tree of an update still knows. The edits of the update
apply to it exactly if they leave the lost keys alone (`KeepsLost`): `exists_performAll?_texts` says
what they make of the document then, and `performAll?_texts_eq_none` that they fail otherwise.
-/

namespace Reconcile.Change

open Json (Edit Fields)
open Json.Edit Json.Pointer

variable {old new : Dict String} {fields document inner : Fields} {outer name pointer : String}
  {k : String}

/-- Nothing is changed that a live map has lost: the new map keeps the texts of the old one whose
keys the live map does not have. If there is no live map at all, nothing is changed, or there was
nothing to lose. -/
def KeepsLost (old new : Dict String) : Option (Dict String) → Prop
  | none => old = Dict.empty ∨ new = old
  | some live => ∀ k ∈ old.keys, live.get? k = none → new.get? k = old.get? k

instance : (live : Option (Dict String)) → Decidable (KeepsLost old new live)
  | none => inferInstanceAs (Decidable (old = Dict.empty ∨ new = old))
  | some live =>
      inferInstanceAs (Decidable (∀ k ∈ old.keys, live.get? k = none → new.get? k = old.get? k))

/-! ## Edits that fail -/

/-- A key that is not there cannot be removed. -/
theorem performAll?_removals_eq_none {keys : List String} (hk : k ∈ keys)
    (h : fields.lookup k = none) :
    performAll? (keys.map fun k => .remove (child "" k)) (.obj fields) = none := by
  induction keys generalizing fields with
  | nil => cases hk
  | cons key keys ih =>
      rw [List.map_cons, performAll?_cons]
      cases hkey : fields.lookup key with
      | none => rw [perform?_remove_missing hkey, Option.bind_none]
      | some value =>
          have hne : k ≠ key := by
            rintro rfl
            cases hkey.symm.trans h
          have herased : (Entries.erase key fields).lookup k = none := by
            rw [Entries.lookup_erase, if_neg hne, h]
          rw [perform?_remove_member (by rw [hkey]; rfl), Option.bind_some]
          exact ih ((List.mem_cons.1 hk).resolve_left hne) herased

/-- A text whose key is not there cannot be replaced. -/
theorem performAll?_entryEdit?_eq_none {entry : String × String}
    (hold : (old.get? entry.1).isSome) (hchanges : old.get? entry.1 ≠ some entry.2)
    (h : fields.lookup entry.1 = none) (edits : List Edit) :
    performAll? ((entryEdit? old entry).toList ++ edits) (.obj fields) = none := by
  obtain ⟨before, hbefore⟩ := Option.isSome_iff_exists.1 hold
  rw [hbefore, Ne, Option.some.injEq] at hchanges
  simp only [entryEdit?, hbefore, keyEdit?, if_neg hchanges, Option.toList_some]
  rw [List.singleton_append, performAll?_cons, perform?_replace_missing h, Option.bind_none]

/-- A text whose key is not there cannot be replaced after others have been set. -/
theorem performAll?_changes_eq_none {entries : List (String × String)}
    (hasc : Entries.Ascending entries) {entry : String × String} (hentry : entry ∈ entries)
    (hold : (old.get? entry.1).isSome) (hchanges : old.get? entry.1 ≠ some entry.2)
    (h : fields.lookup entry.1 = none) :
    performAll? (entries.filterMap (entryEdit? old)) (.obj fields) = none := by
  induction entries generalizing fields with
  | nil => cases hentry
  | cons first rest ih =>
      rw [filterMap_entryEdit?_cons]
      obtain ⟨hhead, htail⟩ := List.pairwise_cons.1 hasc
      rcases List.mem_cons.1 hentry with rfl | hrest
      · exact performAll?_entryEdit?_eq_none hold hchanges h _
      · by_cases hfirst : (old.get? first.1).isSome → old.get? first.1 ≠ some first.2 →
            (fields.lookup first.1).isSome
        · -- Setting the first text leaves the key of the other one out.
          have hne : entry.1 ≠ first.1 := fun heq =>
            String.lt_irrefl first.1 (heq ▸ hhead _ hrest)
          have hstep : (setEntry old fields first).lookup entry.1 = none := by
            unfold setEntry
            split
            · exact h
            · rw [Entries.lookup_insert, if_neg hne, h]
          rw [performAll?_entryEdit? hfirst]
          exact ih htail hrest hstep
        · obtain ⟨hfirstOld, hlost⟩ := Classical.not_imp.1 hfirst
          obtain ⟨hfirstChanges, hmissing⟩ := Classical.not_imp.1 hlost
          exact performAll?_entryEdit?_eq_none hfirstOld hfirstChanges
            (Option.not_isSome_iff_eq_none.1 hmissing) _

/-- The edits from one map to another fail where a key is not there that they change. -/
theorem performAll?_keyEdits_eq_none (hlost : fields.lookup k = none) (hold : (old.get? k).isSome)
    (hchanges : new.get? k ≠ old.get? k) : performAll? (keyEdits old new) (.obj fields) = none := by
  rw [keyEdits, performAll?_append]
  cases hnew : new.get? k with
  | none =>
      have hmem : k ∈ old.keys.filter fun k => !new.contains k := by
        refine List.mem_filter.2 ⟨Dict.mem_keys_iff.2 hold, ?_⟩
        rw [Dict.contains_eq, hnew]
        rfl
      rw [removals, performAll?_removals_eq_none hmem hlost, Option.bind_none]
  | some v =>
      -- The removals cannot bring the key back.
      have hpruned : performAll? (removals old new) (.obj fields) = none ∨
          performAll? (removals old new) (.obj fields) = some (.obj (pruned old new fields)) := by
        by_cases hmissing : ∃ key ∈ old.keys.filter fun k => !new.contains k,
            fields.lookup key = none
        · obtain ⟨key, hkey, hnone⟩ := hmissing
          exact .inl (performAll?_removals_eq_none hkey hnone)
        · refine .inr (performAll?_removals (old.ascending.nodup_keys.filter _) fun key hkey => ?_)
          exact Option.isSome_iff_ne_none.2 fun hnone => hmissing ⟨key, hkey, hnone⟩
      rcases hpruned with hnone | hsome
      · rw [hnone, Option.bind_none]
      · rw [hsome, Option.bind_some]
        refine performAll?_changes_eq_none new.ascending (Dict.mem_entries_iff.2 hnew) hold
          (fun hsame => hchanges (hnew.trans hsame.symm)) ?_
        rw [lookup_pruned, hlost, ite_self]

/-- Maps with no edits between them are the same. -/
theorem eq_of_keyEdits_eq_nil (h : keyEdits old new = []) : new = old := by
  obtain ⟨hremovals, hchanges⟩ := List.append_eq_nil_iff.1 h
  refine Dict.ext_get? fun k => ?_
  cases hnew : new.get? k with
  | none =>
      cases hold : old.get? k with
      | none => rfl
      | some value =>
          have hmem : k ∈ old.keys.filter fun k => !new.contains k := by
            refine List.mem_filter.2 ⟨Dict.mem_keys_iff.2 (by rw [hold]; rfl), ?_⟩
            rw [Dict.contains_eq, hnew]
            rfl
          rw [List.map_eq_nil_iff.1 hremovals] at hmem
          cases hmem
  | some v =>
      have hentry : entryEdit? old (k, v) = none :=
        List.filterMap_eq_nil_iff.1 hchanges (k, v) (Dict.mem_entries_iff.2 hnew)
      unfold entryEdit? keyEdit? at hentry
      split at hentry
      · cases hentry
      · rename_i value hold
        split at hentry
        · rename_i hsame
          rw [hold, hsame]
        · cases hentry

/-! ## Edits within a document -/

/-- The edits of an update apply to a document if they leave alone what its map has lost. They
change one member of one of its members. -/
theorem exists_performAll?_texts {paths : List MutablePath} {document inner : Fields}
    (hplace : isTextMap paths pointer = true) (htrim : Text.trimEnd '/' pointer = pointer)
    (htokens : tokens? pointer = some [outer, name])
    (hdocument : Entries.Ascending document) (hinner : Entries.Ascending inner)
    (houter : document.lookup outer = some (.obj inner)) {live : Json}
    (hlive : find? pointer live = inner.lookup name) {texts : Option (Dict String)}
    (hname : inner.lookup name = Wire.texts texts) (h : KeepsLost old new texts) :
    ∃ changed, performAll? (rebase paths live (ofTextMaps pointer old new)) (.obj document) =
        some (.obj (Entries.insert outer (.obj changed) document)) ∧
      Entries.Ascending changed ∧ ∀ k, k ≠ name → changed.lookup k = inner.lookup k := by
  by_cases hsame : new = old
  · refine ⟨inner, ?_, hinner, fun _ _ => rfl⟩
    rw [hsame, ofTextMaps_self, hdocument.insert_eq_self houter]
    rfl
  · refine ⟨_, performAll?_texts hplace htrim htokens hdocument hinner houter hlive ?_,
      ascending_withTexts hinner, fun k hk => lookup_withTexts_of_ne hk⟩
    rw [hname]
    cases texts with
    | none => exact h.resolve_right hsame
    | some d =>
        refine ⟨_, rfl, fun k hold hchanges => ?_⟩
        rw [Entries.lookup_map_value Json.str d.entries k, Option.isSome_map,
          Option.isSome_iff_ne_none]
        exact fun hlost => hchanges (h k (Dict.mem_keys_iff.2 hold) hlost)

/-- The edits of an update fail where they change what the map of a document has lost. -/
theorem performAll?_texts_eq_none {paths : List MutablePath} {live : Json}
    (hplace : isTextMap paths pointer = true) (htrim : Text.trimEnd '/' pointer = pointer)
    (htokens : tokens? pointer = some [outer, name])
    (houter : document.lookup outer = some (.obj inner))
    (hlive : find? pointer live = inner.lookup name) {texts : Option (Dict String)}
    (hname : inner.lookup name = Wire.texts texts) (h : ¬ KeepsLost old new texts) :
    performAll? (rebase paths live (ofTextMaps pointer old new)) (.obj document) = none := by
  have hchanges : ¬ new = old := by
    rintro rfl
    cases texts with
    | none => exact h (.inr rfl)
    | some d => exact h fun _ _ _ => rfl
  have hne : keyEdits old new ≠ [] := fun hnil => hchanges (eq_of_keyEdits_eq_nil hnil)
  cases texts with
  | none =>
      have hold : old.isEmpty = false :=
        Bool.eq_false_iff.2 fun hempty => h (.inl (Dict.isEmpty_iff.1 hempty))
      rw [rebase_ofTextMaps_of_nonempty paths live hold, ofTextMaps_eq hold, htrim,
        performAll?_under htokens (fun _ => tokens?_of_mem_keyEdits) hne]
      have hnone : inner.lookup name = none := hname
      simp [update?, houter, hnone]
  | some d =>
      have hfields : inner.lookup name = some (.obj _) := hname
      obtain ⟨k, hk⟩ := Classical.not_forall.1 h
      obtain ⟨hold, hk⟩ := Classical.not_imp.1 hk
      obtain ⟨hlost, hdiffers⟩ := Classical.not_imp.1 hk
      have hfails : performAll? (keyEdits old new)
          (.obj (d.entries.map fun entry => (entry.1, .str entry.2))) = none := by
        refine performAll?_keyEdits_eq_none ?_ (Dict.mem_keys_iff.1 hold) hdiffers
        exact (Entries.lookup_map_value Json.str d.entries k).trans
          (congrArg (Option.map Json.str) hlost)
      rw [rebase_ofTextMaps hplace htrim (hlive.trans hfields),
        performAll?_under htokens (fun _ => tokens?_of_mem_keyEdits) hne]
      simp [update?, houter, hfields, hfails]

end Reconcile.Change
