import Mathlib.Data.List.Basic
import Reconcile.Change
import Reconcile.Proofs.Json.Edits

/-!
# Edits of a map of texts

`keyEdits` are the edits that take one map of texts to another key by key, and `merged` is what
they make of the fields of a live map, which may hold more keys than both
(`performAll?_keyEdits`). `rebase_ofTextMaps` says that the edits of an update are these wherever
the live object holds a map.
-/

namespace Reconcile.Change

open Json (Edit Fields)
open Json.Edit Json.Pointer

variable {old new : Dict String} {fields : Fields}

/-- The removals of the keys that only the old map has. -/
def removals (old new : Dict String) : List Edit :=
  (old.keys.filter fun k => !new.contains k).map fun k => .remove (child "" k)

/-- The edit that an entry of the new map needs. -/
def entryEdit? (old : Dict String) (entry : String × String) : Option Edit :=
  keyEdit? (child "" entry.1) (old.get? entry.1) entry.2

/-- The edits of the keys whose text the new map changes. -/
def changes (old new : Dict String) : List Edit := new.entries.filterMap (entryEdit? old)

/-- The edits from one map of texts to another within the object that holds their entries. -/
def keyEdits (old new : Dict String) : List Edit := removals old new ++ changes old new

/-- The fields without those whose keys only the old map has. -/
def pruned (old new : Dict String) (fields : Fields) : Fields :=
  (old.keys.filter fun k => !new.contains k).foldl (fun fields k => Entries.erase k fields) fields

/-- The fields with the text of an entry, unless the old map has that entry. -/
def setEntry (old : Dict String) (fields : Fields) (entry : String × String) : Fields :=
  if old.get? entry.1 = some entry.2 then fields else Entries.insert entry.1 (.str entry.2) fields

/-- The fields with the texts that the new map changes. -/
def changed (old new : Dict String) (fields : Fields) : Fields :=
  new.entries.foldl (setEntry old) fields

/-- The fields of a live map after the edits from one map to another: the keys that only the old
map has are gone, the texts that the new map changes are set, and the rest is as before. -/
def merged (old new : Dict String) (fields : Fields) : Fields :=
  changed old new (pruned old new fields)

/-! ## What the edits make of a live map -/

/-- Erasing keys one after another removes exactly these keys. -/
theorem lookup_foldl_erase (keys : List String) (fields : Fields) (k : String) :
    (keys.foldl (fun fields k => Entries.erase k fields) fields).lookup k =
      if k ∈ keys then none else fields.lookup k := by
  -- Each removal leaves the other keys, which differ from it, where they are.
  induction keys generalizing fields with
  | nil => simp
  | cons key keys ih =>
      rw [List.foldl_cons, ih, Entries.lookup_erase]
      by_cases hkey : k = key
      · simp [hkey]
      · simp [hkey]

/-- Pruning removes the keys of the old map that the new one has not. -/
theorem lookup_pruned (k : String) : (pruned old new fields).lookup k =
    if (old.get? k).isSome ∧ new.get? k = none then none else fields.lookup k := by
  rw [pruned, lookup_foldl_erase]
  simp only [List.mem_filter, Dict.mem_keys_iff, Dict.contains_eq, Bool.not_eq_true',
    Option.isSome_eq_false_iff, Option.isNone_iff_eq_none]

/-- Changing sets the keys whose text in the new map is another one than in the old map. -/
theorem lookup_changed (k : String) : (changed old new fields).lookup k =
    match new.get? k with
    | some v => if old.get? k = some v then fields.lookup k else some (.str v)
    | none => fields.lookup k := by
  have hfold : ∀ entries : List (String × String), Entries.Ascending entries → ∀ fields : Fields,
      (entries.foldl (setEntry old) fields).lookup k =
      match entries.lookup k with
      | some v => if old.get? k = some v then fields.lookup k else some (.str v)
      | none => fields.lookup k := by
    intro entries
    induction entries with
    | nil => intro _ fields; rfl
    | cons entry rest ih =>
        intro hasc fields
        obtain ⟨hhead, htail⟩ := List.pairwise_cons.1 hasc
        obtain ⟨key, value⟩ := entry
        rw [List.foldl_cons, ih htail, List.lookup_cons]
        by_cases hkey : k = key
        · have hrest : rest.lookup k = none := by
            rw [hkey]
            exact Entries.Ascending.lookup_eq_none_of_lt hhead
          subst hkey
          rw [hrest, BEq.rfl]
          by_cases hsame : old.get? k = some value
          · simp [setEntry, hsame]
          · simp [setEntry, hsame, Entries.lookup_insert]
        · have hstep : (setEntry old fields (key, value)).lookup k = fields.lookup k := by
            unfold setEntry
            split
            · rfl
            · rw [Entries.lookup_insert, if_neg hkey]
          rw [beq_eq_false_iff_ne.2 hkey]
          simp only [hstep]
  exact hfold new.entries new.ascending fields

/-- What each key of the live map is bound to after the edits. -/
theorem lookup_merged (k : String) : (merged old new fields).lookup k =
    match new.get? k with
    | some v => if old.get? k = some v then fields.lookup k else some (.str v)
    | none => if (old.get? k).isSome then none else fields.lookup k := by
  rw [merged, lookup_changed]
  cases hnew : new.get? k with
  | some v => simp [lookup_pruned, hnew]
  | none => simp [lookup_pruned, hnew]

/-- Pruning keeps the keys ascending. -/
theorem ascending_pruned (hasc : Entries.Ascending fields) :
    Entries.Ascending (pruned old new fields) :=
  List.foldlRecOn _ _ hasc fun _ h key _ => h.erase key

/-- Merging keeps the keys ascending. -/
theorem ascending_merged (hasc : Entries.Ascending fields) :
    Entries.Ascending (merged old new fields) := by
  refine List.foldlRecOn new.entries _ (ascending_pruned hasc) fun fields h e _ => ?_
  unfold setEntry
  split
  · exact h
  · exact h.insert e.1 _

/-- Keys that are there can be removed one after another. -/
theorem performAll?_removals {keys : List String} (hnodup : keys.Nodup)
    (h : ∀ k ∈ keys, (fields.lookup k).isSome) :
    performAll? (keys.map fun k => .remove (child "" k)) (.obj fields) =
      some (.obj (keys.foldl (fun fields k => Entries.erase k fields) fields)) := by
  induction keys generalizing fields with
  | nil => rfl
  | cons key keys ih =>
      obtain ⟨hkey, hnodup⟩ := List.nodup_cons.1 hnodup
      rw [List.map_cons, performAll?_cons, perform?_remove_member (h key List.mem_cons_self),
        Option.bind_some, ih hnodup, List.foldl_cons]
      intro k hk
      rw [Entries.lookup_erase, if_neg (ne_of_mem_of_not_mem hk hkey)]
      exact h k (List.mem_cons_of_mem key hk)

/-- A text can be set, if its key is there where it is replaced. -/
theorem performAll?_entryEdit? {entry : String × String} {edits : List Edit}
    (h : (old.get? entry.1).isSome → old.get? entry.1 ≠ some entry.2 →
      (fields.lookup entry.1).isSome) :
    performAll? ((entryEdit? old entry).toList ++ edits) (.obj fields) =
      performAll? edits (.obj (setEntry old fields entry)) := by
  obtain ⟨key, value⟩ := entry
  cases hold : old.get? key with
  | none =>
      simp only [entryEdit?, setEntry, hold, keyEdit?, Option.toList_some, reduceCtorEq, if_false]
      rw [List.singleton_append, performAll?_cons, perform?_add_member, Option.bind_some]
  | some before =>
      by_cases hvalue : before = value
      · simp only [entryEdit?, setEntry, hold, keyEdit?, hvalue, if_true, Option.toList_none]
        rw [List.nil_append]
      · have hpresent : (fields.lookup key).isSome := by
          refine h (by rw [hold]; rfl) fun hsame => hvalue ?_
          exact Option.some.inj (hold.symm.trans hsame)
        simp only [entryEdit?, setEntry, hold, keyEdit?, hvalue, if_false, Option.toList_some,
          Option.some.injEq]
        rw [List.singleton_append, performAll?_cons, perform?_replace_member hpresent,
          Option.bind_some]

theorem filterMap_entryEdit?_cons (old : Dict String) (entry : String × String)
    (rest : List (String × String)) : (entry :: rest).filterMap (entryEdit? old) =
      (entryEdit? old entry).toList ++ rest.filterMap (entryEdit? old) := by
  rw [List.filterMap_cons]
  cases entryEdit? old entry with
  | none => rfl
  | some edit => rfl

/-- Texts can be set one after another, if the keys of those that are replaced are there. -/
theorem performAll?_changes {entries : List (String × String)}
    (h : ∀ e ∈ entries, (old.get? e.1).isSome → old.get? e.1 ≠ some e.2 →
      (fields.lookup e.1).isSome) :
    performAll? (entries.filterMap (entryEdit? old)) (.obj fields) =
      some (.obj (entries.foldl (setEntry old) fields)) := by
  induction entries generalizing fields with
  | nil => rfl
  | cons entry rest ih =>
      rw [filterMap_entryEdit?_cons, performAll?_entryEdit? (h entry List.mem_cons_self),
        List.foldl_cons]
      refine ih fun e he hold hchanges => ?_
      have hbefore := h e (List.mem_cons_of_mem _ he) hold hchanges
      unfold setEntry
      split
      · exact hbefore
      · rw [Entries.lookup_insert]
        split
        · rfl
        · exact hbefore

/-- The edits from one map to another apply to every live map that has the keys which are replaced
or removed. -/
theorem performAll?_keyEdits
    (h : ∀ k, (old.get? k).isSome → new.get? k ≠ old.get? k → (fields.lookup k).isSome) :
    performAll? (keyEdits old new) (.obj fields) = some (.obj (merged old new fields)) := by
  have hremoved : ∀ k ∈ old.keys.filter fun k => !new.contains k, (fields.lookup k).isSome := by
    intro k hk
    obtain ⟨hold, hnew⟩ := List.mem_filter.1 hk
    rw [Dict.mem_keys_iff] at hold
    refine h k hold fun hsame => ?_
    rw [Dict.contains_eq, hsame, hold] at hnew
    cases hnew
  have hnodup : (old.keys.filter fun k => !new.contains k).Nodup :=
    old.ascending.nodup_keys.filter _
  rw [keyEdits, performAll?_append, removals, performAll?_removals hnodup hremoved,
    Option.bind_some]
  refine performAll?_changes fun e he hold hchanges => ?_
  -- A text that is replaced has not been removed, since the new map binds its key.
  have hnew : new.get? e.1 = some e.2 := Dict.mem_entries_iff.1 he
  have hkept : ¬ ((old.get? e.1).isSome ∧ new.get? e.1 = none) := fun hgone =>
    nomatch hnew.symm.trans hgone.2
  rw [← pruned, lookup_pruned, if_neg hkept]
  exact h e.1 hold (hnew ▸ hchanges.symm)

/-! ## The edits of an update -/

/-- The edits from a map that is not empty are those of its keys. -/
theorem ofTextMaps_eq (h : old.isEmpty = false) (pointer : String) (new : Dict String) :
    ofTextMaps pointer old new = (keyEdits old new).map (under (Text.trimEnd '/' pointer)) := by
  have hremoval : ∀ k, Edit.remove (child (Text.trimEnd '/' pointer) k) =
      under (Text.trimEnd '/' pointer) (.remove (child "" k)) := by
    intro k
    rw [child_eq_append]
    rfl
  have hchange : ∀ e : String × String,
      keyEdit? (child (Text.trimEnd '/' pointer) e.1) (old.get? e.1) e.2 =
        (entryEdit? old e).map (under (Text.trimEnd '/' pointer)) := by
    intro e
    rw [child_eq_append, entryEdit?]
    unfold keyEdit?
    split
    · rfl
    · split
      · rfl
      · rfl
  have hchanges : (fun e : String × String =>
      keyEdit? (child (Text.trimEnd '/' pointer) e.1) (old.get? e.1) e.2) =
        fun e => (entryEdit? old e).map (under (Text.trimEnd '/' pointer)) := funext hchange
  unfold ofTextMaps
  rw [h, if_neg Bool.false_ne_true, keyEdits, List.map_append, removals, changes, List.map_map,
    List.map_filterMap, ← hchanges]
  simp only [hremoval]
  rfl

/-- The edits from a map that is empty add the whole new one. -/
theorem ofTextMaps_empty (pointer : String) (new : Dict String) :
    ofTextMaps pointer Dict.empty new =
      if new.isEmpty then [] else [.add (Text.trimEnd '/' pointer) (Json.ofTexts new)] := rfl

/-- There are no edits from a map to itself. -/
theorem ofTextMaps_self (pointer : String) (d : Dict String) : ofTextMaps pointer d d = [] := by
  have hremovals : (d.keys.filter fun k => !d.contains k) = [] := by
    refine List.filter_eq_nil_iff.2 fun k hk => ?_
    rw [Dict.contains_eq, Dict.mem_keys_iff.1 hk]
    exact Bool.false_ne_true
  have hchanges : (d.entries.filterMap fun e =>
      keyEdit? (child (Text.trimEnd '/' pointer) e.1) (d.get? e.1) e.2) = [] := by
    refine List.filterMap_eq_nil_iff.2 fun e he => ?_
    rw [Dict.mem_entries_iff.1 he]
    exact if_pos rfl
  unfold ofTextMaps
  split
  · rfl
  · dsimp only
    rw [hremovals, hchanges]
    rfl

/-- The entries of a new map are added to an empty one. -/
theorem keyEdits_empty (new : Dict String) :
    keyEdits Dict.empty new = new.entries.map fun e => .add (child "" e.1) (.str e.2) := by
  have hadd : (fun e : String × String => some (Edit.add (child "" e.1) (.str e.2))) =
      entryEdit? Dict.empty := rfl
  show changes Dict.empty new = _
  rw [changes, ← hadd, ← List.filterMap_eq_map]
  rfl

/-- The edit of a key below a map is rebased as it is. -/
theorem rebaseEdit_under_keyEdit (paths : List MutablePath) (live : Json) {pointer : String}
    {edit : Edit} (h : edit ∈ keyEdits old new) :
    rebaseEdit paths live (edit.under pointer) = [edit.under pointer] := by
  rcases List.mem_append.1 h with hremoval | hchange
  · obtain ⟨k, _, rfl⟩ := List.mem_map.1 hremoval
    rfl
  · obtain ⟨e, _, he⟩ := List.mem_filterMap.1 hchange
    unfold entryEdit? keyEdit? at he
    split at he
    · cases he
      rfl
    · split at he
      · cases he
      · cases he
        rfl

/-- Edits that nothing has to be spared from stay as they are. -/
theorem rebase_eq_self {paths : List MutablePath} {live : Json} {edits : List Edit}
    (h : ∀ edit ∈ edits, rebaseEdit paths live edit = [edit]) :
    rebase paths live edits = edits := by
  rw [rebase, List.flatMap_congr h, List.flatMap_singleton']

/-- Edits are rebased one by one. -/
theorem rebase_append (paths : List MutablePath) (live : Json) (edits rest : List Edit) :
    rebase paths live (edits ++ rest) = rebase paths live edits ++ rebase paths live rest :=
  List.flatMap_append

/-- Edits of single keys stay as they are. -/
theorem rebase_ofTextMaps_of_nonempty (paths : List MutablePath) (live : Json)
    (h : old.isEmpty = false) (pointer : String) (new : Dict String) :
    rebase paths live (ofTextMaps pointer old new) = ofTextMaps pointer old new := by
  rw [ofTextMaps_eq h]
  refine rebase_eq_self fun edit hedit => ?_
  obtain ⟨inner, hinner, rfl⟩ := List.mem_map.1 hedit
  exact rebaseEdit_under_keyEdit paths live hinner

/-- Where the live object holds a map, the edits of an update change it key by key. -/
theorem rebase_ofTextMaps {paths : List MutablePath} {live : Json} {pointer : String}
    (hplace : isTextMap paths pointer = true) (htrim : Text.trimEnd '/' pointer = pointer)
    (hlive : find? pointer live = some (.obj fields)) :
    rebase paths live (ofTextMaps pointer old new) = (keyEdits old new).map (under pointer) := by
  cases hold : old.isEmpty with
  | false => rw [rebase_ofTextMaps_of_nonempty paths live hold, ofTextMaps_eq hold, htrim]
  | true =>
      -- The whole map that would be added is spelled out entry by entry.
      obtain rfl := Dict.isEmpty_iff.1 hold
      rw [ofTextMaps_empty, htrim, keyEdits_empty]
      cases hnew : new.isEmpty with
      | true =>
          obtain rfl := Dict.isEmpty_iff.1 hnew
          rfl
      | false =>
          rw [if_neg Bool.false_ne_true, rebase, List.flatMap_singleton, Json.ofTexts, rebaseEdit]
          simp only [hplace, hlive, entryEdits, List.map_map, Function.comp_def]
          refine List.map_congr_left fun e _ => ?_
          rw [child_eq_append]
          rfl

/-- Where the live object holds no map, a whole one may be added. -/
theorem rebase_ofTextMaps_of_absent {paths : List MutablePath} {live : Json} {pointer : String}
    (htrim : Text.trimEnd '/' pointer = pointer) (hlive : find? pointer live = none) :
    rebase paths live (ofTextMaps pointer old new) = ofTextMaps pointer old new := by
  cases hold : old.isEmpty with
  | false => exact rebase_ofTextMaps_of_nonempty paths live hold pointer new
  | true =>
      obtain rfl := Dict.isEmpty_iff.1 hold
      refine rebase_eq_self fun edit hedit => ?_
      rw [ofTextMaps_empty, htrim] at hedit
      split at hedit
      · cases hedit
      · obtain rfl := List.mem_singleton.1 hedit
        rw [Json.ofTexts, rebaseEdit, hlive]
        cases isTextMap paths pointer with
        | false => rfl
        | true => rfl

/-- Only an addition of an empty map could come to nothing by being spelled out. -/
theorem rebaseEdit_ne_nil {paths : List MutablePath} (live : Json) {edit : Edit}
    (h : ∀ path, edit = .add path (.obj []) → isTextMap paths path = false) :
    rebaseEdit paths live edit ≠ [] := by
  unfold rebaseEdit
  split
  · rename_i path entries
    split
    · rename_i hplace _
      intro hnil
      obtain rfl := List.map_eq_nil_iff.1 hnil
      exact Bool.false_ne_true ((h path rfl).symm.trans hplace)
    · exact List.cons_ne_nil _ _
  · exact List.cons_ne_nil _ _

/-- There are edits after rebasing exactly if there were some before, unless they add empty maps. -/
theorem rebase_eq_nil_iff {paths : List MutablePath} (live : Json) {edits : List Edit}
    (h : ∀ edit ∈ edits, ∀ path, edit = .add path (.obj []) → isTextMap paths path = false) :
    rebase paths live edits = [] ↔ edits = [] := by
  rw [rebase, List.flatMap_eq_nil_iff]
  constructor
  · intro hall
    refine List.eq_nil_iff_forall_not_mem.2 fun edit hedit => ?_
    exact rebaseEdit_ne_nil live (h edit hedit) (hall edit hedit)
  · rintro rfl
    exact List.forall_mem_nil _

/-- No edit between two maps adds an empty one. -/
theorem ne_add_of_mem_ofTextMaps {pointer path : String} {edit : Edit}
    (h : edit ∈ ofTextMaps pointer old new) : edit ≠ .add path (.obj []) := by
  rintro rfl
  cases hold : old.isEmpty with
  | true =>
      obtain rfl := Dict.isEmpty_iff.1 hold
      rw [ofTextMaps_empty] at h
      split at h
      · cases h
      · rename_i hnew
        have hentries := Json.obj.inj (Edit.add.inj (List.mem_singleton.1 h)).2
        exact hnew (List.isEmpty_iff.2 (List.map_eq_nil_iff.1 hentries.symm))
  | false =>
      rw [ofTextMaps_eq hold] at h
      obtain ⟨inner, hinner, hedit⟩ := List.mem_map.1 h
      rcases List.mem_append.1 hinner with hremoval | hchange
      · obtain ⟨k, _, rfl⟩ := List.mem_map.1 hremoval
        cases hedit
      · obtain ⟨e, _, he⟩ := List.mem_filterMap.1 hchange
        unfold entryEdit? keyEdit? at he
        split at he
        · cases he
          cases hedit
        · split at he
          · cases he
          · cases he
            cases hedit

end Reconcile.Change
