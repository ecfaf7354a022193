import Mathlib.Data.List.Basic
import Mathlib.Data.List.Count
import Mathlib.Data.List.Pairwise
import Reconcile.Proofs.Change.Places
import Reconcile.Proofs.Json.Nesting

/-!
# Edits that change nothing twice

The edits between two trees change what differs between them and nothing else, and no edit changes
what another one changes (`Change.Minimal`). This is said of the edits at one path first; the edits
at several paths keep apart because their places do (`Minimal.append`). Spelling out an edit that
adds a whole map makes several edits of one, at members that are apart.
-/

namespace Reconcile

/-- The pointer text of the place of a path. -/
def MutablePath.wire : MutablePath → String
  | .textMap _ wire => wire
  | .subtree _ wire => wire

/-- Two trees differ at a path: in the texts of a map, or in any way in a subtree. -/
def MutablePath.Differs (old new : Tree) : MutablePath → Prop
  | .textMap config _ => Change.textsAt old config ≠ Change.textsAt new config
  | .subtree config _ => Tree.find? config old ≠ Tree.find? config new

namespace Change

open Json (Edit)
open Json.Edit Json.Pointer

/-- Edits at some paths that change what differs between two trees, and nothing twice. -/
structure Minimal (paths : List MutablePath) (old new : Tree) (edits : List Edit) : Prop where
  /-- No edit changes what another one changes, or something within it. -/
  apart : edits.Pairwise fun edit other => Apart edit.path other.path
  /-- Every edit changes something within a place at which the trees differ. -/
  needed : ∀ edit ∈ edits, ∃ path ∈ paths, Within path.wire edit.path ∧ path.Differs old new
  /-- In a map that was not empty every edit changes a member. -/
  members : ∀ config wire, .textMap config wire ∈ paths → (textsAt old config).isEmpty = false →
    ∀ edit ∈ edits, Within wire edit.path → ∃ key, edit.path = child wire key
  /-- A member of a map that was not empty is changed once if its texts differ, and not at all if
  they do not. -/
  once : ∀ config wire, .textMap config wire ∈ paths → (textsAt old config).isEmpty = false →
    ∀ key, (edits.map Edit.path).count (child wire key) =
      if (textsAt old config).get? key = (textsAt new config).get? key then 0 else 1
  /-- A subtree is changed once at most. -/
  subtrees : ∀ config wire, .subtree config wire ∈ paths →
    (edits.filter fun edit => Within wire edit.path).length ≤ 1

variable {paths more : List MutablePath} {path : MutablePath} {old new : Tree}
  {edits rest : List Edit} {config : List String} {wire : String}

/-! ## Edits at several paths -/

/-- Where there are no paths, having no edits is minimal. -/
theorem minimal_nil (old new : Tree) : Minimal [] old new [] where
  apart := .nil
  needed := List.forall_mem_nil _
  members := fun _ _ h => nomatch h
  once := fun _ _ h => nomatch h
  subtrees := fun _ _ h => nomatch h

/-- Edits at some paths change nothing within a place that is apart from all of these. -/
theorem Minimal.not_within (h : Minimal paths old new edits)
    (hapart : ∀ path ∈ paths, Apart path.wire wire) : ∀ edit ∈ edits, ¬ Within wire edit.path := by
  intro edit hedit
  obtain ⟨path, hpath, hwithin, -⟩ := h.needed edit hedit
  exact (hapart path hpath).not_within hwithin

/-- Edits outside a place have no path of a member there. -/
theorem count_eq_zero (h : ∀ edit ∈ edits, ¬ Within wire edit.path) (key : String) :
    (edits.map Edit.path).count (child wire key) = 0 := by
  refine List.count_eq_zero.2 fun hmem => ?_
  obtain ⟨edit, hedit, hpath⟩ := List.mem_map.1 hmem
  exact h edit hedit (hpath ▸ .child wire key)

/-- None of the edits outside a place lies within it. -/
theorem filter_within_eq_nil (h : ∀ edit ∈ edits, ¬ Within wire edit.path) :
    (edits.filter fun edit => Within wire edit.path) = [] :=
  List.filter_eq_nil_iff.2 fun edit hedit => by simpa using h edit hedit

/-- Edits at paths whose places are apart do not meet. -/
theorem Minimal.append (h : Minimal paths old new edits) (hmore : Minimal more old new rest)
    (hapart : ∀ path ∈ paths, ∀ other ∈ more, Apart path.wire other.wire) :
    Minimal (paths ++ more) old new (edits ++ rest) := by
  have hfirst : ∀ other ∈ more, ∀ edit ∈ edits, ¬ Within other.wire edit.path :=
    fun other hother => h.not_within fun path hpath => hapart path hpath other hother
  have hsecond : ∀ path ∈ paths, ∀ edit ∈ rest, ¬ Within path.wire edit.path :=
    fun path hpath => hmore.not_within fun other hother => (hapart path hpath other hother).symm
  refine ⟨?_, ?_, ?_, ?_, ?_⟩
  · refine List.pairwise_append.2 ⟨h.apart, hmore.apart, fun edit hedit other hother => ?_⟩
    obtain ⟨path, hpath, hwithin, -⟩ := h.needed edit hedit
    obtain ⟨path', hpath', hwithin', -⟩ := hmore.needed other hother
    exact (hapart path hpath path' hpath').within hwithin hwithin'
  · intro edit hedit
    rcases List.mem_append.1 hedit with hedit | hedit
    · obtain ⟨path, hpath, hneeded⟩ := h.needed edit hedit
      exact ⟨path, List.mem_append_left _ hpath, hneeded⟩
    · obtain ⟨path, hpath, hneeded⟩ := hmore.needed edit hedit
      exact ⟨path, List.mem_append_right _ hpath, hneeded⟩
  · intro config wire hpath hold edit hedit hwithin
    rcases List.mem_append.1 hpath with hpath | hpath
    · rcases List.mem_append.1 hedit with hedit | hedit
      · exact h.members config wire hpath hold edit hedit hwithin
      · exact absurd hwithin (hsecond _ hpath edit hedit)
    · rcases List.mem_append.1 hedit with hedit | hedit
      · exact absurd hwithin (hfirst _ hpath edit hedit)
      · exact hmore.members config wire hpath hold edit hedit hwithin
  · intro config wire hpath hold key
    rw [List.map_append, List.count_append]
    rcases List.mem_append.1 hpath with hpath | hpath
    · have hnone : ∀ edit ∈ rest, ¬ Within wire edit.path := hsecond _ hpath
      rw [h.once config wire hpath hold key, count_eq_zero hnone, Nat.add_zero]
    · have hnone : ∀ edit ∈ edits, ¬ Within wire edit.path := hfirst _ hpath
      rw [hmore.once config wire hpath hold key, count_eq_zero hnone, Nat.zero_add]
  · intro config wire hpath
    rw [List.filter_append]
    rcases List.mem_append.1 hpath with hpath | hpath
    · have hnone : ∀ edit ∈ rest, ¬ Within wire edit.path := hsecond _ hpath
      rw [filter_within_eq_nil hnone, List.append_nil]
      exact h.subtrees config wire hpath
    · have hnone : ∀ edit ∈ edits, ¬ Within wire edit.path := hfirst _ hpath
      rw [filter_within_eq_nil hnone, List.nil_append]
      exact hmore.subtrees config wire hpath

/-- Edits that are minimal at each of some paths are minimal at all of them. -/
theorem minimal_rebase_flatten {spared : List MutablePath} {live : Json} {parts : List (List Edit)}
    (h : List.Forall₂ (fun path part => Minimal [path] old new (rebase spared live part))
      paths parts)
    (hapart : paths.Pairwise fun path other => Apart path.wire other.wire) :
    Minimal paths old new (rebase spared live parts.flatten) := by
  induction h with
  | nil => exact minimal_nil old new
  | cons hpart _ ih =>
      obtain ⟨hfirst, hapart⟩ := List.pairwise_cons.1 hapart
      rw [List.flatten_cons, rebase_append]
      refine hpart.append (ih hapart) fun path hpath => ?_
      rw [List.mem_singleton.1 hpath]
      exact hfirst

/-! ## Edits at one path -/

/-- There may be no edit of a subtree, and none of a map whose texts do not differ. -/
theorem minimal_none (h : ∀ config wire, path = .textMap config wire →
    textsAt old config = textsAt new config) : Minimal [path] old new [] := by
  refine ⟨.nil, List.forall_mem_nil _, fun _ _ _ _ => List.forall_mem_nil _, ?_,
    fun _ _ _ => Nat.zero_le 1⟩
  intro config wire hpath _ key
  rw [h config wire (List.mem_singleton.1 hpath).symm, if_pos rfl]
  rfl

/-- One edit is enough for a whole place, be it a map that was empty or a subtree. -/
theorem minimal_singleton {edit : Edit} (hwire : edit.path = path.wire)
    (hdiffers : path.Differs old new)
    (hempty : ∀ config wire, path = .textMap config wire → (textsAt old config).isEmpty = true) :
    Minimal [path] old new [edit] := by
  have hnone : ∀ config wire, .textMap config wire ∈ [path] →
      (textsAt old config).isEmpty = false → False := by
    intro config wire hpath hold
    rw [hempty config wire (List.mem_singleton.1 hpath).symm] at hold
    cases hold
  refine ⟨List.pairwise_singleton _ _, ?_, fun config wire hpath hold => ?_,
    fun config wire hpath hold => ?_, fun config wire _ => ?_⟩
  · intro other hother
    rw [List.mem_singleton.1 hother]
    exact ⟨path, List.mem_singleton_self path, hwire ▸ .refl _, hdiffers⟩
  · exact (hnone config wire hpath hold).elim
  · exact (hnone config wire hpath hold).elim
  · exact List.length_filter_le _ _

/-- Edits of different members of a map are minimal if the members are those whose texts differ. -/
theorem minimal_of_children {keys : List String} (hnodup : keys.Nodup)
    (hpaths : edits.map Edit.path = keys.map (child wire))
    (hkeys : ∀ key, key ∈ keys ↔
      (textsAt old config).get? key ≠ (textsAt new config).get? key) :
    Minimal [.textMap config wire] old new edits := by
  have hmember : ∀ edit ∈ edits, ∃ key ∈ keys, edit.path = child wire key := by
    intro edit hedit
    have hmem := List.mem_map_of_mem (f := Edit.path) hedit
    rw [hpaths] at hmem
    obtain ⟨key, hkey, heq⟩ := List.mem_map.1 hmem
    exact ⟨key, hkey, heq.symm⟩
  refine ⟨?_, ?_, ?_, ?_, ?_⟩
  · rw [← List.pairwise_map, hpaths, List.pairwise_map]
    exact hnodup.imp fun hne => apart_child hne
  · intro edit hedit
    obtain ⟨key, hkey, hpath⟩ := hmember edit hedit
    refine ⟨_, List.mem_singleton_self _, hpath ▸ .child wire key, fun hsame => ?_⟩
    exact (hkeys key).1 hkey (by rw [hsame])
  · intro config' wire' hpath _ edit hedit _
    cases List.mem_singleton.1 hpath
    obtain ⟨key, -, hpath⟩ := hmember edit hedit
    exact ⟨key, hpath⟩
  · intro config' wire' hpath _ key
    cases List.mem_singleton.1 hpath
    rw [hpaths, List.count_map_of_injective _ _ fun _ _ => child_inj, hnodup.count]
    simp only [hkeys, ne_eq, ite_not]
  · intro config' wire' hpath
    cases List.mem_singleton.1 hpath

/-! ## The edits of a map of texts -/

variable {before after : Dict String}

/-- The keys whose texts differ between two maps: those that only the old map has, and those that
the new one binds to another text. -/
def changedKeys (before after : Dict String) : List String :=
  (before.keys.filter fun k => !after.contains k) ++
    (after.entries.filter fun e => before.get? e.1 ≠ some e.2).map (·.1)

/-- The changed keys are those with another text. -/
theorem mem_changedKeys {key : String} :
    key ∈ changedKeys before after ↔ before.get? key ≠ after.get? key := by
  have hchanges : key ∈ (after.entries.filter fun e => before.get? e.1 ≠ some e.2).map (·.1) ↔
      ∃ s, after.get? key = some s ∧ before.get? key ≠ some s := by
    rw [List.mem_map]
    constructor
    · rintro ⟨⟨k, s⟩, hmem, rfl⟩
      obtain ⟨hentry, hne⟩ := List.mem_filter.1 hmem
      exact ⟨s, Dict.mem_entries_iff.1 hentry, of_decide_eq_true hne⟩
    · rintro ⟨s, hs, hne⟩
      exact ⟨(key, s), List.mem_filter.2 ⟨Dict.mem_entries_iff.2 hs, decide_eq_true hne⟩, rfl⟩
  rw [changedKeys, List.mem_append, hchanges, List.mem_filter, Dict.mem_keys_iff, Dict.contains_eq]
  cases after.get? key with
  | none => simp [Option.isSome_iff_ne_none]
  | some s => simp

/-- No key is listed twice as changed. -/
theorem nodup_changedKeys : (changedKeys before after).Nodup := by
  refine List.nodup_append.2 ⟨before.ascending.nodup_keys.filter _,
    after.ascending.nodup_keys.sublist (List.filter_sublist.map _), ?_⟩
  -- A key that only the old map has is no key of the new one.
  rintro key hremoved other hchanged rfl
  obtain ⟨e, he, rfl⟩ := List.mem_map.1 hchanged
  have hbound := Dict.mem_entries_iff.1 (List.mem_filter.1 he).1
  have hfree := (List.mem_filter.1 hremoved).2
  rw [Dict.contains_eq, hbound] at hfree
  cases hfree

/-- The edits of the keys of a map are at the keys whose texts differ. -/
theorem map_path_keyEdits (before after : Dict String) :
    (keyEdits before after).map Edit.path = (changedKeys before after).map (child "") := by
  have hentry : ∀ e : String × String, (entryEdit? before e).map Edit.path =
      if before.get? e.1 ≠ some e.2 then some (child "" e.1) else none := by
    intro e
    unfold entryEdit? keyEdit?
    cases before.get? e.1 with
    | none => rfl
    | some s => by_cases hs : s = e.2 <;> simp [hs, Edit.path]
  have hchanges : (changes before after).map Edit.path =
      ((after.entries.filter fun e => before.get? e.1 ≠ some e.2).map (·.1)).map (child "") := by
    rw [changes, List.map_filterMap, List.map_map, ← List.filterMap_eq_map, List.filterMap_filter]
    refine List.filterMap_congr fun e _ => ?_
    rw [hentry]
    simp only [decide_eq_true_eq, Function.comp_apply]
  rw [keyEdits, changedKeys, List.map_append, List.map_append, hchanges, removals, List.map_map]
  rfl

/-- The edits of a map of texts are minimal, and so are those that spare a live map. -/
theorem minimal_rebase_ofTextMaps (htrim : Text.trimEnd '/' wire = wire)
    (spared : List MutablePath) (live : Json) : Minimal [.textMap config wire] old new
      (rebase spared live (ofTextMaps wire (textsAt old config) (textsAt new config))) := by
  cases hold : (textsAt old config).isEmpty with
  | false =>
      refine minimal_of_children nodup_changedKeys ?_ fun key => mem_changedKeys
      have hchild : Edit.path ∘ under wire = (wire ++ ·) ∘ Edit.path := funext (path_under wire)
      rw [rebase_ofTextMaps_of_nonempty spared live hold, ofTextMaps_eq hold, htrim, List.map_map,
        hchild, ← List.map_map, map_path_keyEdits, List.map_map]
      exact List.map_congr_left fun key _ => (child_eq_append wire key).symm
  | true =>
      have hempty := Dict.isEmpty_iff.1 hold
      rw [hempty, ofTextMaps_empty, htrim]
      split
      · rename_i hnew
        refine minimal_none fun config' wire' hpath => ?_
        cases hpath
        rw [hempty, Dict.isEmpty_iff.1 hnew]
      · rename_i hnew
        rw [rebase, List.flatMap_singleton, Json.ofTexts, rebaseEdit]
        split
        · -- The live map is spared: the new texts are added one by one.
          have hnodup : (textsAt new config).keys.Nodup :=
            (textsAt new config).ascending.nodup_keys
          refine minimal_of_children hnodup ?_ fun key => ?_
          · simp only [entryEdits, Dict.keys, List.map_map, Function.comp_def, Edit.path]
          · rw [hempty, Dict.mem_keys_iff, Dict.get?_empty, Option.isSome_iff_ne_none]
            exact ne_comm
        · refine minimal_singleton rfl (fun hsame => hnew ?_) fun config' wire' hpath => ?_
          · rw [← hsame, hold]
          · cases hpath
            exact hold

/-- An edit that is not at the place of a map of texts stays as it is. -/
theorem rebaseEdit_eq_self {spared : List MutablePath} {edit : Edit}
    (h : isTextMap spared edit.path = false) (live : Json) :
    rebaseEdit spared live edit = [edit] := by
  unfold rebaseEdit
  split
  · split
    · rename_i hplace _
      exact absurd (hplace.symm.trans h) Bool.noConfusion
    · rfl
  · rfl

/-! ## The edits between two trees -/

/-- The edits at a path are minimal, and so are those that spare the live maps at some places, as
long as the place of a subtree is none of these. -/
theorem minimal_rebase_atPath {spared : List MutablePath} {projection : Except Failure Json}
    {part : List Edit} (hend : path.wire.toList.getLast? ≠ some '/')
    (hspared : ∀ config wire, path = .subtree config wire → isTextMap spared wire = false)
    (h : atPath old new projection path = .ok part) (live : Json) :
    Minimal [path] old new (rebase spared live part) := by
  cases path with
  | textMap config wire =>
      obtain rfl := Except.ok.inj h
      exact minimal_rebase_ofTextMaps (Text.trimEnd_eq_self hend) spared live
  | subtree config wire =>
      have hkind : ∀ config' wire', MutablePath.subtree config wire ≠ .textMap config' wire' := by
        intro config' wire' hpath
        cases hpath
      obtain rfl | ⟨hdiffers, edit, rfl, rfl⟩ := atPath_subtree h
      · exact minimal_none fun config' wire' hpath => absurd hpath (hkind config' wire')
      · rw [rebase, List.flatMap_singleton, rebaseEdit_eq_self (hspared config _ rfl)]
        exact minimal_singleton rfl hdiffers fun config' wire' hpath =>
          absurd hpath (hkind config' wire')

/-- The edits between two trees are minimal, and so are those that spare the live maps at some
places, as long as the places of the subtrees are none of these. -/
theorem minimal_rebase_between {spared : List MutablePath} {projection : Except Failure Json}
    (hends : ∀ path ∈ paths, path.wire.toList.getLast? ≠ some '/')
    (hapart : paths.Pairwise fun path other => Apart path.wire other.wire)
    (hspared : ∀ path ∈ paths, ∀ config wire, path = .subtree config wire →
      isTextMap spared wire = false)
    (h : between old new paths projection = .ok edits) (live : Json) :
    Minimal paths old new (rebase spared live edits) := by
  obtain ⟨parts, hparts, rfl⟩ := Steps.map_eq_ok_iff.1 h
  refine minimal_rebase_flatten ?_ hapart
  have hplaces := fun path hpath => And.intro (hends path hpath) (hspared path hpath)
  refine ((List.forall₂_and_left paths parts).2 ⟨hplaces, Steps.mapM_eq_ok_iff.1 hparts⟩).imp ?_
  exact fun path part ⟨⟨hend, hspared⟩, hpart⟩ => minimal_rebase_atPath hend hspared hpart live

/-- The place of a subtree is not that of a map of texts if places are apart. -/
theorem isTextMap_eq_false (hapart : paths.Pairwise fun path other => Apart path.wire other.wire)
    (hmem : .subtree config wire ∈ paths) : isTextMap paths wire = false := by
  have hsymm : Std.Symm fun path other : MutablePath => Apart path.wire other.wire :=
    ⟨fun _ _ => Apart.symm⟩
  refine List.any_eq_false.2 fun path hpath htext => ?_
  cases path with
  | textMap config' wire' =>
      have hwires : Apart wire' wire := hapart.forall hpath hmem (by simp)
      exact hwires.ne (eq_of_beq htext)
  | subtree config' wire' => cases htext

/-- Where no place of a path that may change lies within that of another one, the edits between two
trees are minimal, and they stay so when they are made to spare the maps of a live object. -/
theorem between_minimal {projection : Except Failure Json}
    (hends : ∀ path ∈ paths, path.wire.toList.getLast? ≠ some '/')
    (hapart : paths.Pairwise fun path other => Apart path.wire other.wire)
    (h : between old new paths projection = .ok edits) (live : Json) :
    Minimal paths old new edits ∧ Minimal paths old new (rebase paths live edits) := by
  have hplain : rebase [] live edits = edits :=
    rebase_eq_self fun edit _ => rebaseEdit_eq_self rfl live
  constructor
  · rw [← hplain]
    exact minimal_rebase_between hends hapart (fun _ _ _ _ _ => rfl) h live
  · refine minimal_rebase_between hends hapart (fun path hpath config wire hsubtree => ?_) h live
    exact isTextMap_eq_false hapart (hsubtree ▸ hpath)

/-- A label goes, two labels change whose keys hold slashes and tildes, the first annotations come
to an object that has one from elsewhere, and a subtree is replaced. -/
theorem between_minimal_escaped :
    let tree (labels annotations : Json.Fields) (replicas : Int) : Tree :=
      .obj [("metadata", .arr [.obj [("annotations", .obj annotations), ("labels", .obj labels)]]),
        ("spec", .arr [.obj [("replicas", .int replicas)]])]
    let before := tree [("a/b", .str "1"), ("app", .str "web"), ("same", .str "x")] [] 1
    let after := tree [("a/b", .str "2"), ("a~1b", .str "3"), ("same", .str "x")]
      [("note", .str "n"), ("owner", .str "me")] 2
    let paths : List MutablePath := [.textMap ["metadata", "0", "labels"] "/metadata/labels",
      .textMap ["metadata", "0", "annotations"] "/metadata/annotations",
      .subtree ["spec"] "/spec"]
    let spec : Json := .obj [("replicas", .int 2)]
    let live : Json :=
      .obj [("metadata", .obj [("annotations", .obj [("kept", .str "k")])])]
    let labelEdits : List Edit := [.remove "/metadata/labels/app",
      .replace "/metadata/labels/a~1b" (.str "2"), .add "/metadata/labels/a~01b" (.str "3")]
    let edits := labelEdits ++ [.add "/metadata/annotations"
      (.obj [("note", .str "n"), ("owner", .str "me")]), .replace "/spec" spec]
    let rebased := labelEdits ++ [.add "/metadata/annotations/note" (.str "n"),
      .add "/metadata/annotations/owner" (.str "me"), .replace "/spec" spec]
    between before after paths (.ok (.obj [("spec", spec)])) = .ok edits ∧
      rebase paths live edits = rebased ∧
      Minimal paths before after edits ∧ Minimal paths before after rebased := by
  intro tree before after paths spec live labelEdits edits rebased
  have hbetween : between before after paths (.ok (.obj [("spec", spec)])) = .ok edits := by decide
  have hrebase : rebase paths live edits = rebased := by decide
  have hminimal := between_minimal (by decide) (by decide) hbetween live
  exact ⟨hbetween, hrebase, hminimal.1, hrebase ▸ hminimal.2⟩

end Change

end Reconcile
