import Mathlib.Data.List.Basic
import Reconcile.Proofs.Json.Patches
import Reconcile.Proofs.Kind.Managed

/-!
# Maps of texts that others write too

A live map of texts may hold more keys than the trees know of, and other values than they say. The
edits of an update merge the difference of two trees into it (`Change.Merges`): they remove and set
what the trees have changed, and leave every other key and all the rest of the document alone
(`Kind.merges_live_texts`).
-/

namespace Reconcile

open Json (Edit Fields Operation)
open Json.Pointer

namespace Change

variable {old new : Dict String} {document inner : Fields} {outer name pointer : String}

/-- What the change from one map of texts to another makes of a live map, each of them absent or
the fields of an object. -/
structure Merges (old new : Dict String) (before after : Option Fields) : Prop where
  /-- There is no map afterwards if there was none and none is asked for. -/
  absent_iff : after = none ↔ before = none ∧ new = Dict.empty
  removed : ∀ k, (old.get? k).isSome → new.get? k = none → (after.getD []).lookup k = none
  set : ∀ k v, new.get? k = some v → old.get? k ≠ some v →
    (after.getD []).lookup k = some (.str v)
  kept : ∀ k, old.get? k = new.get? k → (after.getD []).lookup k = (before.getD []).lookup k

/-- The edits of single keys merge a change into a live map. -/
theorem merges_merged (old new : Dict String) (fields : Fields) :
    Merges old new (some fields) (some (merged old new fields)) := by
  refine ⟨⟨fun h => (nomatch h), fun h => (nomatch h.1)⟩, fun k hold hnew => ?_,
    fun k v hnew hold => ?_, fun k hsame => ?_⟩
  · rw [Option.getD_some, lookup_merged, hnew]
    exact if_pos hold
  · rw [Option.getD_some, lookup_merged, hnew]
    exact if_neg hold
  · rw [Option.getD_some, Option.getD_some, lookup_merged, hsame]
    cases new.get? k with
    | some v => exact if_pos rfl
    | none => rfl

/-- A whole map is added where there is none, unless it is empty. -/
theorem merges_added (new : Dict String) :
    Merges Dict.empty new none
      (if new.isEmpty then none else some (new.entries.map fun (k, v) => (k, .str v))) := by
  cases hempty : new.isEmpty with
  | true =>
      obtain rfl := Dict.isEmpty_iff.1 hempty
      exact ⟨⟨fun _ => ⟨rfl, rfl⟩, fun _ => rfl⟩, fun _ _ _ => rfl, fun _ _ hnew => (nomatch hnew),
        fun _ _ => rfl⟩
  | false =>
      have hlookup : ∀ k, (new.entries.map fun (k, v) => (k, Json.str v)).lookup k =
          (new.get? k).map Json.str := Entries.lookup_map_value Json.str new.entries
      refine ⟨⟨fun h => (nomatch h), fun h => ?_⟩, fun k _ hnew => ?_, fun k v hnew _ => ?_,
        fun k hsame => ?_⟩
      · rw [Dict.isEmpty_iff.2 h.2] at hempty
        cases hempty
      · exact (hlookup k).trans (by rw [hnew]; rfl)
      · exact (hlookup k).trans (by rw [hnew]; rfl)
      · exact (hlookup k).trans (by rw [← hsame]; rfl)

/-- The member that the edits of an update leave in an object merges their change into the member
that was there. -/
theorem merges_withTexts {before : Option Fields} (hbefore : inner.lookup name = before.map .obj)
    (hmergeable : Mergeable old (before.map .obj)) (new : Dict String) :
    ∃ after, (withTexts name old new inner).lookup name = after.map .obj ∧
      Merges old new before after := by
  cases before with
  | some fields =>
      refine ⟨_, ?_, merges_merged old new fields⟩
      rw [withTexts, hbefore]
      exact (Entries.lookup_insert _ _ _ _).trans (if_pos rfl)
  | none =>
      obtain rfl : old = Dict.empty := hmergeable
      refine ⟨_, ?_, merges_added new⟩
      rw [withTexts, hbefore]
      cases new.isEmpty with
      | true => exact hbefore
      | false => exact (Entries.lookup_insert _ _ _ _).trans (if_pos rfl)

theorem isTextMap_of_mem {paths : List MutablePath} {config : List String} {wire : String}
    (h : .textMap config wire ∈ paths) : isTextMap paths wire = true :=
  List.any_eq_true.2 ⟨_, h, beq_self_eq_true wire⟩

end Change

namespace Kind

variable {α : Type} {kind : Kind α} {root key : String}

/-- The maps of texts that may change are members of the metadata. -/
theorem Lawful.wire_of_mem (h : kind.Lawful root key) {config : List String} {wire : String}
    (hpath : .textMap config wire ∈ kind.mutablePaths) :
    Text.trimEnd '/' wire = wire ∧ ∃ name, tokens? wire = some ["metadata", name] := by
  rw [h.mutablePaths_eq] at hpath
  simp only [metadataPaths, List.cons_append, List.nil_append, List.mem_cons, List.not_mem_nil,
    MutablePath.textMap.injEq, reduceCtorEq, or_false] at hpath
  rcases hpath with ⟨_, rfl⟩ | ⟨_, rfl⟩
  · exact ⟨by decide, "labels", by decide⟩
  · exact ⟨by decide, "annotations", by decide⟩

/-- The edits between two trees at a map of texts merge what the trees have changed into every live
map that has the keys of the old one, whatever else it holds, and change nothing else of the live
object. -/
theorem merges_live_texts (hkind : kind.Managed root key) {config : List String} {wire : String}
    (hpath : .textMap config wire ∈ kind.mutablePaths) (oldTree newTree : Tree)
    (projection : Except Failure Json) {document metadata : Fields}
    (hdocument : Entries.Ascending document) (hmetadata : Entries.Ascending metadata)
    (hmember : document.lookup "metadata" = some (.obj metadata)) {before : Option Fields}
    (hbefore : find? wire (.obj document) = before.map .obj)
    (hmergeable : Change.Mergeable (Change.textsAt oldTree config) (before.map .obj)) :
    ∃ edits changed after,
      Change.between oldTree newTree [.textMap config wire] projection = .ok edits ∧
      Operation.applyAll ((Change.rebase kind.mutablePaths (.obj document) edits).map .edit)
        (.obj document) = .ok changed ∧
      find? wire changed = after.map .obj ∧
      Change.Merges (Change.textsAt oldTree config) (Change.textsAt newTree config) before after ∧
      Json.without wire changed = Json.without wire (.obj document) := by
  obtain ⟨htrim, name, htokens⟩ := hkind.lawful.wire_of_mem hpath
  let old := Change.textsAt oldTree config
  let new := Change.textsAt newTree config
  have hlive : find? wire (.obj document) = metadata.lookup name := find?_inner htokens hmember
  have hname : metadata.lookup name = before.map .obj := hlive.symm.trans hbefore
  obtain ⟨after, hafter, hmerges⟩ := Change.merges_withTexts hname hmergeable new
  have hperform : Edit.performAll?
      (Change.rebase kind.mutablePaths (.obj document) (Change.ofTextMaps wire old new))
      (.obj document) = some (.obj (Entries.insert "metadata"
        (.obj (Change.withTexts name old new metadata)) document)) :=
    Change.performAll?_texts (Change.isTextMap_of_mem hpath) htrim htokens hdocument hmetadata
      hmember hlive (hname ▸ hmergeable.editable new)
  have hchanged : (Entries.insert "metadata" (.obj (Change.withTexts name old new metadata))
      document).lookup "metadata" = some (.obj (Change.withTexts name old new metadata)) :=
    (Entries.lookup_insert _ _ _ _).trans (if_pos rfl)
  refine ⟨_, _, after, ?_, Operation.applyAll_edits_eq_ok_iff.2 hperform, ?_, hmerges, ?_⟩
  · show ([.textMap config wire].mapM (Change.atPath oldTree newTree projection)).map
      List.flatten = .ok (Change.ofTextMaps wire old new)
    exact congrArg Except.ok (List.append_nil _)
  · rw [find?_inner htokens hchanged, hafter]
  · rw [Json.without_inner htokens (hdocument.insert _ _) hchanged,
      Json.without_inner htokens hdocument hmember, Entries.insert_insert,
      Change.erase_withTexts hmetadata]

/-- Keys that are empty or hold slashes and tildes are changed in labels where others have changed
one value and added one key. -/
theorem merges_live_texts_escaped :
    let tree (labels : Fields) : Tree :=
      .obj [("metadata", .arr [.obj [("labels", .obj labels)]])]
    let old := tree [("", .str "1"), ("/", .str "2"), ("a~1b", .str "3")]
    let new := tree [("", .str "1"), ("a~1b", .str "5"), ("~", .str "4")]
    let labels : Fields :=
      [("", .str "changed"), ("/", .null), ("a~1b", .str "3"), ("owner/x", .int 7)]
    let metadata : Fields := [("labels", .obj labels), ("name", .str "r")]
    let live : Json := .obj [("metadata", .obj metadata)]
    let config := ["metadata", "0", "labels"]
    let wire := "/metadata/labels"
    ∃ edits changed after,
      Change.between old new [.textMap config wire] (.ok .null) = .ok edits ∧
      Operation.applyAll ((Change.rebase Role.kind.mutablePaths live edits).map .edit) live =
        .ok changed ∧
      find? wire changed = some (.obj after) ∧
      after.lookup "" = some (.str "changed") ∧ after.lookup "/" = none ∧
      after.lookup "a~1b" = some (.str "5") ∧ after.lookup "~" = some (.str "4") ∧
      after.lookup "owner/x" = some (.int 7) ∧
      Json.without wire changed = Json.without wire live := by
  intro tree old new labels metadata live config wire
  have hkeys : ∀ k ∈ (Change.textsAt old config).keys, (labels.lookup k).isSome := by decide
  have hmergeable : Change.Mergeable (Change.textsAt old config) (some (.obj labels)) :=
    ⟨labels, rfl, fun k hk => hkeys k (Dict.mem_keys_iff.2 hk)⟩
  have hpath : .textMap config wire ∈ Role.kind.mutablePaths := by decide
  have hdocument : Entries.Ascending [("metadata", Json.obj metadata)] := by decide
  have hbefore : find? wire live = (some labels).map .obj := by decide
  obtain ⟨edits, changed, after, hedits, hchanged, hfind, hmerges, hrest⟩ :=
    merges_live_texts .role hpath old new (.ok .null) hdocument (by decide) rfl hbefore hmergeable
  obtain ⟨fields, rfl⟩ : ∃ fields, after = some fields :=
    Option.ne_none_iff_exists'.1 fun hnone => nomatch (hmerges.absent_iff.1 hnone).1
  exact ⟨edits, changed, fields, hedits, hchanged, hfind, hmerges.kept "" (by decide),
    hmerges.removed "/" (by decide) (by decide), hmerges.set "a~1b" "5" (by decide) (by decide),
    hmerges.set "~" "4" (by decide) (by decide), hmerges.kept "owner/x" (by decide), hrest⟩

end Kind

end Reconcile
