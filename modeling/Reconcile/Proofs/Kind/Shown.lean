import Mathlib.Data.List.Basic
import Reconcile.Proofs.Change.Lost
import Reconcile.Proofs.Kind.Managed

/-!
# Updates of objects that have drifted

An object may have drifted from every declaration. `Kind.Showing` says what the tree that shows it
holds all the same: an accepted block with the metadata of the object, and with content only if the
object has some. Its annotations are among those of the object, but its labels are also those that
the prior tree declares. So the edits that are planned from it apply to the object exactly if they
leave alone the declared labels that the object has lost (`Kind.Managed.performable_iff`).
-/

namespace Reconcile.Kind

open Json.Edit Json.Pointer

variable {α : Type} {kind : Kind α} {root key : String}

/-- The functions of a kind agree on how any object is shown against any prior tree. -/
structure Showing (kind : Kind α) (root key : String) : Prop where
  metadata_mem : Field.single "metadata" ObjectMeta.schema .required ∈ kind.schema
  exists_shown : ∀ (object : α) (prior : Tree), ∃ shown, kind.flatten object prior = .obj shown ∧
    kind.schema.Accepts shown ∧
    Block.child? shown "metadata" =
      some ((kind.metadata object).flatten (Tree.block? prior "metadata")) ∧
    (Change.isDeclared (shown.lookup root) → (kind.content key object).isSome)

theorem Managed.showing (h : kind.Managed root key) : kind.Showing root key := by
  cases h with
  | deployment =>
      refine ⟨by simp [Deployment.kind, Deployment.schema], fun d prior => ?_⟩
      refine ⟨_, d.flatten_eq prior, d.shown_accepts _ _,
        Block.child?_of_lookup (d.lookup_shown _ _ "metadata"), fun hdeclared => ?_⟩
      rw [Deployment.content_spec]
      rw [d.lookup_shown] at hdeclared
      cases hspec : d.spec with
      | some spec => rfl
      | none =>
          rw [hspec] at hdeclared
          cases hdeclared
  | role =>
      refine ⟨by simp [Role.kind, Role.schema], fun r prior => ?_⟩
      refine ⟨_, r.flatten_eq prior, r.shown_accepts _,
        Block.child?_of_lookup (r.lookup_shown _ "metadata"), fun hdeclared => ?_⟩
      rw [Role.content_rules]
      rw [r.lookup_shown] at hdeclared
      cases hrules : r.rules with
      | some rules => rfl
      | none =>
          rw [hrules] at hdeclared
          cases hdeclared

section Metadata

variable {block : Block} (h : kind.Showing root key)

include h

/-- The texts at a path of metadata are those of the metadata block, if there is one. -/
theorem Showing.textsAt_metadata (hblock : kind.schema.Accepts block) (name : String) :
    Change.textsAt (.obj block) ["metadata", "0", name] =
      ((Block.child? block "metadata").map (Block.texts · name)).getD Dict.empty := by
  cases hchild : Block.child? block "metadata" with
  | some child => exact Change.textsAt_child hchild name
  | none =>
      have hfind : Tree.find? ["metadata", "0", name] (.obj block) = none := by
        cases hvalue : block.lookup "metadata" with
        | none => simp [Tree.find?, hvalue]
        | some value =>
            obtain ⟨blocks, rfl, _⟩ := hblock.exists_blocks h.metadata_mem rfl hvalue
            cases blocks with
            | nil => simp [Tree.find?, hvalue]
            | cons first rest =>
                have hfirst := Block.child?_eq_some_iff.2 ⟨rest.map .obj, hvalue⟩
                cases hchild.symm.trans hfirst
      rw [Change.textsAt, hfind]
      rfl

end Metadata

/-- Filling the gaps of a tree leaves its labels and its annotations as they are. -/
theorem Managed.textsAt_fill (hkind : kind.Managed root key) {block : Block}
    (hblock : kind.schema.Accepts block) {prior : Option Block}
    (hfilled : kind.schema.Accepts (kind.schema.fill prior block)) {name : String}
    (hname : name = "labels" ∨ name = "annotations") :
    Change.textsAt (.obj (kind.schema.fill prior block)) ["metadata", "0", name] =
      Change.textsAt (.obj block) ["metadata", "0", name] := by
  have hnodup := hkind.lawful.wellNamed.nodup
  rw [hkind.showing.textsAt_metadata hfilled, hkind.showing.textsAt_metadata hblock]
  cases hchild : Block.child? block "metadata" with
  | some metaBlock =>
      have haccepts := hblock.child hchild hkind.restoring.metadata_mem
      obtain ⟨hlabels, hannotations⟩ :=
        ObjectMeta.texts_fill haccepts (prior.bind (Block.child? · "metadata"))
      rw [Schema.child?_fill hnodup hkind.restoring.metadata_mem hchild prior]
      rcases hname with rfl | rfl
      · exact hlabels
      · exact hannotations
  | none =>
      have hnone : Block.child? (kind.schema.fill prior block) "metadata" = none :=
        Schema.child?_fill_eq_none hnodup hblock hkind.showing.metadata_mem rfl rfl rfl hchild prior
      rw [hnone]

/-! ## Labels and annotations that are shown -/

/-- The labels that are shown have lost what the declared ones have lost. -/
theorem keepsLost_mergeLabels_iff {prior : Option Block} {observed : Option (Dict String)}
    {wanted : Dict String} :
    Change.KeepsLost (ObjectMeta.mergeLabels prior observed) wanted observed ↔
      Change.KeepsLost ((prior.map (Block.texts · "labels")).getD Dict.empty) wanted observed := by
  cases observed with
  | none => exact Iff.rfl
  | some d =>
      refine forall_congr' fun k => ?_
      rw [Dict.mem_keys_iff, Dict.mem_keys_iff, ObjectMeta.mergeLabels, Option.getD_some,
        Dict.get?_union]
      constructor
      · intro h hdeclared hlost
        rw [hlost, Option.none_or] at h
        exact h hdeclared rfl
      · intro h hshown hlost
        rw [hlost, Option.none_or] at hshown ⊢
        exact h hshown hlost

/-- No annotation is shown that the object has lost. -/
theorem keepsLost_filterAnnotations (prior : Option Block) (observed : Option (Dict String))
    (wanted : Dict String) :
    Change.KeepsLost (ObjectMeta.filterAnnotations prior observed) wanted observed := by
  cases observed with
  | none => exact .inl rfl
  | some d =>
      intro k hshown hlost
      rw [Dict.mem_keys_iff, ObjectMeta.filterAnnotations, Option.getD_some, Dict.get?_filter,
        hlost] at hshown
      cases hshown

/-! ## Edits that are planned from a tree that shows an object -/

/-- The edits of an update can be performed on an object that has not lost any annotation or content
of the old tree exactly if they leave alone the labels that it has lost. -/
theorem Lawful.performable_iff (h : kind.Lawful root key) {old desired : Block} {live : α}
    {edits : List Json.Edit} (hdesired : kind.schema.Accepts desired)
    (hedits : kind.edits (.obj old) (.obj desired) = .ok edits)
    (hannotations : Change.KeepsLost (Change.textsAt (.obj old) ["metadata", "0", "annotations"])
      (Change.textsAt (.obj desired) ["metadata", "0", "annotations"])
      (kind.metadata live).annotations)
    (hcontent : Change.isDeclared (old.lookup root) → (kind.content key live).isSome) :
    (performAll? (Change.rebase kind.mutablePaths (kind.toJson live) edits)
        (kind.toJson live)).isSome ↔
      Change.KeepsLost (Change.textsAt (.obj old) ["metadata", "0", "labels"])
        (Change.textsAt (.obj desired) ["metadata", "0", "labels"])
        (kind.metadata live).labels := by
  obtain ⟨after, hafter, _⟩ := Steps.bind_eq_ok_iff.1 hedits
  rw [h.edits_of_expand hafter (h.isSome_content hdesired hafter)] at hedits
  cases hedits
  let m := kind.metadata live
  have hlabelTokens : tokens? "/metadata/labels" = some ["metadata", "labels"] := by decide
  have hannotationTokens : tokens? "/metadata/annotations" = some ["metadata", "annotations"] := by
    decide
  have hfields := h.ascending live
  have hmeta := h.lookup_metadata live
  rw [h.toJson_eq live, Change.rebase_append, performAll?_append]
  constructor
  · intro hsome
    by_contra hlost
    rw [Change.performAll?_texts_eq_none h.isTextMap_labels (by decide) hlabelTokens hmeta
      (find?_inner hlabelTokens hmeta) m.lookup_labels hlost] at hsome
    cases hsome
  · intro hlabels
    obtain ⟨labelled, hfirst, hlabelled, hrest⟩ := Change.exists_performAll?_texts
      h.isTextMap_labels (by decide) hlabelTokens hfields m.ascending_fields hmeta
      (find?_inner hlabelTokens hmeta) m.lookup_labels hlabels
    -- The labels come first, and the annotations are found as they were after them.
    have hfound : find? "/metadata/annotations" (.obj (kind.fields live)) =
        labelled.lookup "annotations" :=
      (find?_inner hannotationTokens hmeta).trans (hrest "annotations" (by decide)).symm
    obtain ⟨annotated, hsecond, _⟩ := Change.exists_performAll?_texts h.isTextMap_annotations
      (by decide) hannotationTokens (hfields.insert "metadata" (.obj labelled)) hlabelled
      ((Entries.lookup_insert _ _ _ _).trans (if_pos rfl)) hfound
      ((hrest "annotations" (by decide)).trans m.lookup_annotations) hannotations
    rw [hfirst, Option.bind_some, Change.rebase_append, performAll?_append, hsecond,
      Option.bind_some, Entries.insert_insert]
    split
    · rfl
    · have hkept : Change.isDeclared (old.lookup root) = true →
          ((Entries.insert "metadata" (.obj annotated) (kind.fields live)).lookup key).isSome := by
        intro hdeclared
        rw [Entries.lookup_insert, if_neg h.key_ne]
        exact hcontent hdeclared
      obtain ⟨changed, hthird⟩ :=
        Change.exists_performAll?_projection h.tokens?_key hkept (kind.content key after)
      rw [h.rebase_ofProjection, hthird]
      rfl

/-- The edits that are planned from the tree that shows an object can be performed on the object
exactly if they leave alone the labels that the prior tree declares and the object has lost. -/
theorem Managed.performable_iff (hkind : kind.Managed root key) {live : α} {prior new : Tree}
    (hprior : kind.schema.Conforms prior) (hnew : kind.schema.Conforms new)
    {edits : List Json.Edit} (hplan : kind.plan (kind.flatten live prior) new = .ok edits) :
    (performAll? (Change.rebase kind.mutablePaths (kind.toJson live) edits)
        (kind.toJson live)).isSome ↔
      Change.KeepsLost (Change.textsAt prior ["metadata", "0", "labels"])
        (Change.textsAt new ["metadata", "0", "labels"]) (kind.metadata live).labels := by
  have hlawful := hkind.lawful
  obtain ⟨shown, hflatten, hshown, hmeta, hcontent⟩ := hkind.showing.exists_shown live prior
  obtain ⟨priorBlock, rfl, hpriorBlock⟩ := hprior
  obtain ⟨newBlock, rfl, hnewBlock⟩ := hnew
  rw [hflatten] at hplan
  have hfilled : kind.schema.Accepts (kind.schema.fill (some shown) newBlock) := by
    refine Schema.fill_accepts hlawful.wellNamed hlawful.typedDefaults ?_ hnewBlock
    rintro _ ⟨⟩
    exact hshown
  have hlabels : Change.textsAt (.obj shown) ["metadata", "0", "labels"] =
      ObjectMeta.mergeLabels (Block.child? priorBlock "metadata") (kind.metadata live).labels :=
    (Change.textsAt_child hmeta "labels").trans
      (Block.texts_of_lookup (ObjectMeta.lookup_flatten _ _ "labels"))
  have hannotations : Change.textsAt (.obj shown) ["metadata", "0", "annotations"] =
      ObjectMeta.filterAnnotations (Block.child? priorBlock "metadata")
        (kind.metadata live).annotations :=
    (Change.textsAt_child hmeta "annotations").trans
      (Block.texts_of_lookup (ObjectMeta.lookup_flatten _ _ "annotations"))
  have hkeeps := keepsLost_filterAnnotations (Block.child? priorBlock "metadata")
    (kind.metadata live).annotations
  have hperformable := hlawful.performable_iff hfilled hplan (hannotations ▸ hkeeps _) hcontent
  rw [hperformable, hkind.textsAt_fill hnewBlock hfilled (.inl rfl), hlabels,
    keepsLost_mergeLabels_iff, ← hkind.showing.textsAt_metadata hpriorBlock]

end Reconcile.Kind
