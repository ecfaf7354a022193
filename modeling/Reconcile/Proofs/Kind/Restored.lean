import Mathlib.Data.List.Basic
import Reconcile.Proofs.Kind.Edits
import Reconcile.Proofs.Kind.Observable
import Reconcile.Proofs.Metadata.Restored

/-!
# Trees that keep what they ask for

A configuration tree answers a tree that is asked for if filling the gaps of the latter changes
nothing that may be edited (`Kind.Answers`); then nothing is planned (`Answers.plan_eq_nil`). A
canonical tree is answered by its own filled form, and by the tree that shows an object which
follows the one that it declares, as `Kind.Restoring` says of each kind.
-/

namespace Reconcile.Kind

variable {α : Type} {kind : Kind α} {root key : String}

/-- The known tree declares what it would declare if the other tree were asked for. -/
structure Answers (kind : Kind α) (root : String) (config tree : Block) : Prop where
  accepts : kind.schema.Accepts config
  storable : kind.schema.Every Schema.Storable config
  desired : kind.schema.Accepts (kind.schema.fill (some config) tree)
  declares : ∃ before after, kind.expand (.obj config) = .ok before ∧
    kind.expand (.obj (kind.schema.fill (some config) tree)) = .ok after ∧
    (kind.metadata before).labels.getD Dict.empty =
      (kind.metadata after).labels.getD Dict.empty ∧
    (kind.metadata before).annotations.getD Dict.empty =
      (kind.metadata after).annotations.getD Dict.empty
  content : config.lookup root = (kind.schema.fill (some config) tree).lookup root

/-- The functions of a kind agree on how an object is shown that a canonical tree declares. -/
structure Restoring (kind : Kind α) (root key : String) : Prop where
  canonicalDefaults : kind.schema.Throughout Schema.CanonicalDefaults
  metadata_mem : kind.schema.typeOf? "metadata" = some (.block ObjectMeta.schema true)
  /-- Whether a tree declares an object depends on the name in its metadata and on the place of its
  content alone. -/
  expand_congr : ∀ {block other metaBlock : Block} {object : α},
    kind.expand (.obj block) = .ok object → Block.child? other "metadata" = some metaBlock →
    ObjectMeta.hasName metaBlock = true → other.lookup root = block.lookup root →
    ∃ object', kind.expand (.obj other) = .ok object'
  /-- Asking again for a canonical tree leaves the place of the content as the object is shown. -/
  exists_shown : ∀ {tree metaBlock : Block} {declared live : α}, kind.schema.Canonical tree →
    kind.expand (.obj (kind.schema.fill none tree)) = .ok declared →
    kind.Follows key false declared live →
    Block.child? (kind.schema.fill none tree) "metadata" = some metaBlock →
    ObjectMeta.schema.Every Schema.Storable ((kind.metadata live).flatten (some metaBlock)) →
    ∃ shown, kind.flatten live (.obj (kind.schema.fill none tree)) = .obj shown ∧
      shown.lookup root = (kind.schema.fill (some shown) tree).lookup root ∧
      kind.schema.Every Schema.Storable shown

/-- Nothing is planned for a tree that is answered. -/
theorem Answers.plan_eq_nil {config tree : Block} (h : kind.Answers root config tree)
    (hlawful : kind.Lawful root key) : kind.plan (.obj config) (.obj tree) = .ok [] := by
  obtain ⟨before, after, hbefore, hafter, hlabels, hannotations⟩ := h.declares
  have hedits := hlawful.edits_eq h.accepts h.desired hbefore hafter
  rw [hlabels, hannotations, Change.ofTextMaps_self, Change.ofTextMaps_self, contentEdits,
    if_pos h.content] at hedits
  exact hedits

section Restoring

variable {tree : Block} {declared live : α} (h : kind.Restoring root key)
  (hlawful : kind.Lawful root key)

include h hlawful

/-- A canonical tree is answered by its own filled form. -/
theorem Restoring.answers_fill (htree : kind.schema.Canonical tree)
    (hexpand : kind.expand (.obj (kind.schema.fill none tree)) = .ok declared) :
    kind.Answers root (kind.schema.fill none tree) tree := by
  have hnormal := htree.normal_fill hlawful.wellNamed hlawful.typedDefaults h.canonicalDefaults
  have hagain := Schema.fill_fill hlawful.wellNamed htree.accepts
  refine ⟨hnormal.accepts, hnormal.every_storable, ?_,
    ⟨declared, declared, hexpand, ?_, rfl, rfl⟩, ?_⟩
  · rw [hagain]
    exact hnormal.accepts
  · rw [hagain]
    exact hexpand
  · rw [hagain]

/-- A canonical tree is answered by the tree that shows an object which follows the one that it
declares. -/
theorem Restoring.answers_shown (hobs : kind.Observable key) (htree : kind.schema.Canonical tree)
    (hexpand : kind.expand (.obj (kind.schema.fill none tree)) = .ok declared)
    (hfollows : kind.Follows key false declared live) {name : String}
    (hname : (kind.metadata live).name = some name) (hne : name ≠ "") :
    ∃ shown, kind.flatten live (.obj (kind.schema.fill none tree)) = .obj shown ∧
      kind.Answers root shown tree := by
  have hnodup := hlawful.wellNamed.nodup
  have hnormal := htree.normal_fill hlawful.wellNamed hlawful.typedDefaults h.canonicalDefaults
  obtain ⟨metaBlock, hmeta, hdeclares, _⟩ := hlawful.metadata_expand hexpand
  obtain ⟨other, hother, hdeclared⟩ := hfollows.declaredBy hlawful hexpand
  obtain rfl : metaBlock = other := Option.some.inj (hmeta.symm.trans hother)
  have hstored :=
    ObjectMeta.flatten_storable (hnormal.toCanonical.child h.metadata_mem hmeta) hdeclared
  obtain ⟨shown, hflatten, hroot, hstorable⟩ :=
    h.exists_shown htree hexpand hfollows hmeta hstored
  obtain ⟨shown', again, hflatten', haccepts, hagain, hsame⟩ :=
    hobs.flatten_follows hnormal.accepts hexpand hfollows.interrupt hname hne
  obtain rfl : shown = shown' := Json.obj.inj (hflatten.symm.trans hflatten')
  -- The metadata block of the tree, of its filled form, as shown, and filled from what is shown.
  obtain ⟨unfilled, hunfilled, rfl⟩ :=
    Schema.exists_child_of_fill hnodup h.metadata_mem hmeta
  have hunfilledAccepts := htree.accepts.child hunfilled h.metadata_mem
  have hdesiredMeta := Schema.child?_fill hnodup h.metadata_mem hunfilled (some shown)
  have hdesiredName := ObjectMeta.hasName_fill hunfilledAccepts hdeclares
    ((some shown).bind (Block.child? · "metadata"))
  obtain ⟨after, hafter⟩ := h.expand_congr hagain hdesiredMeta hdesiredName hroot.symm
  have htexts := ObjectMeta.texts_fill hunfilledAccepts
    ((some shown).bind (Block.child? · "metadata"))
  have htextsNone := ObjectMeta.texts_fill hunfilledAccepts none
  refine ⟨shown, hflatten, haccepts, hstorable, ?_,
    ⟨again, after, hagain, hafter, ?_, ?_⟩, hroot⟩
  · refine Schema.fill_accepts hlawful.wellNamed hlawful.typedDefaults ?_ htree.accepts
    rintro _ ⟨⟩
    exact haccepts
  · rw [← hsame.labels, ← hlawful.textsAt_labels hafter, Change.textsAt_child hdesiredMeta,
      htexts.1, ← htextsNone.1]
    exact hdeclared.labels.symm
  · rw [← hsame.annotations, ← hlawful.textsAt_annotations hafter,
      Change.textsAt_child hdesiredMeta, htexts.2, ← htextsNone.2]
    exact hdeclared.annotations.symm

end Restoring

end Reconcile.Kind
