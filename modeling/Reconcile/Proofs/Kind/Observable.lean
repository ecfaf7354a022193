import Mathlib.Data.List.Basic
import Reconcile.Proofs.Kind.Laws
import Reconcile.Proofs.Metadata.Declaration

/-!
# Objects that follow a declaration

A live object follows a declared one if it has its labels, its annotations and its content. The
content may also be what the drain of its kind leaves, if a deletion has been interrupted.
`Kind.Observable` says what the functions of a kind do with such objects: the tree that shows one
declares it again, and its drain can be performed on it.
-/

namespace Reconcile

variable {α : Type} {kind : Kind α} {root key : String}

namespace Kind

/-- What the drain of its kind leaves of an object. -/
def drained (kind : Kind α) (object : α) : α :=
  match kind.drain with
  | some edits => ((Json.Edit.performAll? edits (kind.toJson object)).bind kind.ofJson?).getD object
  | none => object

/-- A live object has the labels, the annotations and the content of a declared one, or, if a
deletion may have been interrupted, the content that the drain leaves of it. -/
structure Follows (kind : Kind α) (key : String) (interrupted : Bool) (declared live : α) :
    Prop where
  labels : (kind.metadata live).labels.getD Dict.empty =
    (kind.metadata declared).labels.getD Dict.empty
  annotations : (kind.metadata live).annotations.getD Dict.empty =
    (kind.metadata declared).annotations.getD Dict.empty
  content : kind.content key live = kind.content key declared ∨
    interrupted = true ∧ kind.content key live = kind.content key (kind.drained declared)

/-- The functions of a kind agree on what is declared and what is observed. -/
structure Observable (kind : Kind α) (key : String) : Prop where
  /-- The status of an object is none of its content. -/
  key_ne_status : key ≠ "status"
  ofJson?_toJson : ∀ object, kind.ofJson? (kind.toJson object) = some object
  metadata_withMetadata : ∀ object m, kind.metadata (kind.withMetadata object m) = m
  content_withMetadata : ∀ object m,
    kind.content key (kind.withMetadata object m) = kind.content key object
  /-- There is an object with the metadata and the content of any two others. -/
  exists_graft : ∀ (live other : α) (m : ObjectMeta), ∃ object, ∀ k,
    (kind.fields object).lookup k =
      if k = key then kind.content key other
      else if k = "metadata" then some (.obj m.fields)
      else (kind.fields live).lookup k
  /-- A drain leaves content where there was some. -/
  isSome_drained : ∀ {block : Block} {declared : α}, kind.schema.Accepts block →
    kind.expand (.obj block) = .ok declared →
    (kind.content key (kind.drained declared)).isSome = (kind.content key declared).isSome
  /-- What a drain leaves depends on the content alone. -/
  drained_congr : ∀ {block other : Block} {declared declared' : α}, kind.schema.Accepts block →
    kind.expand (.obj block) = .ok declared → kind.schema.Accepts other →
    kind.expand (.obj other) = .ok declared' →
    kind.content key declared = kind.content key declared' →
    kind.content key (kind.drained declared) = kind.content key (kind.drained declared')
  /-- An object that follows a declared one can be drained. -/
  performAll?_drain : ∀ {block : Block} {declared live : α} {edits : List Json.Edit},
    kind.schema.Accepts block → kind.expand (.obj block) = .ok declared →
    kind.Follows key true declared live → kind.drain = some edits →
    ∃ object, Json.Edit.performAll? edits (kind.toJson live) = some (kind.toJson object) ∧
      kind.metadata object = kind.metadata live ∧
      kind.content key object = kind.content key (kind.drained declared)
  /-- The tree that shows an object that follows a declared one declares the object. -/
  flatten_follows : ∀ {block : Block} {declared live : α} {name : String},
    kind.schema.Accepts block → kind.expand (.obj block) = .ok declared →
    kind.Follows key true declared live → (kind.metadata live).name = some name → name ≠ "" →
    ∃ shown again, kind.flatten live (.obj block) = .obj shown ∧ kind.schema.Accepts shown ∧
      kind.expand (.obj shown) = .ok again ∧ kind.Follows key false again live

variable {interrupted : Bool} {declared live other : α}

/-- An object that surely follows another one has its content. -/
theorem Follows.content_eq (h : kind.Follows key false declared live) :
    kind.content key live = kind.content key declared := by
  rcases h.content with hsame | ⟨hfalse, _⟩
  · exact hsame
  · cases hfalse

/-- An object that follows another one surely follows it also if a deletion may have been
interrupted. -/
theorem Follows.weaken (h : kind.Follows key false declared live) (interrupted : Bool) :
    kind.Follows key interrupted declared live := by
  exact ⟨h.labels, h.annotations, .inl h.content_eq⟩

theorem Follows.interrupt (h : kind.Follows key interrupted declared live) :
    kind.Follows key true declared live := by
  cases interrupted with
  | true => exact h
  | false => exact h.weaken true

/-- An object follows what another one with the same metadata and content follows. -/
theorem Follows.congr (h : kind.Follows key interrupted declared live)
    (hmeta : kind.metadata other = kind.metadata live)
    (hcontent : kind.content key other = kind.content key live) :
    kind.Follows key interrupted declared other := by
  refine ⟨?_, ?_, ?_⟩
  · rw [hmeta, h.labels]
  · rw [hmeta, h.annotations]
  · rw [hcontent]
    exact h.content

/-- The labels and the annotations of an object that follows a declared one are declared by the
metadata block of its tree. -/
theorem Follows.declaredBy (h : kind.Follows key interrupted declared live)
    (hlawful : kind.Lawful root key) {block : Block}
    (hexpand : kind.expand (.obj block) = .ok declared) :
    ∃ metaBlock, Tree.block? (.obj block) "metadata" = some metaBlock ∧
      (kind.metadata live).DeclaredBy (some metaBlock) := by
  obtain ⟨metaBlock, hchild, _, hmeta⟩ := hlawful.metadata_expand hexpand
  refine ⟨metaBlock, hchild, (ObjectMeta.declaredBy_expand metaBlock).congr ?_ ?_⟩
  · rw [← hmeta]
    exact h.labels
  · rw [← hmeta]
    exact h.annotations

/-- An object follows what the object that it has the content of follows. -/
theorem Follows.trans (h : kind.Follows key false live other)
    (hlive : kind.Follows key interrupted declared live) :
    kind.Follows key interrupted declared other := by
  refine ⟨h.labels.trans hlive.labels, h.annotations.trans hlive.annotations, ?_⟩
  rw [h.content_eq]
  exact hlive.content

/-- Objects that have the same labels, annotations and content as a third one have the same as each
other. -/
theorem Follows.of_common (h : kind.Follows key false declared live)
    (hother : kind.Follows key false other live) : kind.Follows key false declared other := by
  exact ⟨hother.labels.symm.trans h.labels, hother.annotations.symm.trans h.annotations,
    .inl (hother.content_eq.symm.trans h.content_eq)⟩

theorem Follows.refl (kind : Kind α) (key : String) (object : α) :
    kind.Follows key false object object := ⟨rfl, rfl, .inl rfl⟩

end Kind

end Reconcile
