import Mathlib.Data.List.Basic
import Reconcile.Proofs.Kind.Laws

/-!
# What the edits of an update do

The edits between two trees apply to every live object that has the labels and annotations that the
old tree declares (`Lawful.performAll?_edits`). `edited` are the members of the wire form that they
leave: its labels, its annotations and its content are the desired ones (`Lawful.places_edited`) and
everything elsewhere is as before (`Lawful.elsewhere_edited`).
-/

namespace Reconcile.Kind

open Json.Edit Json.Pointer

variable {α : Type} {kind : Kind α} {root key : String}

section Lawful

variable (h : kind.Lawful root key) {old desired : Block} {before after live : α}
  {edits : List Json.Edit}

include h

/-- The labels that a tree declares are those of the declared object. -/
theorem Lawful.textsAt_labels (hexpand : kind.expand (.obj old) = .ok before) :
    Change.textsAt (.obj old) ["metadata", "0", "labels"] =
      (kind.metadata before).labels.getD Dict.empty := by
  obtain ⟨metaBlock, hchild, _, hmeta⟩ := h.metadata_expand hexpand
  rw [Change.textsAt_child hchild, hmeta]
  exact (ObjectMeta.nonEmpty?_getD _).symm

/-- The annotations that a tree declares are those of the declared object. -/
theorem Lawful.textsAt_annotations (hexpand : kind.expand (.obj old) = .ok before) :
    Change.textsAt (.obj old) ["metadata", "0", "annotations"] =
      (kind.metadata before).annotations.getD Dict.empty := by
  obtain ⟨metaBlock, hchild, _, hmeta⟩ := h.metadata_expand hexpand
  rw [Change.textsAt_child hchild, hmeta]
  exact (ObjectMeta.nonEmpty?_getD _).symm

/-- The edits of the content of two declared objects. -/
def contentEdits (kind : Kind α) (root key : String) (old desired : Block) (before after : α) :
    List Json.Edit :=
  if old.lookup root = desired.lookup root then []
  else Change.ofProjection ("/" ++ key) (kind.content key before).isSome (kind.content key after)

/-- The content is edited where the trees declare it differently. -/
theorem Lawful.atPath_content
    (hcontent : (kind.content key after).isSome = Change.isDeclared (desired.lookup root)) :
    Change.atPath (.obj old) (.obj desired) (.ok (kind.toJson after))
        (.subtree [root] ("/" ++ key)) =
      .ok (if old.lookup root = desired.lookup root then []
        else Change.ofProjection ("/" ++ key) (Change.isDeclared (old.lookup root))
          (kind.content key after)) := by
  have hfind : ∀ block : Block, Tree.find? [root] (.obj block) = block.lookup root :=
    fun block => Option.bind_fun_some _
  have hpointer : find? ("/" ++ key) (kind.toJson after) = kind.content key after := by
    rw [h.toJson_eq, find?_member h.tokens?_key]
    rfl
  rw [Change.atPath, hfind, hfind]
  simp only [← hcontent]
  by_cases hsame : old.lookup root = desired.lookup root
  · rw [if_pos hsame, if_pos hsame, Steps.pure_eq_ok]
  · rw [if_neg hsame, if_neg hsame]
    cases hcontent : kind.content key after with
    | some value =>
        rw [hcontent] at hpointer
        simp only [Option.isSome_some, if_true, Steps.bind_ok, hpointer, Steps.pure_eq_ok]
    | none =>
        cases Change.isDeclared (old.lookup root) with
        | true => rfl
        | false => rfl

/-- The edits between two trees, part by part. Only the new one has to declare an object. -/
theorem Lawful.edits_of_expand (hafter : kind.expand (.obj desired) = .ok after)
    (hcontent : (kind.content key after).isSome = Change.isDeclared (desired.lookup root)) :
    kind.edits (.obj old) (.obj desired) = .ok
      (Change.ofTextMaps "/metadata/labels"
          (Change.textsAt (.obj old) ["metadata", "0", "labels"])
          (Change.textsAt (.obj desired) ["metadata", "0", "labels"]) ++
        (Change.ofTextMaps "/metadata/annotations"
          (Change.textsAt (.obj old) ["metadata", "0", "annotations"])
          (Change.textsAt (.obj desired) ["metadata", "0", "annotations"]) ++
        if old.lookup root = desired.lookup root then []
        else Change.ofProjection ("/" ++ key) (Change.isDeclared (old.lookup root))
          (kind.content key after))) := by
  have htexts : ∀ (projection : Except Failure Json) (path : List String) (wire : String),
      Change.atPath (.obj old) (.obj desired) projection (.textMap path wire) =
        .ok (Change.ofTextMaps wire (Change.textsAt (.obj old) path)
          (Change.textsAt (.obj desired) path)) := fun _ _ _ => rfl
  rw [edits, hafter, Steps.bind_ok, Change.between, h.mutablePaths_eq, metadataPaths]
  simp only [List.cons_append, List.nil_append, List.mapM_cons, List.mapM_nil, htexts,
    h.atPath_content hcontent, Steps.bind_ok, Steps.pure_eq_ok]
  simp [Except.map]

/-- The edits between two declared objects, part by part. -/
theorem Lawful.edits_eq (hold : kind.schema.Accepts old) (hdesired : kind.schema.Accepts desired)
    (hbefore : kind.expand (.obj old) = .ok before)
    (hafter : kind.expand (.obj desired) = .ok after) :
    kind.edits (.obj old) (.obj desired) = .ok
      (Change.ofTextMaps "/metadata/labels" ((kind.metadata before).labels.getD Dict.empty)
          ((kind.metadata after).labels.getD Dict.empty) ++
        (Change.ofTextMaps "/metadata/annotations"
          ((kind.metadata before).annotations.getD Dict.empty)
          ((kind.metadata after).annotations.getD Dict.empty) ++
        kind.contentEdits root key old desired before after)) := by
  rw [h.edits_of_expand hafter (h.isSome_content hdesired hafter), h.textsAt_labels hbefore,
    h.textsAt_labels hafter, h.textsAt_annotations hbefore, h.textsAt_annotations hafter,
    contentEdits, h.isSome_content hold hbefore]

/-- The members of a wire form with other labels, annotations and content. -/
def edited (kind : Kind α) (key : String) (live : α) (labels annotations : Dict String)
    (content : Option Json) : Json.Fields :=
  let m := kind.metadata live
  let labelled := Block.put m.fields "labels" (Wire.texts (Change.nextTexts m.labels labels))
  let annotated := Block.put labelled "annotations"
    (Wire.texts (Change.nextTexts m.annotations annotations))
  Entries.assign key content (Entries.insert "metadata" (.obj annotated) (kind.fields live))

/-- The content that the edits leave: where the trees declare the same, it is not touched. -/
def contentAfter (kind : Kind α) (root key : String) (old desired : Block) (live after : α) :
    Option Json :=
  if old.lookup root = desired.lookup root then kind.content key live else kind.content key after

/-- A member of the metadata of an object is found in its wire form. -/
theorem Lawful.find?_metadata {pointer name : String}
    (htokens : tokens? pointer = some ["metadata", name]) (object : α) :
    find? pointer (kind.toJson object) = (kind.metadata object).fields.lookup name := by
  rw [h.toJson_eq, find?_inner htokens (h.lookup_metadata object)]

theorem Lawful.isTextMap_labels :
    Change.isTextMap kind.mutablePaths "/metadata/labels" = true := by
  rw [h.mutablePaths_eq]
  rfl

theorem Lawful.isTextMap_annotations :
    Change.isTextMap kind.mutablePaths "/metadata/annotations" = true := by
  rw [h.mutablePaths_eq]
  rfl

/-- The edits of content are no additions of maps that a live object could hold. -/
theorem Lawful.rebase_ofProjection (document : Json) (declared : Bool) (value : Option Json) :
    Change.rebase kind.mutablePaths document (Change.ofProjection ("/" ++ key) declared value) =
      Change.ofProjection ("/" ++ key) declared value := by
  have hadd : ∀ value, Change.rebaseEdit kind.mutablePaths document (.add ("/" ++ key) value) =
      [.add ("/" ++ key) value] := by
    intro value
    cases value with
    | obj entries => simp only [Change.rebaseEdit, h.key_not_textMap]
    | _ => rfl
  refine Change.rebase_eq_self fun edit hedit => ?_
  unfold Change.ofProjection at hedit
  split at hedit
  · obtain rfl := List.mem_singleton.1 hedit
    rfl
  · obtain rfl := List.mem_singleton.1 hedit
    exact hadd _
  · obtain rfl := List.mem_singleton.1 hedit
    rfl
  · cases hedit

theorem Lawful.rebase_contentEdits (document : Json) :
    Change.rebase kind.mutablePaths document (kind.contentEdits root key old desired before after) =
      kind.contentEdits root key old desired before after := by
  unfold contentEdits
  split
  · rfl
  · exact h.rebase_ofProjection document _ _

/-- There are edits between two trees after rebasing exactly if there were some before. -/
theorem Lawful.rebase_edits_eq_nil_iff {old desired : Tree} (document : Json)
    (hedits : kind.edits old desired = .ok edits) :
    Change.rebase kind.mutablePaths document edits = [] ↔ edits = [] := by
  obtain ⟨object, -, hbetween⟩ := Steps.bind_eq_ok_iff.1 hedits
  obtain ⟨parts, hparts, rfl⟩ := Steps.map_eq_ok_iff.1 hbetween
  refine Change.rebase_eq_nil_iff document fun edit hedit path hadd => ?_
  obtain ⟨part, hpart, hmem⟩ := List.mem_flatten.1 hedit
  obtain ⟨place, hplace, hat⟩ := Steps.exists_of_mem_mapM hparts hpart
  rw [h.mutablePaths_eq] at hplace
  cases place with
  | textMap config wire =>
      obtain rfl := Except.ok.inj hat
      exact absurd hadd (Change.ne_add_of_mem_ofTextMaps hmem)
  | subtree config wire =>
      -- Only the content is a subtree, and it is no place of a map of texts.
      obtain ⟨rfl, rfl⟩ : config = [root] ∧ wire = "/" ++ key := by
        simpa [metadataPaths] using hplace
      rw [hadd] at hmem
      rw [Change.eq_of_add_mem_atPath hat hmem]
      exact h.key_not_textMap

/-- The edits of content leave the content that is declared. -/
theorem Lawful.performAll?_contentEdits {document : Json.Fields}
    (hdocument : Entries.Ascending document) (hlookup : document.lookup key = kind.content key live)
    (hcontent : (kind.content key live).isSome = (kind.content key before).isSome) :
    performAll? (kind.contentEdits root key old desired before after) (.obj document) =
      some (.obj (Entries.assign key (kind.contentAfter root key old desired live after)
        document)) := by
  rw [contentEdits, contentAfter]
  split
  · rw [hdocument.assign_eq_self hlookup, performAll?_nil]
  · refine Change.performAll?_projection h.tokens?_key ?_ _
    rw [hlookup, hcontent]

/-- The edits of an update apply to every live object that has the labels and the annotations that
the old tree declares, and content if the old tree declares some. -/
theorem Lawful.performAll?_edits (hold : kind.schema.Accepts old)
    (hdesired : kind.schema.Accepts desired) (hbefore : kind.expand (.obj old) = .ok before)
    (hafter : kind.expand (.obj desired) = .ok after)
    (hedits : kind.edits (.obj old) (.obj desired) = .ok edits)
    (hlabels : (kind.metadata live).labels.getD Dict.empty =
      (kind.metadata before).labels.getD Dict.empty)
    (hannotations : (kind.metadata live).annotations.getD Dict.empty =
      (kind.metadata before).annotations.getD Dict.empty)
    (hcontent : (kind.content key live).isSome = (kind.content key before).isSome) :
    performAll? (Change.rebase kind.mutablePaths (kind.toJson live) edits) (kind.toJson live) =
      some (.obj (kind.edited key live ((kind.metadata after).labels.getD Dict.empty)
        ((kind.metadata after).annotations.getD Dict.empty)
        (kind.contentAfter root key old desired live after))) := by
  rw [h.edits_eq hold hdesired hbefore hafter] at hedits
  cases hedits
  let m := kind.metadata live
  let newLabels := (kind.metadata after).labels.getD Dict.empty
  let newAnnotations := (kind.metadata after).annotations.getD Dict.empty
  let labelled := Block.put m.fields "labels" (Wire.texts (Change.nextTexts m.labels newLabels))
  let document := Entries.insert "metadata" (.obj labelled) (kind.fields live)
  have hlabelTokens : tokens? "/metadata/labels" = some ["metadata", "labels"] := by decide
  have hannotationTokens : tokens? "/metadata/annotations" = some ["metadata", "annotations"] := by
    decide
  -- The labels come first, and the annotations are found as they were after them.
  have hfirst := Change.performAll?_member newLabels (h.isTextMap_labels) (by decide) hlabelTokens
    (h.ascending live) m.ascending_fields (h.lookup_metadata live) m.lookup_labels
    ((h.find?_metadata hlabelTokens live).trans m.lookup_labels)
  have hlabelled : Entries.Ascending labelled := Block.ascending_put m.ascending_fields _ _
  have hdocument : Entries.Ascending document := (h.ascending live).insert _ _
  have hsecond := Change.performAll?_member newAnnotations (h.isTextMap_annotations) (by decide)
    hannotationTokens hdocument hlabelled
    (by rw [Entries.lookup_insert, if_pos rfl])
    (by rw [Block.lookup_put, if_neg (by decide)]; exact m.lookup_annotations)
    ((h.find?_metadata hannotationTokens live).trans m.lookup_annotations)
  rw [Entries.insert_insert] at hsecond
  rw [← hlabels, ← hannotations, Change.rebase_append, Change.rebase_append,
    h.rebase_contentEdits, congrArg (performAll? _) (h.toJson_eq live), performAll?_append, hfirst,
    Option.bind_some, performAll?_append, hsecond, Option.bind_some]
  refine h.performAll?_contentEdits ((h.ascending live).insert "metadata" _) ?_ hcontent
  rw [Entries.lookup_insert, if_neg h.key_ne]
  rfl

/-! ## What becomes of the document -/

/-- A document without the labels, the annotations and the content of its object. -/
def elsewhere (key : String) (document : Json) : Json :=
  Json.without ("/" ++ key)
    (Json.without "/metadata/annotations" (Json.without "/metadata/labels" document))

omit h in
/-- What is elsewhere in a document is what is left of its members. -/
theorem elsewhere_eq (hkey : tokens? ("/" ++ key) = some [key]) {fields inner : Json.Fields}
    (hfields : Entries.Ascending fields) (hmeta : fields.lookup "metadata" = some (.obj inner)) :
    elsewhere key (.obj fields) = .obj (Entries.erase key (Entries.insert "metadata"
      (.obj (Entries.erase "annotations" (Entries.erase "labels" inner))) fields)) := by
  have hlabelTokens : tokens? "/metadata/labels" = some ["metadata", "labels"] := by decide
  have hannotationTokens : tokens? "/metadata/annotations" = some ["metadata", "annotations"] := by
    decide
  rw [elsewhere, Json.without_inner hlabelTokens hfields hmeta,
    Json.without_inner hannotationTokens (hfields.insert _ _)
      (by rw [Entries.lookup_insert, if_pos rfl]),
    Json.without_member hkey, Entries.insert_insert]

omit h in
theorem erase_put_put (inner : Json.Fields) (hinner : Entries.Ascending inner)
    (labels annotations : Option Json) :
    Entries.erase "annotations" (Entries.erase "labels"
      (Block.put (Block.put inner "labels" labels) "annotations" annotations)) =
    Entries.erase "annotations" (Entries.erase "labels" inner) := by
  refine Entries.Ascending.ext
    (((Block.ascending_put (Block.ascending_put hinner _ _) _ _).erase _).erase _)
    ((hinner.erase _).erase _) fun k => ?_
  simp only [Entries.lookup_erase, Block.lookup_put]
  by_cases hannotations : k = "annotations"
  · rw [if_pos hannotations, if_pos hannotations]
  · by_cases hlabels : k = "labels"
    · rw [if_pos hlabels, if_pos hlabels]
    · simp only [if_neg hannotations, if_neg hlabels]

/-- The edits of an update change nothing elsewhere. -/
theorem Lawful.elsewhere_edited (live : α) (labels annotations : Dict String)
    (content : Option Json) :
    elsewhere key (.obj (kind.edited key live labels annotations content)) =
      elsewhere key (kind.toJson live) := by
  have hfields := h.ascending live
  have hmeta := h.lookup_metadata live
  rw [h.toJson_eq, elsewhere_eq h.tokens?_key hfields hmeta, edited,
    elsewhere_eq h.tokens?_key ((hfields.insert _ _).assign _ _)
      (by rw [Entries.lookup_assign, if_neg h.key_ne.symm, Entries.lookup_insert, if_pos rfl]),
    erase_put_put _ (kind.metadata live).ascending_fields]
  refine congrArg Json.obj (Entries.Ascending.ext
    ((((hfields.insert _ _).assign _ _).insert _ _).erase _) ((hfields.insert _ _).erase _)
    fun k => ?_)
  simp only [Entries.lookup_erase, Entries.lookup_insert, Entries.lookup_assign]
  by_cases hkey : k = key
  · rw [if_pos hkey, if_pos hkey]
  · simp only [if_neg hkey]
    by_cases hk : k = "metadata"
    · rw [if_pos hk, if_pos hk]
    · simp only [if_neg hk]

/-- The labels, the annotations and the content of a document after the edits of an update. -/
theorem Lawful.places_edited (live : α) (labels annotations : Dict String)
    (content : Option Json) :
    let document := Json.obj (kind.edited key live labels annotations content)
    Wire.textsAt? "/metadata/labels" document = some labels ∧
      Wire.textsAt? "/metadata/annotations" document = some annotations ∧
      find? ("/" ++ key) document = content := by
  intro document
  let m := kind.metadata live
  let labelled := Block.put m.fields "labels" (Wire.texts (Change.nextTexts m.labels labels))
  let annotated := Block.put labelled "annotations"
    (Wire.texts (Change.nextTexts m.annotations annotations))
  have hlabelTokens : tokens? "/metadata/labels" = some ["metadata", "labels"] := by decide
  have hannotationTokens : tokens? "/metadata/annotations" = some ["metadata", "annotations"] := by
    decide
  have hmeta : (kind.edited key live labels annotations content).lookup "metadata" =
      some (.obj annotated) := by
    rw [edited, Entries.lookup_assign, if_neg h.key_ne.symm, Entries.lookup_insert, if_pos rfl]
  have hlabels : annotated.lookup "labels" = Wire.texts (Change.nextTexts m.labels labels) := by
    rw [Block.lookup_put, if_neg (by decide), Block.lookup_put, if_pos rfl, m.lookup_labels,
      Change.texts_nextTexts_or]
  have hannotations : annotated.lookup "annotations" =
      Wire.texts (Change.nextTexts m.annotations annotations) := by
    rw [Block.lookup_put, if_pos rfl, Block.lookup_put, if_neg (by decide), m.lookup_annotations,
      Change.texts_nextTexts_or]
  refine ⟨?_, ?_, ?_⟩
  · rw [Wire.textsAt?_eq ((find?_inner hlabelTokens hmeta).trans hlabels), Change.nextTexts_getD]
  · rw [Wire.textsAt?_eq ((find?_inner hannotationTokens hmeta).trans hannotations),
      Change.nextTexts_getD]
  · rw [find?_member h.tokens?_key, edited, Entries.lookup_assign, if_pos rfl]

/-- The labels, the annotations and the content of the wire form of an object. -/
theorem Lawful.places_toJson (object : α) :
    Wire.textsAt? "/metadata/labels" (kind.toJson object) =
        some ((kind.metadata object).labels.getD Dict.empty) ∧
      Wire.textsAt? "/metadata/annotations" (kind.toJson object) =
        some ((kind.metadata object).annotations.getD Dict.empty) ∧
      find? ("/" ++ key) (kind.toJson object) = kind.content key object := by
  have hlabelTokens : tokens? "/metadata/labels" = some ["metadata", "labels"] := by decide
  have hannotationTokens : tokens? "/metadata/annotations" = some ["metadata", "annotations"] := by
    decide
  refine ⟨?_, ?_, ?_⟩
  · exact Wire.textsAt?_eq
      ((h.find?_metadata hlabelTokens object).trans (ObjectMeta.lookup_labels _))
  · exact Wire.textsAt?_eq
      ((h.find?_metadata hannotationTokens object).trans (ObjectMeta.lookup_annotations _))
  · rw [h.toJson_eq, find?_member h.tokens?_key]
    rfl

/-- A declared object holds no map that the edits from its own tree could wipe out. -/
theorem Lawful.rebase_edits_self (hold : kind.schema.Accepts old)
    (hdesired : kind.schema.Accepts desired) (hbefore : kind.expand (.obj old) = .ok before)
    (hafter : kind.expand (.obj desired) = .ok after)
    (hedits : kind.edits (.obj old) (.obj desired) = .ok edits) :
    Change.rebase kind.mutablePaths (kind.toJson before) edits = edits := by
  rw [h.edits_eq hold hdesired hbefore hafter] at hedits
  cases hedits
  obtain ⟨metaBlock, _, _, hmeta⟩ := h.metadata_expand hbefore
  -- A map of the object is absent or not empty, and either way nothing is to be spared.
  have htexts : ∀ {pointer name : String} {d : Dict String} (new : Dict String),
      tokens? pointer = some ["metadata", name] → Text.trimEnd '/' pointer = pointer →
      (kind.metadata before).fields.lookup name = Wire.texts (ObjectMeta.nonEmpty? d) →
      Change.rebase kind.mutablePaths (kind.toJson before)
        (Change.ofTextMaps pointer ((ObjectMeta.nonEmpty? d).getD Dict.empty) new) =
      Change.ofTextMaps pointer ((ObjectMeta.nonEmpty? d).getD Dict.empty) new := by
    intro pointer name d new htokens htrim hlookup
    rcases ObjectMeta.nonEmpty?_eq_none_or d with hnone | hsome
    · refine Change.rebase_ofTextMaps_of_absent htrim ?_
      rw [h.find?_metadata htokens, hlookup, hnone]
      rfl
    · exact Change.rebase_ofTextMaps_of_nonempty _ _ hsome _ _
  have hlabels := (kind.metadata before).lookup_labels
  have hannotations := (kind.metadata before).lookup_annotations
  obtain ⟨labels, heq⟩ : ∃ d, (kind.metadata before).labels = ObjectMeta.nonEmpty? d :=
    ⟨_, by rw [hmeta]; rfl⟩
  obtain ⟨annotations, heq'⟩ : ∃ d, (kind.metadata before).annotations = ObjectMeta.nonEmpty? d :=
    ⟨_, by rw [hmeta]; rfl⟩
  rw [heq] at hlabels ⊢
  rw [heq'] at hannotations ⊢
  rw [Change.rebase_append, Change.rebase_append, h.rebase_contentEdits,
    htexts _ (by decide) (by decide) hlabels, htexts _ (by decide) (by decide) hannotations]

end Lawful

end Reconcile.Kind
