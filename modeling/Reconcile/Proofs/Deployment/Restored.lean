import Mathlib.Data.List.Basic
import Reconcile.Proofs.Deployment.Observable
import Reconcile.Proofs.Kind.Restored
import Reconcile.Proofs.Pod.Restored

/-!
# Deployments shown as they were declared

The block that shows what an explicit block declares is this block, for each part of a deployment's
content but for the selector, which is shown even where only the labels of the template make it
(`DeploymentSpec.lookup_flatten_of_mem`). Content that names a selector wherever its template has
labels is shown as it is declared as a whole (`DeploymentSpec.flatten_expand`).
-/

namespace Reconcile

variable {block : Block}

theorem RollingUpdate.flatten_expand (h : schema.Explicit block) :
    (expand block).flatten = block := by
  have hbound : ∀ key ∈ ["max_surge", "max_unavailable"], schema.typeOf? key = some .text →
      (block.lookup key).isSome →
      Block.ofText? (some (bound block key).toText) = block.lookup key := by
    intro key hkey htype hsome
    obtain ⟨value, hvalue⟩ := Option.isSome_iff_exists.1 hsome
    obtain ⟨hadmits, field, _, hname, _, hplain⟩ := h.value htype hvalue
    cases hadmits with
    | text s =>
        have hs : s ≠ "" := fun heq => hplain.text_ne (by rw [heq])
        have hread : bound? block key = some s := by
          rw [bound?, hvalue]
          exact if_neg hs
        -- A bound that is a number is written as it is spelled.
        have hspelling := hplain.spelling (by rw [hname]; exact hkey) s rfl
        rw [bound, hread, Option.getD_some, hspelling, hvalue]
        rfl
  refine h.accepts.ofFields_eq (by decide) rfl ?_
  simp only [List.forall_mem_cons]
  exact ⟨hbound "max_surge" (by decide) rfl (h.isSome_lookup rfl),
    hbound "max_unavailable" (by decide) rfl (h.isSome_lookup rfl), List.forall_mem_nil _⟩

theorem Strategy.flatten_expand (h : schema.Explicit block) : (expand block).flatten = block := by
  have hrolling : (expand block).rollingUpdate.map (fun r => Block.singular r.flatten) =
      block.lookup "rolling_update" := by
    rw [← h.singular_child? rfl]
    show ((Block.child? block "rolling_update").map RollingUpdate.expand).map _ = _
    cases hchild : Block.child? block "rolling_update" with
    | none => rfl
    | some child =>
        have hback := RollingUpdate.flatten_expand (h.child rfl hchild)
        exact congrArg (fun b => some (Block.singular b)) hback
  refine h.accepts.ofFields_eq (by decide) rfl ?_
  simp only [List.forall_mem_cons]
  exact ⟨h.ofText?_text? rfl, hrolling, List.forall_mem_nil _⟩

theorem PodTemplate.flatten_expand {podBlock : Block} {podSpec : PodSpec}
    (h : schema.Explicit block) (hpod : Block.child? block "spec" = some podBlock)
    (hspec : PodSpec.expand podBlock = .ok podSpec) :
    flatten { metadata := some (ObjectMeta.ofTemplate (Block.child? block "metadata")),
              spec := some podSpec } (some block) = block := by
  have hmeta : (some (ObjectMeta.ofTemplate (Block.child? block "metadata"))).bind (fun m =>
      let shown := m.flattenTemplate (Block.child? block "metadata")
      if shown.isEmpty then none else some (Block.singular shown)) = block.lookup "metadata" := by
    rw [← h.singular_child? rfl]
    cases hchild : Block.child? block "metadata" with
    | none => rfl
    | some child =>
        have hback := ObjectMeta.flattenTemplate_expand (h.child rfl hchild).toPlain
        show (if (ObjectMeta.flattenTemplate (ObjectMeta.expand child) (some child)).isEmpty
          then none else some (Block.singular
            (ObjectMeta.flattenTemplate (ObjectMeta.expand child) (some child)))) = _
        rw [hback]
        cases child with
        | nil => exact absurd rfl (h.metadata_ne_nil rfl hchild)
        | cons first rest => rfl
  have hblock : (some podSpec).map (fun s => Block.singular s.flatten) = block.lookup "spec" := by
    rw [← h.singular_child? rfl, hpod, Option.map_some, Option.map_some,
      PodSpec.flatten_expand (h.child rfl hpod) hspec]
  refine h.accepts.ofFields_eq (by decide) rfl ?_
  simp only [List.forall_mem_cons]
  exact ⟨hmeta, hblock, List.forall_mem_nil _⟩

namespace DeploymentSpec

/-- The fields of content that are shown as they are declared. -/
def asDeclared : List String :=
  ["min_ready_seconds", "paused", "progress_deadline_seconds", "replicas",
   "revision_history_limit", "strategy", "template"]

/-- Every field but the selector is shown as it is declared. -/
theorem mem_asDeclared {field : Field} (h : field ∈ schema) :
    field.name ∈ asDeclared ∨ field = .textMap "selector" .optionalComputed := by
  revert field
  simp only [schema, List.forall_mem_cons]
  exact ⟨.inl (by decide), .inl (by decide), .inl (by decide), .inl (by decide),
    .inl (by decide), .inr trivial, .inl (by decide), .inl (by decide), List.forall_mem_nil _⟩

variable {s : DeploymentSpec}

/-- Content is shown as its explicit block declares it, but for the selector. -/
theorem lookup_flatten_of_mem (h : schema.Explicit block) (hexpand : expand block = .ok s) :
    ∀ key ∈ asDeclared, (s.flatten (some block)).lookup key = block.lookup key := by
  obtain ⟨template, podBlock, minReady, deadline, replicas, history, podSpec, htemplate, hpod,
    hminReady, hdeadline, hreplicas, hhistory, hpodSpec, rfl⟩ := expand_eq_ok.1 hexpand
  have hnumber {key : String} {default i : Int32} (htype : schema.typeOf? key = some .int)
      (hdefault : ((schema.find? fun field => field.name = key).bind (·.default)).isSome)
      (hread : Declaration.int32D block key default ("spec." ++ key) = .ok i) :
      Block.ofInt? (some i.toInt) = block.lookup key :=
    h.ofInt?_int32D htype (h.isSome_lookup hdefault) hread
  have hstrategy : (((Block.child? block "strategy").map Strategy.expand).map
      Strategy.flatten).map Block.singular = block.lookup "strategy" := by
    rw [← h.singular_child? rfl]
    cases hchild : Block.child? block "strategy" with
    | none => rfl
    | some child =>
        have hback := Strategy.flatten_expand (h.child rfl hchild)
        exact congrArg (fun b => some (Block.singular b)) hback
  have hshown : some (Block.singular (PodTemplate.flatten
      { metadata := some (ObjectMeta.ofTemplate (Block.child? template "metadata"))
        spec := some podSpec }
      ((some block).bind (Block.child? · "template")))) = block.lookup "template" := by
    rw [← h.singular_child? rfl, Option.bind_some, htemplate,
      PodTemplate.flatten_expand (h.child rfl htemplate) hpod hpodSpec]
    rfl
  simp only [asDeclared, List.forall_mem_cons, lookup_flatten]
  exact ⟨hnumber rfl rfl hminReady, h.ofBool?_getD rfl (h.isSome_lookup rfl) defaultPaused,
    hnumber rfl rfl hdeadline, hnumber rfl rfl hreplicas, hnumber rfl rfl hhistory, hstrategy,
    hshown, List.forall_mem_nil _⟩

/-- A selector that a plain block declares is shown as it is declared. -/
theorem lookup_flatten_selector (h : schema.Plain block) (hexpand : expand block = .ok s) :
    (s.flatten (some block)).lookup "selector" = block.lookup "selector" ∨
      block.lookup "selector" = none := by
  obtain ⟨template, _, _, _, _, _, _, _, _, _, _, _, _, _, rfl⟩ := expand_eq_ok.1 hexpand
  have hread : Block.ofTexts? (Block.texts block "selector") = block.lookup "selector" :=
    h.ofTexts?_texts rfl
  rw [lookup_flatten]
  cases hempty : (Block.texts block "selector").isEmpty with
  | true =>
      rw [Block.ofTexts?, if_pos hempty] at hread
      exact .inr hread.symm
  | false =>
      refine .inl (Eq.trans ?_ hread)
      show Block.ofTexts? ((expandSelector block _).matchLabels.getD Dict.empty) = _
      rw [expandSelector_getD, hempty]
      rfl

/-- The block of content names a selector if the metadata of its template have labels. -/
def NamesSelector (block : Block) : Prop :=
  ∀ template ∈ Block.child? block "template", ∀ metaBlock ∈ Block.child? template "metadata",
    (metaBlock.lookup "labels").isSome → (block.lookup "selector").isSome

instance (block : Block) : Decidable (NamesSelector block) :=
  inferInstanceAs (Decidable (∀ template ∈ Block.child? block "template",
    ∀ metaBlock ∈ Block.child? template "metadata",
      (metaBlock.lookup "labels").isSome → (block.lookup "selector").isSome))

/-- Content that names no selector has a template without labels. -/
theorem NamesSelector.labels_eq_empty (h : NamesSelector block) {template : Block}
    (htemplate : Block.child? block "template" = some template)
    (hselector : block.lookup "selector" = none) :
    (ObjectMeta.ofTemplate (Block.child? template "metadata")).labels.getD Dict.empty =
      Dict.empty := by
  cases hmeta : Block.child? template "metadata" with
  | none => rfl
  | some metaBlock =>
      have hlabels : metaBlock.lookup "labels" = none := by
        refine Option.not_isSome_iff_eq_none.1 fun hsome => ?_
        have hnamed := h template htemplate metaBlock hmeta hsome
        rw [hselector] at hnamed
        cases hnamed
      show (ObjectMeta.nonEmpty? (Block.texts metaBlock "labels")).getD Dict.empty = _
      rw [ObjectMeta.nonEmpty?_getD, Block.texts, hlabels]
      rfl

/-- Content is shown as its explicit block declares it. -/
theorem flatten_expand (h : schema.Explicit block) (hselector : NamesSelector block)
    (hexpand : expand block = .ok s) : s.flatten (some block) = block := by
  refine (s.flatten_accepts (some block)).ext h.accepts fun field hfield => ?_
  rcases mem_asDeclared hfield with hother | rfl
  · exact lookup_flatten_of_mem h hexpand field.name hother
  · show (s.flatten (some block)).lookup "selector" = block.lookup "selector"
    rcases lookup_flatten_selector h.toPlain hexpand with hsame | hnone
    · exact hsame
    · -- Neither a selector nor labels that could stand for one are declared.
      obtain ⟨template, _, _, _, _, _, _, htemplate, _, _, _, _, _, _, rfl⟩ :=
        expand_eq_ok.1 hexpand
      have hempty : Block.texts block "selector" = Dict.empty := by
        rw [Block.texts, hnone]
        rfl
      rw [lookup_flatten, hnone]
      show Block.ofTexts? ((expandSelector block _).matchLabels.getD _) = none
      rw [expandSelector_getD, hempty, hselector.labels_eq_empty htemplate hnone]
      rfl

/-- Filling a canonical block from the block that shows what it declares makes this block. -/
theorem fill_flatten (h : schema.Canonical block)
    (hexpand : expand (schema.fill none block) = .ok s) :
    schema.fill (some (s.flatten (some (schema.fill none block)))) block =
      s.flatten (some (schema.fill none block)) := by
  have hschema : schema.WellNamed := by decide
  have hnormal := h.normal_fill hschema (by decide) (by decide)
  have haccepts := s.flatten_accepts (some (schema.fill none block))
  refine Schema.fill_eq_of_fields (by decide) h.accepts.covers.ascending haccepts.covers.ascending
    (fun k hk => ?_) fun field hfield => ?_
  · rw [haccepts.lookup_eq_none hk, h.accepts.lookup_eq_none hk]
  · rcases mem_asDeclared hfield with hother | rfl
    · exact Schema.fillValue_again hschema h.accepts hfield
        (lookup_flatten_of_mem hnormal.explicit hexpand field.name hother)
    · rcases lookup_flatten_selector hnormal.toCanonical.plain hexpand with hsame | hnone
      · exact Schema.fillValue_again hschema h.accepts hfield hsame
      · -- A selector that is not declared carries over the one that is shown.
        rw [Schema.lookup_eq_none_of_fill (by decide) hfield hnone]
        exact Schema.fillValue_carried rfl rfl _

/-- The block that shows what a normal block declares can be stored. -/
theorem flatten_storable (h : schema.Normal block) (hexpand : expand block = .ok s) :
    schema.Every Schema.Storable (s.flatten (some block)) := by
  refine Schema.every_storable fun field hfield => ?_
  rcases mem_asDeclared hfield with hother | rfl
  · rw [lookup_flatten_of_mem h.explicit hexpand field.name hother]
    exact h.storableField hfield
  · rcases lookup_flatten_selector h.toCanonical.plain hexpand with hsame | hnone
    · rw [show (Field.textMap "selector" .optionalComputed).name = "selector" from rfl, hsame]
      exact h.storableField hfield
    · -- The labels of the template stand for a selector that is not declared.
      obtain ⟨template, _, _, _, _, _, _, htemplate, _, _, _, _, _, _, rfl⟩ :=
        expand_eq_ok.1 hexpand
      rw [show (Field.textMap "selector" .optionalComputed).name = "selector" from rfl,
        lookup_flatten]
      show Schema.StorableField _ (Block.ofTexts? ((expandSelector block _).matchLabels.getD _))
      have hempty : Block.texts block "selector" = Dict.empty := by
        rw [Block.texts, hnone]
        rfl
      rw [expandSelector_getD, hempty]
      cases hmeta : Block.child? template "metadata" with
      | none =>
          rintro _ ⟨⟩
      | some metaBlock =>
          have hmetaCanonical := (h.toCanonical.child rfl htemplate).child rfl hmeta
          have hlabels : Block.ofTexts? ((ObjectMeta.expand metaBlock).labels.getD Dict.empty) =
              metaBlock.lookup "labels" := by
            rw [← hmetaCanonical.plain.ofTexts?_texts rfl]
            exact congrArg Block.ofTexts? (ObjectMeta.nonEmpty?_getD _)
          have hstored := hmetaCanonical.storableField
            (show Field.textMap "labels" .optional ∈ ObjectMeta.templateSchema by
              simp [ObjectMeta.templateSchema])
          show Schema.StorableField _
            (Block.ofTexts? ((ObjectMeta.expand metaBlock).labels.getD Dict.empty))
          rw [hlabels]
          refine fun value hvalue => ⟨(hstored value hvalue).1, ?_⟩
          rintro _ _ ⟨⟩

end DeploymentSpec

/-- The block of an observed state can be stored. -/
theorem DeploymentStatus.flatten_storable (s : DeploymentStatus) :
    schema.Every Schema.Storable s.flatten := by
  have hnumbers : ∀ field ∈ schema, field.type = .int := by
    simp [schema, Field.int]
  exact Schema.every_storable fun field hfield =>
    Schema.storableField_scalar (.inr (.inl (hnumbers field hfield))) _

namespace Deployment

/-- The tree that shows a deployment can be stored if the blocks in it can. -/
theorem shown_storable {d : Deployment} {priorMeta priorSpec : Option Block}
    (hmeta : ObjectMeta.schema.Every Schema.Storable (d.metadata.flatten priorMeta))
    (hspec : ∀ s, d.spec = some s →
      DeploymentSpec.schema.Every Schema.Storable (s.flatten priorSpec)) :
    schema.Every Schema.Storable (d.shown priorMeta priorSpec) := by
  have hfields : Schema.StorableField (.single "metadata" ObjectMeta.schema .required)
        ((some (d.metadata.flatten priorMeta)).map Block.singular) ∧
      Schema.StorableField (.single "spec" DeploymentSpec.schema .required)
        ((d.spec.map (·.flatten priorSpec)).map Block.singular) ∧
      Schema.StorableField (.single "status" DeploymentStatus.schema .computed)
        ((d.status.map DeploymentStatus.flatten).map Block.singular) := by
    refine ⟨Schema.storableField_singular rfl ?_, Schema.storableField_singular rfl ?_,
      Schema.storableField_singular rfl ?_⟩
    · rintro _ ⟨⟩
      exact hmeta
    · intro b hb
      obtain ⟨s, hs, rfl⟩ := Option.map_eq_some_iff.1 hb
      exact hspec s hs
    · intro b hb
      obtain ⟨s, _, rfl⟩ := Option.map_eq_some_iff.1 hb
      exact s.flatten_storable
  refine Schema.every_storable ?_
  simp only [schema, List.forall_mem_cons, lookup_shown]
  exact ⟨hfields.1, hfields.2.1, hfields.2.2, List.forall_mem_nil _⟩

/-- A deployment that an explicit tree declares is shown as this tree. -/
theorem flatten_expand {d : Deployment} (h : schema.Explicit block) (hset : schema.UserSet block)
    (hselector : ∀ specBlock ∈ Block.child? block "spec", DeploymentSpec.NamesSelector specBlock)
    (hexpand : expand (.obj block) = .ok d) : d.flatten (.obj block) = .obj block := by
  obtain ⟨metaBlock, specBlock, s, hmeta, _, hspecBlock, hspec, rfl⟩ := expand_eq_ok.1 hexpand
  have hmetaBack : (ObjectMeta.expand metaBlock).flatten (some metaBlock) = metaBlock :=
    ObjectMeta.flatten_expand (h.child rfl hmeta).toPlain (hset.child h.accepts rfl hmeta)
  have hspecBack : s.flatten (some specBlock) = specBlock :=
    DeploymentSpec.flatten_expand (h.child rfl hspecBlock) (hselector specBlock hspecBlock) hspec
  have hpriorMeta : Tree.block? (.obj block) "metadata" = some metaBlock := hmeta
  have hpriorSpec : Tree.block? (.obj block) "spec" = some specBlock := hspecBlock
  rw [flatten_eq, hpriorMeta, hpriorSpec]
  refine congrArg Json.obj ((shown_accepts _ _ _).ext h.accepts ?_)
  have hstatus : block.lookup "status" = none :=
    hset.lookup_eq_none
      (show Field.single "status" DeploymentStatus.schema .computed ∈ schema by simp [schema]) rfl
  simp only [schema, List.forall_mem_cons, lookup_shown]
  refine ⟨?_, ?_, hstatus.symm, List.forall_mem_nil _⟩
  · rw [show (Field.single "metadata" ObjectMeta.schema .required).name = "metadata" from rfl,
      ← h.singular_child? rfl, hmeta]
    exact congrArg (fun b => some (Block.singular b)) hmetaBack
  · rw [show (Field.single "spec" DeploymentSpec.schema .required).name = "spec" from rfl,
      ← h.singular_child? rfl, hspecBlock]
    exact congrArg (fun b => some (Block.singular b)) hspecBack

/-- A deployment that a canonical tree declares is shown as it was declared. -/
theorem restoring : kind.Restoring "spec" "spec" where
  canonicalDefaults := by decide
  metadata_mem := rfl
  expand_congr hexpand hmeta hname hroot := by
    obtain ⟨_, specBlock, s, _, _, hspecBlock, hspec, rfl⟩ := expand_eq_ok.1 hexpand
    have hother := (Block.child?_congr hroot).trans hspecBlock
    exact ⟨_, expand_eq_ok.2 ⟨_, specBlock, s, hmeta, hname, hother, hspec, rfl⟩⟩
  exists_shown {tree metaBlock declared live} htree hexpand hfollows hmeta hstored := by
    have hnodup : (schema.map (·.name)).Nodup := by decide
    have hnormal := htree.normal_fill lawful.wellNamed lawful.typedDefaults (by decide)
    obtain ⟨_, specBlock, s, _, _, hspecBlock, hspec, rfl⟩ := expand_eq_ok.1 hexpand
    have hlive : live.spec = some s := spec_eq hfollows.content_eq
    have htype : schema.typeOf? "spec" = some (.block DeploymentSpec.schema true) := rfl
    obtain ⟨unfilled, hunfilled, rfl⟩ :=
      Schema.exists_child_of_fill hnodup htype hspecBlock
    have hpriorMeta : Tree.block? (.obj (schema.fill none tree)) "metadata" = some metaBlock :=
      hmeta
    have hprior : Tree.block? (.obj (schema.fill none tree)) "spec" =
        some (DeploymentSpec.schema.fill none unfilled) := hspecBlock
    obtain ⟨shown, hshown⟩ : ∃ shown, shown = live.shown (some metaBlock)
      (some (DeploymentSpec.schema.fill none unfilled)) := ⟨_, rfl⟩
    have hspecShown : shown.lookup "spec" = some (Block.singular
        (s.flatten (some (DeploymentSpec.schema.fill none unfilled)))) := by
      rw [hshown, lookup_shown, hlive]
      rfl
    refine ⟨shown, ?_, ?_, ?_⟩
    · rw [hshown, ← hpriorMeta, ← hprior]
      exact live.flatten_eq (.obj (schema.fill none tree))
    · have hvalue : tree.lookup "spec" = some (Block.singular unfilled) := by
        rw [← htree.plain.singular_child? htype, hunfilled]
        rfl
      have hfield : Field.single "spec" DeploymentSpec.schema .required ∈ schema := by
        simp [schema]
      have hfilled : (schema.fill (some shown) tree).lookup "spec" = Schema.fillValue
          (.single "spec" DeploymentSpec.schema .required) (shown.lookup "spec")
          (tree.lookup "spec") := Schema.lookup_fill hnodup hfield
      show shown.lookup "spec" = (schema.fill (some shown) tree).lookup "spec"
      rw [hfilled, hspecShown, hvalue, Schema.fillValue_singular rfl,
        DeploymentSpec.fill_flatten (htree.child htype hunfilled) hspec]
    · rw [hshown]
      refine shown_storable hstored fun t ht => ?_
      obtain rfl : s = t := Option.some.inj (hlive.symm.trans ht)
      exact DeploymentSpec.flatten_storable (hnormal.child htype hspecBlock) hspec

end Deployment

end Reconcile
