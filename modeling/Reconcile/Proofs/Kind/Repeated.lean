import Mathlib.Data.List.Basic
import Reconcile.Proofs.Deployment.Repeated
import Reconcile.Proofs.Kind.Shown

/-!
# Trees that are asked for again

A tree need not be canonical to be asked for again without harm. What is planned from the tree that
shows the declared object touches no label and no annotation, and it replaces the content, if at
all, with what the object has already (`Kind.plan_repeated`).
-/

namespace Reconcile

open Json.Edit Json.Pointer

/-- A nested block that is shown says something exactly if it has elements. -/
theorem Change.isDeclared_ofChildren? (blocks : List Block) :
    isDeclared (Block.ofChildren? blocks) = !blocks.isEmpty := by
  cases blocks with
  | nil => rfl
  | cons first rest => rfl

/-- A block with a first element says something. -/
theorem Change.isDeclared_of_child? {block child : Block} {key : String}
    (h : Block.child? block key = some child) : isDeclared (block.lookup key) = true := by
  obtain ⟨items, hitems⟩ := Block.child?_eq_some_iff.1 h
  rw [hitems]
  rfl

namespace Kind

variable {α : Type} {kind : Kind α} {root key : String}

/-- The functions of a kind agree on what a tree declares that is asked for again. -/
structure Repeating (kind : Kind α) (root key : String) : Prop where
  /-- Filled from the tree that shows the declared object, the tree declares the same object. -/
  expand_fill_shown : ∀ {numbers : Json → Bool} {tree shown : Block} {object : α},
    kind.schema.Tolerates numbers tree →
    kind.expand (.obj (kind.schema.fill none tree)) = .ok object →
    kind.flatten object (.obj (kind.schema.fill none tree)) = .obj shown →
    kind.expand (.obj (kind.schema.fill (some shown) tree)) = .ok object
  /-- A declared object has content exactly if it is shown with some, ... -/
  isDeclared_shown : ∀ {tree shown : Block} {object : α},
    kind.flatten object (.obj tree) = .obj shown → kind.expand (.obj tree) = .ok object →
    Change.isDeclared (shown.lookup root) = (kind.content key object).isSome
  /-- ... and if its tree declares some. -/
  isDeclared_fill : ∀ {numbers : Json → Bool} {tree : Block} {prior : Option Block} {object : α},
    kind.schema.Tolerates numbers tree →
    kind.expand (.obj (kind.schema.fill prior tree)) = .ok object →
    Change.isDeclared ((kind.schema.fill prior tree).lookup root) =
      (kind.content key object).isSome

end Kind

variable {numbers : Json → Bool}

/-- The metadata that are asked for again are those that were declared. -/
theorem ObjectMeta.child?_fill_shown {schema : Schema} {tree shown metaBlock : Block}
    {prior : Option Block} (hnodup : (schema.map (·.name)).Nodup)
    (htype : schema.typeOf? "metadata" = some (.block ObjectMeta.schema true))
    (htree : schema.Tolerates numbers tree)
    (hmeta : Block.child? (schema.fill none tree) "metadata" = some metaBlock)
    (hshown : Block.child? shown "metadata" =
      some ((ObjectMeta.expand metaBlock).flatten prior)) :
    Block.child? (schema.fill (some shown) tree) "metadata" = some metaBlock := by
  obtain ⟨first, hfirst, rfl⟩ := Schema.exists_child_of_fill hnodup htype hmeta
  rw [Schema.child?_fill hnodup htype hfirst, Option.bind_some, hshown,
    ObjectMeta.fill_flatten (htree.child htype hfirst)]

namespace Deployment

/-- A deployment that is asked for again is declared again. -/
theorem expand_fill_shown {tree : Block} {d : Deployment} (htree : schema.Tolerates numbers tree)
    (hexpand : expand (.obj (schema.fill none tree)) = .ok d) (priorMeta priorSpec : Option Block) :
    expand (.obj (schema.fill (some (d.shown priorMeta priorSpec)) tree)) = .ok d := by
  have hnodup : (schema.map (·.name)).Nodup := by decide
  have htype : schema.typeOf? "spec" = some (.block DeploymentSpec.schema true) := rfl
  obtain ⟨metaBlock, specBlock, spec, hmeta, hname, hspecBlock, hspec, hd⟩ :=
    expand_eq_ok.1 hexpand
  have hmetaShown : Block.child? (d.shown priorMeta priorSpec) "metadata" =
      some ((ObjectMeta.expand metaBlock).flatten priorMeta) := by
    rw [hd]
    exact Block.child?_of_lookup (lookup_shown _ priorMeta priorSpec "metadata")
  have hspecShown : Block.child? (d.shown priorMeta priorSpec) "spec" =
      some (spec.flatten priorSpec) := by
    rw [hd]
    exact Block.child?_of_lookup (lookup_shown _ priorMeta priorSpec "spec")
  obtain ⟨first, hfirst, hfilled⟩ := Schema.exists_child_of_fill hnodup htype hspecBlock
  have hspecAgain := Schema.child?_fill hnodup htype hfirst (some (d.shown priorMeta priorSpec))
  rw [Option.bind_some, hspecShown] at hspecAgain
  rw [hfilled] at hspec
  exact expand_eq_ok.2 ⟨metaBlock, _, spec,
    ObjectMeta.child?_fill_shown hnodup rfl htree hmeta hmetaShown, hname, hspecAgain,
    DeploymentSpec.expand_fill_flatten (htree.child htype hfirst) hspec priorSpec, hd⟩

theorem repeating : kind.Repeating "spec" "spec" where
  expand_fill_shown {_ tree shown object} htree hexpand hflatten := by
    rw [← Json.obj.inj ((object.flatten_eq _).symm.trans hflatten)]
    exact expand_fill_shown htree hexpand _ _
  isDeclared_shown {tree shown object} hflatten hexpand := by
    rw [← Json.obj.inj ((object.flatten_eq _).symm.trans hflatten)]
    obtain ⟨_, _, spec, _, _, _, _, rfl⟩ := expand_eq_ok.1 hexpand
    rw [lookup_shown, content_spec]
    rfl
  isDeclared_fill _ hexpand := by
    obtain ⟨_, _, spec, _, _, hspecBlock, _, rfl⟩ := expand_eq_ok.1 hexpand
    rw [Change.isDeclared_of_child? hspecBlock, content_spec]
    rfl

end Deployment

namespace Role

/-- The rules that are asked for again are filled as from nothing. -/
theorem lookup_fill_rules {tree : Block} (htree : schema.Tolerates numbers tree)
    (prior : Option Block) :
    (schema.fill prior tree).lookup "policy_rule" =
      (schema.fill none tree).lookup "policy_rule" := by
  refine Schema.lookup_fill_settled (by decide) htree (fun hcarried => ?_) fun fields hnested => ?_
  · exact absurd (show "policy_rule" ∈ [] from hcarried) List.not_mem_nil
  · have hmem : ("policy_rule", fields) ∈
        [("metadata", ObjectMeta.schema), ("policy_rule", PolicyRule.schema)] := hnested
    obtain rfl : fields = PolicyRule.schema := by simpa using hmem
    exact Schema.settled_of_carried_eq_nil htree rfl (by decide) (by decide) _

/-- A role that is asked for again is declared again. -/
theorem expand_fill_shown {tree : Block} {r : Role} (htree : schema.Tolerates numbers tree)
    (hexpand : expand (.obj (schema.fill none tree)) = .ok r) (prior : Option Block) :
    expand (.obj (schema.fill (some (r.shown prior)) tree)) = .ok r := by
  obtain ⟨metaBlock, rules, hmeta, hname, hrules, hr⟩ := expand_eq_ok.1 hexpand
  have hmetaShown : Block.child? (r.shown prior) "metadata" =
      some ((ObjectMeta.expand metaBlock).flatten prior) := by
    rw [hr]
    exact Block.child?_of_lookup (lookup_shown _ prior "metadata")
  have hrulesAgain := hrules
  rw [Declaration.children,
    ← Block.children_congr (lookup_fill_rules htree (some (r.shown prior)))] at hrulesAgain
  exact expand_eq_ok.2 ⟨metaBlock, rules,
    ObjectMeta.child?_fill_shown (by decide) rfl htree hmeta hmetaShown, hname, hrulesAgain, hr⟩

/-- A role has rules if its tree has a block for one. -/
theorem isDeclared_fill {tree : Block} {prior : Option Block} {r : Role}
    (htree : schema.Tolerates numbers tree)
    (hexpand : expand (.obj (schema.fill prior tree)) = .ok r) :
    Change.isDeclared ((schema.fill prior tree).lookup "policy_rule") =
      (kind.content "rules" r).isSome := by
  have hfield : Field.repeated "policy_rule" PolicyRule.schema .optional ∈ schema := by
    simp [schema]
  obtain ⟨_, rules, _, _, hrules, rfl⟩ := expand_eq_ok.1 hexpand
  have hempty := Declaration.isEmpty_of_children hrules
  have hdeclared : Change.isDeclared ((schema.fill none tree).lookup "policy_rule") =
      !(Block.children (schema.fill none tree) "policy_rule").isEmpty :=
    htree.isDeclared_fill (by decide) hfield rfl rfl
  rw [content_rules, Option.isSome_map, Declaration.nonEmpty?_isSome, hempty,
    Block.children_congr (lookup_fill_rules htree prior), lookup_fill_rules htree prior, hdeclared]

theorem repeating : kind.Repeating "policy_rule" "rules" where
  expand_fill_shown {_ tree shown object} htree hexpand hflatten := by
    rw [← Json.obj.inj ((object.flatten_eq _).symm.trans hflatten)]
    exact expand_fill_shown htree hexpand _
  isDeclared_shown {tree shown object} hflatten hexpand := by
    rw [← Json.obj.inj ((object.flatten_eq _).symm.trans hflatten), lookup_shown, content_rules]
    obtain ⟨_, rules, _, _, _, rfl⟩ := expand_eq_ok.1 hexpand
    rw [Option.isSome_map, Declaration.nonEmpty?_isSome]
    show Change.isDeclared (Block.ofChildren? (((Declaration.nonEmpty? rules).getD []).map _)) = _
    rw [Change.isDeclared_ofChildren?, Declaration.getD_nonEmpty?, List.isEmpty_map]
  isDeclared_fill := isDeclared_fill

end Role

namespace Kind

variable {α : Type} {kind : Kind α} {root key : String}

theorem Managed.repeating (h : kind.Managed root key) : kind.Repeating root key := by
  cases h with
  | deployment => exact Deployment.repeating
  | role => exact Role.repeating

/-- The labels and the annotations that are shown of a declared object are its own. -/
theorem Managed.textsAt_shown (hkind : kind.Managed root key) {filled shown : Block} {object : α}
    (hexpand : kind.expand (.obj filled) = .ok object)
    (hflatten : kind.flatten object (.obj filled) = .obj shown) :
    Change.textsAt (.obj shown) ["metadata", "0", "labels"] =
        (kind.metadata object).labels.getD Dict.empty ∧
      Change.textsAt (.obj shown) ["metadata", "0", "annotations"] =
        (kind.metadata object).annotations.getD Dict.empty := by
  obtain ⟨shown', hshown, _, hmetaShown, _⟩ := hkind.showing.exists_shown object (.obj filled)
  obtain rfl : shown = shown' := Json.obj.inj (hflatten.symm.trans hshown)
  obtain ⟨metaBlock, hmeta, _, hmetadata⟩ := hkind.lawful.metadata_expand hexpand
  have hprior : Tree.block? (.obj filled) "metadata" = some metaBlock := hmeta
  have hdeclared : (kind.metadata object).DeclaredBy (some metaBlock) := by
    rw [hmetadata]
    exact ObjectMeta.declaredBy_expand metaBlock
  rw [hprior] at hmetaShown
  rw [Change.textsAt_child hmetaShown, Change.textsAt_child hmetaShown,
    Block.texts_of_lookup (ObjectMeta.lookup_flatten _ _ "labels"),
    Block.texts_of_lookup (ObjectMeta.lookup_flatten _ _ "annotations")]
  exact ⟨hdeclared.mergeLabels_eq, hdeclared.filterAnnotations_eq⟩

/-- Asking again for a tree that has been carried out does no harm, canonical or not. The tree that
shows the declared object is the old one: the plan does not touch the labels and the annotations,
and it replaces the content, if at all, with what the object has there. -/
theorem plan_repeated (hkind : kind.Managed root key) {tree : Block} {object : α}
    (htree : kind.schema.Tolerates Schema.isInteger tree)
    (hexpand : kind.expand (kind.schema.normalize none (.obj tree)) = .ok object) :
    ∃ edits, kind.plan (kind.flatten object (kind.schema.normalize none (.obj tree))) (.obj tree) =
        .ok edits ∧
      (edits = [] ∨ ∃ value, edits = [.replace ("/" ++ key) value] ∧
        find? ("/" ++ key) (kind.toJson object) = some value) ∧
      performAll? edits (kind.toJson object) = some (kind.toJson object) := by
  have h := hkind.lawful
  obtain ⟨shown, hflatten, -⟩ :=
    hkind.showing.exists_shown object (.obj (kind.schema.fill none tree))
  have hagain := hkind.repeating.expand_fill_shown htree hexpand hflatten
  have hbefore := hkind.repeating.isDeclared_shown hflatten hexpand
  have hafter := hkind.repeating.isDeclared_fill htree hagain
  obtain ⟨hlabels, hannotations⟩ := hkind.textsAt_shown hexpand hflatten
  have hplan : kind.plan (.obj shown) (.obj tree) = .ok
      (if shown.lookup root = (kind.schema.fill (some shown) tree).lookup root then []
        else Change.ofProjection ("/" ++ key) (kind.content key object).isSome
          (kind.content key object)) := by
    have hedits : kind.edits (.obj shown) (.obj (kind.schema.fill (some shown) tree)) = _ :=
      h.edits_of_expand hagain hafter.symm
    rw [hlabels, hannotations, h.textsAt_labels hagain, h.textsAt_annotations hagain,
      Change.ofTextMaps_self, Change.ofTextMaps_self, hbefore] at hedits
    exact hedits
  have hfind : find? ("/" ++ key) (kind.toJson object) = kind.content key object :=
    (h.places_toJson object).2.2
  refine ⟨_, (congrArg (kind.plan · (.obj tree)) hflatten).trans hplan, ?_, ?_⟩
  · split
    · exact .inl rfl
    · cases hcontent : kind.content key object with
      | none => exact .inl rfl
      | some value => exact .inr ⟨value, rfl, hfind.trans hcontent⟩
  · split
    · exact performAll?_nil _
    · have hkept : (kind.fields object).lookup key = kind.content key object := rfl
      rw [h.toJson_eq, Change.performAll?_projection h.tokens?_key (congrArg Option.isSome hkept),
        (h.ascending object).assign_eq_self hkept]

/-- A deployment with empty values, with numbers as bounds and without a selector. -/
theorem plan_repeated_loose :
    let bounds : Json := .arr [.obj [("max_surge", .int 3), ("max_unavailable", .int 0)]]
    let container : Json := .obj [("args", .arr []), ("image", .str ""), ("name", .str "c")]
    let template : Json := .obj
      [("metadata", .arr [.obj [("labels", .obj [("app", .str "a")])]]),
       ("spec", .arr [.obj [("container", .arr [container]), ("node_selector", .obj [])]])]
    let tree : Block :=
      [("metadata", .arr [.obj [("annotations", .obj []), ("name", .str "d")]]),
       ("spec", .arr [.obj [("strategy", .arr [.obj [("rolling_update", bounds)]]),
         ("template", .arr [template])]])]
    ∃ object edits,
      Deployment.kind.expand (Deployment.kind.schema.normalize none (.obj tree)) = .ok object ∧
      Deployment.kind.plan (Deployment.kind.flatten object
        (Deployment.kind.schema.normalize none (.obj tree))) (.obj tree) = .ok edits ∧
      performAll? edits (Deployment.kind.toJson object) =
        some (Deployment.kind.toJson object) := by
  intro bounds container template tree
  have htree : Deployment.kind.schema.Tolerates Schema.isInteger tree := by decide
  obtain ⟨object, hexpand⟩ : ∃ object, Deployment.kind.expand
      (Deployment.kind.schema.normalize none (.obj tree)) = .ok object :=
    Steps.exists_of_isOk (by decide)
  obtain ⟨edits, hplan, _, hperform⟩ := plan_repeated .deployment htree hexpand
  exact ⟨object, edits, hexpand, hplan, hperform⟩

end Kind

end Reconcile
