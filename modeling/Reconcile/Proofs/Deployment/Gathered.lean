import Mathlib.Data.List.Basic
import Reconcile.Proofs.Block.Readers
import Reconcile.Proofs.Deployment.Upgrades
import Reconcile.Proofs.Deployment.Version0

/-!
# What upgraded records of deployments hold

The attributes of a tree of version 0 are followed through both steps, from the template up: the
fields of the pods' specification are held where they were moved to (`holdsBlock_template`), the
desired content has its two defaults (`holdsBlock_spec`), and the metadata have the name
(`holdsField_metadata`). Everything else is held where it was.
-/

namespace Reconcile.Deployment

open Schema

variable {attributes : Attributes} {block spec template : Block}

/-! ## The template -/

/-- What was written for a tree of version 0 leaves the place free that the fields of the pods'
specification are moved to. -/
theorem vacant_podKey (block : Block) :
    Vacant (Schema.toAttributes schema0 (.obj block)) podKey := by
  have hnames : schema0.DistinctNames ∧ DeploymentSpec.schema0.DistinctNames ∧
      PodTemplate.schema0.DistinctNames := by decide
  obtain ⟨hroot, hspec, htemplate⟩ := hnames
  intro k hk
  -- Only the way down to the template could write the key, and the template has no such field.
  refine (write_frame_within (i := 0) hroot spec_mem_schema0 rfl ?_ fun spec out => ?_).trans rfl
  · have hkey : podKey = memberKey (memberKey ("" ++ "spec") (toString 0)) "template.0.spec" := by
      decide
    exact Under.of_member (hkey ▸ hk)
  refine write_frame_within (i := 0) hspec template_mem_schema0 rfl ?_ fun template out => ?_
  · have hkey : podKey = memberKey (memberKey
        (elementPrefix ("" ++ "spec") 0 ++ "template") (toString 0)) "spec" := by decide
    exact Under.of_member (hkey ▸ hk)
  refine write_frame fun field hfield hunder => ?_
  have hstart : elementPrefix (elementPrefix ("" ++ "spec") 0 ++ "template") 0 =
    templatePrefix := by decide
  have hne : ∀ field ∈ PodTemplate.schema0, field.name ≠ "spec" := by decide
  exact hunder.disjoint (htemplate.2 field hfield) (by decide) (hne field hfield) (hstart ▸ hk)

/-- A field of the pods' specification is held at the place that it is moved to. -/
theorem holdsField_moved (hfree : Vacant attributes podKey) {name : String} {type : FieldType}
    {value : Option Json} (hdot : '.' ∉ name.toList) (hspec : name ≠ "spec")
    (hmeta : name ≠ "metadata") (h : HoldsField attributes type (templatePrefix ++ name) value) :
    HoldsField (bothSteps attributes) type (elementPrefix podKey 0 ++ name) value := by
  refine h.relocate fun suffix hsuffix => ?_
  have hname : Under name (name ++ suffix) := by
    rcases hsuffix with rfl | ⟨rest, rfl⟩
    · exact .inl (String.append_empty)
    · exact .inr ⟨rest, by rw [String.empty_append, String.append_assoc]⟩
  have hloose := looseTemplateField?_of_under hdot hspec hmeta hname
  have htarget : elementPrefix podKey 0 ++ name ++ suffix = looseTarget (name ++ suffix) := by
    rw [looseTarget_eq, String.append_assoc]
  have htargetFree := hfree _ (under_looseTarget (name ++ suffix))
  rw [htarget, get?_bothSteps_of_template (under_template_of_podKey (under_looseTarget _)),
    get?_gatherBlocks_target hloose,
    Attributes.get?_rename_of_free (ne_looseTarget hloose _) htargetFree, String.append_assoc]

/-- The metadata of the template are held as before. -/
theorem holdsField_templateMetadata {fields : Schema} {singular : Bool} {value : Option Json}
    (h : HoldsField attributes (.block fields singular) (templatePrefix ++ "metadata") value) :
    HoldsField (bothSteps attributes) (.block fields singular) (templatePrefix ++ "metadata")
      value := by
  have htemplate : ∀ k, Under (templatePrefix ++ "metadata") k → Under "spec.0.template.0" k := by
    intro k hk
    have hkey : templatePrefix ++ "metadata" = memberKey "spec.0.template.0" "metadata" := by decide
    exact Under.of_member (hkey ▸ hk)
  have hpod : ∀ k, Under (templatePrefix ++ "metadata") k → ¬ Under podKey k :=
    fun k hk => hk.disjoint (by decide) (by decide) (by decide)
  have hname : ∀ k, Under (templatePrefix ++ "metadata") k →
      (gatherName attributes).get? k = attributes.get? k := fun k hk =>
    get?_gatherName_of_spec (under_root_of_spec (under_spec_of_template (htemplate k hk)))
  -- The key of the metadata itself counts as loose, but no block binds its own key.
  have hagree : ∀ k, Under (templatePrefix ++ "metadata") k → k ≠ templatePrefix ++ "metadata" →
      (bothSteps attributes).get? k = attributes.get? k := by
    intro k hk hne
    rw [get?_bothSteps_of_template (htemplate k hk),
      get?_gatherBlocks_of_apart (looseTemplateField?_metadata hk hne) (hpod k hk), hname k hk]
  cases value with
  | some value =>
      exact HoldsValue.congr_members h fun member =>
        hagree _ (.member _ member) (memberKey_ne _ member)
  | none =>
      intro k hk
      have hnone : attributes.get? k = none := h k hk
      rw [get?_bothSteps_of_template (htemplate k hk),
        get?_gatherBlocks_of_none ((hname k hk).trans hnone) (hpod k hk)]

/-- The specification block has one element if a field of the pods' specification was there. -/
theorem get?_bothSteps_counter (hfree : Vacant attributes podKey)
    (h : HoldsBlock attributes PodTemplate.schema0 templatePrefix template)
    (hloose : ∃ key ∈ template.map (·.1), key ≠ "metadata") :
    (bothSteps attributes).get? (lengthKey podKey) = some "1" := by
  have hnames : PodTemplate.schema0.DistinctNames ∧
      ∀ field ∈ PodTemplate.schema0, field.name ≠ "spec" := by decide
  obtain ⟨key, hkey, hmeta⟩ := hloose
  obtain ⟨field, hfield, rfl⟩ := List.mem_map.1 (h.covers.known key hkey)
  obtain ⟨value, hvalue⟩ := Option.ne_none_iff_exists'.1 (mt Entries.lookup_eq_none_iff.1
    (not_not.2 hkey))
  obtain ⟨k, hk, hbound⟩ := (h.present field hfield value hvalue).exists_bound
  obtain ⟨rest, rfl, hrest⟩ := hk.exists_rest
  have hrestLoose := looseTemplateField?_of_under (hnames.1.2 field hfield)
    (hnames.2 field hfield) hmeta hrest
  have htargetFree := hfree _ (under_looseTarget rest)
  have hmoved := (Attributes.rename_eq_moved_iff (ne_looseTarget hrestLoose rest)).2
    ⟨hbound, fun s hs => nomatch htargetFree.symm.trans hs⟩
  rw [get?_bothSteps_of_template (under_template_of_podKey (.lengthKey podKey))]
  exact get?_gatherBlocks_counter_iff.2
    (.inr ⟨hfree _ (.lengthKey podKey), rfl, _, rest, hrestLoose, hmoved⟩)

/-- The template is held in its current shape. -/
theorem holdsBlock_template (hfree : Vacant attributes podKey)
    (h : HoldsBlock attributes PodTemplate.schema0 templatePrefix template)
    (hloose : ∃ key ∈ template.map (·.1), key ≠ "metadata") :
    HoldsBlock (bothSteps attributes) PodTemplate.schema templatePrefix
      (upgradedTemplate template) := by
  have hnames : PodSpec.schema.DistinctNames ∧
      ∀ field ∈ PodSpec.schema, field.name ≠ "spec" ∧ field.name ≠ "metadata" := by decide
  have hspec : HoldsBlock (bothSteps attributes) PodSpec.schema (elementPrefix podKey 0)
      (Entries.erase "metadata" template) := by
    refine holdsBlock_iff.2 ⟨.of_lookup (h.covers.ascending.erase _) fun key hkey => ?_,
      fun field hfield => ?_⟩
    · rw [Entries.lookup_erase]
      split
      · rfl
      · rename_i hmeta
        refine Entries.lookup_eq_none_iff.2 fun hmem => ?_
        rcases List.mem_cons.1 (h.covers.known key hmem) with hname | hname
        · exact hmeta hname
        · exact hkey hname
    · obtain ⟨hne, hmeta⟩ := hnames.2 field hfield
      rw [Entries.lookup_erase, if_neg hmeta]
      exact holdsField_moved hfree (hnames.1.2 field hfield) hne hmeta
        (h.field (List.mem_cons_of_mem _ hfield))
  refine holdsBlock_iff.2 ⟨.of_lookup (Block.ascending_ofFields _) fun key hkey => ?_, ?_⟩
  · simp only [PodTemplate.schema, Field.single, List.map_cons, List.map_nil, List.mem_cons,
      List.not_mem_nil, or_false, not_or] at hkey
    rw [lookup_upgradedTemplate, if_neg hkey.1, if_neg hkey.2]
  · have hmetaLookup : (upgradedTemplate template).lookup "metadata" =
        template.lookup "metadata" := by rw [lookup_upgradedTemplate, if_pos rfl]
    have hspecLookup : (upgradedTemplate template).lookup "spec" =
        some (Block.singular (Entries.erase "metadata" template)) := by
      rw [lookup_upgradedTemplate, if_neg (by decide), if_pos rfl]
    rw [PodTemplate.schema, List.forall_mem_cons, List.forall_mem_singleton]
    refine ⟨?_, ?_⟩
    · show HoldsField _ _ _ ((upgradedTemplate template).lookup "metadata")
      rw [hmetaLookup]
      exact holdsField_templateMetadata (h.field List.mem_cons_self)
    · show HoldsField _ _ _ ((upgradedTemplate template).lookup "spec")
      rw [hspecLookup]
      exact .of_element (get?_bothSteps_counter hfree h hloose) hspec

/-! ## The desired content -/

theorem template_mem_schema :
    Field.single "template" PodTemplate.schema .required ∈ DeploymentSpec.schema := by
  simp [DeploymentSpec.schema]

theorem paused_mem_schema : (Field.bool "paused" .optional).withDefault
    (.bool DeploymentSpec.defaultPaused) ∈ DeploymentSpec.schema := by
  simp [DeploymentSpec.schema]

theorem deadline_mem_schema : (Field.int "progress_deadline_seconds" .optional).withDefault
    (.int DeploymentSpec.defaultProgressDeadlineSeconds.toInt) ∈ DeploymentSpec.schema := by
  simp [DeploymentSpec.schema]

/-- The desired content is held in its current shape. -/
theorem holdsBlock_spec (hfree : Vacant attributes podKey)
    (h : HoldsBlock attributes DeploymentSpec.schema0 "spec.0." spec)
    (heq : spec.lookup "template" = some (Block.singular template))
    (hloose : ∃ key ∈ template.map (·.1), key ≠ "metadata") :
    HoldsBlock (bothSteps attributes) DeploymentSpec.schema "spec.0." (upgradedSpec spec) := by
  have hnames : DeploymentSpec.schema.DistinctNames := by decide
  have hsame : DeploymentSpec.schema0.map (·.name) = DeploymentSpec.schema.map (·.name) := by decide
  have hmem : ∀ field ∈ DeploymentSpec.schema, field.name ≠ "template" →
      field ∈ DeploymentSpec.schema0 := fun field hfield hne =>
    List.mem_map.2 ⟨field, hfield, if_neg hne⟩
  refine holdsBlock_iff.2 ⟨.of_lookup ?_ fun key hkey => ?_, fun field hfield => ?_⟩
  · exact ((h.covers.ascending.insert _ _).insert _ _).insert _ _
  · have hother : ∀ other ∈ DeploymentSpec.schema, key ≠ other.name := fun other hmem heq =>
      hkey (List.mem_map.2 ⟨other, hmem, heq.symm⟩)
    rw [lookup_upgradedSpec heq, if_neg, if_neg, if_neg]
    · exact Entries.lookup_eq_none_iff.2 fun hk => hkey (hsame ▸ h.covers.known key hk)
    · exact hother _ deadline_mem_schema
    · exact hother _ paused_mem_schema
    · exact hother _ template_mem_schema
  by_cases htemplateName : field.name = "template"
  · obtain rfl := List.inj_on_of_nodup_map hnames.1 hfield template_mem_schema htemplateName
    show HoldsField _ _ _ ((upgradedSpec spec).lookup "template")
    rw [lookup_upgradedSpec heq, if_pos rfl]
    obtain ⟨hcounter, htemplate⟩ := (h.present _ template_mem_schema0 _ heq).element
    have hstart : elementPrefix ("spec.0." ++ "template") 0 = templatePrefix := by decide
    refine .of_element (get?_bothSteps_templateCounter.trans hcounter) ?_
    exact hstart.symm ▸ holdsBlock_template hfree (hstart ▸ htemplate) hloose
  by_cases hpausedName : field.name = "paused"
  · obtain rfl := List.inj_on_of_nodup_map hnames.1 hfield paused_mem_schema hpausedName
    show HoldsField _ _ _ ((upgradedSpec spec).lookup "paused")
    rw [lookup_upgradedSpec heq, if_neg (by decide), if_pos rfl]
    exact (h.field (hmem _ hfield htemplateName)).getD_bool get?_bothSteps_paused
  by_cases hdeadlineName : field.name = "progress_deadline_seconds"
  · obtain rfl := List.inj_on_of_nodup_map hnames.1 hfield deadline_mem_schema hdeadlineName
    show HoldsField _ _ _ ((upgradedSpec spec).lookup "progress_deadline_seconds")
    rw [lookup_upgradedSpec heq, if_neg (by decide), if_neg (by decide), if_pos rfl]
    exact (h.field (hmem _ hfield htemplateName)).getD_int (by decide) (by decide)
      get?_bothSteps_deadline
  · rw [lookup_upgradedSpec heq, if_neg htemplateName, if_neg hpausedName, if_neg hdeadlineName]
    exact (h.field (hmem field hfield htemplateName)).congr fun k hk =>
      get?_bothSteps_of_spec (hnames.2 field hfield) htemplateName hpausedName hdeadlineName hk

/-! ## The metadata -/

/-- A name is moved if the metadata have none that is not empty. -/
theorem rename_name_eq_moved_iff {metaBlock : Block}
    (hname : HoldsField attributes .text "name" (block.lookup "name"))
    (hne : block.lookup "name" ≠ some (.str ""))
    (hmeta : HoldsField attributes .text "metadata.0.name" (metaBlock.lookup "name")) :
    (attributes.rename "name" "metadata.0.name").1 = .moved ↔
      (Block.text? block "name").isSome ∧ Block.text? metaBlock "name" = none := by
  rw [Attributes.rename_eq_moved_iff (by decide), hname.get?_text, hmeta.get?_text,
    Block.text?_of_ne hne]
  refine and_congr_right fun _ => ?_
  rw [Block.text?, Option.filter_eq_none_iff]
  simp

/-- Metadata that the name is not moved to are held as before. -/
theorem holdsField_metadata_of_kept {type : FieldType} {value : Option Json}
    (hkept : (attributes.rename "name" "metadata.0.name").1 ≠ .moved)
    (h : HoldsField attributes type "metadata" value) :
    HoldsField (bothSteps attributes) type "metadata" value := by
  refine h.congr fun k hk => ?_
  rw [get?_bothSteps_of_metadata hk, get?_gatherName_of_kept hkept]
  rintro rfl
  exact hk.disjoint_root (by decide) (by decide) (by decide) (.refl "name")

/-- Metadata without elements are held as before. -/
theorem holdsValue_metadata_of_empty {fields : Schema} {singular : Bool}
    (h : HoldsValue attributes (.block fields singular) "metadata" (.arr [])) :
    HoldsValue (bothSteps attributes) (.block fields singular) "metadata" (.arr []) := by
  have hlength : attributes.get? (lengthKey "metadata") = some "0" := by
    generalize hvalue : Json.arr [] = value at h
    cases h with
    | @block _ _ _ blocks _ hlength _ _ _ =>
        obtain rfl : blocks = [] := by simpa using (Json.arr.inj hvalue).symm
        exact hlength
  have hcounter : (bothSteps attributes).get? (lengthKey "metadata") = some "0" := by
    rw [get?_bothSteps_of_metadata (.lengthKey _)]
    by_cases hmoved : (attributes.rename "name" "metadata.0.name").1 = .moved
    · have hkey : lengthKey "metadata" = "metadata.#" := by decide
      rw [hkey] at hlength ⊢
      rw [get?_gatherName_of_moved hmoved (by decide), if_pos rfl, hlength, Option.getD_some]
    · rw [get?_gatherName_of_kept hmoved (by decide), hlength]
  have hnone : ∀ (i : Nat) (element : Block), ([] : List Block)[i]? ≠ some element := by simp
  show HoldsValue _ _ _ (.arr (([] : List Block).map .obj))
  exact .block (by decide) hcounter (by simp) (fun i element h => absurd h (hnone i element))
    (fun i element h => absurd h (hnone i element))

/-- The metadata that the name is moved to are held with it. -/
theorem holdsBlock_named {metaBlock : Block} {name : String}
    (hmoved : (attributes.rename "name" "metadata.0.name").1 = .moved)
    (hname : attributes.get? "name" = some name)
    (h : HoldsBlock attributes ObjectMeta.schema "metadata.0." metaBlock) :
    HoldsBlock (bothSteps attributes) ObjectMeta.schema "metadata.0."
      (Entries.insert "name" (.str name) metaBlock) := by
  have hnames : ObjectMeta.schema.DistinctNames := by decide
  have hfirst : Field.text "name" .optionalComputed ∈ ObjectMeta.schema := List.mem_cons_self
  have hbound : ∀ k, Under "metadata" k → (bothSteps attributes).get? k =
      if k = "metadata.#" then some ((attributes.get? "metadata.#").getD "1")
      else if k = "metadata.0.name" then some name else attributes.get? k := by
    intro k hk
    rw [get?_bothSteps_of_metadata hk, get?_gatherName_of_moved hmoved, hname]
    rintro rfl
    exact hk.disjoint_root (by decide) (by decide) (by decide) (.refl "name")
  refine holdsBlock_iff.2 ⟨.of_lookup (h.covers.ascending.insert _ _) fun key hkey => ?_,
    fun field hfield => ?_⟩
  · rw [Entries.lookup_insert, if_neg]
    · exact Entries.lookup_eq_none_iff.2 fun hk => hkey (h.covers.known key hk)
    · rintro rfl
      exact hkey (List.mem_map_of_mem hfirst)
  by_cases hfieldName : field.name = "name"
  · obtain rfl := List.inj_on_of_nodup_map hnames.1 hfield hfirst hfieldName
    show HoldsField _ _ _ ((Entries.insert "name" (.str name) metaBlock).lookup "name")
    rw [Entries.lookup_insert, if_pos rfl]
    have hkey : "metadata.0." ++ "name" = "metadata.0.name" := by decide
    refine .text ?_
    show (bothSteps attributes).get? ("metadata.0." ++ "name") = some name
    rw [hkey, hbound _ (.inr ⟨"0.name", by decide⟩), if_neg (by decide), if_pos rfl]
  · rw [Entries.lookup_insert, if_neg hfieldName]
    refine (h.field hfield).congr fun k hk => ?_
    have hbegin : "metadata.0." = elementPrefix "metadata" 0 := by decide
    have helement : Under (memberKey "metadata" (toString 0)) k :=
      Under.of_elementPrefix (hbegin ▸ hk)
    rw [hbound k helement.of_member, if_neg, if_neg]
    · rintro rfl
      exact hk.disjoint (hnames.2 field hfield) (by decide) hfieldName (.inl (by decide))
    · rintro rfl
      exact not_under_lengthKey "metadata" 0 helement

/-- Metadata with at most one element are held with the name in them, if they are not empty. -/
theorem holdsField_metadata_of_element {metaBlock : Block} {singular : Bool}
    (hname : HoldsField attributes .text "name" (block.lookup "name"))
    (hne : block.lookup "name" ≠ some (.str ""))
    (hmeta : HoldsField attributes (.block ObjectMeta.schema singular) "metadata"
      (block.lookup "metadata"))
    (hchild : (Block.child? block "metadata").getD [] = metaBlock)
    (hnamed : (Block.text? metaBlock "name").isSome →
      block.lookup "metadata" = some (Block.singular metaBlock))
    (hcounter : (attributes.get? "metadata.#").getD "1" = "1")
    (helement : HoldsBlock attributes ObjectMeta.schema "metadata.0." metaBlock) :
    HoldsField (bothSteps attributes) (.block ObjectMeta.schema singular) "metadata"
      (upgradedMetadata block) := by
  have hmetaName : HoldsField attributes .text "metadata.0.name" (metaBlock.lookup "name") :=
    helement.field (List.mem_cons_self : Field.text "name" .optionalComputed ∈ ObjectMeta.schema)
  have hmoved := rename_name_eq_moved_iff hname hne hmetaName
  cases htext : Block.text? block "name" with
  | none =>
      rw [upgradedMetadata_of_unnamed htext]
      refine holdsField_metadata_of_kept (fun h => ?_) hmeta
      rw [hmoved, htext] at h
      exact Bool.false_ne_true h.1
  | some name =>
      cases hexisting : Block.text? metaBlock "name" with
      | some existing =>
          have hlookup := hnamed (by rw [hexisting]; rfl)
          rw [hlookup] at hmeta
          rw [upgradedMetadata_of_named htext hchild, hexisting, Option.isSome_some,
            if_pos rfl]
          refine holdsField_metadata_of_kept (fun h => ?_) hmeta
          rw [hmoved, hexisting] at h
          cases h.2
      | none =>
          have hrename := hmoved.2 ⟨by rw [htext]; rfl, hexisting⟩
          have hbound : attributes.get? "name" = some name := by
            rw [hname.get?_text, ← Block.text?_of_ne hne, htext]
          have hlength : (bothSteps attributes).get? (lengthKey "metadata") = some "1" := by
            have hkey : lengthKey "metadata" = "metadata.#" := by decide
            rw [get?_bothSteps_of_metadata (.lengthKey _), hkey,
              get?_gatherName_of_moved hrename (by decide), if_pos rfl, hcounter]
          have hbegin : elementPrefix "metadata" 0 = "metadata.0." := by decide
          rw [upgradedMetadata_of_named htext hchild, hexisting, Option.isSome_none,
            if_neg Bool.false_ne_true]
          refine .of_element hlength ?_
          rw [hbegin]
          exact holdsBlock_named hrename hbound helement

/-- The metadata of what is left of a tree are held. -/
theorem holdsField_metadata {singular : Bool}
    (hname : HoldsField attributes .text "name" (block.lookup "name"))
    (hne : block.lookup "name" ≠ some (.str ""))
    (hmeta : HoldsField attributes (.block ObjectMeta.schema singular) "metadata"
      (block.lookup "metadata"))
    (hle : (Block.children block "metadata").length ≤ 1) :
    HoldsField (bothSteps attributes) (.block ObjectMeta.schema singular) "metadata"
      (upgradedMetadata (remaining block)) := by
  have hbegin : "metadata.0." = elementPrefix "metadata" 0 := by decide
  cases hlookup : block.lookup "metadata" with
  | none =>
      have hkept : ¬ NameLost block := fun h => by simpa [hlookup] using h.2
      have hchild : (Block.child? block "metadata").getD [] = [] := by
        rw [Block.child?, hlookup]
        rfl
      have hvacant : Vacant attributes "metadata" := by rwa [hlookup] at hmeta
      have hcounter : attributes.get? "metadata.#" = none := hvacant _ (.inr ⟨"#", by decide⟩)
      rw [remaining_of_not_lost hkept]
      refine holdsField_metadata_of_element hname hne hmeta hchild (by simp [Block.text?])
        (by rw [hcounter]; rfl) (holdsBlock_iff.2 ⟨⟨.nil, by simp⟩, fun field _ k hk => ?_⟩)
      rw [hbegin] at hk
      exact hvacant k hk.of_elementPrefix.of_member
  | some value =>
      obtain ⟨blocks, rfl⟩ : ∃ blocks : List Block, value = .arr (blocks.map .obj) := by
        rw [hlookup] at hmeta
        cases hmeta with
        | @block _ _ _ blocks _ _ _ _ _ => exact ⟨blocks, rfl⟩
      rw [Block.children_of_lookup hlookup] at hle
      cases blocks with
      | nil =>
          rw [hlookup] at hmeta
          rw [upgradedMetadata_remaining_of_empty hlookup]
          exact holdsValue_metadata_of_empty hmeta
      | cons metaBlock rest =>
          obtain rfl : rest = [] := List.length_eq_zero_iff.1 (by simpa using hle)
          have hkept : ¬ NameLost block := fun h => by simpa [hlookup] using h.2
          have hchild : (Block.child? block "metadata").getD [] = metaBlock := by
            rw [Block.child?_eq_some_iff.2 ⟨[], hlookup⟩, Option.getD_some]
          obtain ⟨hlength, helement⟩ : attributes.get? (lengthKey "metadata") = some "1" ∧
              HoldsBlock attributes ObjectMeta.schema (elementPrefix "metadata" 0) metaBlock := by
            rw [hlookup] at hmeta
            exact HoldsValue.element hmeta
          have hkey : lengthKey "metadata" = "metadata.#" := by decide
          rw [remaining_of_not_lost hkept]
          refine holdsField_metadata_of_element hname hne hmeta hchild (fun _ => hlookup) ?_
            (hbegin ▸ helement)
          rw [← hkey, hlength, Option.getD_some]

end Reconcile.Deployment
