import Mathlib.Data.List.Basic
import Reconcile.Proofs.Deployment.Declaration
import Reconcile.Proofs.Deployment.Wire
import Reconcile.Proofs.Metadata.Carried
import Reconcile.Proofs.Pod.Carried

/-!
# Deployments that reach the wire

The deployment that a tree declares carries what the tree holds exactly if the tree is typed. The
bounds of a rolling update are carried up to their spelling, since a numeral is written as the
integer that it names.
-/

namespace Reconcile

open Schema (Written carriesField_leaf carriesField_member carriesField_computed
  carriesField_singular place resolve?_place)
open Json.Pointer (resolve?)

variable {block : Block}

/-! ## The bounds of a rolling update -/

/-- An integer that is read between some bounds is read between all bounds that it lies between. -/
theorem Decimal.intIn?_between {low high low' high' i : Int} {s : String}
    (h : intIn? low high s = some i) (hlow : low' ≤ i) (hhigh : i ≤ high') :
    intIn? low' high' s = some i := by
  rw [intIn?] at h ⊢
  obtain ⟨hvalue, _⟩ := Option.filter_eq_some_iff.1 h
  exact Option.filter_eq_some_iff.2 ⟨hvalue, decide_eq_true ⟨hlow, hhigh⟩⟩

namespace IntOrText

/-- The integer that counts for a text is the one that was read. -/
theorem toInt_ofInt_of_intIn? {i : Int} {s : String}
    (h : Decimal.intIn? Json.minInt32 Json.maxInt32 s = some i) : (Int32.ofInt i).toInt = i := by
  obtain ⟨hlow, hhigh⟩ := Decimal.bounds_of_intIn? h
  refine Int32.toInt_ofInt_of_le hlow ?_
  rw [Json.maxInt32] at hhigh
  omega

/-- A text counts as the integer that it names, or as itself. -/
theorem sameSpelled_ofText (s : String) :
    Schema.sameSpelled (.str s) (ofText s).toJson = true := by
  unfold ofText
  split
  · rename_i i hread
    show Schema.spells s (Int32.ofInt i).toInt = true
    rw [toInt_ofInt_of_intIn? hread]
    exact decide_eq_true (Decimal.intIn?_between hread (Int.le_refl i) (Int.le_refl i))
  · exact decide_eq_true rfl

/-- An integer counts as itself, or as its numeral if it is too large. -/
theorem sameSpelled_ofText_toString (i : Int) :
    Schema.sameSpelled (.int i) (ofText (toString i)).toJson = true := by
  unfold ofText
  split
  · rename_i j hread
    have hi : Decimal.intIn? (min i j) (max i j) (toString i) = some i :=
      Decimal.intIn?_toString (Int.min_le_left i j) (Int.le_max_left i j)
    rw [Decimal.intIn?_between hread (Int.min_le_right i j) (Int.le_max_right i j)] at hi
    obtain rfl := Option.some.inj hi
    show decide (Json.int j = .int (Int32.ofInt j).toInt) = true
    rw [toInt_ofInt_of_intIn? hread]
    exact decide_eq_true rfl
  · exact decide_eq_true (Decimal.intIn?_toString (Int.le_refl i) (Int.le_refl i))

/-- A value that is neither a text nor an integer is no bound. -/
theorem sameSpelled_toJson {value : Json}
    (h : (FieldType.text.admits value || Schema.isInteger value) = false) (b : IntOrText) :
    Schema.sameSpelled value b.toJson = false := by
  cases value with
  | str s => cases h
  | int i => cases h
  | _ => cases b with
    | int i => rfl
    | text s => rfl

end IntOrText

namespace RollingUpdate

/-- A bound is carried exactly if it is a text or an integer. -/
theorem sameSpelled_bound {key : String} {value : Json} (hvalue : block.lookup key = some value)
    (hset : Schema.isSet value = true) :
    Schema.sameSpelled value (bound block key).toJson =
      (FieldType.text.admits value || Schema.isInteger value) := by
  rw [bound, bound?, hvalue]
  cases value with
  | str s =>
      have hs : s ≠ "" := by
        rintro rfl
        cases hset
      show Schema.sameSpelled (.str s)
        (IntOrText.ofText ((if s = "" then none else some s).getD defaultBound)).toJson = true
      rw [if_neg hs]
      exact IntOrText.sameSpelled_ofText s
  | int i => exact IntOrText.sameSpelled_ofText_toString i
  | _ => exact IntOrText.sameSpelled_toJson rfl _

/-- The bounds of a rolling update reach the wire exactly if they are typed. -/
theorem carries_expand (block : Block) :
    schema.carries block (expand block).toJson = schema.typed block := by
  have hlookup := (expand block).lookup_toJson
  refine Schema.carries_eq_typed ?_
  simp only [schema, List.forall_mem_cons]
  exact ⟨Schema.carriesField_of_isSet (Schema.resolve?_place (by decide) (hlookup "maxSurge"))
      fun _ hvalue hset => sameSpelled_bound hvalue hset,
    Schema.carriesField_of_isSet (Schema.resolve?_place (by decide) (hlookup "maxUnavailable"))
      fun _ hvalue hset => sameSpelled_bound hvalue hset,
    List.forall_mem_nil _⟩

end RollingUpdate

/-! ## Strategies and templates -/

theorem Strategy.carries_expand (block : Block) :
    schema.carries block (expand block).toJson = schema.typed block := by
  have hlookup := (expand block).lookup_toJson
  refine Schema.carries_eq_typed ?_
  simp only [schema, List.forall_mem_cons]
  refine ⟨carriesField_member rfl rfl (by decide) (hlookup "type") (Written.text block "type"),
    carriesField_singular rfl (resolve?_place (by decide) (hlookup "rollingUpdate")) ?_,
    List.forall_mem_nil _⟩
  intro child hchild
  exact ⟨_, congrArg (fun b => (b.map RollingUpdate.expand).map RollingUpdate.toJson) hchild,
    RollingUpdate.carries_expand child⟩

/-- A template carries what its block holds exactly if the block is typed. -/
theorem PodTemplate.carries_expand {podBlock : Block} {podSpec : PodSpec}
    (hpod : Block.child? block "spec" = some podBlock)
    (hspec : PodSpec.expand podBlock = .ok podSpec) :
    schema.carries block
      (toJson { metadata := some (ObjectMeta.ofTemplate (Block.child? block "metadata")),
                spec := some podSpec }) = schema.typed block := by
  have hlookup := lookup_toJson
    { metadata := some (ObjectMeta.ofTemplate (Block.child? block "metadata")),
      spec := some podSpec }
  refine Schema.carries_eq_typed ?_
  simp only [schema, List.forall_mem_cons]
  refine ⟨carriesField_singular rfl (resolve?_place (by decide) (hlookup "metadata")) ?_,
    carriesField_singular rfl (resolve?_place (by decide) (hlookup "spec")) ?_,
    List.forall_mem_nil _⟩
  · intro child hchild
    exact ⟨_, congrArg (fun b => some (ObjectMeta.ofTemplate b).toJson) hchild,
      ObjectMeta.carries_expand_template child⟩
  · intro child hchild
    cases hpod.symm.trans hchild
    exact ⟨_, rfl, PodSpec.carries_expand hspec⟩

/-! ## Whole deployments -/

namespace DeploymentSpec

/-- The labels of a selector that is declared are written as they are. -/
theorem written_selector (block : Block) (template : ObjectMeta) :
    Written .textMap (block.lookup "selector")
      (Wire.texts (expandSelector block template).matchLabels) := by
  have hread := Written.texts block "selector"
  by_cases hempty : (Block.texts block "selector").isEmpty = true
  · refine ⟨fun v hvalue hset hadmits => ?_, fun w hw => ?_⟩
    · have hkept := hread.kept v hvalue hset hadmits
      rw [ObjectMeta.nonEmpty?, if_pos hempty] at hkept
      cases hkept
    · obtain ⟨d, _, rfl⟩ := Option.map_eq_some_iff.1 hw
      exact .textMap d
  · rw [expandSelector]
    show Written _ _ (Wire.texts (ObjectMeta.nonEmpty? (if _ then _ else _)))
    rwa [if_neg hempty]

/-- The labels of a selector lie a step deeper than other fields. -/
theorem resolve?_selector (s : DeploymentSpec) :
    resolve? (place "selector") s.toJson = Wire.texts s.selector.matchLabels := by
  have hplace : place "selector" = ["selector", "matchLabels"] := by decide
  have hlabels : ((s.selector.toJson.obj?).getD []).lookup "matchLabels" =
      Wire.texts s.selector.matchLabels := Block.lookup_ofFields (by simp) "matchLabels"
  rw [hplace, ← hlabels]
  show (((s.toJson.obj?).getD []).lookup "selector").bind _ = _
  rw [s.lookup_toJson]
  exact Option.bind_fun_some _

theorem carries_expand {s : DeploymentSpec} (hexpand : expand block = .ok s) :
    schema.carries block s.toJson = schema.typed block := by
  have hlookup := s.lookup_toJson
  have hselector := s.resolve?_selector
  have hjson : s.toJson = .obj ((s.toJson.obj?).getD []) := rfl
  rw [hjson] at hselector ⊢
  -- The members stand for themselves, so that the content below is not written out in them.
  generalize (s.toJson.obj?).getD [] = members at hlookup hselector ⊢
  obtain ⟨template, podBlock, minReady, deadline, replicas, history, podSpec, htemplate, hpod,
    hminReady, hdeadline, hreplicas, hhistory, hpodSpec, rfl⟩ := expand_eq_ok.1 hexpand
  refine Schema.carries_eq_typed ?_
  simp only [schema, List.forall_mem_cons]
  refine ⟨carriesField_member rfl rfl (by decide) (hlookup "minReadySeconds")
      (Written.int32D hminReady),
    carriesField_member rfl rfl (by decide) (hlookup "paused") (Written.bool block "paused" _),
    carriesField_member rfl rfl (by decide) (hlookup "progressDeadlineSeconds")
      (Written.int32D hdeadline),
    carriesField_member rfl rfl (by decide) (hlookup "replicas") (Written.int32D hreplicas),
    carriesField_member rfl rfl (by decide) (hlookup "revisionHistoryLimit")
      (Written.int32D hhistory),
    carriesField_leaf rfl rfl hselector (written_selector block _),
    carriesField_singular rfl (resolve?_place (by decide) (hlookup "strategy")) ?_,
    carriesField_singular rfl (resolve?_place (by decide) (hlookup "template")) ?_,
    List.forall_mem_nil _⟩
  · intro child hchild
    exact ⟨_, congrArg (fun b => (b.map Strategy.expand).map Strategy.toJson) hchild,
      Strategy.carries_expand child⟩
  · intro child hchild
    cases htemplate.symm.trans hchild
    exact ⟨_, rfl, PodTemplate.carries_expand hpod hpodSpec⟩

end DeploymentSpec

theorem Deployment.carries_expand {d : Deployment} (hexpand : expand (.obj block) = .ok d) :
    schema.carries block d.toJson = schema.typed block := by
  have hlookup := d.lookup_toJson
  obtain ⟨metaBlock, specBlock, spec, hmeta, _, hspecBlock, hspec, rfl⟩ := expand_eq_ok.1 hexpand
  refine Schema.carries_eq_typed ?_
  simp only [schema, List.forall_mem_cons]
  refine ⟨carriesField_singular rfl (resolve?_place (by decide) (hlookup "metadata")) ?_,
    carriesField_singular rfl (resolve?_place (by decide) (hlookup "spec")) ?_,
    carriesField_computed rfl _ _, List.forall_mem_nil _⟩
  · intro child hchild
    cases hmeta.symm.trans hchild
    exact ⟨_, rfl, ObjectMeta.carries_expand metaBlock⟩
  · intro child hchild
    cases hspecBlock.symm.trans hchild
    exact ⟨_, rfl, DeploymentSpec.carries_expand hspec⟩

end Reconcile
