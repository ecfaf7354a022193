import Mathlib.Data.List.Basic
import Reconcile.Proofs.Deployment.Gaps
import Reconcile.Proofs.Kind.Shown

/-!
# Trees that are planned from themselves

An update to the tree that shows an object has nothing to do, unless filling the gaps of this tree
puts in a default. That happens exactly if a bound of a rolling update is missing in the object
(`Kind.plan_shown`): the content is then replaced by content with the default bound.
-/

namespace Reconcile

open Json.Pointer

/-- The path in configuration trees of a place that may change. -/
def MutablePath.config : MutablePath → List String
  | .textMap config _ => config
  | .subtree config _ => config

/-- The bounds of a rolling update lie at one place of a deployment's wire form. -/
theorem Deployment.find?_rollingUpdate (d : Deployment) :
    find? "/spec/strategy/rollingUpdate" d.toJson =
      ((d.spec.bind (·.strategy)).bind (·.rollingUpdate)).map RollingUpdate.toJson := by
  have htokens : tokens? "/spec/strategy/rollingUpdate" =
      some ["spec", "strategy", "rollingUpdate"] := by decide
  rw [find?, htokens]
  show (((d.toJson.obj?).getD []).lookup "spec").bind _ = _
  rw [d.lookup_toJson]
  cases hspec : d.spec with
  | none => rfl
  | some s =>
      show (((s.toJson.obj?).getD []).lookup "strategy").bind _ = _
      rw [s.lookup_toJson]
      cases hstrategy : s.strategy with
      | none =>
          rw [Option.bind_some, hstrategy]
          rfl
      | some t =>
          show (((t.toJson.obj?).getD []).lookup "rollingUpdate").bind _ = _
          rw [t.lookup_toJson, Option.bind_some, hstrategy]
          exact Option.bind_fun_some _

namespace Kind

variable {α : Type} {kind : Kind α} {root key : String}

/-- If an object has a rolling update, it says both of its bounds. -/
def Bounded (kind : Kind α) (object : α) : Prop :=
  ∀ bounds, find? "/spec/strategy/rollingUpdate" (kind.toJson object) = some bounds →
    (find? "/maxSurge" bounds).isSome ∧ (find? "/maxUnavailable" bounds).isSome

instance (kind : Kind α) (object : α) : Decidable (kind.Bounded object) :=
  inferInstanceAs (Decidable
    (∀ bounds ∈ find? "/spec/strategy/rollingUpdate" (kind.toJson object),
      (find? "/maxSurge" bounds).isSome ∧ (find? "/maxUnavailable" bounds).isSome))

theorem bounded_deployment_iff (d : Deployment) :
    Deployment.kind.Bounded d ↔ ∀ s, d.spec = some s → s.Bounded := by
  have hfound : ∀ r : RollingUpdate, ((find? "/maxSurge" r.toJson).isSome ∧
      (find? "/maxUnavailable" r.toJson).isSome) ↔ r.maxSurge.isSome ∧ r.maxUnavailable.isSome := by
    intro r
    have hsurge : find? "/maxSurge" r.toJson = r.maxSurge.map IntOrText.toJson :=
      (find?_member (by decide)).trans (r.lookup_toJson "maxSurge")
    have hunavailable : find? "/maxUnavailable" r.toJson = r.maxUnavailable.map IntOrText.toJson :=
      (find?_member (by decide)).trans (r.lookup_toJson "maxUnavailable")
    rw [hsurge, hunavailable, Option.isSome_map, Option.isSome_map]
  constructor
  · intro h s hspec t hstrategy r hrolling
    refine (hfound r).1 (h r.toJson ?_)
    refine d.find?_rollingUpdate.trans ?_
    rw [hspec, Option.bind_some, hstrategy, Option.bind_some, hrolling]
    rfl
  · intro h bounds hbounds
    obtain ⟨r, hr, rfl⟩ := Option.map_eq_some_iff.1 (d.find?_rollingUpdate.symm.trans hbounds)
    obtain ⟨t, ht, hrolling⟩ := Option.bind_eq_some_iff.1 hr
    obtain ⟨s, hspec, hstrategy⟩ := Option.bind_eq_some_iff.1 ht
    exact (hfound r).2 (h s hspec t hstrategy r hrolling)

/-- A role has no rolling update. -/
theorem bounded_role (r : Role) : Role.kind.Bounded r := by
  have htokens : tokens? "/spec/strategy/rollingUpdate" =
      some ["spec", "strategy", "rollingUpdate"] := by decide
  intro bounds hbounds
  have hnone : find? "/spec/strategy/rollingUpdate" r.toJson = none := by
    rw [find?, htokens]
    show (((r.toJson.obj?).getD []).lookup "spec").bind _ = _
    rw [r.lookup_toJson]
    rfl
  cases hnone.symm.trans hbounds

/-- Only the content of an object can be shown with gaps, and it is shown so exactly if a bound is
missing. -/
theorem Managed.exists_root (hkind : kind.Managed root key) :
    ∃ (fields : Schema) (singular : Bool) (presence : Presence),
      (⟨root, .block fields singular, presence, none⟩ : Field) ∈ kind.schema ∧
      (∀ field ∈ kind.schema, field = ⟨root, .block fields singular, presence, none⟩ ∨
        ∀ value, Schema.CompleteField field value) ∧
      ∀ object prior shown, kind.flatten object prior = .obj shown →
        (Schema.CompleteField ⟨root, .block fields singular, presence, none⟩
          (shown.lookup root) ↔ kind.Bounded object) := by
  cases hkind with
  | deployment =>
      refine ⟨DeploymentSpec.schema, true, .required, .tail _ (.head _), ?_, ?_⟩
      · show ∀ field ∈ Deployment.schema, _
        simp only [Deployment.schema, List.forall_mem_cons]
        exact ⟨.inr (Schema.completeField_of_throughout rfl rfl (by decide)), .inl rfl,
          .inr (Schema.completeField_of_throughout rfl rfl (by decide)), List.forall_mem_nil _⟩
      · intro d prior shown hshown
        obtain rfl := Json.obj.inj ((d.flatten_eq prior).symm.trans hshown)
        exact (d.completeField_spec_iff _ _).trans (bounded_deployment_iff d).symm
  | role =>
      have hrules : PolicyRule.schema.Throughout Schema.WithoutDefaults := by decide
      refine ⟨PolicyRule.schema, false, .optional, .tail _ (.head _), ?_, fun r _ _ _ =>
        iff_of_true (Schema.completeField_of_throughout rfl rfl hrules _) (bounded_role r)⟩
      show ∀ field ∈ Role.schema, _
      simp only [Role.schema, List.forall_mem_cons]
      exact ⟨.inr (Schema.completeField_of_throughout rfl rfl (by decide)), .inl rfl,
        List.forall_mem_nil _⟩

/-- The edits from an accepted tree to itself, filled from itself. -/
theorem Managed.plan_self (hkind : kind.Managed root key) {shown : Block}
    (hshown : kind.schema.Accepts shown) {edits : List Json.Edit}
    (hplan : kind.plan (.obj shown) (.obj shown) = .ok edits) :
    let filled := kind.schema.fill (some shown) shown
    ∃ after, kind.expand (.obj filled) = .ok after ∧
      (kind.content key after).isSome = Change.isDeclared (filled.lookup root) ∧
      edits = if shown.lookup root = filled.lookup root then []
        else Change.ofProjection ("/" ++ key) (Change.isDeclared (shown.lookup root))
          (kind.content key after) := by
  intro filled
  have h := hkind.lawful
  have hfilled : kind.schema.Accepts filled := by
    refine Schema.fill_accepts h.wellNamed h.typedDefaults ?_ hshown
    rintro _ ⟨⟩
    exact hshown
  obtain ⟨after, hafter, _⟩ := Steps.bind_eq_ok_iff.1 hplan
  have hcontent := h.isSome_content hfilled hafter
  refine ⟨after, hafter, hcontent, Except.ok.inj (hplan.symm.trans ?_)⟩
  have hedits : kind.edits (.obj shown) (.obj filled) = _ := h.edits_of_expand hafter hcontent
  rw [hkind.textsAt_fill hshown hfilled (.inl rfl), hkind.textsAt_fill hshown hfilled (.inr rfl),
    Change.ofTextMaps_self, Change.ofTextMaps_self] at hedits
  exact hedits

/-- The tree that shows an object stays as it is when filled from itself exactly if no bound is
missing, and so does its content. Only content that is declared can have a gap. -/
theorem Managed.fill_shown_iff (hkind : kind.Managed root key) (object : α) (prior : Tree) :
    ∃ block, kind.flatten object prior = .obj block ∧ kind.schema.Accepts block ∧
      (kind.schema.fill (some block) block = block ↔ kind.Bounded object) ∧
      ((kind.schema.fill (some block) block).lookup root = block.lookup root ↔
        kind.Bounded object) ∧
      (¬ kind.Bounded object → Change.isDeclared (block.lookup root) = true ∧
        Change.isDeclared ((kind.schema.fill (some block) block).lookup root) = true) := by
  have h := hkind.lawful
  obtain ⟨block, hblock, haccepts, -⟩ := hkind.showing.exists_shown object prior
  obtain ⟨fields, singular, presence, hroot, hothers, hbounded⟩ := hkind.exists_root
  have hcomplete := hbounded object prior block hblock
  have hcontent := (Schema.lookup_fill_self_iff h.wellNamed haccepts hroot).trans hcomplete
  have hwhole : kind.schema.fill (some block) block = block ↔ kind.Bounded object := by
    constructor
    · intro hsame
      exact hcontent.1 (congrArg (List.lookup root) hsame)
    · intro hobject
      refine (Schema.fill_self_iff h.wellNamed haccepts).2 (Schema.complete_iff.2 ?_)
      intro field hfield
      rcases hothers field hfield with rfl | hother
      · exact hcomplete.2 hobject
      · exact hother _
  refine ⟨block, hblock, haccepts, hwhole, hcontent, fun hmissing => ?_⟩
  have hbefore : Change.isDeclared (block.lookup root) = true :=
    eq_true_of_ne_false fun hnone => hmissing (hcomplete.1
      (Schema.completeField_of_not_isDeclared rfl rfl (fun _ hv => haccepts.typed.here hroot hv)
        hnone))
  exact ⟨hbefore,
    Schema.isDeclared_fill_of_isDeclared h.wellNamed.nodup haccepts hroot rfl _ hbefore⟩

/-- An update to exactly what was read has nothing to do if no bound of a rolling update is missing
in the object that was read. If one is missing, the content is replaced. -/
theorem plan_shown (hkind : kind.Managed root key) (object : α) (prior : Tree) :
    let shown := kind.flatten object prior
    let normal := kind.schema.normalize (some shown) shown
    (normal = shown ↔ kind.Bounded object) ∧
      ((∀ path ∈ kind.mutablePaths, Tree.find? path.config normal = Tree.find? path.config shown) ↔
        kind.Bounded object) ∧
      ∀ edits, kind.plan shown shown = .ok edits →
        (edits = [] ↔ kind.Bounded object) ∧
        (¬ kind.Bounded object → ∃ value, edits = [.replace ("/" ++ key) value]) := by
  intro shown normal
  obtain ⟨block, hblock, haccepts, hwhole, hcontent, hdeclared⟩ := hkind.fill_shown_iff object prior
  have hshown : shown = .obj block := hblock
  have hnormal : normal = .obj (kind.schema.fill (some block) block) := by
    show kind.schema.normalize (some shown) shown = _
    rw [hshown]
    rfl
  have hsame : normal = shown ↔ kind.Bounded object := by
    rw [hnormal, hshown, Json.obj.injEq]
    exact hwhole
  refine ⟨hsame, ⟨fun hpaths => ?_, fun hobject _ _ => by rw [hsame.2 hobject]⟩,
    fun edits hplan => ?_⟩
  · have hfind : ∀ other : Block, Tree.find? [root] (.obj other) = other.lookup root :=
      fun other => Option.bind_fun_some _
    have hroot : MutablePath.subtree [root] ("/" ++ key) ∈ kind.mutablePaths := by
      rw [hkind.lawful.mutablePaths_eq]
      exact List.mem_append_right _ List.mem_cons_self
    have hplace : Tree.find? [root] normal = Tree.find? [root] shown := hpaths _ hroot
    rw [hnormal, hshown, hfind, hfind] at hplace
    exact hcontent.1 hplace
  · rw [hshown] at hplan
    obtain ⟨after, _, hafter, hedits⟩ := hkind.plan_self haccepts hplan
    by_cases hobject : kind.Bounded object
    · rw [if_pos (hcontent.2 hobject).symm] at hedits
      exact ⟨iff_of_true hedits hobject, fun hmissing => absurd hobject hmissing⟩
    · obtain ⟨hbefore, hfilled⟩ := hdeclared hobject
      obtain ⟨value, hvalue⟩ := Option.isSome_iff_exists.1 (hafter.trans hfilled)
      rw [if_neg fun heq => hobject (hcontent.1 heq.symm), hbefore, hvalue] at hedits
      refine ⟨iff_of_false (fun hnil => ?_) hobject, fun _ => ⟨value, hedits⟩⟩
      rw [hnil] at hedits
      cases hedits

/-- A deployment with both bounds, which the server has told little else. -/
theorem plan_shown_bounded :
    let bounds : RollingUpdate := {
      maxSurge := some (.int 1), maxUnavailable := some (.text "25%") }
    let live : Deployment := {
      metadata := { name := some "web" }
      spec := some {
        strategy := some { rollingUpdate := some bounds }
        template := { spec := some { containers := [{ name := "web" }] } } } }
    let shown := Deployment.kind.flatten live .null
    Deployment.kind.schema.normalize (some shown) shown = shown ∧
      Deployment.kind.plan shown shown = .ok [] := by
  intro bounds live shown
  obtain ⟨hnormal, _, hplan⟩ := plan_shown .deployment live .null
  have hbounded : Deployment.kind.Bounded live := by decide
  obtain ⟨edits, hedits⟩ : ∃ edits, Deployment.kind.plan shown shown = .ok edits :=
    Steps.exists_of_isOk (by decide)
  obtain rfl := (hplan edits hedits).1.2 hbounded
  exact ⟨hnormal.2 hbounded, hedits⟩

/-- A deployment without bounds, whose content is replaced by an update to what was read. -/
theorem plan_shown_unbounded :
    let live : Deployment := {
      metadata := { name := some "web" }
      spec := some {
        strategy := some { rollingUpdate := some {} }
        template := { spec := some {} } } }
    let shown := Deployment.kind.flatten live .null
    Tree.find? ["spec", "0", "strategy"] shown =
        some (.arr [.obj [("rolling_update", .arr [.obj []])]]) ∧
      Deployment.kind.plan shown shown = .ok [.replace "/spec" (.obj
        [("minReadySeconds", .int 0), ("paused", .bool false),
         ("progressDeadlineSeconds", .int 600), ("replicas", .int 1),
         ("revisionHistoryLimit", .int 10), ("selector", .obj []),
         ("strategy", .obj [("rollingUpdate",
           .obj [("maxSurge", .int 1), ("maxUnavailable", .int 1)])]),
         ("template", .obj [("metadata", .obj []), ("spec", .obj
           [("containers", .arr []), ("hostIPC", .bool false), ("hostNetwork", .bool false),
            ("hostPID", .bool false)])])])] := by
  intro live shown
  exact ⟨by decide, by decide⟩

end Kind

end Reconcile
