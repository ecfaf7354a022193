import Mathlib.Data.List.Basic
import Reconcile.Proofs.Kind.Managed
import Reconcile.Proofs.Deployment.Rollout
import Reconcile.Proofs.Resource.Updating

/-!
# Runs of operations

A run performs operations on one object in any order, each of which may be stopped by injected
failures wherever it sends a call. Every session of a run is in step (`Run.inStep`), so that an
update that ends with success brings about what it has been asked for, unless a deletion has left
the object drained behind the tree and the update asks for the content that the tree already
declares (`update_brings_about`).
-/

namespace Reconcile

variable {α : Type} {kind : Kind α} {root key : String}

/-- An operation that changes an object or what is known of it. -/
inductive Demand where
  | create
  | read
  | update (new : Tree)
  | delete

namespace Demand

/-- What a controller does for a demand. -/
def perform {σ : Type} (c : Controller α σ) : Demand → Operation σ Unit
  | .create => c.create
  | .read => c.read
  | .update new => c.update new
  | .delete => c.delete

/-- The tree of an update conforms to a schema. -/
def Conforms (schema : Schema) : Demand → Prop
  | .update new => schema.Conforms new
  | _ => True

/-- Whether a deletion may have been interrupted after a demand: a demand that succeeds makes up
for it. -/
def interrupts (before : Bool) (demand : Demand) (result : Except Halt Unit) : Bool :=
  match result, demand with
  | .ok _, _ => false
  | .error _, .delete => true
  | .error _, _ => before

end Demand

/-- The sessions that are reached from a tree by operations on its object in a cluster that is empty
at first. Which calls fail may be changed at any time, and so may the reaction of the cluster, as
long as it changes nothing but the status. The flag says whether a deletion may have been
interrupted since the last success. -/
inductive Run (kind : Kind α) (settings : Settings) (start : Tree) :
    Bool → Session (List Fault × Memory α) → Prop where
  | start (world : List Fault × Memory α) (watch : Wait.Watch) (hempty : world.2.objects = [])
      (hstatus : kind.StatusOnly world.2.reaction) :
      Run kind settings start false ⟨Resource.ofConfig start, world, watch⟩
  | inject {interrupted : Bool} {session : Session (List Fault × Memory α)} (faults : List Fault)
      (failures : List (CallKind × Failure)) (reaction : Reaction α)
      (hrun : Run kind settings start interrupted session)
      (hstatus : kind.StatusOnly reaction) :
      Run kind settings start interrupted { session with
        world := (faults, { session.world.2 with failures := failures, reaction := reaction }) }
  | act {interrupted : Bool} {session after : Session (List Fault × Memory α)} {demand : Demand}
      {result : Except Halt Unit} (hrun : Run kind settings start interrupted session)
      (hconforms : demand.Conforms kind.schema)
      (hresult : (demand.perform (Controller.inMemory kind settings)).run session =
        (result, after)) :
      Run kind settings start (demand.interrupts interrupted result) after

section

variable {settings : Settings} {start new : Tree} {interrupted : Bool}
  {session after : Session (List Fault × Memory α)}

/-- An update that succeeds brings a session in step. -/
theorem Kind.Updates.inStep {id : Identity} {model declared changed : α}
    (h : kind.Updates root key interrupted new session after id model declared changed) :
    kind.InStep key false after := by
  obtain ⟨shown, hstands, hdeclares⟩ := h.stands
  exact hstands.inStep hdeclares

/-- Every demand keeps sessions in step. -/
theorem Kind.InStep.perform {demand : Demand} {result : Except Halt Unit}
    (h : kind.InStep key interrupted session) (hlawful : kind.Lawful root key)
    (hobs : kind.Observable key) (hconforms : demand.Conforms kind.schema)
    (hresult : (demand.perform (Controller.inMemory kind settings)).run session =
      (result, after)) :
    kind.InStep key (demand.interrupts interrupted result) after := by
  have hensures : Operation.Ensures (demand.perform (Controller.inMemory kind settings))
      (fun _ => kind.InStep key false)
      (fun halt => kind.InStep key (demand.interrupts interrupted (.error halt))) session := by
    cases demand with
    | create => exact h.create_inStep hlawful hobs
    | read => exact h.read_inStep hlawful hobs
    | delete => exact h.delete_inStep hlawful hobs
    | update new =>
        refine (h.ensures_update hlawful hobs hconforms).mono ?_ fun _ _ hafter => hafter
        rintro _ after ⟨id, model, declared, changed, hupdates⟩
        exact hupdates.inStep
  unfold Operation.Ensures at hensures
  rw [hresult] at hensures
  cases result with
  | ok _ => exact hensures
  | error halt => exact hensures

/-- Every session of a run is in step. -/
theorem Run.inStep (hrun : Run kind settings start interrupted session)
    (hlawful : kind.Lawful root key) (hobs : kind.Observable key)
    (hstart : kind.schema.Conforms start) : kind.InStep key interrupted session := by
  -- Faults and reactions change no object, and every demand keeps the session in step.
  induction hrun with
  | start world watch hempty hstatus => exact ⟨hstart, hstatus, fun _ hid => nomatch hid⟩
  | inject faults failures reaction _ hstatus ih =>
      exact ih.of_holds rfl hstatus fun id model hholds => ⟨hstatus, hholds.object⟩
  | act _ hconforms hresult ih => exact ih.perform hlawful hobs hconforms hresult

/-- The object of a session is behind its tree: it does not have the content that the tree
declares. -/
def Kind.Behind (kind : Kind α) (key : String)
    (session : Session (List Fault × Memory α)) : Prop :=
  ∃ id live declared, session.resource.id = some id ∧
    session.world.2.find? id.ns id.name = some live ∧
    kind.expand session.resource.config = .ok declared ∧
    kind.content key live ≠ kind.content key declared

/-- Only an object that has been drained by an interrupted deletion is behind its tree. -/
theorem Kind.InStep.of_behind (h : kind.InStep key interrupted session)
    (hbehind : kind.Behind key session) : interrupted = true ∧ kind.drain.isSome := by
  obtain ⟨id, live, declared, hid, hfind, hexpand, hne⟩ := hbehind
  obtain ⟨model, ⟨block, declared', hblock, _, hexpand', hfollows⟩, hholds⟩ := h.tracked id hid
  obtain ⟨live', hfind', _, hlive⟩ := hholds.object
  obtain rfl : live = live' := Option.some.inj (hfind.symm.trans hfind')
  rw [hblock, hexpand'] at hexpand
  obtain rfl : declared' = declared := Except.ok.inj hexpand
  rcases (hlive.trans hfollows).content with hsame | ⟨hinterrupted, hdrained⟩
  · exact absurd hsame hne
  · refine ⟨hinterrupted, ?_⟩
    cases hdrain : kind.drain with
    | some edits => rfl
    | none =>
        -- Where nothing is drained, an object that follows the tree has its content.
        have hself : kind.drained declared' = declared' := by
          rw [Kind.drained, hdrain]
        rw [hself] at hdrained
        exact absurd hdrained hne

/-- An object is behind its tree if what the cluster holds does not have the content of what the
tree declares. -/
theorem Kind.Holds.behind_iff {id : Identity} {model before : α}
    (h : kind.Holds key id model session.world.2) (hid : session.resource.id = some id)
    (hexpand : kind.expand session.resource.config = .ok before) :
    kind.Behind key session ↔ kind.content key model ≠ kind.content key before := by
  obtain ⟨live, hfind, _, hlive⟩ := h.object
  constructor
  · rintro ⟨id', live', declared, hid', hfind', hdeclared, hne⟩
    obtain rfl : id = id' := Option.some.inj (hid.symm.trans hid')
    obtain rfl : live = live' := Option.some.inj (hfind.symm.trans hfind')
    obtain rfl : before = declared := Except.ok.inj (hexpand.symm.trans hdeclared)
    rwa [hlive.content_eq] at hne
  · intro hne
    refine ⟨id, live, before, hid, hfind, hexpand, ?_⟩
    rwa [hlive.content_eq]

/-- An update leaves the content that is declared unless the object is behind its tree and the trees
declare the same. -/
theorem Kind.Updates.content_eq_iff {id : Identity} {model declared changed : α}
    (h : kind.Updates root key interrupted new session after id model declared changed)
    (hlawful : kind.Lawful root key) (hnew : kind.schema.Conforms new) :
    kind.content key changed = kind.content key declared ↔ ¬ (kind.Behind key session ∧
      Tree.find? [root] session.resource.config =
        Tree.find? [root] (kind.schema.normalize (some session.resource.config) new)) := by
  obtain ⟨block, before, hblock, _, hbefore, _⟩ := h.declares
  obtain ⟨newBlock, rfl, _⟩ := hnew
  have hbehind := h.found.behind_iff h.known (hblock ▸ hbefore)
  have hdesired : kind.schema.normalize (some session.resource.config) (.obj newBlock) =
      .obj (kind.schema.fill (some block) newBlock) := by
    rw [hblock]
    rfl
  have hexpand : kind.expand (.obj (kind.schema.fill (some block) newBlock)) = .ok declared := by
    rw [← hdesired]
    exact h.expand
  have hroots : ∀ block : Block, Tree.find? [root] (.obj block) = block.lookup root :=
    fun block => Option.bind_fun_some _
  rw [hbehind, h.content]
  by_cases hroot : Tree.find? [root] session.resource.config =
      Tree.find? [root] (kind.schema.normalize (some session.resource.config) (.obj newBlock))
  · -- The edits do not touch the content, and the old tree declares what the new one does.
    have hsame : kind.content key before = kind.content key declared := by
      refine hlawful.content_congr hbefore hexpand ?_
      rw [hdesired, hblock, hroots, hroots] at hroot
      exact hroot
    rw [if_pos hroot, hsame]
    constructor
    · rintro heq ⟨hne, _⟩
      exact hne heq
    · intro hnot
      by_contra hne
      exact hnot ⟨hne, hroot⟩
  · rw [if_neg hroot]
    constructor
    · rintro _ ⟨_, heq⟩
      exact hroot heq
    · exact fun _ => rfl

/-- After an update that ends with success, the object has the labels and the annotations that were
asked for. It has the content that was asked for unless it was behind the tree and the update asked
for what the tree declared; it can only be behind the tree if a deletion has drained it and been
interrupted. -/
theorem update_brings_about (hkind : kind.Managed root key) (hstart : kind.schema.Conforms start)
    (hnew : kind.schema.Conforms new) (hrun : Run kind settings start interrupted session)
    (hupdate : ((Controller.inMemory kind settings).update new).run session = (.ok (), after)) :
    let desired := kind.schema.normalize (some session.resource.config) new
    ∃ id declared live, session.resource.id = some id ∧ kind.expand desired = .ok declared ∧
      after.world.2.find? id.ns id.name = some live ∧
      (kind.metadata live).labels.getD Dict.empty =
        (kind.metadata declared).labels.getD Dict.empty ∧
      (kind.metadata live).annotations.getD Dict.empty =
        (kind.metadata declared).annotations.getD Dict.empty ∧
      (kind.content key live = kind.content key declared ↔ ¬ (kind.Behind key session ∧
        Tree.find? [root] session.resource.config = Tree.find? [root] desired)) ∧
      (kind.Behind key session → interrupted = true ∧ kind.drain.isSome) := by
  intro desired
  have hinStep := hrun.inStep hkind.lawful hkind.observable hstart
  obtain ⟨id, model, declared, changed, h⟩ :=
    (hinStep.ensures_update hkind.lawful hkind.observable hnew).of_ok hupdate
  obtain ⟨shown, hstands, _⟩ := h.stands
  obtain ⟨live, hfind, _, hlive⟩ := hstands.holds.object
  refine ⟨id, declared, live, h.known, h.expand, hfind, hlive.labels.trans h.labels,
    hlive.annotations.trans h.annotations, ?_, hinStep.of_behind⟩
  rw [hlive.content_eq, h.content_eq_iff hkind.lawful hnew]

/-- A role is created and gets another rule. -/
theorem update_brings_about_role :
    let tree (verb : String) : Tree := .obj [("metadata", .arr [.obj [("name", .str "r")]]),
      ("policy_rule", .arr [.obj [("verbs", .arr [.str verb])]])]
    let c := Controller.inMemory Role.kind Settings.default
    let created := (c.create.run ⟨Resource.ofConfig (tree "get"), ([], {}), .start 10⟩).2
    let after := ((c.update (tree "list")).run created).2
    ∃ declared live,
      Role.kind.expand (Role.kind.schema.normalize (some created.resource.config) (tree "list")) =
        .ok declared ∧
      after.world.2.find? "default" "r" = some live ∧
      Role.kind.content "rules" live = Role.kind.content "rules" declared := by
  intro tree c created after
  have hstart : Role.kind.schema.Conforms (tree "get") := ⟨_, rfl, by decide⟩
  have hnew : Role.kind.schema.Conforms (tree "list") := ⟨_, rfl, by decide⟩
  have hcreate : c.create.run ⟨Resource.ofConfig (tree "get"), ([], {}), .start 10⟩ =
      (.ok (), created) := Prod.ext (by decide +kernel) rfl
  have hrun : Run Role.kind Settings.default (tree "get") false created :=
    .act (.start ([], {}) (.start 10) rfl fun _ hchange => nomatch hchange)
      (show Demand.create.Conforms _ from trivial) hcreate
  have hupdate : (c.update (tree "list")).run created = (.ok (), after) :=
    Prod.ext (by decide +kernel) rfl
  obtain ⟨id, declared, live, hid, hexpand, hfind, _, _, hcontent, hbehind⟩ :=
    update_brings_about .role hstart hnew hrun hupdate
  have hknown : created.resource.id = some ⟨"default", "r", by decide, by decide⟩ := by
    decide +kernel
  obtain rfl : id = _ := Option.some.inj (hid.symm.trans hknown)
  refine ⟨declared, live, hexpand, hfind, hcontent.2 fun ⟨hrole, _⟩ => ?_⟩
  exact absurd (hbehind hrole).1 (by decide)

end

/-! ## A deletion that is refused after the drain -/

namespace Refused

/-- Operations that wait for five seconds at most. -/
def settings : Settings := ⟨.ofSecs 5, .ofSecs 5, .ofSecs 5, .ofMillis 10, .ofMillis 50, "default"⟩

/-- A deployment of two pods. -/
def web : Tree :=
  let labels : Json := .obj [("app", .str "web")]
  let container : Json := .obj [("image", .str "nginx:1.25"), ("name", .str "web")]
  let template : Json := .obj [("metadata", .arr [.obj [("labels", labels)]]),
    ("spec", .arr [.obj [("container", .arr [container])]])]
  .obj [("metadata", .arr [.obj [("labels", labels), ("name", .str "web")]]),
    ("spec", .arr [.obj [("replicas", .int 2), ("template", .arr [template])]])]

def refusal : Failure := .callFailed .delete "deployment" (.described "forbidden")

/-- Deployments in a cluster that rolls them out. -/
def controller : Controller Deployment (List Fault × Memory Deployment) :=
  Controller.inMemory Deployment.kind settings

/-- The deployment is known and has not been created. -/
def start : Session (List Fault × Memory Deployment) :=
  ⟨Resource.ofConfig web, ([], { reaction := Deployment.rolling }), .start 10⟩

/-- The deployment has been created, and one deletion is going to be refused. -/
def created : Session (List Fault × Memory Deployment) :=
  let session := (controller.create.run start).2
  { session with world := ([⟨.delete, 0, 1, refusal⟩],
    { session.world.2 with failures := [], reaction := Deployment.rolling }) }

/-- The deletion has been refused. -/
def drained : Session (List Fault × Memory Deployment) := (controller.delete.run created).2

/-- The deployment has been updated to what it was created from. -/
def updated : Session (List Fault × Memory Deployment) := ((controller.update web).run drained).2

end Refused

open Refused in
/-- An update to the tree that the deployment was created from is a success and leaves it without
pods. -/
theorem update_leaves_drained : ∃ declared live, Deployment.kind.schema.Conforms web ∧
    Run Deployment.kind settings web true drained ∧
    (controller.update web).run drained = (.ok (), updated) ∧
    Deployment.kind.expand (Deployment.kind.schema.normalize (some drained.resource.config) web) =
      .ok declared ∧
    updated.world.2.find? "default" "web" = some live ∧
    Deployment.kind.content "spec" live ≠ Deployment.kind.content "spec" declared := by
  have hstatus : Deployment.kind.StatusOnly Deployment.rolling := Deployment.statusOnly_rolling
  have hcreate : controller.create.run start = (.ok (), (controller.create.run start).2) := by
    have hresult : (controller.create.run start).1 = .ok () := by decide +kernel
    rw [← hresult, Prod.eta]
  have hdelete : controller.delete.run created = (.error (.failure refusal), drained) := by
    have hresult : (controller.delete.run created).1 = .error (.failure refusal) := by
      decide +kernel
    rw [drained, ← hresult, Prod.eta]
  have hupdate : (controller.update web).run drained = (.ok (), updated) := by
    have hresult : ((controller.update web).run drained).1 = .ok () := by decide +kernel
    rw [updated, ← hresult, Prod.eta]
  have hstart : Run Deployment.kind settings web false start := .start _ (.start 10) rfl hstatus
  have hcreated : Run Deployment.kind settings web false (controller.create.run start).2 :=
    .act hstart (show Demand.create.Conforms _ from trivial) hcreate
  have hinjected := Run.inject [⟨.delete, 0, 1, refusal⟩] [] Deployment.rolling hcreated hstatus
  have hdrained : Run Deployment.kind settings web true drained :=
    .act hinjected (show Demand.delete.Conforms _ from trivial) hdelete
  obtain ⟨declared, hdeclared⟩ : ∃ declared, Deployment.kind.expand
      (Deployment.kind.schema.normalize (some drained.resource.config) web) = .ok declared :=
    Steps.exists_of_isOk (by decide +kernel)
  obtain ⟨live, hlive⟩ : ∃ live, updated.world.2.find? "default" "web" = some live :=
    Option.isSome_iff_exists.1 (by decide +kernel)
  have hcontent : (updated.world.2.find? "default" "web").map (Deployment.kind.content "spec") ≠
      (Deployment.kind.expand (Deployment.kind.schema.normalize (some drained.resource.config)
        web)).toOption.map (Deployment.kind.content "spec") := by
    decide +kernel
  rw [hlive, hdeclared] at hcontent
  have hconforms : Deployment.kind.schema.Conforms web := ⟨_, rfl, by decide⟩
  exact ⟨declared, live, hconforms, hdrained, hupdate, hdeclared, hlive,
    fun hsame => hcontent (congrArg some hsame)⟩

end Reconcile
