import Mathlib.Data.List.Basic
import Reconcile.Proofs.Resource.Runs
import Reconcile.Proofs.Resource.Traces

/-!
# Patches that can be applied

While nobody else writes an object, every patch document that a run submits can be applied to the
object as the cluster holds it at that moment (`submitted_patches_apply`): the drain of a deletion,
and the edits of an update, also where an earlier operation has stopped half-way. Only a failing
call keeps such a patch from being accepted.
-/

namespace Reconcile

variable {α : Type} {kind : Kind α} {root key : String}

open Operation

namespace Kind

/-- If a call submits a patch document, the cluster holds the object and the document can be applied
to it. -/
def Applies (kind : Kind α) (entry : Call × (List Fault × Memory α)) : Prop :=
  ∀ ns name document, entry.1 = .patch ns name document → ∃ live changed,
    entry.2.2.find? ns name = some live ∧ Memory.patched kind live document = .ok changed

/-- Every patch document that was submitted could be applied. -/
def AllApply (kind : Kind α) (world : Trace (List Fault × Memory α) × (List Fault × Memory α)) :
    Prop :=
  ∀ entry ∈ world.1, kind.Applies entry

/-- Every patch document that was submitted until a session could be applied. -/
abbrev Applied (kind : Kind α)
    (session : Session (Trace (List Fault × Memory α) × (List Fault × Memory α))) : Prop :=
  kind.AllApply session.world

variable {settings : Settings} {id : Identity} {live changed : α} {new : Tree}
  {interrupted : Bool} {edits : List Json.Edit}
  {session : Session (Trace (List Fault × Memory α) × (List Fault × Memory α))}

/-- A call that submits no patch document adds nothing that has to be applied. -/
theorem AllApply.cons {world : Trace (List Fault × Memory α) × (List Fault × Memory α)}
    (h : kind.AllApply world) (call : Call) (hcall : call.kind ≠ .patch)
    (met after : List Fault × Memory α) : kind.AllApply ((call, met) :: world.1, after) := by
  refine List.forall_mem_cons.2 ⟨fun ns name document heq => ?_, h⟩
  obtain rfl : call = .patch ns name document := heq
  exact absurd rfl hcall

/-- Reading submits no patch document. -/
theorem AllApply.get {world : Trace (List Fault × Memory α) × (List Fault × Memory α)}
    (h : kind.AllApply world) (settings : Settings) (ns name : String) :
    kind.AllApply ((Controller.inMemory kind settings).traced.api.get ns name world).2 :=
  h.cons (.get ns name) (fun heq => nomatch heq) _ _

/-- Edits that can be performed on the object that the cluster holds are submitted as a patch
document that can be applied. -/
theorem AllApply.submit (h : kind.Applied session) (hobs : kind.Observable key)
    (hfind : session.world.2.2.find? id.ns id.name = some live)
    (hperform : Json.Edit.performAll? edits (kind.toJson live) = some (kind.toJson changed)) :
    Ensures ((Controller.inMemory kind settings).traced.submit id edits)
      (fun _ => kind.Applied) (fun _ => kind.Applied) session := by
  have hafter : ∀ after, kind.AllApply
      ((.patch id.ns id.name (Json.Edit.listToJson edits), session.world.2) :: session.world.1,
        after) := by
    refine fun _ => List.forall_mem_cons.2 ⟨?_, h⟩
    rintro _ _ _ ⟨⟩
    exact ⟨live, changed, hfind,
      Memory.patched_edits_eq_ok_iff.2 ⟨_, hperform, hobs.ofJson?_toJson changed⟩⟩
  rw [Controller.ensures_submit, ensures_call]
  exact ⟨fun _ _ => hafter _, fun _ _ => hafter _⟩

/-- A wait and a reading submit no patch document. -/
theorem AllApply.settle_read (h : kind.Applied session) (hid : session.resource.id = some id)
    (limit : Duration) :
    Ensures (do
        (Controller.inMemory kind settings).traced.settle id limit
        (Controller.inMemory kind settings).traced.read)
      (fun _ => kind.Applied) (fun _ => kind.Applied) session :=
  (Controller.ensures_settle_read_preserves hid limit (fun _ hworld => hworld.get _ _ _) h).mono
    (fun _ _ hafter => hafter.2) fun _ _ hafter => hafter.2

theorem AllApply.read (h : kind.Applied session) :
    Ensures (Controller.inMemory kind settings).traced.read (fun _ => kind.Applied)
      (fun _ => kind.Applied) session := by
  refine Controller.ensures_read (fun _ => h) fun id _ => ?_
  rw [ensures_call]
  exact ⟨fun _ _ => h.get settings _ _, fun _ _ => h.get settings _ _⟩

/-- A creation submits no patch document. -/
theorem AllApply.create (h : kind.Applied session) :
    Ensures (Controller.inMemory kind settings).traced.create (fun _ => kind.Applied)
      (fun _ => kind.Applied) session := by
  refine Controller.ensures_create (fun _ _ => h) fun ns placed _ => ?_
  have hcreated := h.cons (.create ns ((kind.metadata placed).name.getD ""))
    fun heq => nomatch heq
  rw [ensures_call]
  refine ⟨fun made _ => ⟨fun id _ => ?_, fun _ _ => hcreated _ _⟩, fun _ _ => hcreated _ _⟩
  exact AllApply.settle_read (hcreated _ _) rfl _

/-- Rebasing edits reads the object at most. -/
theorem AllApply.rebased (h : kind.Applied session) (edits : List Json.Edit) :
    Ensures ((Controller.inMemory kind settings).traced.rebased id edits)
      (fun _ => kind.Applied) (fun _ => kind.Applied) session := by
  refine Controller.ensures_rebased (fun _ => ?_) fun _ => h
  rw [ensures_call]
  exact ⟨fun _ _ => h.get settings _ _, fun _ _ => h.get settings _ _⟩

/-- The edits that an update submits can be performed on the object that the cluster holds. -/
theorem InStep.applied_update (h : kind.InStep key interrupted session.untraced)
    (happlied : kind.Applied session) (hlawful : kind.Lawful root key)
    (hobs : kind.Observable key) (hnew : kind.schema.Conforms new) :
    Ensures ((Controller.inMemory kind settings).traced.update new) (fun _ => kind.Applied)
      (fun _ => kind.Applied) session := by
  refine Controller.ensures_update (fun _ => happlied) fun id hid =>
    ⟨fun _ _ => happlied, fun planned hplanned => ?_⟩
  obtain ⟨model, ⟨old, before, hold, haccepts, hbefore, hmodel⟩, hholds⟩ := h.tracked id hid
  obtain ⟨newBlock, rfl, hnewBlock⟩ := hnew
  have hconfig : session.resource.config = .obj old := hold
  have hstands : kind.Stands key session.resource id model session.untraced := ⟨rfl, hholds⟩
  have hfilled : kind.schema.Accepts (kind.schema.fill (some old) newBlock) := by
    refine Schema.fill_accepts hlawful.wellNamed hlawful.typedDefaults ?_ hnewBlock
    rintro _ ⟨⟩
    exact haccepts
  rw [hconfig] at hplanned
  have hedits : kind.edits (.obj old) (.obj (kind.schema.fill (some old) newBlock)) =
      .ok planned := hplanned
  obtain ⟨declared, hdeclared, _⟩ := Steps.bind_eq_ok_iff.1 hedits
  -- What is rebased is known from the untraced controller; the trace only gains a reading.
  have hrebased := (Controller.inMemory kind settings).traces_rebased planned |>.ensures
    (hstands.ensures_rebased hlawful hobs.key_ne_status planned)
  refine (hrebased.and (happlied.rebased planned)).mono ?_ fun _ _ hstopped => hstopped.2
  rintro edits rebased ⟨⟨_, live, hfind, _, hlive, rfl⟩, happly⟩
  obtain ⟨changed, hperform, _⟩ :=
    hmodel.exists_changed hlive hlawful hobs haccepts hfilled hbefore hdeclared hedits
  have hsubmitted : Ensures ((Controller.inMemory kind settings).traced.submitted id _)
      (fun _ => kind.Applied) (fun _ => kind.Applied) rebased :=
    Controller.ensures_submitted (fun _ => happly) fun _ => happly.submit hobs hfind hperform
  refine hsubmitted.mono (fun _ after hafter => ?_) fun _ _ hstopped => hstopped
  refine AllApply.settle_read ?_ ?_ _
  · exact hafter
  · exact hid

/-- The drain of a deletion can be performed on the object that the cluster holds. -/
theorem InStep.applied_drained (h : kind.InStep key interrupted session.untraced)
    (happlied : kind.Applied session) (hobs : kind.Observable key)
    (hid : session.resource.id = some id) :
    Ensures ((Controller.inMemory kind settings).traced.drained id) (fun _ => kind.Applied)
      (fun _ => kind.Applied) session := by
  refine Controller.ensures_drained (fun _ => happlied) fun drain hdrain => ?_
  obtain ⟨model, ⟨block, declared, _, haccepts, hexpand, hmodel⟩, hholds⟩ := h.tracked id hid
  obtain ⟨live, hfind, _, hlive⟩ := hholds.object
  obtain ⟨drained, hperform, _⟩ := hobs.performAll?_drain haccepts hexpand
    (hlive.trans hmodel).interrupt hdrain
  refine (happlied.submit hobs hfind hperform).mono (fun _ submitted hsubmitted => ?_)
    fun _ _ hstopped => hstopped
  exact (Controller.ensures_settle_preserves _ (fun _ hworld => hworld.get _ _ _) hsubmitted).mono
    (fun _ _ hsettled => hsettled.2) fun _ _ hsettled => hsettled.2

/-- Only the drain of a deletion is a patch document. -/
theorem InStep.applied_delete (h : kind.InStep key interrupted session.untraced)
    (happlied : kind.Applied session) (hobs : kind.Observable key) :
    Ensures (Controller.inMemory kind settings).traced.delete (fun _ => kind.Applied)
      (fun _ => kind.Applied) session := by
  refine Controller.ensures_delete (fun _ => happlied) fun id hid => ?_
  refine (h.applied_drained happlied hobs hid).mono (fun _ ready hready => ?_)
    fun _ _ hstopped => hstopped
  have hremoved := hready.cons (.delete id.ns id.name kind.propagation) fun heq => nomatch heq
  rw [ensures_call]
  exact ⟨fun _ _ => hremoved _ _, fun _ _ => hremoved _ _⟩

end Kind

/-- A demand does the same where it is traced. -/
theorem Demand.traces_perform {σ : Type} {c : Controller α σ} (demand : Demand) :
    (demand.perform c.traced).Traces (demand.perform c) := by
  cases demand with
  | create => exact c.traces_create
  | read => exact c.traces_read
  | update new => exact c.traces_update new
  | delete => exact c.traces_delete

variable {settings : Settings} {start : Tree} {interrupted : Bool}
  {session : Session (List Fault × Memory α)}

/-- Whatever a run has been through and whatever is demanded next, a trace changes nothing of what
is done for the demand, and each patch document in it could be applied to the object that the
cluster held when it was submitted. -/
theorem submitted_patches_apply (hkind : kind.Managed root key)
    (hstart : kind.schema.Conforms start) (hrun : Run kind settings start interrupted session)
    {demand : Demand} (hconforms : demand.Conforms kind.schema) :
    let c := Controller.inMemory kind settings
    let traced := (demand.perform c.traced).run session.traced
    Prod.map id Session.untraced traced = (demand.perform c).run session ∧
      ∀ ns name document world, (.patch ns name document, world) ∈ traced.2.world.1 →
        ∃ live changed, world.2.find? ns name = some live ∧
          Memory.patched kind live document = .ok changed := by
  intro c traced
  have hlawful := hkind.lawful
  have hobs := hkind.observable
  have hinStep : kind.InStep key interrupted session.traced.untraced :=
    hrun.inStep hlawful hobs hstart
  have happlied : kind.Applied session.traced := List.forall_mem_nil _
  have hensures : Ensures (demand.perform c.traced) (fun _ => kind.Applied)
      (fun _ => kind.Applied) session.traced := by
    cases demand with
    | create => exact Kind.AllApply.create happlied
    | read => exact Kind.AllApply.read happlied
    | update new => exact hinStep.applied_update happlied hlawful hobs hconforms
    | delete => exact hinStep.applied_delete happlied hobs
  exact ⟨demand.traces_perform session.traced,
    fun ns name document world hentry => hensures.after _ hentry ns name document rfl⟩

/-- A role is created and cannot be read, and then gets labels, annotations and other rules. -/
theorem submitted_patches_apply_role :
    let tree (texts : Block) (verb : String) : Tree :=
      .obj [("metadata", .arr [.obj (texts ++ [("name", .str "r")])]),
        ("policy_rule", .arr [.obj [("verbs", .arr [.str verb])]])]
    let refusal := Failure.callFailed .get "role" (.described "forbidden")
    let start := tree [("labels", .obj [("a", .str "1")])] "get"
    let new := tree [("annotations", .obj [("b", .str "2")]),
      ("labels", .obj [("a", .str "3"), ("c", .str "4")])] "list"
    let c := Controller.inMemory Role.kind Settings.default
    let created := (c.create.run
      ⟨Resource.ofConfig start, ([⟨.get, 0, 1, refusal⟩], {}), .start 10⟩).2
    ∃ ns name document world live changed,
      (.patch ns name document, world) ∈ ((c.traced.update new).run created.traced).2.world.1 ∧
        world.2.find? ns name = some live ∧
        Memory.patched Role.kind live document = .ok changed := by
  intro tree refusal start new c created
  have hstart : Role.kind.schema.Conforms start := ⟨_, rfl, by decide⟩
  have hnew : Role.kind.schema.Conforms new := ⟨_, rfl, by decide⟩
  have hcreate : c.create.run ⟨Resource.ofConfig start, ([⟨.get, 0, 1, refusal⟩], {}), .start 10⟩ =
      (.error (.failure refusal), created) :=
    Prod.ext (by decide +kernel) rfl
  have hrun : Run Role.kind Settings.default start false created :=
    .act (.start ([⟨.get, 0, 1, refusal⟩], {}) (.start 10) rfl fun _ hchange => nomatch hchange)
      (show Demand.create.Conforms _ from trivial) hcreate
  have hpatch : ((c.traced.update new).run created.traced).2.world.1.any
      (fun entry => entry.1.kind = .patch) = true := by
    decide +kernel
  obtain ⟨⟨call, world⟩, hentry, hcall⟩ := List.any_eq_true.1 hpatch
  cases call with
  | patch ns name document =>
      obtain ⟨live, changed, hfind, hpatched⟩ := (submitted_patches_apply .role hstart hrun
        (show (Demand.update new).Conforms _ from hnew)).2 ns name document world hentry
      exact ⟨ns, name, document, world, live, changed, hentry, hfind, hpatched⟩
  | create | get | delete => cases hcall

end Reconcile
