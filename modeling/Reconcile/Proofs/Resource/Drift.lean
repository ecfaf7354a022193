import Mathlib.Data.List.Basic
import Reconcile.Proofs.Kind.Managed
import Reconcile.Proofs.Kind.Shown
import Reconcile.Proofs.Resource.Stages
import Reconcile.Proofs.Resource.Steps

/-!
# Updates after a refresh

An object that others have changed in any way is read and then updated. The patch of the update
applies to the object exactly if it leaves alone the labels that the tree before the refresh
declares and the object has lost (`refreshed_update_applies_iff`): a refresh keeps these labels in
the tree. `refreshed_update_rejected` shows an update that is rejected however often the object is
read before it.
-/

namespace Reconcile

variable {α : Type} {kind : Kind α} {root key : String} {settings : Settings}

open Operation

/-- A cluster holds an object, changes nothing of it by itself and fails no call. -/
structure Memory.Rests (m : Memory α) (ns name : String) (live : α) : Prop where
  failures : m.failures = []
  reaction : m.reaction = .still
  holds : m.find? ns name = some live

/-- A reading answers with the object and leaves it as it is. -/
theorem Memory.Rests.get {m : Memory α} {ns name : String} {live : α} (h : m.Rests ns name live)
    (kind : Kind α) :
    ∃ after, Memory.get kind ns name m = (.ok live, after) ∧ after.Rests ns name live := by
  have hfailure : (m.record (.get ns name)).failure? .get = none := by
    rw [failure?, show (m.record (.get ns name)).failures = [] from h.failures]
    rfl
  have hfind : (m.record (.get ns name)).find? ns name = some live := h.holds
  have hreaction : (m.record (.get ns name)).reaction = .still := h.reaction
  simp only [Memory.get, hfailure, hfind, hreaction, Reaction.apply]
  refine ⟨_, rfl, h.failures, rfl, ?_⟩
  exact (find?_insert _ ns name ns name live).trans (if_pos rfl)

/-- A patch document can be applied to the wire form of an object. -/
def Kind.Accommodates (kind : Kind α) (object : α) (document : Json) : Prop :=
  ∃ operations changed, Json.Operation.listOfJson? document = some operations ∧
    Json.Operation.applyAll operations (kind.toJson object) = .ok changed

theorem Kind.accommodates_edits_iff {object : α} {edits : List Json.Edit} :
    kind.Accommodates object (Json.Edit.listToJson edits) ↔
      (Json.Edit.performAll? edits (kind.toJson object)).isSome := by
  rw [Option.isSome_iff_exists]
  constructor
  · rintro ⟨operations, changed, hread, happly⟩
    obtain rfl : edits.map .edit = operations :=
      Option.some.inj ((Json.Operation.listOfJson?_listToJson edits).symm.trans hread)
    exact ⟨changed, Json.Operation.applyAll_edits_eq_ok_iff.1 happly⟩
  · rintro ⟨changed, hperform⟩
    exact ⟨_, changed, Json.Operation.listOfJson?_listToJson edits,
      Json.Operation.applyAll_edits_eq_ok_iff.2 hperform⟩

namespace Memory.Rests

variable {id : Identity} {memory : Memory α} {live : α} (h : memory.Rests id.ns id.name live)

include h

/-- A reading of an object that rests takes over the tree that shows it. -/
theorem ensures_read (prior : Tree) (watch : Wait.Watch) :
    Ensures (Controller.inMemory kind settings).read
      (fun _ after => after.resource = ⟨some id, kind.flatten live prior⟩ ∧
        ∃ memory, after.world = ([], memory) ∧ memory.Rests id.ns id.name live)
      (fun _ _ => False) ⟨⟨some id, prior⟩, ([], memory), watch⟩ := by
  obtain ⟨after, hget, hafter⟩ := h.get kind
  have hcall : (Controller.inMemory kind settings).api.get id.ns id.name ([], memory) =
      (.ok live, ([], after)) := by
    show ((Memory.get kind id.ns id.name memory).1,
      (([] : List Fault), (Memory.get kind id.ns id.name memory).2)) = _
    rw [hget]
  refine Controller.ensures_read (fun hnone => nomatch hnone) (Resource.forall_id rfl ?_)
  rw [ensures_call, hcall]
  refine ⟨?_, fun _ hfailure => nomatch hfailure⟩
  rintro _ ⟨⟩
  exact ⟨rfl, after, rfl, hafter⟩

/-- An update of an object that rests comes to the planned edits, which spare the keys of the
object. -/
theorem prepared_eq (settings : Settings) {config new : Tree} {planned : List Json.Edit}
    (hplan : kind.plan config new = .ok planned) :
    (Controller.inMemory kind settings).prepared ⟨some id, config⟩ new ([], memory) =
      .ok (Change.rebase kind.mutablePaths (kind.toJson live) planned) := by
  have hspared : (Controller.inMemory kind settings).prepared ⟨some id, config⟩ new ([], memory) =
      (kind.plan config new).bind
        ((Controller.inMemory kind settings).spared id · ([], memory)) := rfl
  rw [hspared, hplan]
  show (Controller.inMemory kind settings).spared id planned ([], memory) = _
  unfold Controller.spared
  split
  · obtain ⟨after, hget, _⟩ := h.get kind
    show ((Memory.get kind id.ns id.name memory).1.map fun live =>
      Change.rebase kind.mutablePaths (kind.toJson live) planned) = _
    rw [hget]
    rfl
  · rename_i hnone
    have hsame : Change.rebase kind.mutablePaths (kind.toJson live) planned = planned :=
      Change.rebase_of_no_whole_map (Bool.eq_false_iff.2 hnone)
    rw [hsame]

end Memory.Rests

/-- An object that a cluster holds and that others have changed in any way is read, whatever tree
was known before, and then updated. The patch of the update, if it submits one, is for this object
and can be applied to it exactly if the new tree keeps those labels of the known one that the object
has lost. -/
theorem refreshed_update_applies_iff (hkind : kind.Managed root key) (settings : Settings)
    {id : Identity} {memory : Memory α} {live : α} (hrests : memory.Rests id.ns id.name live)
    {known new : Tree} (hknown : kind.schema.Conforms known) (hnew : kind.schema.Conforms new)
    (watch : Wait.Watch) :
    let c := Controller.inMemory kind settings
    ∃ refreshed, c.read.run ⟨⟨some id, known⟩, ([], memory), watch⟩ = (.ok (), refreshed) ∧
      ∀ planned, kind.plan refreshed.resource.config new = .ok planned →
        ((∀ ns name document met, (.patch ns name document, met) ∈
            ((c.traced.update new).run refreshed.traced).2.world.1 →
          ns = id.ns ∧ name = id.name ∧ kind.Accommodates live document) ↔
        Change.KeepsLost (Change.textsAt known ["metadata", "0", "labels"])
          (Change.textsAt new ["metadata", "0", "labels"]) (kind.metadata live).labels) := by
  intro c
  obtain ⟨_, refreshed, hread, hresource, after, hworld, hafter⟩ :=
    (hrests.ensures_read known watch).exists_ok
  refine ⟨refreshed, hread, fun planned hplan => ?_⟩
  obtain ⟨resource, world, time⟩ := refreshed
  obtain rfl : resource = _ := hresource
  obtain rfl : world = _ := hworld
  let edits := Change.rebase kind.mutablePaths (kind.toJson live) planned
  have hprepared : c.prepared _ new ([], after) = .ok edits := hafter.prepared_eq settings hplan
  rw [Controller.forall_patch_iff rfl hprepared, ← hkind.performable_iff hknown hnew hplan]
  constructor
  · intro happlies
    by_cases hnone : edits = []
    · show (Json.Edit.performAll? edits (kind.toJson live)).isSome
      rw [hnone]
      rfl
    · exact Kind.accommodates_edits_iff.1 (happlies hnone).2.2
  · exact fun hperform _ => ⟨rfl, rfl, Kind.accommodates_edits_iff.2 hperform⟩

/-- A role has lost a label, its rules and the value of another label. The update keeps the lost
label, and changes and adds others. -/
theorem refreshed_update_applies_kept :
    let tree (labels : Json.Fields) (verb : String) : Tree :=
      .obj [("metadata", .arr [.obj [("labels", .obj labels), ("name", .str "r")]]),
        ("policy_rule", .arr [.obj [("verbs", .arr [.str verb])]])]
    let known := tree [("a", .str "1"), ("b", .str "2")] "get"
    let new := tree [("a", .str "1"), ("b", .str "3"), ("c", .str "4")] "list"
    let live : Role :=
      { metadata := { name := some "r", labels := some (Dict.ofList [("b", "5"), ("d", "6")]) } }
    let memory : Memory Role := { objects := [(("default", "r"), live)] }
    let id : Identity := ⟨"default", "r", by decide, by decide⟩
    let c := Controller.inMemory Role.kind Settings.default
    let start : Session (List Fault × Memory Role) :=
      ⟨⟨some id, known⟩, ([], memory), .start 10⟩
    ∃ refreshed document met, c.read.run start = (.ok (), refreshed) ∧
      (.patch "default" "r" document, met) ∈
        ((c.traced.update new).run refreshed.traced).2.world.1 ∧
      Role.kind.Accommodates live document := by
  intro tree known new live memory id c start
  have hrests : memory.Rests id.ns id.name live := ⟨rfl, rfl, by decide⟩
  have hknown : Role.kind.schema.Conforms known := ⟨_, rfl, by decide⟩
  have hnew : Role.kind.schema.Conforms new := ⟨_, rfl, by decide⟩
  have hkeeps : Change.KeepsLost (Change.textsAt known ["metadata", "0", "labels"])
      (Change.textsAt new ["metadata", "0", "labels"]) (Role.kind.metadata live).labels := by
    decide
  obtain ⟨planned, hplan⟩ : ∃ planned,
      Role.kind.plan (c.read.run start).2.resource.config new = .ok planned :=
    Steps.exists_of_isOk (by decide +kernel)
  have hpatch : ((c.traced.update new).run (c.read.run start).2.traced).2.world.1.any
      (fun entry => entry.1.kind = .patch) = true := by
    decide +kernel
  obtain ⟨refreshed, hread, happlies⟩ :=
    refreshed_update_applies_iff .role Settings.default hrests hknown hnew (.start 10)
  have hrefreshed : (c.read.run start).2 = refreshed := congrArg Prod.snd hread
  rw [hrefreshed] at hplan hpatch
  obtain ⟨⟨call, met⟩, hentry, hcall⟩ := List.any_eq_true.1 hpatch
  have hkind : call.kind = .patch := of_decide_eq_true hcall
  cases call with
  | patch ns name document =>
      obtain ⟨rfl, rfl, hdocument⟩ := (happlies planned hplan).2 hkeeps ns name document met hentry
      exact ⟨refreshed, document, met, hread, hentry, hdocument⟩
  | create | get | delete => cases hkind

/-- A role has lost its only label. The tree still declares the label after a refresh, so an update
that changes it replaces a label that is not there. -/
theorem refreshed_update_rejected :
    let tree (label : String) : Tree := .obj [("metadata", .arr [.obj
      [("labels", .obj [("a", .str label)]), ("name", .str "r")]])]
    let live : Role := { metadata := { name := some "r" } }
    let memory : Memory Role := { objects := [(("default", "r"), live)] }
    let id : Identity := ⟨"default", "r", by decide, by decide⟩
    let c := Controller.inMemory Role.kind Settings.default
    let start : Session (List Fault × Memory Role) :=
      ⟨⟨some id, tree "1"⟩, ([], memory), .start 10⟩
    let refreshed := (c.read.run start).2
    memory.Rests "default" "r" live ∧ Role.kind.schema.Conforms (tree "1") ∧
      Role.kind.schema.Conforms (tree "2") ∧ (c.read.run start).1 = .ok () ∧
      (∃ planned, Role.kind.plan refreshed.resource.config (tree "2") = .ok planned) ∧
      ∃ document met, (.patch "default" "r" document, met) ∈
          ((c.traced.update (tree "2")).run refreshed.traced).2.world.1 ∧
        ¬ Role.kind.Accommodates live document := by
  intro tree live memory id c start refreshed
  let edits : List Json.Edit := [.replace "/metadata/labels/a" (.str "2")]
  have hpatch : ((c.traced.update (tree "2")).run refreshed.traced).2.world.1.any
      (fun entry => entry.1 = .patch "default" "r" (Json.Edit.listToJson edits)) = true := by
    decide +kernel
  obtain ⟨⟨call, met⟩, hentry, hcall⟩ := List.any_eq_true.1 hpatch
  obtain rfl : call = .patch "default" "r" (Json.Edit.listToJson edits) := of_decide_eq_true hcall
  refine ⟨⟨rfl, rfl, by decide⟩, ⟨_, rfl, by decide⟩, ⟨_, rfl, by decide⟩, by decide +kernel,
    Steps.exists_of_isOk (by decide +kernel), _, met, hentry, ?_⟩
  rw [Kind.accommodates_edits_iff]
  decide +kernel

end Reconcile
