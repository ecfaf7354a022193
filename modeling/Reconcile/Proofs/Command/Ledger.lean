import Reconcile.Proofs.Cluster.Shelf
import Reconcile.Proofs.Command.Ensures
import Reconcile.Proofs.Resource.Accounts
import Reconcile.Proofs.Resource.Ending
import Reconcile.Proofs.Store.Tracks

/-!
# Commands keep track of objects

No command that comes to its end loses track of an object on a faithful cluster, wherever it fails:
what an operation knows is kept before its failure ends the command, and a row is dropped only after
the object is known to be gone. Only a command that is broken off in a wait, or stays in it, leaves
an object behind that it has made and not recorded, and that takes a wait that its watch does not
cover. `Command.Scope.tracks_act` says so of every action, `Command.runAll_tracks` of any commands
one after another, and `Command.runAll_tracked` of those that start with nothing.
-/

namespace Reconcile

variable {α σ : Type} {root key : String}

/-- The store of a desk keeps track of the places that the world holds objects at. -/
def Desk.Tracks (desk : Desk σ) (held : σ → Set Place) : Prop :=
  desk.store.Tracks (held desk.world)

/-- A command that goes no further has broken off in a wait or stays in it. -/
def Stop.Abrupt : Stop → Prop
  | .trouble _ => False
  | .overflow _ | .unfinished => True

/-- How a command that began with a store leaves a desk at which it goes no further: everything is
tracked if it has failed. Otherwise nothing has been recorded, and the watch has not covered its
waits. -/
structure Site.Leaves (site : Site σ) (held : σ → Set Place) (before : Store) (stop : Stop)
    (after : Desk σ) : Prop where
  tracks : ¬ stop.Abrupt → after.Tracks held
  store : stop.Abrupt → after.store = before
  uncovered : stop.Abrupt → ¬ site.watch.Covers site.settings

/-- A failure leaves a desk at which everything is tracked. -/
theorem Site.Leaves.trouble {site : Site σ} {held : σ → Set Place} {before : Store}
    {after : Desk σ} (h : after.Tracks held) (trouble : Trouble) :
    site.Leaves held before (.trouble trouble) after :=
  ⟨fun _ => h, False.elim, False.elim⟩

/-- What breaks off or stays in a wait that the watch does not cover leaves the store as it was. -/
theorem Site.Leaves.abrupt {site : Site σ} {held : σ → Set Place} {before : Store} {stop : Stop}
    {after : Desk σ} (hstop : stop.Abrupt) (hstore : after.store = before)
    (huncovered : ¬ site.watch.Covers site.settings) : site.Leaves held before stop after :=
  ⟨absurd hstop, fun _ => hstore, fun _ => huncovered⟩

/-- A job at a site leaves a desk that keeps track of objects if it comes to its end. -/
def Job.Tracks {β : Type} (job : Job σ β) (site : Site σ) (held : σ → Set Place)
    (desk : Desk σ) : Prop :=
  job.Ensures (fun _ after => after.Tracks held) (site.Leaves held desk.store) desk

/-- A job that changes nothing keeps track of objects. -/
theorem Job.Consults.tracks {β : Type} {job : Job σ β} {P : β → Prop} {site : Site σ}
    {held : σ → Set Place} {desk : Desk σ} (hjob : job.Consults P desk) (h : desk.Tracks held) :
    job.Tracks site held desk := by
  refine Ensures.mono hjob ?_ ?_
  · rintro _ _ ⟨rfl, _⟩
    exact h
  · rintro _ _ ⟨rfl, trouble, rfl⟩
    exact .trouble h trouble

namespace Command.Scope

open Job

variable {s : Scope α σ} {held : σ → Set Place} {desk : Desk σ} {id : Identity}

/-- Reading a file leaves the desk alone. -/
theorem consults_readTree (path : String) :
    (s.readTree path).Consults (fun _ => True) desk := by
  unfold readTree
  split
  · rename_i text _
    -- How the text is decoded does not matter.
    generalize TreeFile.decode path text = decoded
    exact consults_lift.mono fun _ _ => trivial
  · exact consults_fail _ _

/-- The controller that is used belongs to the cluster that is known. -/
theorem consults_connect : s.connect.Consults
    (fun c => ∃ api, s.api = some api ∧ c = ⟨s.kind, api, s.site.settings⟩) desk := by
  unfold connect
  split
  · rename_i api hapi
    exact consults_pure ⟨api, hapi, rfl⟩
  · exact consults_fail _ _

section Tracked

variable (hkind : s.kind.Managed root key)

include hkind

/-- What is known of an object has its identity. -/
theorem consults_known (h : desk.Tracks held) (id : Identity) :
    (s.known id).Consults (fun known => ∀ resource, known = some resource → resource.id = some id)
      desk := by
  refine (consults_stored s.kind.name id.text).then fun found hget => ?_
  cases found with
  | none => exact consults_pure fun _ hnone => nomatch hnone
  | some found =>
      obtain ⟨_, _, identity, config, htext, hload⟩ := h.id_of_get hkind hget
      refine consults_ofFailure.then fun resource hresource => consults_pure ?_
      obtain rfl := Except.ok.inj (hload.symm.trans hresource)
      rintro _ ⟨⟩
      rw [Identity.text_inj htext]

/-- What is known of an object has its identity. -/
theorem consults_knownOr (h : desk.Tracks held) (id : Identity) :
    (s.knownOr id).Consults (fun resource => resource.id = some id) desk := by
  refine (consults_known hkind h id).then fun known hknown => consults_pure ?_
  cases known with
  | none => rfl
  | some resource => exact hknown resource rfl

/-- A record that is loaded is kept, and the place of its object is kept track of. -/
theorem ensures_keep {places : Set Place} (h : desk.store.Tracks places) {record : Record}
    {config : Tree} (hload : Resource.load s.kind record = .ok ⟨some id, config⟩)
    (hid : id.text = record.id) (hversion : record.version ≤ Record.maxVersion)
    (now : ClockTime) :
    Ensures (keep s.kind.name record now)
      (fun _ after => after.world = desk.world ∧
        after.store.Tracks (insert (id.place s.kind.name) places))
      (fun _ _ => False) desk := by
  obtain ⟨after, hput, hafter⟩ := h.put hkind hload hid hversion now
  rw [keep, ensures_bind, ensures_get, ensures_bind, hput]
  exact ⟨rfl, hafter⟩

/-- What is known of an object is kept, and its place is kept track of. -/
theorem ensures_save {places : Set Place} (h : desk.store.Tracks places) {resource : Resource}
    (hid : resource.id = some id) :
    Ensures (s.save resource)
      (fun _ after => after.world = desk.world ∧
        after.store.Tracks (insert (id.place s.kind.name) places))
      (fun _ _ => False) desk := by
  obtain ⟨config, hload⟩ := Resource.exists_load_store hkind.steps_le hkind.lawful.wellNamed
    resource
  rw [hid] at hload
  rw [save, hid, Option.isSome_some, if_pos rfl]
  exact ensures_keep hkind h hload (Resource.id_store hid).symm s.kind.upgrades.latest_le s.site.now

/-- Keeping what an operation knows keeps track of what it has added. -/
theorem ensures_save_tracks (h : desk.Tracks held) {after : Session σ}
    (hafter : after.Accounts held s.kind.name id (held desk.world)) :
    (s.save after.resource).Ensures (fun _ saved => saved.Tracks held) (fun _ _ => False)
      { desk with world := after.world } := by
  rcases hafter with ⟨hid, hheld⟩ | hknows
  · rw [save, hid]
    exact Store.Tracks.mono h hheld
  · have hstore : ({ desk with world := after.world } : Desk σ).store.Tracks (held desk.world) := h
    refine (ensures_save hkind hstore hknows.id_eq).mono ?_ fun _ _ hfalse => hfalse
    rintro _ saved ⟨hworld, htracks⟩
    refine htracks.mono ?_
    rw [hworld]
    exact hknows.subset

omit hkind in
/-- An operation keeps track of objects if what follows its end and its failures does. -/
theorem tracks_operate {β : Type} {resource : Resource} {operation : Operation σ Unit}
    {next : Except Failure Unit × Resource → Job σ β} {P : Except Failure Unit → Session σ → Prop}
    (hoperation : operation.Ensures (fun value => P (.ok value))
      (fun halt after => ∀ failure, halt = .failure failure → P (.error failure) after)
      ⟨resource, desk.world, s.site.watch⟩)
    (hends : s.site.watch.Covers s.site.settings → operation.Ensures (fun _ _ => True)
      (fun halt _ => halt.IsFailure) ⟨resource, desk.world, s.site.watch⟩)
    (hnext : ∀ result after, P result after →
      (next (result, after.resource)).Tracks s.site held { desk with world := after.world }) :
    (operate s.site.watch resource operation >>= next).Tracks s.site held desk := by
  rw [Job.Tracks, ensures_bind, ensures_operate]
  have hfails : operation.Ensures (fun _ _ => True)
      (fun halt _ => s.site.watch.Covers s.site.settings → halt.IsFailure)
      ⟨resource, desk.world, s.site.watch⟩ := by
    by_cases hcovers : s.site.watch.Covers s.site.settings
    · exact (hends hcovers).mono (fun _ _ h => h) fun _ _ hhalt _ => hhalt
    · exact hoperation.mono (fun _ _ _ => trivial) fun _ _ _ h => absurd h hcovers
  refine (hoperation.and hfails).mono (fun _ after hafter => hnext _ _ hafter.1) ?_
  rintro halt after ⟨hafter, hfailure⟩
  cases halt with
  | failure failure => exact hnext _ _ (hafter failure rfl)
  | overflow overflow =>
      refine .abrupt trivial rfl fun hcovers => ?_
      obtain ⟨_, hhalt⟩ := hfailure hcovers
      cases hhalt
  | unfinished =>
      refine .abrupt trivial rfl fun hcovers => ?_
      obtain ⟨_, hhalt⟩ := hfailure hcovers
      cases hhalt

/-- An operation that accounts for what it may have added is kept track of. -/
theorem tracks_perform (h : desk.Tracks held) {resource : Resource} {operation : Operation σ Unit}
    (participle : String)
    (hoperation : operation.Ensures
      (fun _ after => after.Accounts held s.kind.name id (held desk.world))
      (fun _ after => after.Accounts held s.kind.name id (held desk.world))
      ⟨resource, desk.world, s.site.watch⟩)
    (hends : s.site.watch.Covers s.site.settings → operation.Ensures (fun _ _ => True)
      (fun halt _ => halt.IsFailure) ⟨resource, desk.world, s.site.watch⟩) :
    (s.perform participle resource operation).Tracks s.site held desk := by
  refine tracks_operate (P := fun _ after => after.Accounts held s.kind.name id (held desk.world))
    (hoperation.mono (fun _ _ hafter => hafter) fun _ _ hafter _ _ => hafter) hends
    fun result after hafter => ?_
  dsimp only
  rw [Job.Tracks, ensures_bind]
  refine (ensures_save_tracks hkind h hafter).mono (fun _ saved htracks => ?_)
    fun _ _ hfalse => hfalse.elim
  refine consults_ofFailure.bind (fun _ _ => htracks) (Site.Leaves.trouble htracks)

end Tracked

section Acting

variable (hkind : s.kind.Managed root key)
  (hfaithful : ∀ api, s.api = some api → api.Faithful s.kind held)

include hfaithful in
/-- Asking whether an object exists keeps the store and adds no object. -/
theorem ensures_probe {api : ControlApi α σ} (hapi : s.api = some api) (h : desk.Tracks held)
    (resource : Resource) :
    (probe ⟨s.kind, api, s.site.settings⟩ resource).Ensures
      (fun _ after => after.Tracks held ∧ after.store = desk.store) (fun _ _ => False) desk := by
  rw [probe, ensures_bind, ensures_get]
  refine ⟨Store.Tracks.mono h ?_, rfl⟩
  exact Controller.held_probe_subset (hfaithful api hapi) resource desk.world

include hkind hfaithful

/-- Creating the object that a tree names keeps track of it. -/
theorem tracks_create {api : ControlApi α σ} (hapi : s.api = some api) (h : desk.Tracks held)
    {desired : Tree} (hid : TreeFile.identity s.site.settings desired = .ok id) :
    (s.create ⟨s.kind, api, s.site.settings⟩ desired).Tracks s.site held desk :=
  tracks_perform hkind h _
    (Controller.ensures_create_accounts (hfaithful api hapi) hkind hid rfl subset_rfl)
    fun hcovers => Controller.ensures_create_ends hcovers

/-- Applying a tree keeps track of objects. -/
theorem tracks_apply (h : desk.Tracks held) (path : String) :
    (s.apply path).Tracks s.site held desk := by
  have hfailed : ∀ trouble, s.site.Leaves held desk.store (.trouble trouble) desk := .trouble h
  refine (consults_readTree path).bind (fun desired _ => ?_) hfailed
  refine consults_lift.bind (fun id hid => ?_) hfailed
  refine (consults_known hkind h id).bind (fun before hbefore => ?_) hfailed
  refine consults_connect.bind ?_ hfailed
  rintro _ ⟨api, hapi, rfl⟩
  cases before with
  | none => exact tracks_create hkind hfaithful hapi h hid
  | some resource =>
      dsimp only
      rw [ensures_bind]
      refine (ensures_probe hfaithful hapi h resource).mono ?_ fun _ _ hfalse => hfalse.elim
      rintro existence probed ⟨hprobed, hstore⟩
      rw [← hstore]
      cases existence with
      | present =>
          exact tracks_perform hkind hprobed _ (Controller.ensures_update_accounts
            (hfaithful api hapi) desired (hbefore resource rfl) subset_rfl)
            fun hcovers => Controller.ensures_update_ends desired hcovers
      | absent => exact tracks_create hkind hfaithful hapi hprobed hid
      | unknown failure => exact .trouble hprobed _

/-- A reading forgets an object only if it is not there. -/
theorem tracks_read (h : desk.Tracks held) (text : String) :
    (s.read text).Tracks s.site held desk := by
  have hfailed : ∀ trouble, s.site.Leaves held desk.store (.trouble trouble) desk := .trouble h
  refine consults_ofFailure.bind (fun id _ => ?_) hfailed
  refine (consults_knownOr hkind h id).bind (fun resource hid => ?_) hfailed
  refine consults_connect.bind ?_ hfailed
  rintro _ ⟨api, hapi, rfl⟩
  refine tracks_operate (P := fun result after => after.Knows held id (held desk.world) ∧
    ∀ kind text, result = .error (.notFound kind text) → id.place s.kind.name ∉ held after.world)
    ?_ (fun _ => Controller.ensures_read_ends) ?_
  · refine (Controller.ensures_read_knows (hfaithful api hapi)
      ⟨hid, subset_rfl⟩).mono (fun _ _ hafter => ⟨hafter, fun _ _ hne => nomatch hne⟩) ?_
    rintro _ after ⟨hknows, hgone⟩ failure rfl
    exact ⟨hknows, fun kind text hfailure =>
      hgone kind text (congrArg Halt.failure (Except.error.inj hfailure))⟩
  · rintro result after ⟨hknows, hgone⟩
    have htracks : ({ desk with world := after.world } : Desk σ).Tracks held :=
      Store.Tracks.mono h hknows.subset
    dsimp only
    split
    · rw [Job.Tracks, ensures_bind]
      exact (ensures_save_tracks hkind h hknows.accounts).mono (fun _ _ hsaved => hsaved)
        fun _ _ hfalse => hfalse.elim
    · rename_i kind text
      exact htracks.delete (hgone kind text rfl)
    · exact .trouble htracks _

/-- A deletion forgets an object only if it has been deleted. -/
theorem tracks_delete (h : desk.Tracks held) (text : String) :
    (s.delete text).Tracks s.site held desk := by
  have hfailed : ∀ trouble, s.site.Leaves held desk.store (.trouble trouble) desk := .trouble h
  refine consults_ofFailure.bind (fun id _ => ?_) hfailed
  refine (consults_knownOr hkind h id).bind (fun resource hid => ?_) hfailed
  refine consults_connect.bind ?_ hfailed
  rintro _ ⟨api, hapi, rfl⟩
  refine tracks_operate (P := fun result after => held after.world ⊆ held desk.world ∧
    (result = .ok () → id.place s.kind.name ∉ held after.world)) ?_
    (fun hcovers => Controller.ensures_delete_ends hcovers) ?_
  · exact (Controller.ensures_delete_held (hfaithful api hapi) ⟨hid, subset_rfl⟩).mono
      (fun _ _ hafter => ⟨hafter.1, fun _ => hafter.2⟩)
      fun _ _ hafter _ _ => ⟨hafter, fun hok => nomatch hok⟩
  · rintro result after ⟨hheld, hgone⟩
    have htracks : ({ desk with world := after.world } : Desk σ).Tracks held :=
      Store.Tracks.mono h hheld
    refine consults_ofFailure.bind ?_ (Site.Leaves.trouble htracks)
    rintro _ hok
    exact htracks.delete (hgone hok)

omit hkind in
/-- Asking whether an object exists keeps track of objects. -/
theorem tracks_existence (h : desk.Tracks held) (text : String) :
    (s.existence text).Tracks s.site held desk := by
  have hfailed : ∀ trouble, s.site.Leaves held desk.store (.trouble trouble) desk := .trouble h
  refine consults_ofFailure.bind (fun id _ => ?_) hfailed
  refine consults_connect.bind ?_ hfailed
  rintro _ ⟨api, hapi, rfl⟩
  rw [ensures_bind]
  refine (ensures_probe hfaithful hapi h _).mono ?_ fun _ _ hfalse => hfalse.elim
  rintro existence probed ⟨hprobed, -⟩
  cases existence with
  | present => exact hprobed
  | absent => exact hprobed
  | unknown failure => exact .trouble hprobed _

omit hfaithful in
/-- An upgraded record is kept in place of the one that it was made from. -/
theorem tracks_migrate (h : desk.Tracks held) (id : String) :
    (s.migrate id).Tracks s.site held desk := by
  have hfailed : ∀ trouble, s.site.Leaves held desk.store (.trouble trouble) desk := .trouble h
  refine (consults_stored s.kind.name id).bind (fun found hget => ?_) hfailed
  cases found with
  | none => exact hfailed _
  | some found =>
      obtain ⟨hfound, hversion, identity, config, htext, hload⟩ := h.id_of_get hkind hget
      refine consults_ofFailure.bind (fun upgraded hupgraded => ?_) hfailed
      rw [ensures_bind]
      have hsteps := hkind.steps_le
      have hid : identity.text = upgraded.id :=
        htext.trans (hfound.symm.trans (Upgrades.upgradeRecord_again hsteps hupgraded).1.symm)
      refine (ensures_keep hkind h ((Resource.load_upgradeRecord hsteps hupgraded).trans hload)
        hid (Upgrades.version_upgradeRecord_le hversion hupgraded) s.site.now).mono ?_
        fun _ _ hfalse => hfalse.elim
      rintro _ after ⟨hworld, htracks⟩
      refine htracks.mono ?_
      rw [hworld]
      exact Set.subset_insert _ _

omit hfaithful in
/-- Planning keeps track of objects. -/
theorem tracks_plan (h : desk.Tracks held) (path : String) :
    (s.plan path).Tracks s.site held desk := by
  refine Consults.tracks (P := fun _ => True) ?_ h
  refine (consults_readTree path).then fun desired _ => ?_
  refine consults_lift.then fun id _ => ?_
  refine (consults_known hkind h id).then fun before _ => ?_
  cases before with
  | none => exact consults_pure trivial
  | some resource =>
      refine consults_ofFailure.then fun edits _ => ?_
      split
      · exact consults_pure trivial
      · exact consults_pure trivial

omit hkind hfaithful in
/-- Listing keeps track of objects. -/
theorem tracks_list (h : desk.Tracks held) : s.list.Tracks s.site held desk := by
  refine Consults.tracks (P := fun _ => True) ?_ h
  have hrecords : ∀ id ∈ desk.store.list s.kind.name,
      (stored s.kind.name id).Consults (fun _ => True) desk :=
    fun id _ => (consults_stored s.kind.name id).mono fun _ _ => trivial
  rw [Consults, list, ensures_bind, ensures_get]
  refine (consults_mapM hrecords).then fun records _ => ?_
  dsimp only
  split
  · exact consults_pure trivial
  · exact consults_pure trivial

/-- Every action on a faithful cluster keeps track of objects if it comes to its end. -/
theorem tracks_act (h : desk.Tracks held) (action : Action) :
    (s.act action).Tracks s.site held desk := by
  cases action with
  | apply file => exact tracks_apply hkind hfaithful h file
  | read id => exact tracks_read hkind hfaithful h id
  | delete id => exact tracks_delete hkind hfaithful h id
  | probe id => exact tracks_existence hfaithful h id
  | migrate id => exact tracks_migrate hkind h id
  | plan file => exact tracks_plan hkind h file
  | list => exact tracks_list h

end Acting

end Command.Scope

namespace Command

/-- A command has been broken off in a wait or stays in it. -/
def Abrupt : Except Stop String → Prop
  | .ok _ => False
  | .error stop => stop.Abrupt

/-- The desk after commands that are run one after another, each at its own site. -/
def runAll (history : List (Site σ × Command)) (desk : Desk σ) : Desk σ :=
  history.foldl (fun desk (site, command) => (run site command desk).2) desk

/-- The places of the objects that commands have made and not recorded: those that one of them has
added that was broken off or stays in a wait. -/
def lost (held : σ → Set Place) : List (Site σ × Command) → Desk σ → Set Place
  | [], _ => ∅
  | (site, command) :: history, desk =>
    let ran := run site command desk
    {place | Abrupt ran.1 ∧ place ∈ held ran.2.world \ held desk.world} ∪ lost held history ran.2

variable {held : σ → Set Place} {history : List (Site σ × Command)} {desk : Desk σ}

/-- A command on a faithful cluster keeps track of objects if it comes to its end. -/
theorem tracks_task {site : Site σ}
    (hfaithful : ∀ cluster, site.cluster = some cluster → cluster.Faithful held)
    (command : Command) (h : desk.Tracks held) : (task site command).Tracks site held desk := by
  unfold task
  split
  · refine Scope.tracks_act .deployment (fun api hapi => ?_) h command.action
    obtain ⟨cluster, hcluster, rfl⟩ := Option.map_eq_some_iff.1 hapi
    exact (hfaithful cluster hcluster).deployments
  · refine Scope.tracks_act .role (fun api hapi => ?_) h command.action
    obtain ⟨cluster, hcluster, rfl⟩ := Option.map_eq_some_iff.1 hapi
    exact (hfaithful cluster hcluster).roles

/-- A command on a faithful cluster comes to its end and keeps track of objects, or it has recorded
nothing and its watch has not covered its waits. -/
theorem run_tracks {site : Site σ}
    (hfaithful : ∀ cluster, site.cluster = some cluster → cluster.Faithful held)
    (command : Command) (h : desk.Tracks held) :
    let ran := run site command desk
    (¬ Abrupt ran.1 → ran.2.Tracks held) ∧
      (Abrupt ran.1 → ran.2.store = desk.store ∧ ¬ site.watch.Covers site.settings) := by
  refine Job.Ensures.result (P := fun result after => (¬ Abrupt result → after.Tracks held) ∧
    (Abrupt result → after.store = desk.store ∧ ¬ site.watch.Covers site.settings)) ?_
  exact (tracks_task hfaithful command h).mono (fun _ _ hafter => ⟨fun _ => hafter, False.elim⟩)
    fun _ _ hleaves =>
      ⟨hleaves.tracks, fun habrupt => ⟨hleaves.store habrupt, hleaves.uncovered habrupt⟩⟩

section Histories

variable {passed : Set Place}

/-- A command on a faithful cluster keeps track of all objects but those that were lost before and
those that it has lost itself. -/
theorem run_tracks_diff {site : Site σ}
    (hfaithful : ∀ cluster, site.cluster = some cluster → cluster.Faithful held)
    (command : Command) (h : desk.Tracks fun world => held world \ passed) :
    let ran := run site command desk
    ran.2.Tracks fun world => held world \ (passed ∪
      {place | Abrupt ran.1 ∧ place ∈ held ran.2.world \ held desk.world}) := by
  classical
  intro ran
  obtain ⟨hended, habrupt⟩ := run_tracks
    (fun cluster hcluster => (hfaithful cluster hcluster).diff passed) command h
  by_cases hran : Abrupt ran.1
  · show ran.2.store.Tracks _
    rw [(habrupt hran).1]
    refine Store.Tracks.mono h ?_
    rintro place ⟨hplace, hkept⟩
    -- What is there now and was not there before has just been lost.
    have hbefore : place ∈ held desk.world := by
      by_contra hnew
      exact hkept (.inr ⟨hran, hplace, hnew⟩)
    exact ⟨hbefore, fun hpassed => hkept (.inl hpassed)⟩
  · exact Store.Tracks.mono (hended hran)
      (Set.sdiff_subset_sdiff_right Set.subset_union_left)

/-- Commands on faithful clusters keep track of all objects but those that they have lost. -/
theorem runAll_tracks (hfaithful : ∀ entry ∈ history, ∀ cluster, entry.1.cluster = some cluster →
      cluster.Faithful held) (h : desk.Tracks fun world => held world \ passed) :
    (runAll history desk).Tracks fun world => held world \ (passed ∪ lost held history desk) := by
  induction history generalizing desk passed with
  | nil =>
      rw [lost, Set.union_empty]
      exact h
  | cons entry history ih =>
      rw [lost, ← Set.union_assoc]
      exact ih (fun other hother => hfaithful other (List.mem_cons_of_mem _ hother))
        (run_tracks_diff (hfaithful entry List.mem_cons_self) entry.2 h)

/-- Commands lose nothing on faithful clusters if their watches cover their waits. -/
theorem lost_eq_empty (hfaithful : ∀ entry ∈ history, ∀ cluster, entry.1.cluster = some cluster →
      cluster.Faithful held)
    (hcovers : ∀ entry ∈ history, entry.1.watch.Covers entry.1.settings)
    (h : desk.Tracks held) : lost held history desk = ∅ := by
  induction history generalizing desk with
  | nil => rfl
  | cons entry history ih =>
      obtain ⟨hended, habrupt⟩ := run_tracks (hfaithful entry List.mem_cons_self) entry.2 h
      have hran : ¬ Abrupt (run entry.1 entry.2 desk).1 :=
        fun hran => (habrupt hran).2 (hcovers entry List.mem_cons_self)
      have hrest := ih (fun other hother => hfaithful other (List.mem_cons_of_mem _ hother))
        (fun other hother => hcovers other (List.mem_cons_of_mem _ hother)) (hended hran)
      rw [lost, hrest, Set.union_empty]
      exact Set.eq_empty_of_forall_notMem fun _ hplace => hran hplace.1

end Histories

/-- A role whose creation asks for more time than the clock can show is there and has no row. -/
example :
    let site : Site Shelf :=
      { settings := .ofEnv (Dict.ofList [("KFORM_CREATE_TIMEOUT_SECS", "18446744073709551615")]),
        now := ⟨⟨⟨2024, 5, 17⟩, 0, 0⟩, by decide⟩, watch := .start 1202,
        cluster := some Shelf.cluster, readFile := fun path => .ok ("metadata:\n- name: " ++ path) }
    let ran := run site ⟨.role, .human, .apply "a"⟩ ⟨Store.empty, ⟨[], []⟩⟩
    ran.1 = .error (.overflow .deadline) ∧
      ran.2.world.objects.map (·.1) = [⟨"role", "default", "a"⟩] ∧
      ran.2.store.list "role" = [] := by
  decide +kernel

end Command

end Reconcile
