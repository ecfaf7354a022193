import Mathlib.Data.List.Basic
import Reconcile.Proofs.Command.Ensures
import Reconcile.Proofs.Resource.Accounts
import Reconcile.Proofs.Resource.Reapplied
import Reconcile.Proofs.Store.Rows

/-!
# Objects that are known as their trees name them

A command reads the identity of an object from the raw tree, and a creation learns it from the
answer to its call. `created_as_named` says that the two agree: what is sent has the namespace and
the name that were read, and once a cluster in memory has accepted it, the record that is kept is
found by every tree that names the same object (`Store.Recalls`).
-/

namespace Reconcile

variable {α σ : Type} {kind : Kind α} {root key : String}

open Operation

/-! ## What a creation sends -/

/-- A creation of an object with a namespace and a name has been sent. An object without a name
counts as one with an empty name. -/
def Trace.Creates (trace : Trace σ) (ns name : String) : Prop :=
  .create ns name ∈ trace.map (·.1)

instance (trace : Trace σ) (ns name : String) : Decidable (trace.Creates ns name) :=
  inferInstanceAs (Decidable (_ ∈ _))

/-- Reading an object adds no creation. -/
theorem Trace.creates_get {trace : Trace σ} {ns name ns' name' : String} {met : σ} :
    Trace.Creates ((.get ns' name', met) :: trace) ns name ↔ trace.Creates ns name :=
  List.mem_cons.trans (or_iff_right Call.noConfusion)

namespace Controller

variable {c : Controller α σ} {id : Identity} {tree : Tree} {ns name : String} {placed : α}

/-- A creation sends the object that it asks for and creates no other one. -/
theorem creates_iff {session : Session σ} :
    Trace.Creates (c.traced.create.run session.traced).2.world.1 ns name ↔
      ∃ placed, c.asked session.resource.config = .ok (ns, placed) ∧
        (c.kind.metadata placed).name.getD "" = name := by
  let Asked : Prop := ∃ placed, c.asked session.resource.config = .ok (ns, placed) ∧
    (c.kind.metadata placed).name.getD "" = name
  refine Ensures.after
    (P := fun after : Session (Trace σ × σ) => Trace.Creates after.world.1 ns name ↔ Asked) ?_
  refine ensures_create (fun failure hmalformed => ?_) fun ns' placed hasked => ?_
  · refine ⟨fun hnone => (nomatch hnone), fun ⟨_, hasked, _⟩ => ?_⟩
    cases Eq.trans (Eq.symm hmalformed) hasked
  · have hsent : Trace.Creates (c.traced.api.create ns' placed session.traced.world).2.1 ns name ↔
        Asked := by
      constructor
      · intro hmem
        cases List.mem_singleton.1 hmem
        exact ⟨placed, hasked, rfl⟩
      · rintro ⟨_, hother, rfl⟩
        cases Eq.trans (Eq.symm hasked) hother
        exact List.mem_singleton_self _
    rw [ensures_call]
    refine ⟨fun object _ => ⟨fun id _ => ?_, fun _ _ => hsent⟩, fun _ _ => hsent⟩
    -- Nothing but readings comes after the call.
    exact (ensures_settle_read_preserves (c := c.traced)
      (I := fun world => Trace.Creates world.1 ns name ↔ Asked) rfl _
      (fun _ hworld => Trace.creates_get.trans hworld) hsent).mono
      (fun _ _ hafter => hafter.2) fun _ _ hafter => hafter.2

end Controller

/-- An object that is asked for has the namespace that it is to be created in. -/
theorem Controller.ns_of_asked {c : Controller α σ} (hobs : c.kind.Observable key) {tree : Tree}
    {ns : String} {placed : α} (h : c.asked tree = .ok (ns, placed)) :
    (c.kind.metadata placed).ns = some ns := by
  obtain ⟨declared, -, hplace⟩ := Steps.map_eq_ok_iff.1 h
  unfold place at hplace
  dsimp only at hplace
  split at hplace
  · rename_i hdeclared
    cases hplace
    exact (Option.filter_eq_some_iff.1 hdeclared).1
  · cases hplace
    rw [hobs.metadata_withMetadata]

/-- An object that asks for a name is made with this name. -/
theorem Memory.metadata_of_create (hobs : kind.Observable key) {ns name : String}
    {placed object : α} {m : Memory α} (hname : (kind.metadata placed).name = some name)
    (hne : name ≠ "") (h : (create kind ns placed m).1 = .ok object) :
    (kind.metadata object).ns = some ns ∧ (kind.metadata object).name = some name := by
  have hnamed : ∀ generateName serial, nameFor name generateName serial = name := by
    intro generateName serial
    have hfull : name.isEmpty = false := by simpa using hne
    simp only [nameFor, hfull]
  simp only [create, hname, Option.getD_some, hnamed] at h
  split at h
  · cases h
  · split at h
    · cases h
    · obtain rfl := Except.ok.inj h
      rw [hobs.metadata_withMetadata]
      exact ⟨rfl, rfl⟩

namespace Controller

variable {c : Controller α σ} {settings : Settings} {id : Identity} {tree : Tree} {ns : String}
  {placed object : α}

/-- The identity that a creation learns is the one of the object that has been made. -/
theorem creation_of_asked {world : σ} (hasked : c.asked tree = .ok (ns, placed))
    (hobject : (c.api.create ns placed world).1 = .ok object)
    (hid : c.identityOf ns object = .ok id) : c.creation tree world = .ok id := by
  obtain ⟨declared, hdeclared, hplace⟩ := Steps.map_eq_ok_iff.1 hasked
  rw [creation, hdeclared, Steps.bind_ok, hplace, hobject, Steps.bind_ok]
  exact hid

/-- A creation that a cluster in memory accepts learns the identity that its tree names. -/
theorem creation_of_identity (hkind : kind.Managed root key) {world : List Fault × Memory α}
    (hid : TreeFile.identity settings tree = .ok id)
    (h : (inMemory kind settings).created tree world = .ok object) :
    (inMemory kind settings).creation tree world = .ok id := by
  obtain ⟨⟨ns, placed⟩, hasked, hobject⟩ := Steps.bind_eq_ok_iff.1 h
  obtain ⟨rfl, hname⟩ := asked_of_identity (c := inMemory kind settings) hkind hid hasked
  obtain ⟨hns, hmade⟩ : (kind.metadata object).ns = some id.ns ∧
      (kind.metadata object).name = some id.name := by
    rcases Fault.guard_cases .create (Memory.create kind id.ns placed) world with
      ⟨failure, faults, hguard⟩ | ⟨faults, hguard⟩
    · cases hobject.symm.trans (congrArg Prod.fst hguard)
    · exact Memory.metadata_of_create hkind.observable hname id.name_part.1
        ((congrArg Prod.fst hguard).symm.trans hobject)
  refine creation_of_asked hasked hobject ?_
  show Identity.ofParts ((kind.metadata object).ns.getD id.ns)
    ((kind.metadata object).name.getD "") = _
  rw [hns, hmade]
  exact dif_pos ⟨id.ns_part, id.name_part⟩

end Controller

/-! ## Records that are found again -/

namespace Command.Scope

/-- Bring an object that is known to a tree. It is created if it is not there. -/
def reapply (s : Scope α σ) (desired : Tree) (resource : Resource) : Job σ String := do
  let c ← s.connect
  match ← probe c resource with
  | .present => s.perform "updated" resource (c.update desired)
  | .absent => s.create c desired
  | .unknown failure => Job.fail (.unchecked failure)

end Command.Scope

/-- Applying any tree that names an object goes on from what a store holds for this object, whatever
the settings, the file and the cluster are. -/
def Store.Recalls (store : Store) (kind : Kind α) (id : Identity) : Prop :=
  ∃ found : Resource, found.id = some id ∧
    ∀ {σ : Type} (s : Command.Scope α σ) (path text : String) (tree : Tree) (world : σ),
      s.kind = kind → s.site.readFile path = .ok text → TreeFile.decode path text = .ok tree →
      TreeFile.identity s.site.settings tree = .ok id →
      (s.apply path).run ⟨store, world⟩ = (s.reapply tree found).run ⟨store, world⟩

/-- An object is recalled if its record is found and loaded. -/
theorem Store.recalls_of_get {store : Store} {id : Identity} {found : StoredRecord} {config : Tree}
    (hget : store.get kind.name id.text = .ok (some found))
    (hload : Resource.load kind found.record = .ok ⟨some id, config⟩) : store.Recalls kind id := by
  refine ⟨⟨some id, config⟩, rfl, ?_⟩
  rintro σ s path text tree world rfl hread hdecode hid
  have htree : (s.readTree path).run ⟨store, world⟩ = (.ok tree, ⟨store, world⟩) := by
    simp only [Command.Scope.readTree, hread, hdecode]
    rfl
  have hnamed : (Job.lift (TreeFile.identity s.site.settings tree)).run
      (⟨store, world⟩ : Desk σ) = (.ok id, ⟨store, world⟩) := by
    rw [hid]
    rfl
  have hstored : (Job.stored s.kind.name id.text).run (⟨store, world⟩ : Desk σ) =
      (.ok (some found), ⟨store, world⟩) := by
    show (Job.ofStore (store.get s.kind.name id.text)).run (⟨store, world⟩ : Desk σ) = _
    rw [hget]
    rfl
  have hknown : (s.known id).run ⟨store, world⟩ =
      (.ok (some ⟨some id, config⟩), ⟨store, world⟩) := by
    rw [Command.Scope.known, Steps.run_bind_of_ok hstored]
    simp only [hload]
    rfl
  rw [Command.Scope.apply, Steps.run_bind_of_ok htree, Steps.run_bind_of_ok hnamed,
    Steps.run_bind_of_ok hknown]
  rfl

/-- What is known of an object can be kept, and is recalled from then on. -/
theorem Store.exists_put_recalls (hkind : kind.Managed root key) {id : Identity}
    {resource : Resource} (hid : resource.id = some id) (store : Store) (now : ClockTime) :
    ∃ kept, store.put kind.name (Resource.store kind resource) now = .ok kept ∧
      kept.Recalls kind id := by
  have hkey : (Resource.store kind resource).id = id.text := Resource.id_store hid
  obtain ⟨kept, hput⟩ : ∃ kept, store.put kind.name (Resource.store kind resource) now =
      .ok kept := ⟨_, if_neg (hkey ▸ id.text_ne_empty)⟩
  have hget := Store.get_of_put kind.upgrades.latest_le now.2 hput
  obtain ⟨config, hload⟩ := Resource.exists_load_store hkind.steps_le hkind.lawful.wellNamed
    resource
  rw [hkey] at hget
  rw [hid] at hload
  exact ⟨kept, hput, Store.recalls_of_get hget hload⟩

/-- What is known of an object that has been created is put into the store. -/
theorem Command.Scope.run_save {s : Scope α σ} {resource : Resource} {id : Identity} {kept : Store}
    {desk : Desk σ} (hid : resource.id = some id)
    (hput : desk.store.put s.kind.name (Resource.store s.kind resource) s.site.now.1 = .ok kept) :
    (s.save resource).run desk = (.ok (), { desk with store := kept }) := by
  have hstore : (Job.ofStore (desk.store.put s.kind.name (Resource.store s.kind resource)
      s.site.now.1)).run desk = (.ok kept, desk) := by
    rw [hput]
    rfl
  rw [save, if_pos (by rw [hid]; rfl)]
  show (Job.ofStore (desk.store.put _ _ _) >>= _).run desk = _
  rw [Steps.run_bind_of_ok hstore]
  rfl

/-- A command and a creation agree on the identity of an object. If a tree names an object, a
creation from this tree asks for an object with the namespace and the name of its identity, and
sends no other one. Once a cluster in memory has accepted it, this identity is known wherever the
creation stops and is read back from the key of the record, and what is kept is found by every tree
that names the same object. If a tree has a name but names no object, no identity can be made of
what a creation from it sends. -/
theorem created_as_named (hkind : kind.Managed root key) (settings : Settings) (tree : Tree)
    (world : List Fault × Memory α) (watch : Wait.Watch) :
    let c := Controller.inMemory kind settings
    let start : Session (List Fault × Memory α) := ⟨Resource.ofConfig tree, world, watch⟩
    let trace := (c.traced.create.run start.traced).2.world.1
    let known := (c.create.run start).2.resource
    (∀ id, TreeFile.identity settings tree = .ok id →
      (∀ ns placed, c.asked tree = .ok (ns, placed) →
        (kind.metadata placed).ns = some id.ns ∧ (kind.metadata placed).name = some id.name) ∧
      (∀ ns name, trace.Creates ns name → ns = id.ns ∧ name = id.name) ∧
      ∀ object, c.created tree world = .ok object →
        known.id = some id ∧ Identity.ofText (Resource.store kind known).id = .ok id ∧
        ∀ {σ : Type} (s : Command.Scope α σ) (desk : Desk σ), s.kind = kind →
          ∃ kept, (s.save known).run desk = (.ok (), { desk with store := kept }) ∧
            kept.Recalls kind id) ∧
    ∀ metadata name, Tree.block? tree "metadata" = some metadata →
      Block.text? metadata "name" = some name →
      (∀ id, TreeFile.identity settings tree ≠ .ok id) →
      ∀ ns name, trace.Creates ns name →
        Identity.ofParts ns name = .error (.invalidIdentity (Identity.join ns name)) := by
  intro c start trace known
  refine ⟨fun id hid => ⟨fun ns placed hasked => ?_, fun ns name hsent => ?_,
    fun object hobject => ?_⟩, fun metadata name hmetadata hname hunnamed ns sent hsent => ?_⟩
  · obtain ⟨hns, hname⟩ := Controller.asked_of_identity (c := c) hkind hid hasked
    rw [← hns]
    exact ⟨Controller.ns_of_asked (c := c) hkind.observable hasked, hname⟩
  · obtain ⟨placed, hasked, rfl⟩ := Controller.creates_iff.1 hsent
    obtain ⟨hns, hname⟩ := Controller.asked_of_identity (c := c) hkind hid hasked
    refine ⟨hns, ?_⟩
    rw [hname]
    rfl
  · have hknown : known.id = some id :=
      Controller.create_known (Controller.creation_of_identity hkind hid hobject)
    refine ⟨hknown, ?_, ?_⟩
    · rw [Resource.id_store hknown]
      exact id.ofText_text
    · rintro σ s desk rfl
      obtain ⟨kept, hput, hrecalls⟩ :=
        Store.exists_put_recalls hkind hknown desk.store s.site.now
      exact ⟨kept, Command.Scope.run_save hknown hput, hrecalls⟩
  · obtain ⟨placed, hasked, rfl⟩ := Controller.creates_iff.1 hsent
    obtain ⟨rfl, hplaced⟩ := Controller.asked_of_named (c := c) hkind hmetadata hname hasked
    rw [TreeFile.identity_of_named hmetadata hname] at hunnamed
    rw [show (c.kind.metadata placed).name = some name from hplaced]
    exact Identity.failure_of_ofParts fun id hid =>
      hunnamed id (Steps.mapError_eq_ok_iff.2 hid)

/-- A role whose namespace is a number is made in the default namespace and found there again. One
whose name has a slash is sent as well, though it cannot be known. -/
theorem created_as_named_untidy :
    let c := Controller.inMemory Role.kind Settings.default
    let tree (fields : Block) : Tree := .obj [("metadata", .arr [.obj fields])]
    let untidy := tree [("name", .str "r"), ("namespace", .int 7)]
    let slashed := tree [("name", .str "a/b")]
    let start (tree : Tree) : Session (List Fault × Memory Role) :=
      ⟨Resource.ofConfig tree, ([], {}), .start 10⟩
    let trace (tree : Tree) := (c.traced.create.run (start tree).traced).2.world.1
    let known := (c.create.run (start untidy)).2.resource
    let id : Identity := ⟨"default", "r", by decide, by decide⟩
    TreeFile.identity Settings.default untidy = .ok id ∧ (trace untidy).Creates "default" "r" ∧
      known.id = some id ∧
      (∀ (s : Command.Scope Role (List Fault × Memory Role)) desk, s.kind = Role.kind →
        ∃ kept, (s.save known).run desk = (.ok (), { desk with store := kept }) ∧
          kept.Recalls Role.kind id) ∧
      (trace slashed).Creates "default" "a/b" ∧
      Identity.ofParts "default" "a/b" = .error (.invalidIdentity "default/a/b") := by
  intro c tree untidy slashed start trace known id
  have hid : TreeFile.identity Settings.default untidy = .ok id := by decide +kernel
  have hcreated : (c.created untidy ([], {})).isOk = true := by decide +kernel
  have hsent : (trace untidy).Creates "default" "r" := by decide +kernel
  have hslashed : (trace slashed).Creates "default" "a/b" := by decide +kernel
  obtain ⟨object, hobject⟩ := Steps.exists_of_isOk hcreated
  obtain ⟨-, -, haccepted⟩ :=
    (created_as_named .role Settings.default untidy ([], {}) (.start 10)).1 id hid
  obtain ⟨hknown, -, hsaved⟩ := haccepted object hobject
  refine ⟨hid, hsent, hknown, fun s => hsaved s, hslashed, ?_⟩
  refine (created_as_named .role Settings.default slashed ([], {}) (.start 10)).2
    [("name", .str "a/b")] "a/b" rfl (by decide) (fun other hother => ?_) "default" "a/b" hslashed
  cases hother

end Reconcile
