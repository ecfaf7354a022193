import Reconcile.Command.Line
import Reconcile.Command.TreeFile
import Reconcile.Deployment.Kind
import Reconcile.Resource.Operations
import Reconcile.Role.Kind

/-!
# Running commands

A command works on the store and on the state of the world, and ends with a text to be printed or
with the reason why it failed. What it has written to the store by then stays there: an object
that was created is recorded even if it never converges, and one whose update failed is recorded
with what is known of it. A command that breaks off in a wait, or stays in it, has recorded nothing
of what it did. `Command.run` is the whole of a command.
-/

namespace Reconcile

/-- The control APIs of a cluster in a world of state `σ`. -/
structure Cluster (σ : Type) where
  deployments : ControlApi Deployment σ
  roles : ControlApi Role σ

/-- What commands find around them. -/
structure Site (σ : Type) where
  settings : Settings
  /-- The texts of files. -/
  readFile : String → Except FileFault String
  /-- The time of what is written. -/
  now : ClockTime
  /-- What waits go by. -/
  watch : Wait.Watch
  /-- The cluster, if one is known. -/
  cluster : Option (Cluster σ)

/-- What a command works on. -/
structure Desk (σ : Type) where
  store : Store
  world : σ

/-- Why a command goes no further. -/
inductive Stop where
  | trouble (trouble : Trouble)
  /-- The program broke off in a wait. -/
  | overflow (overflow : Wait.Overflow)
  /-- A wait still goes on. -/
  | unfinished
  deriving DecidableEq

/-- A part of a command, which keeps its changes when it goes no further. -/
abbrev Job (σ β : Type) := ExceptT Stop (StateM (Desk σ)) β

namespace Job

variable {σ β : Type}

/-- The failure of a command. -/
def fail (trouble : Trouble) : Job σ β := throw (.trouble trouble)

/-- The result of a computation that may fail. -/
def lift (result : Except Trouble β) : Job σ β :=
  match result with
  | .ok value => pure value
  | .error trouble => fail trouble

/-- The result of a computation on the store. -/
def ofStore (result : Except StoreFault β) : Job σ β := lift (result.mapError .store)

/-- The result of a computation that may fail like an operation. -/
def ofFailure (result : Except Failure β) : Job σ β := lift (result.mapError .operation)

/-- What the store holds for a kind and identity. -/
def stored (kind id : String) : Job σ (Option StoredRecord) := do
  ofStore ((← get).store.get kind id)

/-- Keep a record of a kind. -/
def keep (kind : String) (record : Record) (now : Timestamp) : Job σ Unit := do
  let desk ← get
  let store ← ofStore (desk.store.put kind record now)
  set { desk with store := store }

/-- Drop the record of a kind and identity. -/
def drop (kind id : String) : Job σ Unit :=
  modify fun desk => { desk with store := desk.store.delete kind id }

/-- An operation on an object: how it ended, and what is known of the object then. A command whose
operation is broken off or does not end goes no further either. -/
def operate (watch : Wait.Watch) (resource : Resource) (operation : Operation σ Unit) :
    Job σ (Except Failure Unit × Resource) := do
  let desk ← get
  let (result, session) := operation.run ⟨resource, desk.world, watch⟩
  set { desk with world := session.world }
  match result with
  | .ok () => pure (.ok (), session.resource)
  | .error (.failure failure) => pure (.error failure, session.resource)
  | .error (.overflow overflow) => throw (.overflow overflow)
  | .error .unfinished => throw .unfinished

end Job

namespace Command

variable {α σ : Type}

open Job

/-- The settings and the kind of objects that a command is about, and its view of the cluster. -/
structure Scope (α σ : Type) where
  site : Site σ
  kind : Kind α
  api : Option (ControlApi α σ)
  output : OutputForm

namespace Scope

/-- The tree of a file. -/
def readTree (s : Scope α σ) (path : String) : Job σ Tree :=
  match s.site.readFile path with
  | .ok text => lift (TreeFile.decode path text)
  | .error fault => fail (.file path fault)

/-- What is known of an object. -/
def known (s : Scope α σ) (id : Identity) : Job σ (Option Resource) := do
  match ← stored s.kind.name id.text with
  | some found => do
    let resource ← ofFailure (Resource.load s.kind found.record)
    pure (some resource)
  | none => pure none

/-- What is known of an object, which is no more than its identity if there is no record. -/
def knownOr (s : Scope α σ) (id : Identity) : Job σ Resource := do
  pure ((← s.known id).getD ⟨some id, .null⟩)

/-- The controller of the cluster, which has to be known. -/
def connect (s : Scope α σ) : Job σ (Controller α σ) :=
  match s.api with
  | some api => pure ⟨s.kind, api, s.site.settings⟩
  | none => fail .unconnected

/-- Keep what is known of an object, unless it was never created. -/
def save (s : Scope α σ) (resource : Resource) : Job σ Unit :=
  if resource.id.isSome then keep s.kind.name (Resource.store s.kind resource) s.site.now.1
  else pure ()

/-- Whether an object exists. -/
def probe (c : Controller α σ) (resource : Resource) : Job σ Existence := do
  let desk ← get
  let (existence, world) := c.probe resource desk.world
  set { desk with world := world }
  pure existence

/-- What is printed of an object that something was done to. -/
def shown (s : Scope α σ) (participle : String) (resource : Resource) : String :=
  match s.output with
  | .human => participle ++ " " ++ (resource.id.map Identity.text).getD "(none)" ++ "\n"
  | .json => resource.config.renderIndented ++ "\n"

/-- Do an operation, keep what is known of the object whatever comes of it, and show the
object. -/
def perform (s : Scope α σ) (participle : String) (resource : Resource)
    (operation : Operation σ Unit) : Job σ String := do
  let (result, after) ← operate s.site.watch resource operation
  s.save after
  ofFailure result
  pure (s.shown participle after)

/-- Create an object. -/
def create (s : Scope α σ) (c : Controller α σ) (desired : Tree) : Job σ String :=
  s.perform "created" (.ofConfig desired) c.create

/-- Bring an object to the tree in a file. It is created if it is not known or not there. -/
def apply (s : Scope α σ) (path : String) : Job σ String := do
  let desired ← s.readTree path
  let id ← lift (TreeFile.identity s.site.settings desired)
  let before ← s.known id
  let c ← s.connect
  match before with
  | none => s.create c desired
  | some resource =>
    match ← probe c resource with
    | .present => s.perform "updated" resource (c.update desired)
    | .absent => s.create c desired
    | .unknown failure => fail (.unchecked failure)

/-- Take over what the cluster knows of an object, and forget one that is gone. -/
def read (s : Scope α σ) (text : String) : Job σ String := do
  let id ← ofFailure (Identity.ofText text)
  let resource ← s.knownOr id
  let c ← s.connect
  let (result, after) ← operate s.site.watch resource c.read
  match result with
  | .ok () => do
    s.save after
    pure (s.shown "read" after)
  | .error (.notFound _ _) => do
    drop s.kind.name id.text
    pure (id.text ++ " is gone; dropped stored state\n")
  | .error failure => fail (.operation failure)

/-- Delete an object and forget it. -/
def delete (s : Scope α σ) (text : String) : Job σ String := do
  let id ← ofFailure (Identity.ofText text)
  let resource ← s.knownOr id
  let c ← s.connect
  let (result, _) ← operate s.site.watch resource c.delete
  ofFailure result
  drop s.kind.name id.text
  pure ("deleted " ++ id.text ++ "\n")

/-- Tell whether an object exists. -/
def existence (s : Scope α σ) (text : String) : Job σ String := do
  let id ← ofFailure (Identity.ofText text)
  let c ← s.connect
  match ← probe c ⟨some id, .null⟩ with
  | .present => pure (id.text ++ " exists\n")
  | .absent => pure (id.text ++ " does not exist\n")
  | .unknown failure => fail (.unknownExistence id failure)

/-- Upgrade a stored record, whatever its identity looks like. -/
def migrate (s : Scope α σ) (id : String) : Job σ String := do
  match ← stored s.kind.name id with
  | none => fail (.unrecorded s.kind.name id)
  | some found => do
    let record ← ofFailure (s.kind.upgrades.upgradeRecord found.record)
    keep s.kind.name record s.site.now.1
    pure ("migrated " ++ id ++ " from v" ++ toString found.record.version ++ " to v"
      ++ toString record.version ++ "\n")

/-- Show the edits that bring an object to the tree in a file. -/
def plan (s : Scope α σ) (path : String) : Job σ String := do
  let desired ← s.readTree path
  let id ← lift (TreeFile.identity s.site.settings desired)
  match ← s.known id with
  | none => pure "no stored state; apply would create the resource\n"
  | some resource => do
    let edits ← ofFailure (s.kind.plan resource.config desired)
    if edits.isEmpty then pure "no changes\n" else pure (Json.Edit.document edits ++ "\n")

/-- The line of a stored record. -/
def recordLine (found : StoredRecord) : String :=
  found.record.id ++ "\tv" ++ toString found.record.version ++ "\t" ++ found.time.text ++ "\n"

/-- The object of a stored record. -/
def recordJson (found : StoredRecord) : Json :=
  .obj [("id", .str found.record.id), ("schema_version", .int found.record.version),
    ("updated_at", .str found.time.text)]

/-- Show the stored records. -/
def list (s : Scope α σ) : Job σ String := do
  let store := (← get).store
  let records ← (store.list s.kind.name).mapM fun id => stored s.kind.name id
  let found := records.filterMap id
  match s.output with
  | .human => pure (String.join (found.map recordLine))
  | .json => pure ((Json.arr (found.map recordJson)).renderIndented ++ "\n")

/-- Do what an action asks for. -/
def act (s : Scope α σ) : Action → Job σ String
  | .apply file => s.apply file
  | .read id => s.read id
  | .delete id => s.delete id
  | .probe id => s.existence id
  | .migrate id => s.migrate id
  | .plan file => s.plan file
  | .list => s.list

end Scope

/-- What a command is to do. -/
def task (site : Site σ) (command : Command) : Job σ String :=
  match command.kind with
  | .deployment =>
    Scope.act ⟨site, Deployment.kind, site.cluster.map (·.deployments), command.output⟩
      command.action
  | .role => Scope.act ⟨site, Role.kind, site.cluster.map (·.roles), command.output⟩ command.action

/-- Run a command: what it prints or why it goes no further, and what it leaves behind. -/
def run (site : Site σ) (command : Command) (desk : Desk σ) : Except Stop String × Desk σ :=
  (task site command).run desk

end Command

end Reconcile
