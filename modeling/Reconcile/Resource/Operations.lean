import Reconcile.Cluster.Api
import Reconcile.Resource.Basic
import Reconcile.Settings

/-!
# Operations on managed objects

A controller creates, reads, updates, deletes and probes objects of one kind through a control
API. An operation works on a session: what is known of the object, the state of the world, and the
watch that its waits go by. It stops at the first failure and keeps what it has learned until then:
the identity of a created object is kept even if the object never converges, and a configuration is
replaced only once the API has accepted it. A wait that the program breaks off or that never ends
stops an operation too, without a failure.
-/

namespace Reconcile

/-- Objects of one kind, the API that manages them, and the settings. -/
structure Controller (α σ : Type) where
  kind : Kind α
  api : ControlApi α σ
  settings : Settings

/-- What an operation works on. -/
structure Session (σ : Type) where
  resource : Resource
  world : σ
  watch : Wait.Watch

/-- The session after a wait that has left a world at a moment. -/
def Session.waited {σ : Type} (session : Session σ) (world : σ) (now : Nat) : Session σ :=
  { session with world := world, watch := { session.watch with now := now } }

/-- A wait leaves the world that its reads have left. -/
@[simp]
theorem Session.waited_world {σ : Type} (session : Session σ) (world : σ) (now : Nat) :
    (session.waited world now).world = world := rfl

/-- Why an operation stopped. -/
inductive Halt where
  | failure (failure : Failure)
  /-- The program broke off in a wait. -/
  | overflow (overflow : Wait.Overflow)
  /-- A wait still goes on. -/
  | unfinished
  deriving DecidableEq

/-- An operation on a session, which keeps its changes when it stops. -/
abbrev Operation (σ β : Type) := ExceptT Halt (StateM (Session σ)) β

namespace Operation

variable {σ β : Type}

/-- The result of a computation that may fail. -/
def lift (result : Except Failure β) : Operation σ β :=
  match result with
  | .ok value => pure value
  | .error failure => throw (.failure failure)

/-- What is known of the object. -/
def resource : Operation σ Resource := do pure (← get).resource

/-- Replace what is known of the object. -/
def setResource (resource : Resource) : Operation σ Unit :=
  modify fun session => { session with resource := resource }

/-- A call of the control API. -/
def call (send : σ → Except Failure β × σ) : Operation σ β := do
  let session ← get
  let (answer, world) := send session.world
  set { session with world := world }
  lift answer

/-- A wait for a status. -/
def await {γ : Type} (what : String) (options : Wait.Options) (check : γ → Progress)
    (observe : σ → Except Failure γ × σ) : Operation σ Unit := do
  let session ← get
  let course := Wait.run what check observe session.watch (.fresh options) session.world
  set (session.waited course.world course.clock.now)
  match course.outcome with
  | .converged _ => pure ()
  | .failed failure => throw (.failure failure)
  | .overflow overflow => throw (.overflow overflow)
  | .unfinished => throw .unfinished

end Operation

/-- The answer to the question whether an object exists. -/
inductive Existence where
  | present
  | absent
  /-- The question could not be answered. -/
  | unknown (failure : Failure)
  deriving DecidableEq

/-- Whether an object is taken to exist, and what kept the question from being answered. -/
def Existence.assume : Existence → Bool × Option Failure
  | .present => (true, none)
  | .absent => (false, none)
  | .unknown failure => (true, some failure)

namespace Controller

variable {α σ : Type}

open Operation

/-- Wait until an object has converged. -/
def settle (c : Controller α σ) (id : Identity) (limit : Duration) : Operation σ Unit :=
  await (c.kind.name ++ " " ++ id.text) (c.settings.waitOptions limit) c.kind.measure
    (c.api.get id.ns id.name)

/-- Read the object and take its tree over. -/
def read (c : Controller α σ) : Operation σ Unit := do
  let known ← resource
  let id ← lift known.identity
  let object ← call (c.api.get id.ns id.name)
  setResource { known with config := c.kind.flatten object known.config }

/-- The namespace that an object goes into, and the object with that namespace. -/
def place (c : Controller α σ) (object : α) : String × α :=
  let metadata := c.kind.metadata object
  match metadata.ns.filter (· ≠ "") with
  | some ns => (ns, object)
  | none =>
    let ns := c.settings.defaultNamespace
    (ns, c.kind.withMetadata object { metadata with ns := some ns })

/-- The identity of an object that was created in a namespace. -/
def identityOf (c : Controller α σ) (ns : String) (created : α) : Except Failure Identity :=
  let metadata := c.kind.metadata created
  Identity.ofParts (metadata.ns.getD ns) (metadata.name.getD "")

/-- Create the object, wait until it has converged, and read it. -/
def create (c : Controller α σ) : Operation σ Unit := do
  let known ← resource
  let desired := Schema.normalize c.kind.schema none known.config
  let object ← lift (c.kind.expand desired)
  let (ns, placed) := c.place object
  let created ← call (c.api.create ns placed)
  let id ← lift (c.identityOf ns created)
  setResource ⟨some id, desired⟩
  c.settle id c.settings.createLimit
  c.read

/-- The edits of an update, which spare the keys that the live object's maps already hold. -/
def rebased (c : Controller α σ) (id : Identity) (edits : List Json.Edit) :
    Operation σ (List Json.Edit) := do
  if edits.any (Change.addsWholeMap c.kind.mutablePaths) then
    let live ← call (c.api.get id.ns id.name)
    pure (Change.rebase c.kind.mutablePaths (c.kind.toJson live) edits)
  else pure edits

/-- Submit edits as a patch document. -/
def submit (c : Controller α σ) (id : Identity) (edits : List Json.Edit) : Operation σ Unit := do
  let _ ← call (c.api.patch id.ns id.name (Json.Edit.listToJson edits))

/-- Bring the object to a new tree, wait until it has converged, and read it. -/
def update (c : Controller α σ) (new : Tree) : Operation σ Unit := do
  let known ← resource
  let id ← lift known.identity
  let desired := Schema.normalize c.kind.schema (some known.config) new
  let planned ← lift (c.kind.edits known.config desired)
  let edits ← c.rebased id planned
  if !edits.isEmpty then c.submit id edits
  setResource { known with config := desired }
  c.settle id c.settings.updateLimit
  c.read

/-- Empty the object if its kind asks for that, wait until it is empty, and delete it. -/
def delete (c : Controller α σ) : Operation σ Unit := do
  let known ← resource
  let id ← lift known.identity
  match c.kind.drain with
  | some drain =>
    c.submit id drain
    c.settle id c.settings.deleteLimit
  | none => pure ()
  call (c.api.delete id.ns id.name c.kind.propagation)
  setResource { known with id := none }

/-- Whether the object exists. One without an identity does not. -/
def probe (c : Controller α σ) (resource : Resource) (world : σ) : Existence × σ :=
  match resource.id with
  | none => (.absent, world)
  | some id =>
    let (answer, world) := c.api.get id.ns id.name world
    match answer with
    | .ok _ => (.present, world)
    | .error failure => (if failure.isNotFound then .absent else .unknown failure, world)

end Controller

end Reconcile
