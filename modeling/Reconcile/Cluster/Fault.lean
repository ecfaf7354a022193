import Reconcile.Cluster.Api

/-!
# Injected failures

A fault makes calls of one kind fail before the cluster sees them: it lets some pass, then fails a
number of them, and does nothing any more after that. Faults are consulted in order. One that
still lets calls pass counts the call and hands it on to the next.
-/

namespace Reconcile

/-- A number of failures of one kind of call. -/
structure Fault where
  call : CallKind
  /-- How many calls pass before the first one fails. -/
  skip : Nat
  /-- How many calls fail. -/
  times : Nat
  failure : Failure

namespace Fault

/-- The failure that faults have for a call, and the faults that are left. -/
def consult (call : CallKind) : List Fault → Option Failure × List Fault
  | [] => (none, [])
  | fault :: faults =>
    if fault.call = call then
      if 0 < fault.skip then
        let (failure, rest) := consult call faults
        (failure, { fault with skip := fault.skip - 1 } :: rest)
      else if 0 < fault.times then
        (some fault.failure, { fault with times := fault.times - 1 } :: faults)
      else
        let (failure, rest) := consult call faults
        (failure, fault :: rest)
    else
      let (failure, rest) := consult call faults
      (failure, fault :: rest)

/-- A call that faults may keep from the cluster. -/
def guard {σ β : Type} (call : CallKind) (send : σ → Except Failure β × σ)
    (world : List Fault × σ) : Except Failure β × (List Fault × σ) :=
  match consult call world.1 with
  | (some failure, faults) => (.error failure, (faults, world.2))
  | (none, faults) =>
    let (answer, after) := send world.2
    (answer, (faults, after))

end Fault

/-- A control API with faults in front of it. -/
def ControlApi.withFaults {α σ : Type} (api : ControlApi α σ) :
    ControlApi α (List Fault × σ) where
  create ns object := Fault.guard .create (api.create ns object)
  get ns name := Fault.guard .get (api.get ns name)
  patch ns name document := Fault.guard .patch (api.patch ns name document)
  delete ns name propagation := Fault.guard .delete (api.delete ns name propagation)

end Reconcile
