import Reconcile.Kind

/-!
# The control API

A control API creates, reads, patches and deletes objects of one kind. It is given by what each
call answers in a state `σ` of the world and the state that it leaves behind, so any behaviour of
a cluster is one: it may fail at will and change objects between calls.
-/

namespace Reconcile

/-- The calls on objects of type `α` in a world of state `σ`. A patch is a JSON Patch document. -/
structure ControlApi (α σ : Type) where
  create : (ns : String) → α → σ → Except Failure α × σ
  get : (ns name : String) → σ → Except Failure α × σ
  patch : (ns name : String) → Json → σ → Except Failure α × σ
  delete : (ns name : String) → Propagation → σ → Except Failure Unit × σ

/-- A call with what it is about. -/
inductive Call where
  | create (ns name : String)
  | get (ns name : String)
  | patch (ns name : String) (document : Json)
  | delete (ns name : String) (propagation : Propagation)
  deriving DecidableEq

/-- The kind of a call. -/
def Call.kind : Call → CallKind
  | .create _ _ => .create
  | .get _ _ => .get
  | .patch _ _ _ => .patch
  | .delete _ _ _ => .delete

end Reconcile
