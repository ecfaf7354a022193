import Mathlib.Data.List.Basic
import Reconcile.Proofs.Deployment.Carried
import Reconcile.Proofs.Kind.Managed
import Reconcile.Proofs.Role.Carried

/-!
# Declared values that reach the object

A tree that is expanded may hold values that are not of the types of their fields. None of them is
reported. The values that it sets are all found in the wire form of the object exactly if all of
them are typed (`Kind.expand_carries_iff`); whatever else is expanded has lost a value on the way.
-/

namespace Reconcile.Kind

variable {α : Type} {kind : Kind α} {root key : String} {tree : Tree} {object : α}

/-- Only a tree that is an object can be expanded. -/
theorem Managed.exists_block (hkind : kind.Managed root key) (h : kind.expand tree = .ok object) :
    ∃ block, tree = .obj block := by
  cases tree with
  | obj block => exact ⟨block, rfl⟩
  | _ => cases hkind with
    | deployment => cases h
    | role => cases h

/-- An expanded tree holds nothing that is not found in its object exactly if every value that it
sets is of the type of its field. -/
theorem expand_carries_iff (hkind : kind.Managed root key) (h : kind.expand tree = .ok object) :
    ∃ block, tree = .obj block ∧
      (kind.schema.carries block (kind.toJson object) = true ↔ kind.schema.typed block = true) := by
  obtain ⟨block, rfl⟩ := hkind.exists_block h
  have hsame : kind.schema.carries block (kind.toJson object) = kind.schema.typed block := by
    cases hkind with
    | deployment => exact Deployment.carries_expand h
    | role => exact Role.carries_expand h
  exact ⟨block, rfl, by rw [hsame]⟩

/-- A tree that sets a value of every type. One of the bounds is a numeral and one is an integer. -/
theorem expand_carries_typed :
    let block : Block :=
      [("metadata", .arr [.obj [("labels", .obj [("app", .str "web")]), ("name", .str "web")]]),
       ("spec", .arr [.obj
         [("replicas", .int 3),
          ("strategy", .arr [.obj [("rolling_update", .arr [.obj
            [("max_surge", .str "2"), ("max_unavailable", .int 1)]])]]),
          ("template", .arr [.obj [("spec", .arr [.obj
            [("container", .arr [.obj
              [("command", .arr [.str "run"]), ("name", .str "web"),
               ("port", .arr [.obj [("container_port", .int 80)]])]]),
             ("host_ipc", .bool true)]])]])]])]
    ∃ object, Deployment.kind.expand (.obj block) = .ok object ∧
      Deployment.kind.schema.carries block (Deployment.kind.toJson object) = true := by
  intro block
  obtain ⟨object, hobject⟩ : ∃ object, Deployment.kind.expand (.obj block) = .ok object :=
    Steps.exists_of_isOk (by decide)
  obtain ⟨_, hblock, hcarries⟩ := expand_carries_iff .deployment hobject
  cases hblock
  exact ⟨object, hobject, hcarries.2 (by decide)⟩

/-- A number of pods that is a text is taken for absent, so the object has the default. -/
theorem expand_replaces_mistyped :
    let block : Block :=
      [("metadata", .arr [.obj [("name", .str "web")]]),
       ("spec", .arr [.obj
         [("replicas", .str "three"),
          ("template", .arr [.obj [("spec", .arr [.obj
            [("container", .arr [.obj [("name", .str "web")]])]])]])]])]
    ∃ object, Deployment.kind.expand (.obj block) = .ok object ∧
      object.spec.bind (·.replicas) = some 1 ∧
      Deployment.kind.schema.carries block (Deployment.kind.toJson object) = false := by
  exact ⟨_, rfl, rfl, by decide⟩

end Reconcile.Kind
