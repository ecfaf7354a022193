import Mathlib.Data.List.Basic
import Reconcile.Proofs.Deployment.Reread
import Reconcile.Proofs.Kind.Managed

/-!
# Objects that are read twice

Whatever object is shown against whatever prior tree, showing it once more against the tree that
shows it changes nothing (`Kind.flatten_settled`). So a record settles after one reading of an
object that does not change.
-/

namespace Reconcile

/-- A role is shown alike against the tree that shows it. -/
theorem Role.flatten_again (r : Role) (prior : Tree) :
    r.flatten (r.flatten prior) = r.flatten prior := by
  let priorMeta := Tree.block? prior "metadata"
  have hmeta : Block.child? (r.shown priorMeta) "metadata" = some (r.metadata.flatten priorMeta) :=
    Block.child?_of_lookup (r.lookup_shown priorMeta "metadata")
  rw [r.flatten_eq prior, r.flatten_eq]
  show Json.obj (r.shown (Block.child? (r.shown priorMeta) "metadata")) = _
  rw [hmeta, shown, r.metadata.flatten_again]
  rfl

namespace Kind

variable {α : Type} {kind : Kind α} {root key : String}

/-- Reading twice is reading once: an object is shown against the tree that shows it as this tree,
for every prior tree of the first reading. -/
theorem flatten_settled (hkind : kind.Managed root key) (object : α) (prior : Tree) :
    kind.flatten object (kind.flatten object prior) = kind.flatten object prior := by
  cases hkind with
  | deployment => exact object.flatten_again prior
  | role => exact object.flatten_again prior

/-- A deployment that has lost a declared label, with one annotation of the cluster that is declared
and one that is not. The metadata of its template say nothing but such an annotation, so the second
reading finds no block of them. -/
theorem flatten_settled_filtered :
    let live : Deployment := {
      metadata := {
        name := some "web"
        labels := some (Dict.ofList [("app", "web")])
        annotations := some (Dict.ofList [("k8s.io/note", "n"), ("k8s.io/revision", "1")]) }
      spec := some { template := {
        metadata := some { annotations := some (Dict.ofList [("k8s.io/revision", "1")]) } } } }
    let prior : Tree := .obj
      [("metadata", .arr [.obj [("annotations", .obj [("k8s.io/note", .str "m")]),
        ("labels", .obj [("app", .str "old"), ("tier", .str "front")])]])]
    let shown := Deployment.kind.flatten live prior
    Tree.find? ["metadata", "0", "labels"] shown =
        some (.obj [("app", .str "web"), ("tier", .str "front")]) ∧
      Tree.find? ["metadata", "0", "annotations"] shown =
        some (.obj [("k8s.io/note", .str "n")]) ∧
      Tree.find? ["spec", "0", "template", "0", "metadata"] shown = none ∧
      Deployment.kind.flatten live shown = shown := by
  intro live prior shown
  exact ⟨by decide, by decide, by decide, flatten_settled .deployment live prior⟩

end Kind

end Reconcile
