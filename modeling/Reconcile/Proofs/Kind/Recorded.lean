import Mathlib.Data.List.Basic
import Reconcile.Proofs.Deployment.Kept
import Reconcile.Proofs.Kind.Managed
import Reconcile.Proofs.Role.Kept

/-!
# Trees that show objects are recorded

Whatever object is shown against whatever prior tree, the tree that shows it conforms to the schema
of its kind and holds nothing empty, so nothing of it is dropped when it is recorded. It is read
back from its record (`Kind.flatten_recorded`), unless a map of the object or the labels of the
prior tree bind the key under which a record counts the entries of a map.
-/

namespace Reconcile

namespace Schema

mutual

/-- The paths of the singular blocks of a schema that have a field with a name. -/
def pathsTo (name : String) : Schema → List (List String)
  | [] => []
  | field :: fields => pathsThrough name field ++ pathsTo name fields

/-- The paths that begin with a field. -/
def pathsThrough (name : String) : Field → List (List String)
  | ⟨own, type, _, _⟩ => (pathsWithin name type).map (own :: ·)

/-- The paths that begin in the element of a singular block. -/
def pathsWithin (name : String) : FieldType → List (List String)
  | .block fields true =>
    if fields.any (·.name = name) then [] :: pathsTo name fields else pathsTo name fields
  | _ => []

end

end Schema

/-- The block that a path of singular blocks leads to. -/
def Tree.blockAt? (tree : Tree) (path : List String) : Option Block :=
  path.foldl (fun block key => block.bind (Block.child? · key)) tree.obj?

namespace Kind

variable {α : Type} {kind : Kind α} {root key : String}

/-- The labels that a prior tree declares, wherever the kind has labels, leave the key of their
counter free. -/
def LabelsFree (kind : Kind α) (prior : Tree) : Prop :=
  ∀ path ∈ kind.schema.pathsTo "labels",
    (ObjectMeta.declaredLabels (prior.blockAt? path)).get? "%" = none

instance (kind : Kind α) (prior : Tree) : Decidable (kind.LabelsFree prior) :=
  inferInstanceAs (Decidable (∀ path ∈ kind.schema.pathsTo "labels",
    (ObjectMeta.declaredLabels (prior.blockAt? path)).get? "%" = none))

/-- The tree that shows an object is accepted and holds nothing empty, and it can be stored if the
maps of the object and the labels of the prior tree leave the key of their counter free. -/
theorem Managed.exists_kept (hkind : kind.Managed root key) (object : α) (prior : Tree) :
    ∃ shown, kind.flatten object prior = .obj shown ∧ kind.schema.Accepts shown ∧
      kind.schema.Every
        (Schema.Kept ((kind.toJson object).recordable = true ∧ kind.LabelsFree prior)) shown := by
  cases hkind with
  | deployment =>
      have hpaths : Deployment.kind.schema.pathsTo "labels" =
        [["metadata"], ["spec", "template", "metadata"]] := by decide
      refine ⟨_, object.flatten_eq prior, object.shown_accepts _ _,
        Deployment.shown_kept And.left (fun h => ?_) fun h => ?_⟩
      · exact h.2 ["metadata"] (by rw [hpaths]; exact List.mem_cons_self)
      · exact h.2 ["spec", "template", "metadata"] (by
          rw [hpaths]
          exact List.mem_cons_of_mem _ List.mem_cons_self)
  | role =>
      have hpaths : Role.kind.schema.pathsTo "labels" = [["metadata"]] := by decide
      refine ⟨_, object.flatten_eq prior, object.shown_accepts _,
        Role.shown_kept And.left fun h => ?_⟩
      exact h.2 ["metadata"] (by rw [hpaths]; exact List.mem_cons_self)

/-- The tree that shows an object is of the schema of its kind and holds nothing empty, and it is
read back from its record, unless a map of the object or labels of the prior tree bind the key of
their counter. -/
theorem flatten_recorded (hkind : kind.Managed root key) (object : α) (prior : Tree) :
    ∃ shown, kind.flatten object prior = .obj shown ∧ kind.schema.Accepts shown ∧
      kind.schema.Every Schema.Compact shown ∧
      ((kind.toJson object).recordable = true → kind.LabelsFree prior →
        Schema.ofAttributes kind.schema
            (Schema.toAttributes kind.schema (kind.flatten object prior)) =
          .ok (kind.flatten object prior)) := by
  obtain ⟨shown, hflatten, haccepts, hkept⟩ := hkind.exists_kept object prior
  refine ⟨shown, hflatten, haccepts, hkept.mono fun _ _ h => h.toCompact, fun hobject hprior => ?_⟩
  have hstorable : kind.schema.Every Schema.Storable shown :=
    hkept.mono fun _ _ h => h.storable ⟨hobject, hprior⟩
  rw [hflatten]
  exact Schema.ofAttributes_toAttributes hkind.lawful.wellNamed haccepts hstorable

/-- Labels whose keys look like counters and paths are recorded and read back. -/
theorem flatten_recorded_lookalikes :
    let labels : Dict String := Dict.ofList [("#", "7"), ("0.labels", "a")]
    let live : Deployment := {
      metadata := { name := some "web", labels := some labels, annotations := some Dict.empty }
      spec := some {
        selector := { matchLabels := some labels }
        template := {
          metadata := some { labels := some labels }
          spec := some { containers := [{ name := "web", command := some [] }] } } } }
    let prior : Tree := .obj [("metadata",
      .arr [.obj [("labels", .obj [("spec.0.template.#", .str "2")])]])]
    Schema.ofAttributes Deployment.schema
        (Schema.toAttributes Deployment.schema (live.flatten prior)) =
      .ok (live.flatten prior) := by
  intro labels live prior
  obtain ⟨_, _, _, _, hback⟩ := flatten_recorded .deployment live prior
  exact hback (by decide) (by decide)

end Kind

end Reconcile
