import Reconcile.Proofs.Kind.Managed

/-!
# Trees that come back as they are declared

An object that an explicit tree declares is shown as this tree when it is shown against it
(`flatten_of_expand`). Three things stand between a tree and the one that comes back. What the
server assigns is not declared, so it does not come back from the declared object. A default that
is not spelled out is shown. And a selector that is not declared is shown as the labels of the
template, which stand for it.
-/

namespace Reconcile.Kind

variable {α : Type} {kind : Kind α} {root key : String}

/-- The content of a tree names a selector if its template has labels. Only the tree of a
deployment has content that can fail to. -/
def NamesSelector (tree : Block) : Prop :=
  ∀ specBlock ∈ Block.child? tree "spec", DeploymentSpec.NamesSelector specBlock

instance (tree : Block) : Decidable (NamesSelector tree) :=
  inferInstanceAs (Decidable (∀ specBlock ∈ Block.child? tree "spec",
    DeploymentSpec.NamesSelector specBlock))

/-- An object that is declared is shown as the explicit tree that declares it. -/
theorem flatten_of_expand (hkind : kind.Managed root key) {tree : Block}
    (htree : kind.schema.Explicit tree) (hset : kind.schema.UserSet tree)
    (hselector : NamesSelector tree) {object : α} (hexpand : kind.expand (.obj tree) = .ok object) :
    kind.flatten object (.obj tree) = .obj tree := by
  cases hkind with
  | deployment => exact Deployment.flatten_expand htree hset hselector hexpand
  | role => exact Role.flatten_expand htree.toPlain hset hexpand

/-- A deployment with an annotation of the cluster's own, two containers and a container that runs
before them. Its bound for new pods is a share, and the one for missing pods a number. -/
theorem flatten_of_expand_deployment :
    let container (name : String) (rest : Block) : Json := .obj (rest ++ [("name", .str name)])
    let labels : Json := .obj [("app", .str "web"), ("kubernetes.io/os", .str "linux")]
    let tree : Block :=
      [("metadata", .arr [.obj
        [("annotations", .obj [("a", .str ""), ("kubernetes.io/change-cause", .str "b")]),
         ("labels", labels), ("name", .str "web"), ("namespace", .str "team")]]),
       ("spec", .arr [.obj
        [("min_ready_seconds", .int 0), ("paused", .bool true),
         ("progress_deadline_seconds", .int 600), ("replicas", .int 3),
         ("revision_history_limit", .int 10), ("selector", .obj [("app", .str "web")]),
         ("strategy", .arr [.obj
          [("rolling_update", .arr [.obj
            [("max_surge", .str "25%"), ("max_unavailable", .str "1")]]),
           ("type", .str "RollingUpdate")]]),
         ("template", .arr [.obj
          [("metadata", .arr [.obj [("labels", labels)]]),
           ("spec", .arr [.obj
            [("container", .arr
              [container "web" [("args", .arr [.str "-v", .str ""]),
                ("env", .arr [.obj [("name", .str "A"), ("value", .str "1")],
                  .obj [("name", .str "B")]]), ("image", .str "web:1")],
               container "log" []]),
             ("host_ipc", .bool false), ("host_network", .bool true), ("host_pid", .bool false),
             ("init_container", .arr [container "init" []])]])]])]])]
    Deployment.schema.Explicit tree ∧ Deployment.schema.UserSet tree ∧ NamesSelector tree ∧
      ∃ d, Deployment.kind.expand (.obj tree) = .ok d ∧
        Deployment.kind.flatten d (.obj tree) = .obj tree := by
  intro container labels tree
  have hcanonical : Deployment.schema.Canonical tree := ⟨by decide, by decide⟩
  -- A tree that stays the same when its gaps are filled has none.
  have hcomplete : Deployment.schema.Complete tree := by
    have hfilled : Deployment.schema.fill none tree = tree := by decide
    have hfill := Schema.complete_fill Deployment.lawful.wellNamed hcanonical.accepts
    rwa [show Deployment.kind.schema = Deployment.schema from rfl, hfilled] at hfill
  have hset : Deployment.schema.UserSet tree := by decide
  have hselector : NamesSelector tree := by decide
  obtain ⟨d, hexpand⟩ : ∃ d, Deployment.kind.expand (.obj tree) = .ok d :=
    Steps.exists_of_isOk (by decide)
  have htree : Deployment.schema.Explicit tree := ⟨hcanonical.plain, hcomplete⟩
  exact ⟨htree, hset, hselector, d, hexpand,
    flatten_of_expand .deployment htree hset hselector hexpand⟩

end Reconcile.Kind
