import Reconcile.Deployment.Declaration
import Reconcile.Deployment.Upgrades
import Reconcile.Kind

/-!
# The kind of deployments

A deployment has converged when the observed number of pods is the desired one. It is scaled to
zero before it is deleted, and its dependents go first.
-/

namespace Reconcile.Deployment

/-- The edits that scale a deployment to zero. -/
def drain : List Json.Edit := [.replace "/spec/replicas" (.int 0)]

/-- The paths of a deployment's tree that may change. -/
def mutablePaths : List MutablePath := Kind.metadataPaths ++ [.subtree ["spec"] "/spec"]

/-- Deployments. -/
def kind : Kind Deployment where
  name := "deployment"
  apiVersion := apiVersion
  collection := "deployments"
  propagation := .foreground
  schema := schema
  upgrades := upgrades
  mutablePaths := mutablePaths
  expand := expand
  flatten := flatten
  progress d := some d.progress
  drain := some drain
  metadata := (·.metadata)
  withMetadata d m := { d with metadata := m }
  toJson := toJson
  ofJson? := ofJson?

end Reconcile.Deployment
