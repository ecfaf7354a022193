import Reconcile.Cluster.Fault
import Reconcile.Cluster.Http
import Reconcile.Main
import Reconcile.Proofs.Change.Minimal
import Reconcile.Proofs.Command.Ledger
import Reconcile.Proofs.Command.Named
import Reconcile.Proofs.Deployment.Draining
import Reconcile.Proofs.Deployment.Labels
import Reconcile.Proofs.Deployment.Loaded
import Reconcile.Proofs.Deployment.Replayed
import Reconcile.Proofs.Json.Escaping
import Reconcile.Proofs.Kind.Carried
import Reconcile.Proofs.Kind.Fixed
import Reconcile.Proofs.Kind.Gaps
import Reconcile.Proofs.Kind.Grammar
import Reconcile.Proofs.Kind.Merging
import Reconcile.Proofs.Kind.Plan
import Reconcile.Proofs.Kind.Recorded
import Reconcile.Proofs.Kind.Repeated
import Reconcile.Proofs.Kind.Reread
import Reconcile.Proofs.Kind.RoundTrip
import Reconcile.Proofs.Record.Stable
import Reconcile.Proofs.Resource.Atomic
import Reconcile.Proofs.Resource.Created
import Reconcile.Proofs.Resource.Discipline
import Reconcile.Proofs.Resource.Drift
import Reconcile.Proofs.Resource.Patches
import Reconcile.Proofs.Resource.Predicted
import Reconcile.Proofs.Resource.Reapplied
import Reconcile.Proofs.Resource.Runs
import Reconcile.Proofs.Schema.Normalized
import Reconcile.Proofs.Wait.Returning
