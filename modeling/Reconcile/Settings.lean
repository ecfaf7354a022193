import Reconcile.Text.Decimal
import Reconcile.Wait

/-!
# Settings

How long operations wait, how often they look, and which namespace an object gets that names none.
Settings come from environment variables; a variable that is missing or unreadable leaves its
setting at the default.
-/

namespace Reconcile

/-- The settings of a controller. -/
structure Settings where
  createLimit : Duration
  updateLimit : Duration
  deleteLimit : Duration
  initialPause : Duration
  longestPause : Duration
  /-- The namespace of an object whose configuration names none. -/
  defaultNamespace : String
  deriving DecidableEq

namespace Settings

/-- How long an operation waits, where nothing is said. -/
def defaultLimit : Duration := .ofSecs 600

/-- The settings where nothing is said. -/
def default : Settings where
  createLimit := defaultLimit
  updateLimit := defaultLimit
  deleteLimit := defaultLimit
  initialPause := Wait.Options.defaultInitial
  longestPause := Wait.Options.defaultLongest
  defaultNamespace := "default"

instance : Inhabited Settings := ⟨default⟩

/-- The number that a variable holds. -/
def number? (env : Dict String) (name : String) : Option UInt64 :=
  ((env.get? name).bind (Decimal.natUpTo? Decimal.maxNat64)).map UInt64.ofNat

/-- The settings that environment variables make. -/
def ofEnv (env : Dict String) : Settings where
  createLimit :=
    ((number? env "KFORM_CREATE_TIMEOUT_SECS").map .ofSecs).getD default.createLimit
  updateLimit :=
    ((number? env "KFORM_UPDATE_TIMEOUT_SECS").map .ofSecs).getD default.updateLimit
  deleteLimit :=
    ((number? env "KFORM_DELETE_TIMEOUT_SECS").map .ofSecs).getD default.deleteLimit
  initialPause := ((number? env "KFORM_POLL_INITIAL_MS").map .ofMillis).getD default.initialPause
  longestPause := ((number? env "KFORM_POLL_MAX_MS").map .ofMillis).getD default.longestPause
  defaultNamespace :=
    ((env.get? "KFORM_DEFAULT_NAMESPACE").filter (· ≠ "")).getD default.defaultNamespace

/-- The options of a wait with the pauses of the settings. -/
def waitOptions (settings : Settings) (limit : Duration) : Wait.Options :=
  (Wait.Options.ofLimit limit).withPauses settings.initialPause settings.longestPause

end Settings

end Reconcile
