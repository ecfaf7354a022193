import Reconcile.Command.Outcome
import Reconcile.Store.Document
import Std.Time.DateTime.Timestamp

/-!
# The program

The program reads its environment and the document of the store, answers its command line, keeps
the store and prints the outcome. It knows of no cluster, so a command that needs one fails.
-/

namespace Reconcile.Main

/-- The names of the environment variables that matter. -/
def variableNames : List String :=
  ["KFORM_CREATE_TIMEOUT_SECS", "KFORM_UPDATE_TIMEOUT_SECS", "KFORM_DELETE_TIMEOUT_SECS",
   "KFORM_POLL_INITIAL_MS", "KFORM_POLL_MAX_MS", "KFORM_DEFAULT_NAMESPACE", "KFORM_DB_PATH",
   "HOME"]

/-- The environment variables that are set. -/
def environment : IO (Dict String) :=
  variableNames.foldlM (fun env name => do
    match ← IO.getEnv name with
    | some value => pure (env.insert name value)
    | none => pure env) ∅

/-- The text of a file. -/
def readFile (path : String) : IO (Except FileFault String) := do
  try
    pure (.ok (← IO.FS.readFile path))
  catch
    | .noFileOrDirectory .. => pure (.error .missing)
    | .permissionDenied .. => pure (.error .denied)
    | .inappropriateType .. => pure (.error .folder)
    | _ => pure (.error .undecodable)

/-- The store that a document at a path holds. One that is not there yet is empty. -/
def openStore (path : String) : IO (Except StoreFault Store) := do
  match ← readFile path with
  | .ok text =>
    match if text = "" then some ∅ else Store.ofDocument? text with
    | some store => pure (.ok store)
    | none => pure (.error (.unopened path))
  | .error .missing =>
    try
      IO.FS.writeFile path ""
      pure (.ok ∅)
    catch _ => pure (.error (.unopened path))
  | .error _ => pure (.error (.unopened path))

/-- The time by the clock. -/
def now : IO ClockTime := do
  let time ← Std.Time.Timestamp.now
  pure (.ofEpoch time.val.second.val.toNat time.val.nano.val.toNat)

/-- The text of the file that a command line reads, if it reads one. -/
def fileText (line : Line) : IO (Except FileFault String) :=
  match line with
  | .command ⟨_, _, .apply file⟩ | .command ⟨_, _, .plan file⟩ => readFile file
  | _ => pure (.error .missing)

/-- The store that a command line works on, at a path. Only a command needs one. -/
def storeFor (line : Line) (path : String) : IO (Except StoreFault Store) :=
  match line with
  | .command _ => openStore path
  | _ => pure (.ok ∅)

/-- Keep the store that a command line has left, at a path. -/
def keepStore (line : Line) (path : String) (left : Except StoreFault Store) : IO Unit := do
  match line, left with
  | .command _, .ok store => try IO.FS.writeFile path store.document catch _ => pure ()
  | _, _ => pure ()

/-- Make the folder in which stores are kept if nothing else is said. -/
def makeHomeFolder (env : Dict String) : IO Unit := do
  match env.get? "KFORM_DB_PATH", env.get? "HOME" with
  | none, some home =>
    try IO.FS.createDirAll (home ++ "/" ++ Store.homeFolder) catch _ => pure ()
  | _, _ => pure ()

end Reconcile.Main

open Reconcile in
/-- Answer a command line. -/
def main (words : List String) : IO UInt32 := do
  let env ← Main.environment
  let line := Line.parse words
  let path := Store.path env
  Main.makeHomeFolder env
  let text ← Main.fileText line
  let site : Site Unit :=
    ⟨Settings.ofEnv env, fun _ => text, ← Main.now, .start 0, none⟩
  let (outcome, left, _) := Command.answer site words (← Main.storeFor line path) ()
  Main.keepStore line path left
  match outcome with
  | .done output => IO.print output
  | .misuse => IO.eprint Command.overviewText
  | .failed trouble => IO.eprintln ("Error: " ++ trouble.report)
  | .overflow overflow => IO.eprintln overflow.message
  | .unfinished => pure ()
  pure (outcome.code.getD 0).toUInt32
