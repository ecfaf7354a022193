import Reconcile.Command.Run

/-!
# Answering a command line

`Command.answer` is the whole program without its input and output: the words of a command line,
the store as it could be opened and the state of the world go in, and what is to be printed and
what is left behind come out. Words that make no sense are refused before the store is looked at.
-/

namespace Reconcile

/-- What comes of a command line. -/
inductive Outcome where
  /-- A text to be printed. -/
  | done (output : String)
  /-- The words make no sense. -/
  | misuse
  | failed (trouble : Trouble)
  /-- The program broke off. -/
  | overflow (overflow : Wait.Overflow)
  /-- The command still goes on. -/
  | unfinished
  deriving DecidableEq

/-- The exit code of an outcome, if the program has exited. -/
def Outcome.code : Outcome → Option Nat
  | .done _ => some 0
  | .failed _ => some 1
  | .misuse => some 2
  | .overflow _ => some 101
  | .unfinished => none

namespace Command

/-- The name of the program and its version. -/
def versionText : String := "kformctl 0.1.0\n"

/-- The lines that say what the program can do. -/
def overview : List String :=
  ["Declarative lifecycle for Kubernetes Deployments and Roles",
   "",
   "Usage: kformctl [OPTIONS] <COMMAND>",
   "",
   "Commands:",
   "  apply    Create or update a resource from a YAML/JSON configuration tree",
   "  read     Refresh the stored state from the cluster",
   "  delete   Delete a resource (deployments are scaled to zero first)",
   "  exists   Check whether a resource exists",
   "  migrate  Upgrade a stored record to the current schema version",
   "  plan     Print the JSON patch an apply would submit, without contacting the cluster",
   "  list     List stored records of the kind",
   "  help     Print this message or the help of the given subcommand(s)",
   "",
   "Options:",
   "  -k, --kind <KIND>      Resource kind [default: deployment] "
     ++ "[possible values: deployment, role]",
   "  -o, --output <OUTPUT>  Output format [default: human] [possible values: human, json]",
   "  -h, --help             Print help",
   "  -V, --version          Print version"]

/-- What the program can do. -/
def overviewText : String := String.join (overview.map (· ++ "\n"))

/-- What comes of the words of a command line. -/
def answer {σ : Type} (site : Site σ) (words : List String) (opened : Except StoreFault Store)
    (world : σ) : Outcome × Except StoreFault Store × σ :=
  match Line.parse words with
  | .misuse => (.misuse, opened, world)
  | .version => (.done versionText, opened, world)
  | .overview => (.done overviewText, opened, world)
  | .command command =>
    match opened with
    | .error fault => (.failed (.store fault), opened, world)
    | .ok store =>
      let (result, desk) := run site command ⟨store, world⟩
      let outcome : Outcome :=
        match result with
        | .ok output => .done output
        | .error (.trouble trouble) => .failed trouble
        | .error (.overflow overflow) => .overflow overflow
        | .error .unfinished => .unfinished
      (outcome, .ok desk.store, desk.world)

end Command

end Reconcile
