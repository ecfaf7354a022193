import Reconcile.Duration
import Reconcile.Failure

/-!
# Waiting for convergence

A wait reads a status again and again until it shows the desired value, a read fails, or the time
runs out. Between two reads it pauses; the pause doubles from an initial to a maximal length and
never goes past the deadline, so that one last read is taken exactly at it. Only pauses take time.

A clock shows moments up to a last one, and a pause can be too long to be doubled. A wait whose
deadline the clock cannot show does not begin, and one whose pause has no double goes no further:
the program breaks off there (`Overflow`), without a result.

Pauses without length let no time go by, so a wait may go on for ever. `Wait.run` therefore follows
a wait for a number of reads, its horizon, and leaves a wait that still goes on then `unfinished`.
A wait that ends does so within some horizon, and an endless one is unfinished for every horizon.
-/

namespace Reconcile.Wait

/-- How long a wait lasts and how its pauses grow. -/
structure Options where
  limit : Duration
  initial : Duration
  longest : Duration
  deriving DecidableEq, Inhabited

namespace Options

/-- The first pause, where nothing is said. -/
def defaultInitial : Duration := .ofMillis 500

/-- The longest pause, where nothing is said. -/
def defaultLongest : Duration := .ofSecs 10

/-- The options of a wait with the usual pauses. -/
def ofLimit (limit : Duration) : Options := ⟨limit, defaultInitial, defaultLongest⟩

/-- The options with other pauses, of which the first is never cut. -/
def withPauses (options : Options) (initial longest : Duration) : Options :=
  { options with initial := initial, longest := longest.max initial }

end Options

/-- What one read says. -/
inductive Reading (α : Type) where
  | converged (value : α)
  | pending (progress : Progress)
  | failed (failure : Failure)

/-- What a status says, if `check` measures its progress. -/
def classify {α : Type} (check : α → Progress) (status : Except Failure α) : Reading α :=
  match status with
  | .error failure => .failed failure
  | .ok value =>
    let progress := check value
    if progress.converged then .converged value else .pending progress

/-- What time has no room for. -/
inductive Overflow where
  /-- The clock cannot show the deadline. -/
  | deadline
  /-- No span is twice as long as the pause. -/
  | pause
  deriving DecidableEq

/-- The wording of an overflow. -/
def Overflow.message : Overflow → String
  | .deadline => "overflow when adding duration to instant"
  | .pause => "overflow when multiplying duration by scalar"

/-- What became of a wait. -/
inductive Outcome (α : Type) where
  | converged (value : α)
  | failed (failure : Failure)
  /-- The program broke off. -/
  | overflow (overflow : Overflow)
  /-- The wait still goes on. -/
  | unfinished

/-- The wait came to its end. -/
def Outcome.Ended {α : Type} : Outcome α → Prop
  | .converged _ | .failed _ => True
  | .overflow _ | .unfinished => False

/-- The phase that a waiter is in. -/
inductive Phase where
  | polling
  | converged
  | failed
  deriving DecidableEq

/-- The one who waits: with which options, in which phase, after how many reads, and with which
progress at the last one that was pending. The reads are counted in a word of 32 bits, which starts
again from zero. -/
structure Waiter where
  options : Options
  phase : Phase
  polls : UInt32
  last : Option Progress
  deriving DecidableEq

namespace Waiter

/-- A waiter who has not read anything. -/
def fresh (options : Options) : Waiter := ⟨options, .polling, 0, none⟩

/-- The waiter with a read counted. -/
def count (waiter : Waiter) : Waiter := { waiter with polls := waiter.polls + 1 }

end Waiter

/-- What a wait goes by: the moment that the clock shows and the last one that it can show, in
nanoseconds from its first moment, and the number of reads for which the wait is followed. -/
structure Watch where
  now : Nat
  last : Nat
  horizon : Nat

namespace Watch

/-- The last moment of a clock whose seconds are a number of 64 bits with a sign. -/
def lastMoment : Nat := 9_223_372_036_854_775_807_999_999_999

/-- A clock that shows its first moment. -/
def start (horizon : Nat) : Watch := ⟨0, lastMoment, horizon⟩

/-- The moment some time after the present one, if the clock can show it. -/
def after? (watch : Watch) (span : Duration) : Option Nat :=
  if watch.now + span.nanos ≤ watch.last then some (watch.now + span.nanos) else none

end Watch

/-- The clock of a wait: the present moment, the next pause, and the moments of the reads, the last
one first. -/
structure Clock where
  now : Nat
  pause : Duration
  reads : List Nat
  deriving DecidableEq

namespace Clock

/-- The clock at the beginning of a wait. -/
def start (now : Nat) (options : Options) : Clock := ⟨now, options.initial, []⟩

/-- The clock with a read at its moment. -/
def read (clock : Clock) : Clock := { clock with reads := clock.now :: clock.reads }

/-- The clock after the pause, which the deadline cuts. -/
def sleep (deadline : Nat) (clock : Clock) : Clock :=
  { clock with now := clock.now + min clock.pause.nanos (deadline - clock.now) }

end Clock

/-- How a wait went: its outcome, and the waiter, the clock and the world that it has left. -/
structure Course (σ α : Type) where
  outcome : Outcome α
  waiter : Waiter
  clock : Clock
  world : σ

variable {σ α : Type}

/-- A wait until a deadline, for at most the given number of reads. The state `σ` is that of the
world that is read, and `what` names what the wait is for. -/
def poll (what : String) (check : α → Progress) (observe : σ → Except Failure α × σ)
    (deadline : Nat) : Nat → Waiter → Clock → σ → Course σ α
  | 0, waiter, clock, world => ⟨.unfinished, waiter, clock, world⟩
  | reads + 1, waiter, clock, world =>
    let (status, world) := observe world
    let waiter := waiter.count
    let clock := clock.read
    match classify check status with
    | .converged value => ⟨.converged value, { waiter with phase := .converged }, clock, world⟩
    | .failed failure => ⟨.failed failure, { waiter with phase := .failed }, clock, world⟩
    | .pending progress =>
      let waiter := { waiter with last := some progress }
      if deadline ≤ clock.now then
        ⟨.failed (.timeout what waiter.options.limit waiter.last),
          { waiter with phase := .failed }, clock, world⟩
      else
        let clock := clock.sleep deadline
        match clock.pause.double? with
        | some pause =>
          poll what check observe deadline reads waiter
            { clock with pause := pause.min waiter.options.longest } world
        | none => ⟨.overflow .pause, waiter, clock, world⟩

/-- A wait from its beginning. -/
def run (what : String) (check : α → Progress) (observe : σ → Except Failure α × σ)
    (watch : Watch) (waiter : Waiter) (world : σ) : Course σ α :=
  let clock := Clock.start watch.now waiter.options
  match watch.after? waiter.options.limit with
  | some deadline => poll what check observe deadline watch.horizon waiter clock world
  | none => ⟨.overflow .deadline, waiter, clock, world⟩

end Reconcile.Wait
