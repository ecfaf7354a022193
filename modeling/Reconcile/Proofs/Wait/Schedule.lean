import Mathlib.Algebra.Ring.Nat
import Mathlib.Order.Bounds.Basic
import Mathlib.Tactic.Ring
import Reconcile.Wait

/-!
# The schedule of a wait

A wait whose reads are all pending takes them at times that its options alone fix (`readTime`): the
pauses double up to the longest one, and the deadline cuts the last of them. What a wait does is
therefore decided by the first read that ends it (`Final`): the read has failed, has converged, or
is taken at the deadline. A wait that is followed that far takes the reads up to it and no more
(`poll_of_final`), and one that has pauses gets there (`exists_final`). All this goes as long as
time has room for it (`Watch.HasRoom`): the clock can show the deadline, and no pause is too long to
be doubled. Otherwise the wait is broken off before the read that would end it
(`run_overflow`). `run_on_schedule` says all this of the wait for a number.
-/

namespace Reconcile.Wait

/-! ## Times -/

section Times

variable {options : Options} {k : Nat}

/-- The pause after the read with an index, before the deadline cuts it. -/
def pauseAfter (options : Options) (k : Nat) : Duration where
  nanos := min (options.initial.nanos * 2 ^ k) options.longest.nanos
  nanos_le := (Nat.min_le_right _ _).trans options.longest.nanos_le

/-- The time of the read with an index, since the beginning of the wait. -/
def readTime (options : Options) : Nat → Nat
  | 0 => 0
  | k + 1 => min (readTime options k + (pauseAfter options k).nanos) options.limit.nanos

/-- Time has room for the reads of a wait up to one: the clock can show the deadline, and each pause
before the read can be doubled. -/
structure Watch.HasRoom (watch : Watch) (options : Options) (n : Nat) : Prop where
  deadline : watch.now + options.limit.nanos ≤ watch.last
  pauses : ∀ k < n, 2 * (pauseAfter options k).nanos ≤ Duration.maxNanos

/-- No read is taken after the deadline. -/
theorem readTime_le (options : Options) (k : Nat) : readTime options k ≤ options.limit.nanos := by
  cases k with
  | zero => exact Nat.zero_le _
  | succ k => exact Nat.min_le_right _ _

/-- No pause is shorter than the first one. -/
theorem initial_le_pauseAfter (hcut : options.initial.nanos ≤ options.longest.nanos) (k : Nat) :
    options.initial.nanos ≤ (pauseAfter options k).nanos :=
  Nat.le_min.2 ⟨Nat.le_mul_of_pos_right _ (Nat.two_pow_pos k), hcut⟩

/-- The reads are apart by the first pause at least, until the deadline. -/
theorem le_readTime (hcut : options.initial.nanos ≤ options.longest.nanos) (k : Nat) :
    min (k * options.initial.nanos) options.limit.nanos ≤ readTime options k := by
  induction k with
  | zero => simp
  | succ k ih =>
      have hpause := initial_le_pauseAfter hcut k
      rw [readTime, Nat.succ_mul]
      omega

/-- Without a first pause no time goes by. -/
theorem readTime_of_initial_eq_zero (hinitial : options.initial.nanos = 0) (k : Nat) :
    readTime options k = 0 := by
  induction k with
  | zero => rfl
  | succ k ih =>
      have hpause : (pauseAfter options k).nanos = 0 := by
        show min (options.initial.nanos * 2 ^ k) options.longest.nanos = 0
        rw [hinitial, Nat.zero_mul, Nat.zero_min]
      rw [readTime, ih, hpause, Nat.zero_min]

/-- With a first pause the deadline is reached in as many reads as fit before it, and one more. -/
theorem limit_le_readTime (hcut : options.initial.nanos ≤ options.longest.nanos)
    (hinitial : 0 < options.initial.nanos) :
    options.limit.nanos ≤
      readTime options (options.limit.nanos / options.initial.nanos + 1) := by
  have htime := le_readTime hcut (options.limit.nanos / options.initial.nanos + 1)
  have hpast := Nat.lt_div_mul_add (a := options.limit.nanos) hinitial
  rw [Nat.succ_mul] at htime
  omega

/-- The first pause is not cut. -/
theorem pauseAfter_zero (hcut : options.initial.nanos ≤ options.longest.nanos) :
    pauseAfter options 0 = options.initial := by
  refine Duration.ext ?_
  show min (options.initial.nanos * 2 ^ 0) options.longest.nanos = options.initial.nanos
  omega

/-- A pause that can be doubled is followed by its double, as far as the longest one goes. -/
theorem double?_pauseAfter (hdouble : 2 * (pauseAfter options k).nanos ≤ Duration.maxNanos) :
    ∃ twice, (pauseAfter options k).double? = some twice ∧
      twice.min options.longest = pauseAfter options (k + 1) := by
  refine ⟨_, dif_pos hdouble, Duration.ext ?_⟩
  have hpower : options.initial.nanos * 2 ^ (k + 1) = 2 * (options.initial.nanos * 2 ^ k) := by
    ring
  show min (2 * min (options.initial.nanos * 2 ^ k) options.longest.nanos) options.longest.nanos =
    min (options.initial.nanos * 2 ^ (k + 1)) options.longest.nanos
  omega

/-- The clock of a wait from a moment that is about to take the read with an index: it shows the
time of the read, and has the pause after it and the times of the reads before. -/
def clockAt (now : Nat) (options : Options) (k : Nat) : Clock where
  now := now + readTime options k
  pause := pauseAfter options k
  reads := ((List.range k).map fun j => now + readTime options j).reverse

/-- A wait begins with the clock of its first read. -/
theorem start_eq_clockAt (hcut : options.initial.nanos ≤ options.longest.nanos) (now : Nat) :
    Clock.start now options = clockAt now options 0 := by
  rw [Clock.start, clockAt, pauseAfter_zero hcut]
  rfl

/-- The moments of the reads, with the one that is just taken. -/
theorem reads_clockAt (now : Nat) (options : Options) (k : Nat) :
    (clockAt now options k).read.reads.reverse =
      (List.range (k + 1)).map fun j => now + readTime options j := by
  rw [Clock.read, List.reverse_cons, clockAt, List.reverse_reverse, List.range_succ,
    List.map_append]
  rfl

/-- A pause leads to the next read. -/
theorem sleep_clockAt (now : Nat) (options : Options) (k : Nat) :
    (clockAt now options k).read.sleep (now + options.limit.nanos) =
      { clockAt now options (k + 1) with pause := pauseAfter options k } := by
  have htime := readTime_le options k
  have hreads := reads_clockAt now options k
  rw [List.reverse_eq_iff] at hreads
  rw [Clock.sleep, hreads, Clock.mk.injEq]
  refine ⟨?_, rfl, rfl⟩
  show now + readTime options k + min (pauseAfter options k).nanos
      (now + options.limit.nanos - (now + readTime options k)) =
    now + min (readTime options k + (pauseAfter options k).nanos) options.limit.nanos
  omega

end Times

/-! ## The read that ends a wait -/

section Reads

variable {σ α : Type}

/-- The world before the read with an index. -/
def worldAt (observe : σ → Except Failure α × σ) (world : σ) : Nat → σ
  | 0 => world
  | k + 1 => (observe (worldAt observe world k)).2

/-- What the read with an index finds. -/
def statusAt (observe : σ → Except Failure α × σ) (world : σ) (k : Nat) : Except Failure α :=
  (observe (worldAt observe world k)).1

/-- A status that shows what is waited for. -/
def Found (check : α → Progress) : Except Failure α → Prop
  | .error _ => False
  | .ok value => (check value).converged = true

/-- A status that ends a wait at any time: one that could not be read or has converged. -/
def Decisive (check : α → Progress) : Except Failure α → Prop
  | .error _ => True
  | .ok value => (check value).converged = true

/-- The read with an index ends a wait that gets to it. -/
def Final (options : Options) (check : α → Progress) (observe : σ → Except Failure α × σ)
    (world : σ) (k : Nat) : Prop :=
  Decisive check (statusAt observe world k) ∨ options.limit.nanos ≤ readTime options k

/-- What becomes of a wait whose last read finds a status. What the status says counts before the
time. -/
def verdict (what : String) (limit : Duration) (check : α → Progress) :
    Except Failure α → Outcome α
  | .error failure => .failed failure
  | .ok value =>
    if (check value).converged then .converged value
    else .failed (.timeout what limit (some (check value)))

/-- The verdict on a read is an end. -/
theorem ended_verdict (what : String) (limit : Duration) (check : α → Progress)
    (status : Except Failure α) : (verdict what limit check status).Ended := by
  cases status with
  | error failure => exact trivial
  | ok value =>
      rw [verdict]
      split
      · exact trivial
      · exact trivial

/-- How a waiter is left by pending reads: with more reads, and in the same phase. -/
structure Waiter.Polled (before : Waiter) (reads : Nat) (after : Waiter) : Prop where
  options : after.options = before.options
  phase : after.phase = before.phase
  polls : after.polls = before.polls + UInt32.ofNat reads

/-- How a waiter is left by a wait that has ended with a read. -/
structure Waiter.Settled (before : Waiter) (reads : Nat) (found : Prop) (after : Waiter) :
    Prop where
  polls : after.polls = before.polls + UInt32.ofNat reads
  converged : after.phase = .converged ↔ found
  failed : after.phase = .failed ↔ ¬ found

variable {what : String} {check : α → Progress} {observe : σ → Except Failure α × σ} {world : σ}
  {deadline now : Nat} {waiter : Waiter}

/-- Pending reads are counted one by one. -/
theorem Waiter.Polled.trans {after last : Waiter} {reads : Nat} (h : waiter.Polled reads after)
    (hnext : after.Polled 1 last) : waiter.Polled (reads + 1) last where
  options := hnext.options.trans h.options
  phase := hnext.phase.trans h.phase
  polls := by
    rw [hnext.polls, h.polls, UInt32.ofNat_add, UInt32.add_assoc]

/-- A last read is counted after the pending ones. -/
theorem Waiter.Polled.settled {after last : Waiter} {reads : Nat} {found : Prop}
    (h : waiter.Polled reads after) (hlast : after.Settled 1 found last) :
    waiter.Settled (reads + 1) found last where
  polls := by
    rw [hlast.polls, h.polls, UInt32.ofNat_add, UInt32.add_assoc]
  converged := hlast.converged
  failed := hlast.failed

/-- A wait ends with a read that is decisive or taken at the deadline. -/
theorem poll_final (reads : Nat) {clock : Clock}
    (h : Decisive check (observe world).1 ∨ deadline ≤ clock.now) :
    ∃ after, waiter.Settled 1 (Found check (observe world).1) after ∧
      poll what check observe deadline (reads + 1) waiter clock world =
        ⟨verdict what waiter.options.limit check (observe world).1, after, clock.read,
          (observe world).2⟩ := by
  cases hstatus : (observe world).1 with
  | error failure =>
      refine ⟨{ waiter.count with phase := .failed }, ⟨rfl, ?_, ?_⟩, ?_⟩
      · exact ⟨Phase.noConfusion, False.elim⟩
      · exact ⟨fun _ => id, fun _ => rfl⟩
      · simp only [poll, hstatus, classify, verdict]
  | ok value =>
      cases hconverged : (check value).converged with
      | true =>
          refine ⟨{ waiter.count with phase := .converged }, ⟨rfl, ?_, ?_⟩, ?_⟩
          · exact ⟨fun _ => hconverged, fun _ => rfl⟩
          · exact ⟨Phase.noConfusion, fun h => absurd hconverged h⟩
          · simp only [poll, hstatus, classify, verdict, hconverged, if_true]
      | false =>
          rw [hstatus, Decisive, hconverged] at h
          have hexpired : deadline ≤ clock.read.now := h.resolve_left Bool.false_ne_true
          have hmissed : ¬ Found check (.ok value) := by
            rw [Found, hconverged]
            exact Bool.false_ne_true
          refine ⟨{ waiter.count with phase := .failed, last := some (check value) },
            ⟨rfl, ?_, ?_⟩, ?_⟩
          · exact ⟨Phase.noConfusion, fun h => absurd h hmissed⟩
          · exact ⟨fun _ => hmissed, fun _ => rfl⟩
          · simp only [poll, hstatus, classify, verdict, hconverged, Bool.false_eq_true, if_false,
              if_pos hexpired, Waiter.count]

/-- A wait pauses after any other read. It goes on if the pause can be doubled, and is broken off
otherwise. -/
theorem poll_pending (reads : Nat) {clock : Clock}
    (h : ¬ (Decisive check (observe world).1 ∨ deadline ≤ clock.now)) :
    ∃ after, waiter.Polled 1 after ∧
      poll what check observe deadline (reads + 1) waiter clock world =
        match (clock.read.sleep deadline).pause.double? with
        | some pause => poll what check observe deadline reads after
            { clock.read.sleep deadline with pause := pause.min waiter.options.longest }
            (observe world).2
        | none => ⟨.overflow .pause, after, clock.read.sleep deadline, (observe world).2⟩ := by
  obtain ⟨hpending, hearly⟩ := not_or.1 h
  cases hstatus : (observe world).1 with
  | error failure => exact absurd (by rw [hstatus]; exact trivial) hpending
  | ok value =>
      rw [hstatus, Decisive, Bool.not_eq_true] at hpending
      have hearly' : ¬ deadline ≤ clock.read.now := hearly
      refine ⟨{ waiter.count with last := some (check value) }, ⟨rfl, rfl, rfl⟩, ?_⟩
      simp only [poll, hstatus, classify, hpending, Bool.false_eq_true, if_false, if_neg hearly']
      rfl

/-- The read that ends a wait from a moment is decisive or taken at the deadline. -/
theorem final_iff (now : Nat) {options : Options} {k : Nat} :
    Final options check observe world k ↔
      Decisive check (observe (worldAt observe world k)).1 ∨
        now + options.limit.nanos ≤ (clockAt now options k).now := by
  rw [Final, statusAt, clockAt]
  exact or_congr_right Nat.add_le_add_iff_left.symm

variable (what now)

/-- A wait takes the reads that do not end it one after another, while its pauses can be doubled. -/
theorem poll_skip {k : Nat} (hpending : ∀ j < k, ¬ Final waiter.options check observe world j)
    (hroom : ∀ j < k, 2 * (pauseAfter waiter.options j).nanos ≤ Duration.maxNanos) (reads : Nat) :
    ∃ after, waiter.Polled k after ∧
      poll what check observe (now + waiter.options.limit.nanos) (k + reads) waiter
          (clockAt now waiter.options 0) world =
        poll what check observe (now + waiter.options.limit.nanos) reads after
          (clockAt now waiter.options k) (worldAt observe world k) := by
  induction k generalizing reads with
  | zero => exact ⟨waiter, ⟨rfl, rfl, by simp⟩, by rw [Nat.zero_add]; rfl⟩
  | succ k ih =>
      obtain ⟨before, hbefore, hskip⟩ := ih (fun j hj => hpending j (Nat.lt_succ_of_lt hj))
        (fun j hj => hroom j (Nat.lt_succ_of_lt hj)) (reads + 1)
      obtain ⟨after, hafter, hstep⟩ := poll_pending reads
        (mt (final_iff now).2 (hpending k (Nat.lt_succ_self k)))
      obtain ⟨twice, hdouble, htwice⟩ := double?_pauseAfter (hroom k (Nat.lt_succ_self k))
      refine ⟨after, hbefore.trans hafter, ?_⟩
      rw [Nat.succ_add_eq_add_succ, hskip, hstep, sleep_clockAt]
      simp only [hdouble, hbefore.options, htwice]
      rfl

/-- A wait ends with the first read that can end it, if it is followed that far and its pauses can
be doubled until then. -/
theorem poll_of_final {n reads : Nat}
    (hbefore : ∀ k < n, ¬ Final waiter.options check observe world k)
    (hroom : ∀ k < n, 2 * (pauseAfter waiter.options k).nanos ≤ Duration.maxNanos)
    (hfinal : Final waiter.options check observe world n) (hreads : n < reads) :
    ∃ after, waiter.Settled (n + 1) (Found check (statusAt observe world n)) after ∧
      poll what check observe (now + waiter.options.limit.nanos) reads waiter
          (clockAt now waiter.options 0) world =
        ⟨verdict what waiter.options.limit check (statusAt observe world n), after,
          (clockAt now waiter.options n).read, worldAt observe world (n + 1)⟩ := by
  obtain ⟨more, rfl⟩ := Nat.exists_eq_add_of_lt hreads
  obtain ⟨before, hpolled, hskip⟩ := poll_skip what now hbefore hroom (more + 1)
  obtain ⟨after, hsettled, hend⟩ :=
    poll_final more ((final_iff now).1 hfinal)
  refine ⟨after, hpolled.settled hsettled, ?_⟩
  rw [Nat.add_assoc, hskip, hend, hpolled.options]
  rfl

/-- A wait is broken off after the first read that does not end it and whose pause cannot be
doubled, if it is followed that far. -/
theorem poll_of_overflow {k reads : Nat}
    (hpending : ∀ j < k + 1, ¬ Final waiter.options check observe world j)
    (hroom : ∀ j < k, 2 * (pauseAfter waiter.options j).nanos ≤ Duration.maxNanos)
    (hoverflow : Duration.maxNanos < 2 * (pauseAfter waiter.options k).nanos)
    (hreads : k < reads) :
    ∃ after, waiter.Polled (k + 1) after ∧
      poll what check observe (now + waiter.options.limit.nanos) reads waiter
          (clockAt now waiter.options 0) world =
        ⟨.overflow .pause, after,
          { clockAt now waiter.options (k + 1) with pause := pauseAfter waiter.options k },
          worldAt observe world (k + 1)⟩ := by
  obtain ⟨more, rfl⟩ := Nat.exists_eq_add_of_lt hreads
  obtain ⟨before, hpolled, hskip⟩ := poll_skip what now
    (fun j hj => hpending j (Nat.lt_succ_of_lt hj)) hroom (more + 1)
  obtain ⟨after, hafter, hstep⟩ := poll_pending more
    (mt (final_iff now).2 (hpending k (Nat.lt_succ_self k)))
  refine ⟨after, hpolled.trans hafter, ?_⟩
  have hdouble := Duration.double?_eq_none_iff.2 hoverflow
  rw [Nat.add_assoc, hskip, hstep, sleep_clockAt]
  simp only [hdouble]
  rfl

/-- A wait that is followed for some reads which do not end it, and whose pauses can be doubled,
still goes on after them. -/
theorem poll_unfinished {reads : Nat}
    (hpending : ∀ j < reads, ¬ Final waiter.options check observe world j)
    (hroom : ∀ j < reads, 2 * (pauseAfter waiter.options j).nanos ≤ Duration.maxNanos) :
    let course := poll what check observe (now + waiter.options.limit.nanos) reads waiter
      (clockAt now waiter.options 0) world
    course.outcome = .unfinished ∧ course.clock.reads.length = reads := by
  intro course
  obtain ⟨after, _, hskip⟩ : ∃ after, waiter.Polled reads after ∧ course = _ :=
    poll_skip what now hpending hroom 0
  rw [hskip]
  refine ⟨rfl, ?_⟩
  show (clockAt now waiter.options reads).reads.length = reads
  rw [clockAt, List.length_reverse, List.length_map, List.length_range]

end Reads

/-! ## Waits from their beginning -/

section Runs

variable {σ α : Type} {check : α → Progress} {observe : σ → Except Failure α × σ} {world : σ}
  (what : String) (watch : Watch) (waiter : Waiter)

/-- A wait whose deadline the clock can show reads the status until then. -/
theorem run_of_deadline (hcut : waiter.options.initial.nanos ≤ waiter.options.longest.nanos)
    (hdeadline : watch.now + waiter.options.limit.nanos ≤ watch.last) :
    run what check observe watch waiter world =
      poll what check observe (watch.now + waiter.options.limit.nanos) watch.horizon waiter
        (clockAt watch.now waiter.options 0) world := by
  rw [run, Watch.after?, if_pos hdeadline, start_eq_clockAt hcut]

/-- A wait whose deadline the clock cannot show does not begin. -/
theorem run_of_no_deadline (hdeadline : ¬ watch.now + waiter.options.limit.nanos ≤ watch.last) :
    run what check observe watch waiter world =
      ⟨.overflow .deadline, waiter, .start watch.now waiter.options, world⟩ := by
  rw [run, Watch.after?, if_neg hdeadline]

/-- A wait that has pauses gets to a read that ends it, in as many reads as first pauses fit into
its time, and two more. -/
theorem exists_final {options : Options} (hcut : options.initial.nanos ≤ options.longest.nanos)
    (hinitial : 0 < options.initial.nanos) (check : α → Progress)
    (observe : σ → Except Failure α × σ) (world : σ) :
    ∃ n, IsLeast {k | Final options check observe world k} n ∧
      n ≤ options.limit.nanos / options.initial.nanos + 1 := by
  classical
  have hdeadline : Final options check observe world
      (options.limit.nanos / options.initial.nanos + 1) := .inr (limit_le_readTime hcut hinitial)
  have hexists := Exists.intro _ hdeadline
  exact ⟨Nat.find hexists, ⟨Nat.find_spec hexists, fun k hk => Nat.find_min' hexists hk⟩,
    Nat.find_min' hexists hdeadline⟩

/-- A wait that is followed to the first read that can end it ends with this read, if time has room
for it. -/
theorem run_of_final (hcut : waiter.options.initial.nanos ≤ waiter.options.longest.nanos) {n : Nat}
    (hleast : IsLeast {k | Final waiter.options check observe world k} n)
    (hroom : watch.HasRoom waiter.options n) (hhorizon : n < watch.horizon) :
    ∃ after, waiter.Settled (n + 1) (Found check (statusAt observe world n)) after ∧
      run what check observe watch waiter world =
        ⟨verdict what waiter.options.limit check (statusAt observe world n), after,
          (clockAt watch.now waiter.options n).read, worldAt observe world (n + 1)⟩ := by
  rw [run_of_deadline what watch waiter hcut hroom.deadline]
  exact poll_of_final what watch.now (fun k hk hfinal => Nat.not_lt.2 (hleast.2 hfinal) hk)
    hroom.pauses hleast.1 hhorizon

/-- A wait that is followed to the first read that can end it is broken off before this read, if
time has no room for it. -/
theorem run_overflow (hcut : waiter.options.initial.nanos ≤ waiter.options.longest.nanos) {n : Nat}
    (hleast : IsLeast {k | Final waiter.options check observe world k} n)
    (hroom : ¬ watch.HasRoom waiter.options n) (hhorizon : n < watch.horizon) :
    let course := run what check observe watch waiter world
    (∃ overflow, course.outcome = .overflow overflow) ∧ course.waiter.phase = waiter.phase ∧
      course.clock.reads.length ≤ n := by
  classical
  intro course
  by_cases hdeadline : watch.now + waiter.options.limit.nanos ≤ watch.last
  · have hlong : ∃ k, k < n ∧ Duration.maxNanos < 2 * (pauseAfter waiter.options k).nanos := by
      by_contra hnone
      exact hroom ⟨hdeadline, fun k hk => Nat.not_lt.1 fun hlt => hnone ⟨k, hk, hlt⟩⟩
    -- The first pause that is too long breaks the wait off.
    obtain ⟨hfirst, hoverflow⟩ := Nat.find_spec hlong
    have hbefore : ∀ j < Nat.find hlong,
        2 * (pauseAfter waiter.options j).nanos ≤ Duration.maxNanos := by
      intro j hj
      exact Nat.not_lt.1 fun hlt => Nat.find_min hlong hj ⟨hj.trans hfirst, hlt⟩
    have hpending : ∀ j < Nat.find hlong + 1, ¬ Final waiter.options check observe world j := by
      intro j hj hfinal
      exact Nat.not_lt.2 (hleast.2 hfinal) (Nat.lt_of_lt_of_le hj hfirst)
    obtain ⟨after, hpolled, hrun⟩ := poll_of_overflow what watch.now hpending
      hbefore hoverflow (hfirst.trans hhorizon)
    have hcourse : course = _ := (run_of_deadline what watch waiter hcut hdeadline).trans hrun
    rw [hcourse]
    refine ⟨⟨.pause, rfl⟩, hpolled.phase, ?_⟩
    show (clockAt watch.now waiter.options (Nat.find hlong + 1)).reads.length ≤ n
    rw [clockAt, List.length_reverse, List.length_map, List.length_range]
    exact hfirst
  · have hcourse : course = _ := run_of_no_deadline what watch waiter hdeadline
    rw [hcourse]
    exact ⟨⟨.deadline, rfl⟩, rfl, Nat.zero_le n⟩

end Runs

/-! ## The wait for a number -/

/-- A world that shows the statuses of a stream one after another, and counts how many. -/
def stream {α : Type} (status : Nat → Except Failure α) (count : Nat) : Except Failure α × Nat :=
  (status count, count + 1)

/-- A stream has shown as many statuses as it was read. -/
theorem worldAt_stream {α : Type} (status : Nat → Except Failure α) (k : Nat) :
    worldAt (stream status) 0 k = k := by
  induction k with
  | zero => rfl
  | succ k ih => exact congrArg (· + 1) ih

/-- A stream shows its statuses in their order. -/
theorem statusAt_stream {α : Type} (status : Nat → Except Failure α) (k : Nat) :
    statusAt (stream status) 0 k = status k := by
  rw [statusAt, worldAt_stream]
  rfl

/-- The progress towards a number. -/
def towards (desired observed : Int) : Progress := ⟨observed, desired⟩

/-- The progress towards a number has converged where the number is observed. -/
theorem converged_towards {desired observed : Int} :
    (towards desired observed).converged = true ↔ observed = desired := decide_eq_true_iff

/-- A read shows the number that is waited for if it has found this number. -/
theorem found_towards_iff {desired : Int} {status : Except Failure Int} :
    Found (towards desired) status ↔ status = .ok desired := by
  cases status with
  | error failure => simp [Found]
  | ok observed => simp [Found, converged_towards]

/-- A read ends a wait for a number if it has failed, has found the number, or is taken at the
deadline. -/
theorem final_stream_iff {options : Options} {desired : Int} {status : Nat → Except Failure Int}
    {k : Nat} : Final options (towards desired) (stream status) 0 k ↔
      (∃ failure, status k = .error failure) ∨ status k = .ok desired ∨
        options.limit.nanos ≤ readTime options k := by
  rw [Final, statusAt_stream, ← or_assoc]
  refine or_congr_left ?_
  cases status k with
  | error failure => simp [Decisive]
  | ok observed => simp [Decisive, converged_towards]

/-- The verdict on a read of a number. -/
theorem verdict_towards (what : String) (limit : Duration) {desired observed : Int}
    (hother : observed ≠ desired) : verdict what limit (towards desired) (.ok observed) =
      .failed (.timeout what limit (some ⟨observed, desired⟩)) := by
  rw [verdict, if_neg (mt converged_towards.1 hother)]
  rfl

/-- A first pause that has no double breaks a wait off after its first read. -/
example :
    let options := (Options.ofLimit (.ofSecs 10)).withPauses (.ofSecs 9223372036854775808) .zero
    let course := run "replicas" (towards 3) (stream fun _ => .ok 0) (.start 2) (.fresh options) 0
    course.outcome = .overflow .pause ∧ course.waiter.phase = .polling ∧
      course.clock.reads = [0] :=
  ⟨rfl, rfl, rfl⟩

end Reconcile.Wait
