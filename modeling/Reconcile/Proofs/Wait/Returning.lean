import Reconcile.Proofs.Wait.Schedule
import Reconcile.Settings

/-!
# Waits that return

A wait returns if it comes to an end for some horizon (`Returns`), and goes on for ever if it is
unfinished for every horizon. A wait whose pauses can all be doubled returns exactly if the clock
can show its deadline and one of its reads can end it (`returns_iff`). A first pause makes one of
the reads end it, since each pause is then as long and the deadline is reached. Without one the wait
stands still in time, and only a status can end it.

Settings take the first pause and the time to wait from the environment as they are. So a wait with
them returns for all streams exactly if the environment does not ask for a pause of zero, nor for
more time than the clock has left (`wait_ofEnv_returns_iff`).
-/

namespace Reconcile.Wait

variable {σ α : Type} {what : String} {options : Options} {check : α → Progress}
  {observe : σ → Except Failure α × σ} {world : σ} {now last horizon : Nat}

/-- A wait that begins at a moment comes to an end, if it is followed far enough. -/
def Returns (what : String) (options : Options) (check : α → Progress)
    (observe : σ → Except Failure α × σ) (now last : Nat) (world : σ) : Prop :=
  ∃ horizon, (run what check observe ⟨now, last, horizon⟩ (.fresh options) world).outcome.Ended

/-- Pauses can be doubled if the longest one can. -/
theorem Watch.HasRoom.of_longest (watch : Watch)
    (hdeadline : watch.now + options.limit.nanos ≤ watch.last)
    (hlongest : 2 * options.longest.nanos ≤ Duration.maxNanos) (n : Nat) :
    watch.HasRoom options n where
  deadline := hdeadline
  pauses _ _ := (Nat.mul_le_mul_left 2 (Nat.min_le_right _ _)).trans hlongest

/-- A wait none of whose reads ends it goes on for every horizon. -/
theorem run_unfinished (what : String) (hcut : options.initial.nanos ≤ options.longest.nanos)
    (hlongest : 2 * options.longest.nanos ≤ Duration.maxNanos)
    (hdeadline : now + options.limit.nanos ≤ last)
    (hnone : ∀ n, ¬ Final options check observe world n) (horizon : Nat) :
    let course := run what check observe ⟨now, last, horizon⟩ (.fresh options) world
    course.outcome = .unfinished ∧ course.clock.reads.length = horizon := by
  intro course
  have hcourse : course = _ :=
    run_of_deadline what ⟨now, last, horizon⟩ (.fresh options) hcut hdeadline
  have hroom := Watch.HasRoom.of_longest ⟨now, last, horizon⟩ hdeadline hlongest horizon
  rw [hcourse]
  exact poll_unfinished what now (fun n _ => hnone n) hroom.pauses

/-- A wait whose pauses can be doubled returns exactly if the clock can show its deadline and one of
its reads ends it. -/
theorem returns_iff (hcut : options.initial.nanos ≤ options.longest.nanos)
    (hlongest : 2 * options.longest.nanos ≤ Duration.maxNanos) :
    Returns what options check observe now last world ↔
      now + options.limit.nanos ≤ last ∧ ∃ n, Final options check observe world n := by
  classical
  constructor
  · rintro ⟨horizon, hended⟩
    by_cases hdeadline : now + options.limit.nanos ≤ last
    · refine ⟨hdeadline, ?_⟩
      by_contra hnone
      have hrun := run_unfinished what hcut hlongest hdeadline (not_exists.1 hnone)
        horizon
      rw [hrun.1] at hended
      exact hended
    · rw [run_of_no_deadline what ⟨now, last, horizon⟩ (.fresh options) hdeadline]
        at hended
      exact hended.elim
  · rintro ⟨hdeadline, hexists⟩
    refine ⟨Nat.find hexists + 1, ?_⟩
    obtain ⟨_, _, hrun⟩ := run_of_final what ⟨now, last, Nat.find hexists + 1⟩
      (.fresh options) hcut
      ⟨Nat.find_spec hexists, fun k hk => Nat.find_min' hexists hk⟩
      (Watch.HasRoom.of_longest _ hdeadline hlongest _) (Nat.lt_succ_self _)
    rw [hrun]
    exact ended_verdict what options.limit check _

/-- The deadline of a wait is reached exactly if there is a first pause or nothing to wait for. -/
theorem exists_limit_le_readTime_iff (hcut : options.initial.nanos ≤ options.longest.nanos) :
    (∃ k, options.limit.nanos ≤ readTime options k) ↔
      options.initial.nanos ≠ 0 ∨ options.limit.nanos = 0 := by
  constructor
  · rintro ⟨k, hk⟩
    by_cases hinitial : options.initial.nanos = 0
    · rw [readTime_of_initial_eq_zero hinitial] at hk
      exact .inr (Nat.le_zero.1 hk)
    · exact .inl hinitial
  · rintro (hinitial | hlimit)
    · exact ⟨_, limit_le_readTime hcut (Nat.pos_of_ne_zero hinitial)⟩
    · exact ⟨0, Nat.le_of_eq hlimit⟩

/-- A wait with pauses that is followed for enough reads has come to its end before them. -/
theorem run_ended (hcut : options.initial.nanos ≤ options.longest.nanos)
    (hlongest : 2 * options.longest.nanos ≤ Duration.maxNanos)
    (hdeadline : now + options.limit.nanos ≤ last) (hinitial : 0 < options.initial.nanos)
    (hhorizon : options.limit.nanos / options.initial.nanos + 2 ≤ horizon) :
    let course := run what check observe ⟨now, last, horizon⟩ (.fresh options) world
    course.outcome.Ended ∧
      course.clock.reads.length ≤ options.limit.nanos / options.initial.nanos + 2 := by
  intro course
  obtain ⟨n, hleast, hbound⟩ := exists_final hcut hinitial check observe world
  obtain ⟨_, _, hrun⟩ := run_of_final what ⟨now, last, horizon⟩ (.fresh options) hcut hleast
    (Watch.HasRoom.of_longest _ hdeadline hlongest _) (by dsimp only; omega)
  have hcourse : course = _ := hrun
  rw [hcourse]
  refine ⟨ended_verdict what options.limit check _, ?_⟩
  have hreads := congrArg List.length (reads_clockAt now options n)
  rw [List.length_reverse, List.length_map, List.length_range] at hreads
  show (clockAt now options n).read.reads.length ≤ _
  omega

end Reconcile.Wait

namespace Reconcile.Settings

open Wait

variable {σ α : Type} {what : String} {check : α → Progress}
  {observe : σ → Except Failure α × σ} {world : σ} {now last : Nat}

/-- The first pause is never cut. -/
theorem initial_le_longest (settings : Settings) (limit : Duration) :
    (settings.waitOptions limit).initial.nanos ≤ (settings.waitOptions limit).longest.nanos :=
  Nat.le_max_right _ _

/-- A number of milliseconds can be doubled. -/
theorem two_mul_ofMillis_le (n : UInt64) : 2 * (Duration.ofMillis n).nanos ≤ Duration.maxNanos := by
  have hword := n.toNat_lt
  show 2 * (n.toNat * 1_000_000) ≤ Duration.maxNanos
  unfold Duration.maxNanos
  omega

/-- Every pause that the environment asks for can be doubled. -/
theorem two_mul_longest_ofEnv_le (env : Dict String) (limit : Duration) :
    2 * ((ofEnv env).waitOptions limit).longest.nanos ≤ Duration.maxNanos := by
  have hpause : ∀ (asked : Option UInt64) (usual : Duration),
      2 * usual.nanos ≤ Duration.maxNanos →
        2 * ((asked.map Duration.ofMillis).getD usual).nanos ≤ Duration.maxNanos := by
    intro asked usual husual
    cases asked with
    | none => exact husual
    | some n => exact two_mul_ofMillis_le n
  show 2 * max (ofEnv env).longestPause.nanos (ofEnv env).initialPause.nanos ≤ _
  rcases Nat.le_total (ofEnv env).longestPause.nanos (ofEnv env).initialPause.nanos with h | h
  · rw [Nat.max_eq_right h]
    exact hpause _ _ (by decide)
  · rw [Nat.max_eq_left h]
    exact hpause _ _ (by decide)

/-- One of the reads of a wait with the pauses of settings ends it exactly if there is a first
pause, or no time to wait, or a status that ends it. -/
theorem exists_final_waitOptions_iff (check : α → Progress) (observe : σ → Except Failure α × σ)
    (world : σ) (settings : Settings) (limit : Duration) :
    (∃ n, Final (settings.waitOptions limit) check observe world n) ↔
      settings.initialPause.nanos ≠ 0 ∨ limit.nanos = 0 ∨
        ∃ n, Decisive check (statusAt observe world n) := by
  have hcauses : (∃ n, Final (settings.waitOptions limit) check observe world n) ↔
      (∃ n, Decisive check (statusAt observe world n)) ∨
        ∃ n, limit.nanos ≤ readTime (settings.waitOptions limit) n := exists_or
  rw [hcauses, or_comm, ← or_assoc]
  exact or_congr_left (exists_limit_le_readTime_iff (settings.initial_le_longest limit))

/-- The environment asks for a first pause of zero exactly if its variable is a numeral of zero. -/
theorem initialPause_ofEnv_eq_zero_iff (env : Dict String) :
    (ofEnv env).initialPause.nanos = 0 ↔ number? env "KFORM_POLL_INITIAL_MS" = some 0 := by
  have hdefault : default.initialPause.nanos ≠ 0 := by decide
  rw [ofEnv]
  cases number? env "KFORM_POLL_INITIAL_MS" with
  | none => simpa using hdefault
  | some n =>
      show n.toNat * 1_000_000 = 0 ↔ some n = some 0
      rw [Nat.mul_eq_zero, or_iff_left (by decide), Option.some.injEq, ← UInt64.toNat_inj]
      rfl

/-- Whatever the environment says of timeouts and pauses and whatever is read, a wait returns unless
the clock cannot show its deadline or the environment asks for a first pause of zero. Without a
first pause it returns if there is no time to wait or a status ends it, and goes on for ever
otherwise. A wait with pauses takes no more reads than first pauses fit into its time, and two
more. -/
theorem wait_ofEnv_returns_iff (env : Dict String) (limit : Duration) (what : String)
    (check : α → Progress) (observe : σ → Except Failure α × σ) (world : σ) (now last : Nat) :
    let options := (ofEnv env).waitOptions limit
    let course (horizon : Nat) := run what check observe ⟨now, last, horizon⟩ (.fresh options) world
    (Returns what options check observe now last world ↔
      now + limit.nanos ≤ last ∧ (number? env "KFORM_POLL_INITIAL_MS" ≠ some 0 ∨ limit.nanos = 0 ∨
        ∃ n, Decisive check (statusAt observe world n))) ∧
    (now + limit.nanos ≤ last → number? env "KFORM_POLL_INITIAL_MS" ≠ some 0 →
      ∀ horizon, limit.nanos / (ofEnv env).initialPause.nanos + 2 ≤ horizon →
        (course horizon).outcome.Ended ∧ (course horizon).clock.reads.length ≤
          limit.nanos / (ofEnv env).initialPause.nanos + 2) ∧
    (now + limit.nanos ≤ last → number? env "KFORM_POLL_INITIAL_MS" = some 0 → limit.nanos ≠ 0 →
      (∀ n, ¬ Decisive check (statusAt observe world n)) →
        ∀ horizon, (course horizon).outcome = .unfinished ∧
          (course horizon).clock.reads.length = horizon) ∧
    (¬ now + limit.nanos ≤ last →
      ∀ horizon, (course horizon).outcome = .overflow .deadline ∧
        (course horizon).clock.reads = []) := by
  intro options course
  have hcut := (ofEnv env).initial_le_longest limit
  have hlongest := two_mul_longest_ofEnv_le env limit
  have hcauses := exists_final_waitOptions_iff check observe world (ofEnv env) limit
  rw [Ne, initialPause_ofEnv_eq_zero_iff] at hcauses
  refine ⟨?_, fun hdeadline henv horizon hhorizon => ?_, fun hdeadline henv htime hnone => ?_,
    fun hdeadline horizon => ?_⟩
  · rw [returns_iff hcut hlongest, hcauses]
    rfl
  · have hinitial := mt (initialPause_ofEnv_eq_zero_iff env).1 henv
    exact run_ended hcut hlongest hdeadline (Nat.pos_of_ne_zero hinitial) hhorizon
  · refine run_unfinished what hcut hlongest hdeadline (not_exists.1 ?_)
    rw [hcauses]
    rintro (hpause | hzero | ⟨n, hdecisive⟩)
    · exact hpause henv
    · exact htime hzero
    · exact hnone n hdecisive
  · have hrun : course horizon = _ :=
      run_of_no_deadline what ⟨now, last, horizon⟩ (.fresh options) hdeadline
    rw [hrun]
    exact ⟨rfl, rfl⟩

/-- Ten minutes go by in no number of reads without a pause. -/
theorem wait_without_pause_endless :
    let settings := ofEnv (Dict.ofList [("KFORM_POLL_INITIAL_MS", "0")])
    ¬ Returns "replicas" (settings.waitOptions settings.createLimit) (towards 1)
      (stream fun _ => .ok 0) 0 Watch.lastMoment 0 := by
  intro settings
  have hlongest : 2 * (settings.waitOptions settings.createLimit).longest.nanos ≤
      Duration.maxNanos := two_mul_longest_ofEnv_le _ _
  rw [returns_iff (settings.initial_le_longest _) hlongest, exists_final_waitOptions_iff]
  rintro ⟨_, hpause | htime | ⟨n, hstatus⟩⟩
  · exact hpause (by decide)
  · exact absurd htime (by decide)
  · rw [statusAt_stream] at hstatus
    exact absurd (converged_towards.1 hstatus) (by decide)

end Reconcile.Settings
