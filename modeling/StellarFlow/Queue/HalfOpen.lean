import Mathlib.Data.List.Count
import StellarFlow.Queue.CircuitBreaker

/-!
# The half-open state of the circuit breaker

`HALF_OPEN` is documented as the state of limited requests, but `call` admits every call that finds it, and
`_record_success` counts every success that arrives in it, also of calls that were admitted before the
breaker opened. Over the runs of callers alone, the state is guarded in the documented sense exactly when
the callers themselves keep to the limit and no success of an older call goes into a closing
(`halfOpen_guarded_iff`).
-/

namespace StellarFlow.Queue
open Machine

namespace BreakerRun
variable (s : BreakerRun)

/-- In `HALF_OPEN` at most `success_threshold` calls admitted in the period are in execution. -/
def Limited : Prop :=
  s.breaker.state = .halfOpen →
    (s.outstanding.count (some s.period) : ℤ) ≤ s.breaker.config.successThreshold

/-- Every step from `HALF_OPEN` to `CLOSED` came after `success_threshold` calls admitted in the period had
succeeded. -/
def ClosedAfterSuccesses : Prop := ∀ own ∈ s.closings, s.breaker.config.successThreshold ≤ own

/-- The condition on a step of a caller: a call that goes on in `HALF_OPEN` finds fewer than
`success_threshold` calls of the period in execution, and a success that makes up a positive threshold is,
like all those counted before it, of a call admitted in the period. -/
def WithinTrial (a : Timed CallerStep) : Prop :=
  match a.step with
  | .arrive =>
    (s.breaker.state = .halfOpen →
      (s.outstanding.count (some s.period) : ℤ) < s.breaker.config.successThreshold) ∧
    (s.breaker.state = .opened → s.breaker.shouldAttemptReset a.now = true →
      0 < s.breaker.config.successThreshold)
  | .succeed admitted =>
    s.breaker.state = .halfOpen → 0 < s.breaker.config.successThreshold →
      s.breaker.config.successThreshold ≤ s.breaker.metrics.consecutiveSuccesses + 1 →
      s.stale = 0 ∧ admitted = some s.period
  | _ => True

/-- What holds in every reachable state: the successes counted in `HALF_OPEN` are those of the period, too
few to close, and no call is of a period to come. -/
structure Trial : Prop where
  counted : s.breaker.state = .halfOpen → s.breaker.metrics.consecutiveSuccesses = s.own + s.stale
  few : s.breaker.state = .halfOpen → s.breaker.metrics.consecutiveSuccesses = 0 ∨
    (s.breaker.metrics.consecutiveSuccesses : ℤ) < s.breaker.config.successThreshold
  begun : ∀ period, some period ∈ s.outstanding → period ≤ s.period

/-- How a caller's step acts on `HALF_OPEN`: a call joins the period or begins one; a success is counted or
closes the breaker; a call of any period ends without a result; the breaker is not `HALF_OPEN`
afterwards. -/
inductive TrialStep (t : BreakerRun) (a : Timed CallerStep) : Prop where
  | joins (step : a.step = .arrive) (before : s.breaker.state = .halfOpen) (state : t.breaker.state = .halfOpen)
      (outstanding : t.outstanding = some s.period :: s.outstanding)
      (counted : t.breaker.metrics.consecutiveSuccesses = s.breaker.metrics.consecutiveSuccesses)
      (rest : (t.period, t.own, t.stale, t.closings) = (s.period, s.own, s.stale, s.closings))
  | begins (step : a.step = .arrive) (before : s.breaker.state = .opened)
      (attempt : s.breaker.shouldAttemptReset a.now = true) (state : t.breaker.state = .halfOpen)
      (outstanding : t.outstanding = some (s.period + 1) :: s.outstanding)
      (counted : t.breaker.metrics.consecutiveSuccesses = 0)
      (rest : (t.period, t.own, t.stale, t.closings) = (s.period + 1, 0, 0, s.closings))
  | counts (admitted : Option ℕ) (step : a.step = .succeed admitted) (before : s.breaker.state = .halfOpen)
      (few : ¬ s.breaker.config.successThreshold ≤ s.breaker.metrics.consecutiveSuccesses + 1)
      (state : t.breaker.state = .halfOpen) (outstanding : t.outstanding = s.outstanding.erase admitted)
      (counted : t.breaker.metrics.consecutiveSuccesses = s.breaker.metrics.consecutiveSuccesses + 1)
      (successes : t.own + t.stale = s.own + s.stale + 1)
      (rest : (t.period, t.closings) = (s.period, s.closings))
  | closes (admitted : Option ℕ) (step : a.step = .succeed admitted) (before : s.breaker.state = .halfOpen)
      (enough : s.breaker.config.successThreshold ≤ s.breaker.metrics.consecutiveSuccesses + 1)
      (state : t.breaker.state = .closed) (outstanding : t.outstanding = s.outstanding.erase admitted)
      (period : t.period = s.period)
      (closings : t.closings = (s.own + if admitted = some s.period then 1 else 0) :: s.closings)
  | ends (admitted : Option ℕ) (step : a.step = .interrupt admitted) (breaker : t.breaker = s.breaker)
      (outstanding : t.outstanding = s.outstanding.erase admitted)
      (rest : (t.period, t.own, t.stale, t.closings) = (s.period, s.own, s.stale, s.closings))
  | outside (within : WithinTrial s a) (state : t.breaker.state ≠ .halfOpen)
      (outstanding : ∀ period, some period ∈ t.outstanding → some period ∈ s.outstanding)
      (rest : (t.period, t.closings) = (s.period, s.closings))

variable {s} {t : BreakerRun} {a : Timed CallerStep}

/-- How a call that arrives acts on `HALF_OPEN`. -/
lemma trialStep_arrive {now later : ℚ} :
    (s.admitStep now later).breaker.config = s.breaker.config ∧
      TrialStep s (s.admitStep now later) ⟨.arrive, now, later⟩ := by
  obtain ⟨shut, ok, state, config, -, counted⟩ | ⟨isOpen, attempt, ok, state, config, -, counted⟩ |
    ⟨isOpen, refused, ⟨raised, error⟩, state, config, -⟩ := s.breaker.admission_cases now later
  · rcases eq : s.breaker.admission now later with ⟨result, breaker⟩
    rw [eq] at ok state config counted
    subst ok
    simp only [admitStep, eq, if_neg shut]
    refine ⟨config, ?_⟩
    by_cases half : s.breaker.state = .halfOpen
    · rw [if_pos (state.trans half)]
      exact .joins rfl half (state.trans half) rfl counted rfl
    · rw [if_neg (state ▸ half)]
      refine .outside ⟨fun h => absurd h half, fun h => absurd h shut⟩ (state ▸ half) ?_ rfl
      intro period mem
      rcases List.mem_cons.mp mem with eq | mem
      · cases eq
      · exact mem
  · rcases eq : s.breaker.admission now later with ⟨result, breaker⟩
    rw [eq] at ok state config counted
    subst ok
    simp only [admitStep, eq, if_pos isOpen, if_pos state]
    exact ⟨config, .begins rfl isOpen attempt state rfl counted rfl⟩
  · rcases eq : s.breaker.admission now later with ⟨result, breaker⟩
    rw [eq] at error state config
    subst error
    simp only [admitStep, eq]
    refine ⟨config, .outside ⟨fun half => ?_, fun _ attempt => ?_⟩ ?_ (fun _ mem => mem) rfl⟩
    · exact absurd (isOpen.symm.trans half) (by decide)
    · exact absurd (attempt.symm.trans refused) (by decide)
    · show breaker.state ≠ .halfOpen
      rw [state]
      decide

/-- How a call that succeeds acts on `HALF_OPEN`. -/
lemma trialStep_succeed {admitted : Option ℕ} {now later : ℚ} :
    (s.succeedStep admitted now later).breaker.config = s.breaker.config ∧
      TrialStep s (s.succeedStep admitted now later) ⟨.succeed admitted, now, later⟩ := by
  obtain ⟨config, -, counted, ⟨half, enough, state⟩ | ⟨stays, state, -⟩⟩ := s.breaker.recordSuccess_cases later
  · simp only [succeedStep, if_pos half, if_pos state]
    by_cases own : admitted = some s.period
    · rw [if_pos own]
      exact ⟨config, .closes admitted rfl half enough state rfl rfl (by rw [if_pos own])⟩
    · rw [if_neg own]
      exact ⟨config, .closes admitted rfl half enough state rfl rfl (by rw [if_neg own]; rfl)⟩
  · by_cases half : s.breaker.state = .halfOpen
    · have few := fun enough => stays ⟨half, enough⟩
      have state' := state.trans half
      simp only [succeedStep, if_pos half]
      rw [if_neg (by rw [state']; decide)]
      by_cases own : admitted = some s.period
      · rw [if_pos own]
        exact ⟨config, .counts admitted rfl half few state' rfl counted (Nat.add_right_comm ..) rfl⟩
      · rw [if_neg own]
        exact ⟨config, .counts admitted rfl half few state' rfl counted (Nat.add_assoc ..).symm rfl⟩
    · simp only [succeedStep, if_neg half]
      refine ⟨config, .outside (fun h => absurd h half) (state ▸ half) (fun _ mem => ?_) rfl⟩
      exact List.mem_of_mem_erase mem

/-- How a call that fails acts on `HALF_OPEN`. -/
lemma trialStep_fail {admitted : Option ℕ} {now later : ℚ} :
    (s.failStep admitted now later).breaker.config = s.breaker.config ∧
      TrialStep s (s.failStep admitted now later) ⟨.fail admitted, now, later⟩ := by
  obtain ⟨config, -, cases⟩ := s.breaker.recordFailure_cases now later
  have state : (s.breaker.recordFailure now later).state ≠ .halfOpen := by
    obtain ⟨-, state, -⟩ | ⟨-, state⟩ | ⟨-, state, -⟩ := cases
    · rw [state]
      decide
    · rw [state]
      decide
    · rw [state]
      decide
  exact ⟨config, .outside trivial state (fun _ mem => List.mem_of_mem_erase mem) rfl⟩

/-- Each step of a caller acts on `HALF_OPEN` so. -/
lemma callerStep_spec (stepped : s.callerStep a = some t) :
    t.breaker.config = s.breaker.config ∧ TrialStep s t a := by
  rcases a with ⟨label, now, later⟩
  rw [callerStep] at stepped
  split at stepped
  · cases stepped
  · cases label with
    | arrive =>
      cases stepped
      exact trialStep_arrive
    | succeed admitted =>
      simp only [Option.ite_none_right_eq_some, Option.some.injEq] at stepped
      obtain ⟨-, rfl⟩ := stepped
      exact trialStep_succeed
    | fail admitted =>
      simp only [Option.ite_none_right_eq_some, Option.some.injEq] at stepped
      obtain ⟨-, rfl⟩ := stepped
      exact trialStep_fail
    | interrupt admitted =>
      simp only [Option.ite_none_right_eq_some, Option.some.injEq] at stepped
      obtain ⟨-, rfl⟩ := stepped
      exact ⟨rfl, .ends admitted rfl rfl rfl rfl⟩

/-- A call that is admitted in this period or the next is of no period to come. -/
lemma Trial.begun_cons (trial : Trial s) {now : ℕ} (le : s.period ≤ now) {p : ℕ}
    (mem : some p ∈ some now :: s.outstanding) : p ≤ now := by
  rcases List.mem_cons.mp mem with eq | mem
  · exact le_of_eq (Option.some.inj eq)
  · exact (trial.begun p mem).trans le

/-- The calls that are left have begun. -/
lemma Trial.begun_erase (trial : Trial s) {admitted : Option ℕ} {p : ℕ}
    (mem : some p ∈ s.outstanding.erase admitted) : p ≤ s.period :=
  trial.begun p (List.mem_of_mem_erase mem)

/-- The end of a call keeps to the limit. -/
lemma Limited.erase (limited : Limited s) (half : s.breaker.state = .halfOpen) (admitted : Option ℕ) :
    ((s.outstanding.erase admitted).count (some s.period) : ℤ) ≤ s.breaker.config.successThreshold := by
  have fewer : (s.outstanding.erase admitted).count (some s.period) ≤ s.outstanding.count (some s.period) :=
    List.erase_sublist.count_le (some s.period)
  exact (Int.ofNat_le.mpr fewer).trans (limited half)

/-- Each step of a caller keeps what holds of the trial. -/
lemma Trial.step (s : BreakerRun) (a : Timed CallerStep) (t : BreakerRun) (trial : Trial s)
    (stepped : s.callerStep a = some t) : Trial t := by
  obtain ⟨config, how⟩ := callerStep_spec stepped
  cases how with
  | joins _ before _ outstanding counted rest =>
    simp only [Prod.mk.injEq] at rest
    obtain ⟨period, own, stale, -⟩ := rest
    refine ⟨fun _ => ?_, fun _ => ?_, fun p mem => ?_⟩
    · rw [counted, own, stale]
      exact trial.counted before
    · rw [counted, config]
      exact trial.few before
    · rw [outstanding] at mem
      rw [period]
      exact trial.begun_cons le_rfl mem
  | begins _ _ _ _ outstanding counted rest =>
    simp only [Prod.mk.injEq] at rest
    obtain ⟨period, own, stale, -⟩ := rest
    refine ⟨fun _ => ?_, fun _ => .inl counted, fun p mem => ?_⟩
    · rw [counted, own, stale]
    · rw [outstanding] at mem
      rw [period]
      exact trial.begun_cons (Nat.le_succ _) mem
  | counts admitted _ before few _ outstanding counted successes rest =>
    simp only [Prod.mk.injEq] at rest
    obtain ⟨period, -⟩ := rest
    have total := trial.counted before
    refine ⟨fun _ => ?_, fun _ => .inr ?_, fun p mem => ?_⟩
    · rw [counted, total, successes]
    · rw [counted, config]
      push_cast
      omega
    · rw [outstanding] at mem
      rw [period]
      exact trial.begun_erase mem
  | closes admitted _ _ _ state outstanding period _ =>
    refine ⟨fun half => ?_, fun half => ?_, fun p mem => ?_⟩
    · exact absurd (state.symm.trans half) (by decide)
    · exact absurd (state.symm.trans half) (by decide)
    · rw [outstanding] at mem
      rw [period]
      exact trial.begun_erase mem
  | ends admitted _ breaker outstanding rest =>
    simp only [Prod.mk.injEq] at rest
    obtain ⟨period, own, stale, -⟩ := rest
    refine ⟨?_, ?_, fun p mem => ?_⟩
    · rw [breaker, own, stale]
      exact trial.counted
    · rw [breaker]
      exact trial.few
    · rw [outstanding] at mem
      rw [period]
      exact trial.begun_erase mem
  | outside _ state outstanding rest =>
    simp only [Prod.mk.injEq] at rest
    refine ⟨fun half => absurd half state, fun half => absurd half state, fun p mem => ?_⟩
    rw [rest.1]
    exact trial.begun p (outstanding p mem)

/-- No call of the period to come is in execution. -/
lemma Trial.count_next (trial : Trial s) : s.outstanding.count (some (s.period + 1)) = 0 := by
  apply List.count_eq_zero_of_not_mem
  intro mem
  exact absurd (trial.begun _ mem) (Nat.not_succ_le_self _)

/-- A closing success makes up a positive threshold exactly, so it closes on calls of the period alone
exactly when no other success has been counted. -/
lemma Trial.closing_iff (trial : Trial s) (half : s.breaker.state = .halfOpen) (admitted : Option ℕ)
    (enough : s.breaker.config.successThreshold ≤ s.breaker.metrics.consecutiveSuccesses + 1) :
    s.breaker.config.successThreshold ≤ ((s.own + if admitted = some s.period then 1 else 0 : ℕ) : ℤ) ↔
      (0 < s.breaker.config.successThreshold → s.stale = 0 ∧ admitted = some s.period) := by
  have total := trial.counted half
  have few := trial.few half
  by_cases own : admitted = some s.period
  · rw [if_pos own]
    push_cast
    constructor
    · intro met positive
      exact ⟨by omega, own⟩
    · intro alone
      by_cases positive : 0 < s.breaker.config.successThreshold
      · have stale := (alone positive).1
        omega
      · omega
  · rw [if_neg own]
    push_cast
    constructor
    · intro met positive
      omega
    · intro alone
      by_cases positive : 0 < s.breaker.config.successThreshold
      · exact absurd (alone positive).2 own
      · omega

/-- From a guarded state, a caller's step leads to one exactly when it keeps within the trial. -/
lemma guarded_step_iff (s : BreakerRun) (a : Timed CallerStep) (t : BreakerRun) (trial : Trial s)
    (guarded : Limited s ∧ ClosedAfterSuccesses s) (stepped : s.callerStep a = some t) :
    Limited t ∧ ClosedAfterSuccesses t ↔ WithinTrial s a := by
  obtain ⟨limited, closed⟩ := guarded
  obtain ⟨config, how⟩ := callerStep_spec stepped
  -- unless the step closes the breaker, the second part carries over
  have carries : t.closings = s.closings → ClosedAfterSuccesses t := by
    intro same
    rw [ClosedAfterSuccesses, same, config]
    exact closed
  cases how with
  | joins step before state outstanding _ rest =>
    simp only [Prod.mk.injEq] at rest
    have part : Limited t ↔ (s.outstanding.count (some s.period) : ℤ) < s.breaker.config.successThreshold := by
      rw [Limited, outstanding, rest.1, config, List.count_cons_self]
      push_cast
      exact ⟨fun le => le state, fun lt _ => lt⟩
    rw [part]
    simp only [WithinTrial, step]
    refine ⟨fun both => ⟨fun _ => both.1, fun isOpen => ?_⟩, fun within => ⟨within.1 before, carries rest.2.2.2⟩⟩
    exact absurd (before.symm.trans isOpen) (by decide)
  | begins step before attempt state outstanding _ rest =>
    simp only [Prod.mk.injEq] at rest
    have part : Limited t ↔ 0 < s.breaker.config.successThreshold := by
      rw [Limited, outstanding, rest.1, config, List.count_cons_self, trial.count_next]
      exact ⟨fun le => le state, fun lt _ => lt⟩
    rw [part]
    simp only [WithinTrial, step]
    refine ⟨fun both => ⟨fun half => ?_, fun _ _ => both.1⟩,
      fun within => ⟨within.2 before attempt, carries rest.2.2.2⟩⟩
    exact absurd (before.symm.trans half) (by decide)
  | counts admitted step before few _ outstanding _ _ rest =>
    simp only [Prod.mk.injEq] at rest
    simp only [WithinTrial, step]
    refine ⟨fun _ _ _ enough => absurd enough few, fun _ => ⟨fun _ => ?_, carries rest.2⟩⟩
    rw [outstanding, rest.1, config]
    exact limited.erase before admitted
  | closes admitted step before enough state _ _ closings =>
    have part : ClosedAfterSuccesses t ↔ s.breaker.config.successThreshold ≤
        ((s.own + if admitted = some s.period then 1 else 0 : ℕ) : ℤ) := by
      rw [ClosedAfterSuccesses, closings, config, List.forall_mem_cons]
      exact ⟨And.left, fun met => ⟨met, closed⟩⟩
    rw [part, trial.closing_iff before admitted enough]
    simp only [WithinTrial, step]
    refine ⟨fun both _ positive _ => both.2 positive, fun within => ⟨fun half => ?_, fun positive => ?_⟩⟩
    · exact absurd (state.symm.trans half) (by decide)
    · exact within before positive enough
  | ends admitted step breaker outstanding rest =>
    simp only [Prod.mk.injEq] at rest
    simp only [WithinTrial, step, iff_true]
    refine ⟨fun half => ?_, carries rest.2.2.2⟩
    rw [breaker] at half ⊢
    rw [outstanding, rest.1]
    exact limited.erase half admitted
  | outside within state _ rest =>
    simp only [Prod.mk.injEq] at rest
    exact ⟨fun _ => within, fun _ => ⟨fun half => absurd half state, carries rest.2⟩⟩

end BreakerRun

/-- A run of callers keeps `HALF_OPEN` limited and closes only after enough successes of the period, in every
state it reaches, exactly when each of its steps keeps within the trial. -/
theorem halfOpen_guarded_iff (config : CircuitBreakerConfig) (name : String) (created : ℚ)
    (trace : List (Timed CallerStep)) (s : BreakerRun)
    (run : exec BreakerRun.callerStep (BreakerRun.start config name created) trace = some s) :
    Always BreakerRun.callerStep (fun t => t.Limited ∧ t.ClosedAfterSuccesses)
        (BreakerRun.start config name created) trace ↔
      Guarded BreakerRun.callerStep BreakerRun.WithinTrial (BreakerRun.start config name created) trace := by
  have trial : BreakerRun.Trial (BreakerRun.start config name created) := by
    refine ⟨fun half => ?_, fun half => ?_, fun period mem => ?_⟩
    · cases half
    · cases half
    · cases mem
  have guarded : (BreakerRun.start config name created).Limited ∧
      (BreakerRun.start config name created).ClosedAfterSuccesses := by
    refine ⟨fun half => ?_, fun own mem => ?_⟩
    · cases half
    · cases mem
  exact always_iff_guarded trial guarded (fun s a t inv _ => BreakerRun.Trial.step s a t inv)
    BreakerRun.guarded_step_iff run

/-- The default breaker opens, is tried with two calls, and closes when both have succeeded. -/
theorem halfOpen_guarded_iff_two_trials :
    ∃ s, exec BreakerRun.callerStep (BreakerRun.start ⟨5, 2, 60, 50, 10⟩ "rpc" 0)
        [⟨.arrive, 0, 0⟩, ⟨.fail none, 1, 1⟩, ⟨.arrive, 61, 61⟩, ⟨.arrive, 61, 61⟩, ⟨.succeed (some 1), 62, 62⟩,
          ⟨.succeed (some 1), 62, 62⟩] = some s ∧
      s.breaker.state = .closed ∧ s.closings = [2] ∧
      (Always BreakerRun.callerStep (fun t => t.Limited ∧ t.ClosedAfterSuccesses)
          (BreakerRun.start ⟨5, 2, 60, 50, 10⟩ "rpc" 0)
          [⟨.arrive, 0, 0⟩, ⟨.fail none, 1, 1⟩, ⟨.arrive, 61, 61⟩, ⟨.arrive, 61, 61⟩, ⟨.succeed (some 1), 62, 62⟩,
            ⟨.succeed (some 1), 62, 62⟩] ↔
        Guarded BreakerRun.callerStep BreakerRun.WithinTrial (BreakerRun.start ⟨5, 2, 60, 50, 10⟩ "rpc" 0)
          [⟨.arrive, 0, 0⟩, ⟨.fail none, 1, 1⟩, ⟨.arrive, 61, 61⟩, ⟨.arrive, 61, 61⟩, ⟨.succeed (some 1), 62, 62⟩,
            ⟨.succeed (some 1), 62, 62⟩]) := by
  have reached : (exec BreakerRun.callerStep (BreakerRun.start ⟨5, 2, 60, 50, 10⟩ "rpc" 0)
      [⟨.arrive, 0, 0⟩, ⟨.fail none, 1, 1⟩, ⟨.arrive, 61, 61⟩, ⟨.arrive, 61, 61⟩, ⟨.succeed (some 1), 62, 62⟩,
        ⟨.succeed (some 1), 62, 62⟩]).map (fun s => (s.breaker.state, s.closings)) =
      some (.closed, [2]) := by
    decide +kernel
  obtain ⟨s, run, parts⟩ := Option.map_eq_some_iff.mp reached
  obtain ⟨state, closings⟩ := Prod.mk.inj parts
  exact ⟨s, run, state, closings, halfOpen_guarded_iff _ _ _ _ s run⟩

/-- Three calls start with the default breaker and one fails, which opens it. After the timeout three more
are admitted although the threshold is two, and the two old successes close the breaker. -/
theorem halfOpen_unlimited_and_closed_by_old_calls :
    (∃ s, exec BreakerRun.callerStep (BreakerRun.start ⟨5, 2, 60, 50, 10⟩ "rpc" 0)
        [⟨.arrive, 0, 0⟩, ⟨.arrive, 0, 0⟩, ⟨.arrive, 0, 0⟩, ⟨.fail none, 1, 1⟩, ⟨.arrive, 61, 61⟩,
          ⟨.arrive, 61, 61⟩, ⟨.arrive, 61, 61⟩] = some s ∧ ¬ s.Limited) ∧
      ∃ s, exec BreakerRun.callerStep (BreakerRun.start ⟨5, 2, 60, 50, 10⟩ "rpc" 0)
        [⟨.arrive, 0, 0⟩, ⟨.arrive, 0, 0⟩, ⟨.arrive, 0, 0⟩, ⟨.fail none, 1, 1⟩, ⟨.arrive, 61, 61⟩,
          ⟨.succeed none, 62, 62⟩, ⟨.succeed none, 62, 62⟩] = some s ∧
      s.breaker.state = .closed ∧ ¬ s.ClosedAfterSuccesses := by
  have trial : (exec BreakerRun.callerStep (BreakerRun.start ⟨5, 2, 60, 50, 10⟩ "rpc" 0)
      [⟨.arrive, 0, 0⟩, ⟨.arrive, 0, 0⟩, ⟨.arrive, 0, 0⟩, ⟨.fail none, 1, 1⟩, ⟨.arrive, 61, 61⟩,
        ⟨.arrive, 61, 61⟩, ⟨.arrive, 61, 61⟩]).map (fun s => (s.breaker.state, s.outstanding.count (some s.period),
          s.breaker.config.successThreshold)) = some (.halfOpen, 3, 2) := by
    decide +kernel
  have closing : (exec BreakerRun.callerStep (BreakerRun.start ⟨5, 2, 60, 50, 10⟩ "rpc" 0)
      [⟨.arrive, 0, 0⟩, ⟨.arrive, 0, 0⟩, ⟨.arrive, 0, 0⟩, ⟨.fail none, 1, 1⟩, ⟨.arrive, 61, 61⟩,
        ⟨.succeed none, 62, 62⟩, ⟨.succeed none, 62, 62⟩]).map (fun s => (s.breaker.state, s.closings,
          s.breaker.config.successThreshold)) = some (.closed, [0], 2) := by
    decide +kernel
  obtain ⟨s, run, parts⟩ := Option.map_eq_some_iff.mp trial
  obtain ⟨s', run', parts'⟩ := Option.map_eq_some_iff.mp closing
  simp only [Prod.mk.injEq] at parts parts'
  refine ⟨⟨s, run, fun limited => ?_⟩, s', run', parts'.1, fun closed => ?_⟩
  · have bound := limited parts.1
    rw [parts.2.1, parts.2.2] at bound
    exact absurd bound (by decide)
  · have bound := closed 0 (by rw [parts'.2.1]; exact List.mem_cons_self)
    rw [parts'.2.2] at bound
    exact absurd bound (by decide)

end StellarFlow.Queue
