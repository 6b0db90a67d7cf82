import Mathlib.Algebra.Order.Ring.Rat
import Mathlib.Algebra.Order.Field.Rat
import Mathlib.Data.List.Basic
import Mathlib.Tactic.Linarith
import StellarFlow.Lib.Machine
import StellarFlow.Lib.Python

/-!
# The circuit breaker

Model of `CircuitBreaker` in `src/queue/backpressure.py`, with times in rational seconds; the log lines are
left out. `call` and `call_async` are two locked steps with the unlocked call between them: the admission,
and the recording of its result (none when the call ends in an exception that is no `Exception`, such as a
cancellation). A step makes up to two readings of the clock, `now` and, when it changes the state, `later`.

The recovery clock is `last_failure_time`, although every transition notes `last_state_change`. A breaker
recovers in time from every `OPEN` state of a run exactly when nothing else than the opening itself sets or
clears that clock (`open_admits_after_timeout_iff`).
-/

namespace StellarFlow.Queue
open Machine

/-- `CircuitState`. -/
inductive CircuitState where
  | closed
  | opened
  | halfOpen
  deriving DecidableEq

/-- `CircuitBreakerConfig`. -/
structure CircuitBreakerConfig where
  failureThreshold : ℤ
  successThreshold : ℤ
  timeoutSeconds : ℚ
  errorThresholdPercentage : ℚ
  windowSize : ℤ

/-- `CircuitBreakerMetrics`. -/
structure CircuitBreakerMetrics where
  state : CircuitState
  failureCount : ℕ
  successCount : ℕ
  consecutiveFailures : ℕ
  consecutiveSuccesses : ℕ
  lastFailureTime : Option ℚ
  lastStateChange : ℚ
  totalRequests : ℕ
  rejectedRequests : ℕ
  recentResults : List Bool

/-- `CircuitBreakerMetrics(state=CircuitState.CLOSED)`. -/
def CircuitBreakerMetrics.new (now : ℚ) : CircuitBreakerMetrics where
  state := .closed
  failureCount := 0
  successCount := 0
  consecutiveFailures := 0
  consecutiveSuccesses := 0
  lastFailureTime := none
  lastStateChange := now
  totalRequests := 0
  rejectedRequests := 0
  recentResults := []

/-- `CircuitBreaker`. -/
structure CircuitBreaker where
  config : CircuitBreakerConfig
  state : CircuitState
  metrics : CircuitBreakerMetrics
  name : String

namespace CircuitBreaker

/-- `CircuitBreaker.__init__`. -/
def init (config : CircuitBreakerConfig) (name : String) (now : ℚ) : CircuitBreaker where
  config := config
  state := .closed
  metrics := .new now
  name := name

variable (b : CircuitBreaker)

/-- `CircuitBreaker._should_attempt_reset`. -/
def shouldAttemptReset (now : ℚ) : Bool :=
  match b.metrics.lastFailureTime with
  | none => false
  | some lastFailureTime => decide (now - lastFailureTime ≥ b.config.timeoutSeconds)

/-- `CircuitBreaker._calculate_error_rate`. -/
def calculateErrorRate : ℚ :=
  if b.metrics.recentResults.isEmpty then 0
  else
    let failures := (b.metrics.recentResults.filter fun success => !success).length
    (failures : ℚ) / b.metrics.recentResults.length * 100

/-- `CircuitBreaker._transition_to_open`. -/
def transitionToOpen (now : ℚ) : CircuitBreaker :=
  { b with state := .opened, metrics := { b.metrics with state := .opened, lastStateChange := now } }

/-- `CircuitBreaker._transition_to_half_open`. -/
def transitionToHalfOpen (now : ℚ) : CircuitBreaker :=
  { b with
    state := .halfOpen
    metrics := { b.metrics with state := .halfOpen, consecutiveSuccesses := 0, lastStateChange := now } }

/-- `CircuitBreaker._transition_to_closed`. -/
def transitionToClosed (now : ℚ) : CircuitBreaker :=
  { b with
    state := .closed
    metrics := { b.metrics with state := .closed, consecutiveFailures := 0, lastStateChange := now } }

/-- One more result in the rolling window. -/
def appendResult (success : Bool) : List Bool :=
  let recentResults := b.metrics.recentResults ++ [success]
  if (recentResults.length : ℤ) > b.config.windowSize then recentResults.tail else recentResults

/-- The metrics of `_record_success`. -/
def countSuccess : CircuitBreaker :=
  { b with
    metrics := { b.metrics with
      successCount := b.metrics.successCount + 1
      consecutiveSuccesses := b.metrics.consecutiveSuccesses + 1
      consecutiveFailures := 0
      recentResults := b.appendResult true } }

/-- `CircuitBreaker._record_success`. -/
def recordSuccess (later : ℚ) : CircuitBreaker :=
  let b := b.countSuccess
  if b.state = .halfOpen then
    if (b.metrics.consecutiveSuccesses : ℤ) ≥ b.config.successThreshold then b.transitionToClosed later else b
  else b

/-- The metrics of `_record_failure`. -/
def countFailure (now : ℚ) : CircuitBreaker :=
  { b with
    metrics := { b.metrics with
      failureCount := b.metrics.failureCount + 1
      consecutiveFailures := b.metrics.consecutiveFailures + 1
      consecutiveSuccesses := 0
      lastFailureTime := some now
      recentResults := b.appendResult false } }

/-- `CircuitBreaker._record_failure`. -/
def recordFailure (now later : ℚ) : CircuitBreaker :=
  let b := b.countFailure now
  match b.state with
  | .closed =>
    if (b.metrics.consecutiveFailures : ℤ) ≥ b.config.failureThreshold ∨
        b.calculateErrorRate ≥ b.config.errorThresholdPercentage then
      b.transitionToOpen later
    else b
  | .halfOpen => b.transitionToOpen later
  | .opened => b

/-- One more request. -/
def countRequest : CircuitBreaker :=
  { b with metrics := { b.metrics with totalRequests := b.metrics.totalRequests + 1 } }

/-- One more rejected request. -/
def countRejected : CircuitBreaker :=
  { b with metrics := { b.metrics with rejectedRequests := b.metrics.rejectedRequests + 1 } }

/-- The error of a rejected call. -/
def openError : PyError :=
  .exception "CircuitBreakerError"
    s!"Circuit breaker '{b.name}' is OPEN. Requests blocked until timeout expires."

/-- The admission of `call` and `call_async`: whether the call may go on. -/
def admission (now later : ℚ) : Except PyError Unit × CircuitBreaker :=
  let b := b.countRequest
  if b.state = .opened then
    if b.shouldAttemptReset now then (.ok (), b.transitionToHalfOpen later)
    else (.error b.openError, b.countRejected)
  else (.ok (), b)

/-- `CircuitBreaker.reset`. -/
def reset (now : ℚ) : CircuitBreaker := { b with state := .closed, metrics := .new now }

/-- `CircuitBreaker.force_open`. -/
def forceOpen (later : ℚ) : CircuitBreaker := if b.state ≠ .opened then b.transitionToOpen later else b

end CircuitBreaker

/-- A locked step of a caller. A call in execution is known by the `HALF_OPEN` period it was admitted in,
if any. -/
inductive CallerStep where
  | arrive
  | succeed (admitted : Option ℕ)
  | fail (admitted : Option ℕ)
  | interrupt (admitted : Option ℕ)

/-- A locked step on the breaker. -/
inductive BreakerStep where
  | caller (step : CallerStep)
  | reset
  | forceOpen

/-- A step with its two readings of the clock. -/
structure Timed (α : Type) where
  step : α
  now : ℚ
  later : ℚ

/-- A breaker with the latest clock reading, the calls in execution, and a record of its `HALF_OPEN`
periods: the number of the last one, how many calls admitted in it and how many others have succeeded
during it, and for each period that led to `CLOSED` how many calls admitted in it had succeeded. -/
structure BreakerRun where
  breaker : CircuitBreaker
  clock : ℚ
  outstanding : List (Option ℕ)
  period : ℕ
  own : ℕ
  stale : ℕ
  closings : List ℕ

namespace BreakerRun

/-- A new breaker. -/
def start (config : CircuitBreakerConfig) (name : String) (now : ℚ) : BreakerRun where
  breaker := .init config name now
  clock := now
  outstanding := []
  period := 0
  own := 0
  stale := 0
  closings := []

variable (s : BreakerRun)

/-- The breaker after a step; the second reading is made by a step that changes the state. -/
def moved (breaker : CircuitBreaker) (now later : ℚ) : BreakerRun :=
  { s with breaker, clock := if breaker.state = s.breaker.state then now else later }

/-- The admission of a call. A step into `HALF_OPEN` begins a new period. -/
def admitStep (now later : ℚ) : BreakerRun :=
  match s.breaker.admission now later with
  | (.error _, breaker) => s.moved breaker now later
  | (.ok _, breaker) =>
    let s' := s.moved breaker now later
    let s' := if s.breaker.state = .opened then { s' with period := s.period + 1, own := 0, stale := 0 } else s'
    { s' with
      outstanding := (if breaker.state = .halfOpen then some s'.period else none) :: s'.outstanding }

/-- The success of a call, counted to the period if the breaker is `HALF_OPEN`. -/
def succeedStep (admitted : Option ℕ) (now later : ℚ) : BreakerRun :=
  let breaker := s.breaker.recordSuccess later
  let s' := { s.moved breaker now later with outstanding := s.outstanding.erase admitted }
  if s.breaker.state = .halfOpen then
    let s' := if admitted = some s.period then { s' with own := s.own + 1 } else { s' with stale := s.stale + 1 }
    if breaker.state = .closed then { s' with closings := s'.own :: s.closings } else s'
  else s'

/-- The failure of a call. -/
def failStep (admitted : Option ℕ) (now later : ℚ) : BreakerRun :=
  { s.moved (s.breaker.recordFailure now later) now later with outstanding := s.outstanding.erase admitted }

/-- The end of a call without a result. -/
def interruptStep (admitted : Option ℕ) (now : ℚ) : BreakerRun :=
  { s with clock := now, outstanding := s.outstanding.erase admitted }

/-- One step of a caller; only calls in execution end, and the clock never runs backwards. -/
def callerStep (a : Timed CallerStep) : Option BreakerRun :=
  if a.now < s.clock ∨ a.later < a.now then none
  else match a.step with
    | .arrive => some (s.admitStep a.now a.later)
    | .succeed admitted => if admitted ∈ s.outstanding then some (s.succeedStep admitted a.now a.later) else none
    | .fail admitted => if admitted ∈ s.outstanding then some (s.failStep admitted a.now a.later) else none
    | .interrupt admitted => if admitted ∈ s.outstanding then some (s.interruptStep admitted a.now) else none

/-- One step on the breaker, by a caller or by hand. -/
def step (a : Timed BreakerStep) : Option BreakerRun :=
  match a.step with
  | .caller caller => s.callerStep ⟨caller, a.now, a.later⟩
  | .reset =>
    if a.now < s.clock ∨ a.later < a.now then none
    else some (s.moved (s.breaker.reset a.now) a.now a.later)
  | .forceOpen =>
    if a.now < s.clock ∨ a.later < a.now then none
    else some (s.moved (s.breaker.forceOpen a.later) a.now a.later)

end BreakerRun

/-- While the breaker is open, a call that arrives the timeout or more after it opened is admitted. -/
def AdmitsAfterTimeout (s : BreakerRun) : Prop :=
  s.breaker.state = .opened → ∀ now later, s.clock ≤ now → now ≤ later →
    s.breaker.metrics.lastStateChange + s.breaker.config.timeoutSeconds ≤ now →
    (s.breaker.admission now later).1 = .ok () ∧ (s.breaker.admission now later).2.state = .halfOpen

/-- The condition on a step: `force_open` opens only a breaker that has a failure on record, and no failure
is recorded after the breaker opened unless there is no timeout to wait for. -/
def KeepsRecoveryClock (s : BreakerRun) (a : Timed BreakerStep) : Prop :=
  match a.step with
  | .caller (.fail _) => s.breaker.state = .opened →
      s.breaker.config.timeoutSeconds ≤ 0 ∨ a.now = s.breaker.metrics.lastStateChange
  | .forceOpen => s.breaker.state ≠ .opened → s.breaker.metrics.lastFailureTime ≠ none
  | _ => True

namespace CircuitBreaker
variable {b : CircuitBreaker} {now later : ℚ}

/-- What an admission does to the state. -/
lemma admission_cases (b : CircuitBreaker) (now later : ℚ) :
    (b.state ≠ .opened ∧ (b.admission now later).1 = .ok () ∧ (b.admission now later).2.state = b.state ∧
        (b.admission now later).2.config = b.config ∧
        (b.admission now later).2.metrics.lastFailureTime = b.metrics.lastFailureTime ∧
        (b.admission now later).2.metrics.consecutiveSuccesses = b.metrics.consecutiveSuccesses) ∨
    (b.state = .opened ∧ b.shouldAttemptReset now = true ∧ (b.admission now later).1 = .ok () ∧
        (b.admission now later).2.state = .halfOpen ∧ (b.admission now later).2.config = b.config ∧
        (b.admission now later).2.metrics.lastFailureTime = b.metrics.lastFailureTime ∧
        (b.admission now later).2.metrics.consecutiveSuccesses = 0) ∨
    (b.state = .opened ∧ b.shouldAttemptReset now = false ∧ (∃ raised, (b.admission now later).1 = .error raised) ∧
        (b.admission now later).2.state = .opened ∧ (b.admission now later).2.config = b.config ∧
        (b.admission now later).2.metrics.lastFailureTime = b.metrics.lastFailureTime ∧
        (b.admission now later).2.metrics.lastStateChange = b.metrics.lastStateChange) := by
  by_cases isOpen : b.state = .opened
  · right
    cases attempt : b.shouldAttemptReset now with
    | true =>
      left
      have eq : b.admission now later = (.ok (), b.countRequest.transitionToHalfOpen later) := by
        rw [admission]
        exact (if_pos isOpen).trans (if_pos attempt)
      rw [eq]
      exact ⟨isOpen, rfl, rfl, rfl, rfl, rfl, rfl⟩
    | false =>
      right
      have eq : b.admission now later = (.error b.openError, b.countRequest.countRejected) := by
        rw [admission]
        exact (if_pos isOpen).trans (if_neg (ne_true_of_eq_false attempt))
      rw [eq]
      exact ⟨isOpen, rfl, ⟨_, rfl⟩, isOpen, rfl, rfl, rfl⟩
  · left
    have eq : b.admission now later = (.ok (), b.countRequest) := by
      rw [admission]
      exact if_neg isOpen
    rw [eq]
    exact ⟨isOpen, rfl, rfl, rfl, rfl, rfl⟩

/-- What a recorded success does to the state. -/
lemma recordSuccess_cases (b : CircuitBreaker) (later : ℚ) :
    (b.recordSuccess later).config = b.config ∧
    (b.recordSuccess later).metrics.lastFailureTime = b.metrics.lastFailureTime ∧
    (b.recordSuccess later).metrics.consecutiveSuccesses = b.metrics.consecutiveSuccesses + 1 ∧
    ((b.state = .halfOpen ∧ b.config.successThreshold ≤ b.metrics.consecutiveSuccesses + 1 ∧
        (b.recordSuccess later).state = .closed) ∨
      (¬ (b.state = .halfOpen ∧ b.config.successThreshold ≤ b.metrics.consecutiveSuccesses + 1) ∧
        (b.recordSuccess later).state = b.state ∧
        (b.recordSuccess later).metrics.lastStateChange = b.metrics.lastStateChange)) := by
  by_cases closes : b.state = .halfOpen ∧ b.config.successThreshold ≤ b.metrics.consecutiveSuccesses + 1
  · have eq : b.recordSuccess later = b.countSuccess.transitionToClosed later := by
      have enough : (b.countSuccess.metrics.consecutiveSuccesses : ℤ) ≥ b.countSuccess.config.successThreshold := by
        show ((b.metrics.consecutiveSuccesses + 1 : ℕ) : ℤ) ≥ b.config.successThreshold
        exact_mod_cast closes.2
      rw [recordSuccess]
      exact (if_pos closes.1).trans (if_pos enough)
    rw [eq]
    exact ⟨rfl, rfl, rfl, .inl ⟨closes.1, closes.2, rfl⟩⟩
  · have eq : b.recordSuccess later = b.countSuccess := by
      by_cases half : b.state = .halfOpen
      · have few : ¬ (b.countSuccess.metrics.consecutiveSuccesses : ℤ) ≥ b.countSuccess.config.successThreshold := by
          show ¬ ((b.metrics.consecutiveSuccesses + 1 : ℕ) : ℤ) ≥ b.config.successThreshold
          exact fun enough => closes ⟨half, by exact_mod_cast enough⟩
        rw [recordSuccess]
        exact (if_pos half).trans (if_neg few)
      · rw [recordSuccess]
        exact if_neg half
    rw [eq]
    exact ⟨rfl, rfl, rfl, .inr ⟨closes, rfl, rfl⟩⟩

/-- What a recorded failure does to the state. -/
lemma recordFailure_cases (b : CircuitBreaker) (now later : ℚ) :
    (b.recordFailure now later).config = b.config ∧
    (b.recordFailure now later).metrics.lastFailureTime = some now ∧
    ((b.state ≠ .opened ∧ (b.recordFailure now later).state = .opened ∧
        (b.recordFailure now later).metrics.lastStateChange = later) ∨
      (b.state = .closed ∧ (b.recordFailure now later).state = .closed) ∨
      (b.state = .opened ∧ (b.recordFailure now later).state = .opened ∧
        (b.recordFailure now later).metrics.lastStateChange = b.metrics.lastStateChange)) := by
  have same : (b.countFailure now).state = b.state := rfl
  rw [recordFailure, same]
  cases state : b.state with
  | closed =>
    simp only
    split
    · exact ⟨rfl, rfl, .inl ⟨by decide, rfl, rfl⟩⟩
    · exact ⟨rfl, rfl, .inr (.inl ⟨trivial, state⟩)⟩
  | halfOpen => exact ⟨rfl, rfl, .inl ⟨by decide, rfl, rfl⟩⟩
  | opened => exact ⟨rfl, rfl, .inr (.inr ⟨rfl, state, rfl⟩)⟩

end CircuitBreaker

namespace BreakerRun
variable {s t : BreakerRun} {a : Timed BreakerStep}

/-- The recovery clock of an open breaker does not hold a call up longer than the timeout. -/
def Recovers (s : BreakerRun) : Prop :=
  ∃ failure, s.breaker.metrics.lastFailureTime = some failure ∧
    (failure ≤ s.breaker.metrics.lastStateChange ∨ failure + s.breaker.config.timeoutSeconds ≤ s.clock)

/-- The breaker admits after its timeout where an open one recovers. -/
lemma admitsAfterTimeout_iff : AdmitsAfterTimeout s ↔ (s.breaker.state = .opened → Recovers s) := by
  constructor
  · intro admits isOpen
    -- the earliest call that has waited long enough
    have admitted := (admits isOpen
      (max s.clock (s.breaker.metrics.lastStateChange + s.breaker.config.timeoutSeconds)) _ (le_max_left _ _)
      le_rfl (le_max_right _ _)).1
    obtain ⟨shut, -⟩ | ⟨-, attempt, -⟩ | ⟨-, -, ⟨raised, error⟩, -⟩ := s.breaker.admission_cases
      (max s.clock (s.breaker.metrics.lastStateChange + s.breaker.config.timeoutSeconds))
      (max s.clock (s.breaker.metrics.lastStateChange + s.breaker.config.timeoutSeconds))
    · exact absurd isOpen shut
    · rw [CircuitBreaker.shouldAttemptReset] at attempt
      split at attempt
      · cases attempt
      · rename_i failure recorded
        refine ⟨failure, recorded, ?_⟩
        have elapsed := of_decide_eq_true attempt
        rcases le_max_iff.mp (show failure + s.breaker.config.timeoutSeconds ≤ _ by linarith) with soon | soon
        · exact .inr soon
        · exact .inl (by linarith)
    · rw [error] at admitted
      cases admitted
  · intro recovers isOpen now later forward _ waited
    obtain ⟨failure, recorded, early⟩ := recovers isOpen
    have attempt : s.breaker.shouldAttemptReset now = true := by
      rw [CircuitBreaker.shouldAttemptReset, recorded]
      apply decide_eq_true
      obtain early | early := early
      · show s.breaker.config.timeoutSeconds ≤ now - failure
        linarith
      · show s.breaker.config.timeoutSeconds ≤ now - failure
        linarith
    obtain ⟨shut, -⟩ | ⟨-, -, ok, half, -⟩ | ⟨-, refused, -⟩ := s.breaker.admission_cases now later
    · exact absurd isOpen shut
    · exact ⟨ok, half⟩
    · rw [attempt] at refused
      cases refused

/-- The times on record are past. -/
structure Past (s : BreakerRun) : Prop where
  failure : ∀ failure, s.breaker.metrics.lastFailureTime = some failure → failure ≤ s.clock
  opening : s.breaker.state = .opened → s.breaker.metrics.lastStateChange ≤ s.clock

/-- How a step acts on the recovery clock: the breaker is not open afterwards; it stays open as it was; a
failure is recorded while it is open; it opens on a failure; it is forced open. -/
inductive RecoveryStep (s t : BreakerRun) (a : Timed BreakerStep) : Prop where
  | shut (state : t.breaker.state ≠ .opened) (kept : KeepsRecoveryClock s a)
      (failure : t.breaker.metrics.lastFailureTime = none ∨
        t.breaker.metrics.lastFailureTime = s.breaker.metrics.lastFailureTime ∨
        t.breaker.metrics.lastFailureTime = some a.now)
  | stays (before : s.breaker.state = .opened) (state : t.breaker.state = .opened)
      (kept : KeepsRecoveryClock s a)
      (failure : t.breaker.metrics.lastFailureTime = s.breaker.metrics.lastFailureTime)
      (opening : t.breaker.metrics.lastStateChange = s.breaker.metrics.lastStateChange)
  | late (before : s.breaker.state = .opened) (state : t.breaker.state = .opened)
      (step : ∃ admitted, a.step = .caller (.fail admitted))
      (failure : t.breaker.metrics.lastFailureTime = some a.now)
      (opening : t.breaker.metrics.lastStateChange = s.breaker.metrics.lastStateChange) (clock : t.clock = a.now)
  | opens (state : t.breaker.state = .opened) (kept : KeepsRecoveryClock s a)
      (failure : t.breaker.metrics.lastFailureTime = some a.now)
      (opening : t.breaker.metrics.lastStateChange = a.later) (clock : t.clock = a.later)
  | forced (before : s.breaker.state ≠ .opened) (state : t.breaker.state = .opened) (step : a.step = .forceOpen)
      (failure : t.breaker.metrics.lastFailureTime = s.breaker.metrics.lastFailureTime)
      (opening : t.breaker.metrics.lastStateChange = a.later) (clock : t.clock = a.later)

/-- The clock of a step is at or behind its start. -/
lemma le_moved_clock {now later : ℚ} (le : now ≤ later) (s : BreakerRun) (breaker : CircuitBreaker) :
    now ≤ (s.moved breaker now later).clock := by
  show now ≤ if breaker.state = s.breaker.state then now else later
  split
  · exact le_rfl
  · exact le

/-- Where the state stays the clock is not read again. -/
lemma moved_clock_of_eq {now later : ℚ} {breaker : CircuitBreaker} (same : breaker.state = s.breaker.state) :
    (s.moved breaker now later).clock = now := if_pos same

/-- Where the state changes the clock is read again. -/
lemma moved_clock_of_ne {now later : ℚ} {breaker : CircuitBreaker} (changed : breaker.state ≠ s.breaker.state) :
    (s.moved breaker now later).clock = later := if_neg changed

/-- An admission changes the breaker and the clock. -/
lemma admitStep_eq (s : BreakerRun) (now later : ℚ) :
    (s.admitStep now later).breaker = (s.breaker.admission now later).2 ∧
      (s.admitStep now later).clock = (s.moved (s.breaker.admission now later).2 now later).clock := by
  rw [admitStep]
  rcases s.breaker.admission now later with ⟨_ | _, breaker⟩
  · exact ⟨rfl, rfl⟩
  · simp only
    split
    · exact ⟨rfl, rfl⟩
    · exact ⟨rfl, rfl⟩

/-- A success changes the breaker and the clock. -/
lemma succeedStep_eq (s : BreakerRun) (admitted : Option ℕ) (now later : ℚ) :
    (s.succeedStep admitted now later).breaker = s.breaker.recordSuccess later ∧
      (s.succeedStep admitted now later).clock = (s.moved (s.breaker.recordSuccess later) now later).clock := by
  simp only [succeedStep]
  split
  · split
    · split
      · exact ⟨rfl, rfl⟩
      · exact ⟨rfl, rfl⟩
    · split
      · exact ⟨rfl, rfl⟩
      · exact ⟨rfl, rfl⟩
  · exact ⟨rfl, rfl⟩

/-- How a call that arrives acts on the recovery clock. -/
lemma recoveryStep_arrive {now later : ℚ} :
    (s.admitStep now later).breaker.config = s.breaker.config ∧
      RecoveryStep s (s.admitStep now later) ⟨.caller .arrive, now, later⟩ := by
  obtain ⟨breaker, -⟩ := s.admitStep_eq now later
  obtain ⟨shut, -, state, config, failure, -⟩ | ⟨-, -, -, state, config, failure, -⟩ |
    ⟨isOpen, -, -, state, config, failure, opening⟩ := s.breaker.admission_cases now later
  · rw [← breaker] at state config failure
    exact ⟨config, .shut (state ▸ shut) trivial (.inr (.inl failure))⟩
  · rw [← breaker] at state config failure
    exact ⟨config, .shut (by rw [state]; decide) trivial (.inr (.inl failure))⟩
  · rw [← breaker] at state config failure opening
    exact ⟨config, .stays isOpen state trivial failure opening⟩

/-- How a call that succeeds acts on the recovery clock. -/
lemma recoveryStep_succeed {admitted : Option ℕ} {now later : ℚ} :
    (s.succeedStep admitted now later).breaker.config = s.breaker.config ∧
      RecoveryStep s (s.succeedStep admitted now later) ⟨.caller (.succeed admitted), now, later⟩ := by
  obtain ⟨breaker, -⟩ := s.succeedStep_eq admitted now later
  obtain ⟨config, failure, -, cases⟩ := s.breaker.recordSuccess_cases later
  rw [← breaker] at config failure
  obtain ⟨-, -, state⟩ | ⟨-, state, opening⟩ := cases
  · rw [← breaker] at state
    exact ⟨config, .shut (by rw [state]; decide) trivial (.inr (.inl failure))⟩
  · rw [← breaker] at state opening
    by_cases isOpen : s.breaker.state = .opened
    · exact ⟨config, .stays isOpen (state.trans isOpen) trivial failure opening⟩
    · exact ⟨config, .shut (state ▸ isOpen) trivial (.inr (.inl failure))⟩

/-- How a call that fails acts on the recovery clock. -/
lemma recoveryStep_fail {admitted : Option ℕ} {now later : ℚ} :
    (s.failStep admitted now later).breaker.config = s.breaker.config ∧
      RecoveryStep s (s.failStep admitted now later) ⟨.caller (.fail admitted), now, later⟩ := by
  obtain ⟨config, failure, cases⟩ := s.breaker.recordFailure_cases now later
  refine ⟨config, ?_⟩
  obtain ⟨shut, state, opening⟩ | ⟨before, state⟩ | ⟨isOpen, state, opening⟩ := cases
  · refine .opens state (fun isOpen => absurd isOpen shut) failure opening ?_
    exact moved_clock_of_ne (by rw [state]; exact Ne.symm shut)
  · refine .shut (fun isOpen => ?_) (fun isOpen => ?_) (.inr (.inr failure))
    · exact absurd (state.symm.trans isOpen) (by decide)
    · exact absurd (before.symm.trans isOpen) (by decide)
  · exact .late isOpen state ⟨admitted, rfl⟩ failure opening (moved_clock_of_eq (state.trans isOpen.symm))

/-- How a call that is interrupted acts on the recovery clock. -/
lemma recoveryStep_interrupt {admitted : Option ℕ} {now later : ℚ} :
    RecoveryStep s (s.interruptStep admitted now) ⟨.caller (.interrupt admitted), now, later⟩ := by
  by_cases isOpen : s.breaker.state = .opened
  · exact .stays isOpen isOpen trivial rfl rfl
  · exact .shut isOpen trivial (.inr (.inl rfl))

/-- Forcing the breaker open opens it. -/
lemma recoveryStep_forceOpen {now later : ℚ} :
    (s.moved (s.breaker.forceOpen later) now later).breaker.config = s.breaker.config ∧
      RecoveryStep s (s.moved (s.breaker.forceOpen later) now later) ⟨.forceOpen, now, later⟩ := by
  by_cases isOpen : s.breaker.state = .opened
  · have same : s.breaker.forceOpen later = s.breaker := by
      rw [CircuitBreaker.forceOpen, if_neg (not_not.mpr isOpen)]
    rw [same]
    exact ⟨rfl, .stays isOpen isOpen (fun shut => absurd isOpen shut) rfl rfl⟩
  · have opened : s.breaker.forceOpen later = s.breaker.transitionToOpen later := by
      rw [CircuitBreaker.forceOpen, if_pos isOpen]
    rw [opened]
    exact ⟨rfl, .forced isOpen rfl rfl rfl rfl (moved_clock_of_ne (Ne.symm isOpen))⟩

/-- One step, seen from the recovery clock. -/
lemma step_spec (stepped : s.step a = some t) :
    s.clock ≤ a.now ∧ a.now ≤ a.later ∧ a.now ≤ t.clock ∧ t.breaker.config = s.breaker.config ∧
      RecoveryStep s t a := by
  rcases a with ⟨label, now, later⟩
  have ordered : s.clock ≤ now ∧ now ≤ later := by
    by_contra disordered
    have early : now < s.clock ∨ later < now := by
      rcases not_and_or.mp disordered with lt | lt
      · exact .inl (not_le.mp lt)
      · exact .inr (not_le.mp lt)
    cases label with
    | caller caller =>
      simp only [step, callerStep, if_pos early] at stepped
      cases stepped
    | reset =>
      simp only [step, if_pos early] at stepped
      cases stepped
    | forceOpen =>
      simp only [step, if_pos early] at stepped
      cases stepped
  have inOrder : ¬ (now < s.clock ∨ later < now) := not_or.mpr ⟨not_lt.mpr ordered.1, not_lt.mpr ordered.2⟩
  refine ⟨ordered.1, ordered.2, ?_⟩
  cases label with
  | caller caller =>
    cases caller with
    | arrive =>
      simp only [step, callerStep, if_neg inOrder, Option.some.injEq] at stepped
      subst stepped
      rw [(s.admitStep_eq now later).2]
      exact ⟨le_moved_clock ordered.2 _ _, recoveryStep_arrive⟩
    | succeed admitted =>
      simp only [step, callerStep, if_neg inOrder, Option.ite_none_right_eq_some, Option.some.injEq] at stepped
      obtain ⟨-, rfl⟩ := stepped
      rw [(s.succeedStep_eq admitted now later).2]
      exact ⟨le_moved_clock ordered.2 _ _, recoveryStep_succeed⟩
    | fail admitted =>
      simp only [step, callerStep, if_neg inOrder, Option.ite_none_right_eq_some, Option.some.injEq] at stepped
      obtain ⟨-, rfl⟩ := stepped
      exact ⟨le_moved_clock ordered.2 s _, recoveryStep_fail⟩
    | interrupt admitted =>
      simp only [step, callerStep, if_neg inOrder, Option.ite_none_right_eq_some, Option.some.injEq] at stepped
      obtain ⟨-, rfl⟩ := stepped
      exact ⟨le_rfl, rfl, recoveryStep_interrupt⟩
  | reset =>
    simp only [step, if_neg inOrder, Option.some.injEq] at stepped
    subst stepped
    exact ⟨le_moved_clock ordered.2 s _, rfl, .shut (show CircuitState.closed ≠ .opened by decide) trivial (.inl rfl)⟩
  | forceOpen =>
    simp only [step, if_neg inOrder, Option.some.injEq] at stepped
    subst stepped
    exact ⟨le_moved_clock ordered.2 s _, recoveryStep_forceOpen⟩

/-- Each step records times that are past. -/
lemma Past.step (s : BreakerRun) (a : Timed BreakerStep) (t : BreakerRun) (past : Past s)
    (stepped : s.step a = some t) : Past t := by
  obtain ⟨forward, ordered, clock, -, how⟩ := step_spec stepped
  have earlier : ∀ failure, s.breaker.metrics.lastFailureTime = some failure → failure ≤ t.clock :=
    fun failure recorded => (past.failure failure recorded).trans (forward.trans clock)
  cases how with
  | shut state _ failure =>
    refine ⟨fun time recorded => ?_, fun isOpen => absurd isOpen state⟩
    obtain none | same | new := failure
    · rw [none] at recorded
      cases recorded
    · exact earlier time (same ▸ recorded)
    · rw [new] at recorded
      cases recorded
      exact clock
  | stays before _ _ failure opening =>
    refine ⟨fun time recorded => earlier time (failure ▸ recorded), fun _ => ?_⟩
    rw [opening]
    exact (past.opening before).trans (forward.trans clock)
  | late before _ _ failure opening =>
    refine ⟨fun time recorded => ?_, fun _ => ?_⟩
    · rw [failure] at recorded
      cases recorded
      exact clock
    · rw [opening]
      exact (past.opening before).trans (forward.trans clock)
  | opens _ _ failure opening clock' =>
    refine ⟨fun time recorded => ?_, fun _ => by rw [opening, clock']⟩
    rw [failure] at recorded
    cases recorded
    exact clock
  | forced _ _ _ failure opening clock' =>
    exact ⟨fun time recorded => earlier time (failure ▸ recorded), fun _ => by rw [opening, clock']⟩

/-- From a state that recovers in time, a step leads to one that does exactly when it keeps the recovery
clock. -/
lemma admitsAfterTimeout_step_iff (s : BreakerRun) (a : Timed BreakerStep) (t : BreakerRun) (past : Past s)
    (admits : AdmitsAfterTimeout s) (stepped : s.step a = some t) :
    AdmitsAfterTimeout t ↔ KeepsRecoveryClock s a := by
  obtain ⟨forward, ordered, clock, config, how⟩ := step_spec stepped
  rw [admitsAfterTimeout_iff] at admits ⊢
  cases how with
  | shut state kept _ => exact ⟨fun _ => kept, fun _ isOpen => absurd isOpen state⟩
  | stays before state kept failure opening =>
    refine ⟨fun _ => kept, fun _ _ => ?_⟩
    obtain ⟨time, recorded, early⟩ := admits before
    refine ⟨time, failure.trans recorded, ?_⟩
    rw [opening, config]
    exact early.imp_right fun soon => soon.trans (forward.trans clock)
  | late before state step failure opening clock' =>
    obtain ⟨admitted, step⟩ := step
    have opening_le := (past.opening before).trans forward
    simp only [KeepsRecoveryClock, step]
    constructor
    · intro recovers _
      obtain ⟨time, recorded, early⟩ := recovers state
      obtain rfl : a.now = time := Option.some.inj (failure.symm.trans recorded)
      rw [opening, config, clock'] at early
      obtain early | early := early
      · exact .inr (le_antisymm early opening_le)
      · exact .inl (by linarith)
    · intro kept _
      refine ⟨a.now, failure, ?_⟩
      rw [opening, config, clock']
      obtain instant | same := kept before
      · exact .inr (by linarith)
      · exact .inl (le_of_eq same)
  | opens state kept failure opening _ =>
    refine ⟨fun _ => kept, fun _ _ => ⟨a.now, failure, .inl ?_⟩⟩
    rw [opening]
    exact ordered
  | forced before state step failure opening _ =>
    simp only [KeepsRecoveryClock, step]
    constructor
    · intro recovers _ missing
      obtain ⟨time, recorded, -⟩ := recovers state
      rw [failure, missing] at recorded
      cases recorded
    · intro kept _
      obtain ⟨time, recorded⟩ := Option.ne_none_iff_exists'.mp (kept before)
      refine ⟨time, failure.trans recorded, .inl ?_⟩
      rw [opening]
      exact (past.failure time recorded).trans (forward.trans ordered)

end BreakerRun

/-- For every configuration, a run of callers, resets and forced openings recovers in time from every `OPEN`
state it reaches exactly when each of its steps keeps the recovery clock. -/
theorem open_admits_after_timeout_iff (config : CircuitBreakerConfig) (name : String) (created : ℚ)
    (trace : List (Timed BreakerStep)) (s : BreakerRun)
    (run : exec BreakerRun.step (BreakerRun.start config name created) trace = some s) :
    Always BreakerRun.step AdmitsAfterTimeout (BreakerRun.start config name created) trace ↔
      Guarded BreakerRun.step KeepsRecoveryClock (BreakerRun.start config name created) trace := by
  have past : BreakerRun.Past (BreakerRun.start config name created) := by
    refine ⟨fun time recorded => ?_, fun isOpen => ?_⟩
    · cases recorded
    · cases isOpen
  have admits : AdmitsAfterTimeout (BreakerRun.start config name created) := by
    intro isOpen
    cases isOpen
  exact always_iff_guarded past admits (fun s a t inv _ => BreakerRun.Past.step s a t inv)
    BreakerRun.admitsAfterTimeout_step_iff run

/-- One failed call opens the default breaker, which then admits a call sixty seconds later. -/
theorem open_admits_after_timeout_iff_failed_call :
    ∃ s, exec BreakerRun.step (BreakerRun.start ⟨5, 2, 60, 50, 10⟩ "rpc" 0)
        [⟨.caller .arrive, 0, 0⟩, ⟨.caller (.fail none), 1, 1⟩] = some s ∧
      s.breaker.state = .opened ∧ (s.breaker.admission 61 61).2.state = .halfOpen ∧
      (Always BreakerRun.step AdmitsAfterTimeout (BreakerRun.start ⟨5, 2, 60, 50, 10⟩ "rpc" 0)
          [⟨.caller .arrive, 0, 0⟩, ⟨.caller (.fail none), 1, 1⟩] ↔
        Guarded BreakerRun.step KeepsRecoveryClock (BreakerRun.start ⟨5, 2, 60, 50, 10⟩ "rpc" 0)
          [⟨.caller .arrive, 0, 0⟩, ⟨.caller (.fail none), 1, 1⟩]) := by
  have reached : (exec BreakerRun.step (BreakerRun.start ⟨5, 2, 60, 50, 10⟩ "rpc" 0)
      [⟨.caller .arrive, 0, 0⟩, ⟨.caller (.fail none), 1, 1⟩]).map
        (fun s => (s.breaker.state, (s.breaker.admission 61 61).2.state)) = some (.opened, .halfOpen) := by
    decide +kernel
  obtain ⟨s, run, states⟩ := Option.map_eq_some_iff.mp reached
  obtain ⟨isOpen, recovered⟩ := Prod.mk.inj states
  exact ⟨s, run, isOpen, recovered, open_admits_after_timeout_iff _ _ _ _ s run⟩

/-- A breaker that is forced open before it has recorded a failure rejects every call for ever. -/
theorem forced_open_rejects_for_ever :
    ∃ s, exec BreakerRun.step (BreakerRun.start ⟨5, 2, 60, 50, 10⟩ "rpc" 0) [⟨.forceOpen, 0, 0⟩] = some s ∧
      s.breaker.state = .opened ∧
      (∀ now later, ∃ raised, (s.breaker.admission now later).1 = .error raised) ∧ ¬ AdmitsAfterTimeout s := by
  refine ⟨_, rfl, rfl, fun now later => ⟨_, rfl⟩, fun admits => ?_⟩
  have admitted := (admits rfl 60 60 (by decide) le_rfl (show (0 : ℚ) + 60 ≤ 60 by norm_num)).1
  cases admitted

end StellarFlow.Queue
