import Mathlib.Algebra.Order.Ring.Rat
import Mathlib.Algebra.Order.Field.Rat
import Mathlib.Data.Rat.Floor
import Mathlib.Tactic.Linarith
import Mathlib.Tactic.NormNum
import StellarFlow.Lib.Machine
import StellarFlow.Lib.Python
import StellarFlow.Lib.SlidingLog

/-!
# The in-memory sliding-window rate limiter

Model of `SlidingWindowRateLimiter` in `src/queue/backpressure.py`, with times in rational seconds. Each
call is one step that is given its reading of the monotonic clock. The log of a key is trimmed by whichever
call comes next, so the invariant is that a log has lost nothing a later window can contain
(`SlidingLog.Keeps`).
-/

namespace StellarFlow.Queue
open Machine SlidingLog

/-- `SlidingWindowResult`. -/
structure SlidingWindowResult where
  allowed : Bool
  remaining : ℤ
  limit : ℤ
  windowSize : ℚ
  retryAfter : ℚ
  deriving DecidableEq

/-- `SlidingWindowRateLimiter`; the constructor rejects the settings its fields exclude. -/
structure SlidingWindowRateLimiter where
  windowSize : ℚ
  maxRequests : ℕ
  window_pos : 0 < windowSize
  max_pos : 0 < maxRequests
  stores : String → Option (List ℚ)

namespace SlidingWindowRateLimiter

/-- `SlidingWindowRateLimiter.__init__`. -/
def init (windowSize : ℚ) (maxRequests : ℤ) : Except PyError SlidingWindowRateLimiter :=
  if h : windowSize ≤ 0 then .error (.valueError "window_size_s must be positive")
  else if h' : maxRequests ≤ 0 then .error (.valueError "max_requests must be positive")
  else .ok { windowSize, maxRequests := maxRequests.toNat, window_pos := not_le.mp h, max_pos := by omega,
             stores := fun _ => none }

variable (l : SlidingWindowRateLimiter)

/-- The log stored back for one key. -/
def put (key : String) (log : List ℚ) : SlidingWindowRateLimiter :=
  { l with stores := Function.update l.stores key (some log) }

/-- A result with the settings of the limiter. -/
def result (allowed : Bool) (remaining : ℤ) (retryAfter : ℚ) : SlidingWindowResult where
  allowed := allowed
  remaining := remaining
  limit := l.maxRequests
  windowSize := l.windowSize
  retryAfter := retryAfter

/-- `math.ceil(retry_after_s * 100) / 100`. -/
def roundUp (retryAfter : ℚ) : ℚ := ⌈retryAfter * 100⌉ / 100

/-- `SlidingWindowRateLimiter.allow`. -/
def allow (key : String) (now : ℚ) : SlidingWindowResult × SlidingWindowRateLimiter :=
  match l.stores key with
  | none => (l.result true (l.maxRequests - 1) 0, l.put key [now])
  | some timestamps =>
    let valid := live (now - l.windowSize) timestamps
    if valid.length < l.maxRequests then
      (l.result true (max 0 ((l.maxRequests : ℤ) - valid.length - 1)) 0, l.put key (valid ++ [now]))
    else
      let earliest := valid.headD now
      (l.result false 0 (roundUp (max 0 (l.windowSize - (now - earliest)))), l.put key valid)

/-- `SlidingWindowRateLimiter.check`. -/
def check (key : String) (now : ℚ) : SlidingWindowResult × SlidingWindowRateLimiter :=
  match l.stores key with
  | none => (l.result true l.maxRequests 0, l)
  | some timestamps =>
    match live (now - l.windowSize) timestamps with
    | [] => (l.result (decide (l.maxRequests > 0)) l.maxRequests (roundUp 0), l.put key [])
    | earliest :: later =>
      let remaining : ℤ := max 0 ((l.maxRequests : ℤ) - (earliest :: later).length)
      (l.result (decide (remaining > 0)) remaining (roundUp (max 0 (l.windowSize - (now - earliest)))),
        l.put key (earliest :: later))

/-- `SlidingWindowRateLimiter.remaining`. -/
def remaining (key : String) (now : ℚ) : ℤ × SlidingWindowRateLimiter :=
  match l.stores key with
  | none => (l.maxRequests, l)
  | some timestamps =>
    let valid := live (now - l.windowSize) timestamps
    (max 0 ((l.maxRequests : ℤ) - valid.length), l.put key valid)

end SlidingWindowRateLimiter

/-- The method a call invokes. -/
inductive LimiterMethod where
  | allow
  | check
  | remaining
  deriving DecidableEq

/-- A call on the limiter with its reading of the clock. -/
structure LimiterCall where
  method : LimiterMethod
  key : String
  now : ℚ

/-- A limiter together with the latest clock reading and the times of the granted `allow` calls. -/
structure LimiterRun where
  limiter : SlidingWindowRateLimiter
  clock : ℚ
  granted : String → List ℚ

namespace LimiterRun

/-- A limiter before its first call. -/
def start (limiter : SlidingWindowRateLimiter) (clock : ℚ) : LimiterRun where
  limiter := limiter
  clock := clock
  granted := fun _ => []

/-- The grants so far after one more answer of `allow`. -/
def record (granted : String → List ℚ) (key : String) (now : ℚ) (allowed : Bool) : String → List ℚ :=
  if allowed then Function.update granted key (granted key ++ [now]) else granted

/-- One call; the clock never runs backwards. -/
def step (s : LimiterRun) (call : LimiterCall) : Option LimiterRun :=
  if call.now < s.clock then none
  else match call.method with
    | .allow =>
      let (result, limiter) := s.limiter.allow call.key call.now
      some { limiter, clock := call.now, granted := record s.granted call.key call.now result.allowed }
    | .check => some { s with limiter := (s.limiter.check call.key call.now).2, clock := call.now }
    | .remaining => some { s with limiter := (s.limiter.remaining call.key call.now).2, clock := call.now }

end LimiterRun

namespace SlidingWindowRateLimiter
variable (l : SlidingWindowRateLimiter)

/-- The log of a key; a key without one behaves as one with an empty log. -/
def log (key : String) : List ℚ := (l.stores key).getD []

/-- The same settings. -/
structure SameSettings (l l' : SlidingWindowRateLimiter) : Prop where
  windowSize : l'.windowSize = l.windowSize
  maxRequests : l'.maxRequests = l.maxRequests

/-- The log of a key is the one put there. -/
@[simp] lemma log_put_self (key : String) (log : List ℚ) : (l.put key log).log key = log := by
  simp [SlidingWindowRateLimiter.log, put]

/-- Other keys keep their logs. -/
lemma log_put_of_ne {key other : String} (ne : other ≠ key) (log : List ℚ) :
    (l.put key log).log other = l.log other := by
  simp [SlidingWindowRateLimiter.log, put, ne]

/-- The settings stay. -/
lemma sameSettings_put (key : String) (log : List ℚ) : SameSettings l (l.put key log) := ⟨rfl, rfl⟩

/-- `allow` grants, and logs the grant, exactly while fewer than the limit are live. -/
lemma allow_spec (key : String) (now : ℚ) :
    SameSettings l (l.allow key now).2 ∧ (∀ other, other ≠ key → (l.allow key now).2.log other = l.log other) ∧
    (if (live (now - l.windowSize) (l.log key)).length < l.maxRequests then
      (l.allow key now).1.allowed = true ∧
        (l.allow key now).2.log key = live (now - l.windowSize) (l.log key) ++ [now]
    else
      (l.allow key now).1.allowed = false ∧
        (l.allow key now).2.log key = live (now - l.windowSize) (l.log key) ∧
        (l.allow key now).1.retryAfter = roundUp (max 0 (l.windowSize -
          (now - (live (now - l.windowSize) (l.log key)).headD now)))) := by
  cases stored : l.stores key with
  | none =>
    have empty : l.log key = [] := by rw [log, stored]; rfl
    simp only [allow, stored, empty]
    rw [if_pos (show (live _ []).length < l.maxRequests from l.max_pos)]
    exact ⟨l.sameSettings_put .., fun other ne => l.log_put_of_ne ne _, rfl, l.log_put_self ..⟩
  | some timestamps =>
    have kept : l.log key = timestamps := by rw [log, stored]; rfl
    simp only [allow, stored, kept]
    split
    · exact ⟨l.sameSettings_put .., fun other ne => l.log_put_of_ne ne _, rfl, l.log_put_self ..⟩
    · exact ⟨l.sameSettings_put .., fun other ne => l.log_put_of_ne ne _, rfl, l.log_put_self .., rfl⟩

/-- A request is allowed where fewer than the most live in the window. -/
lemma allow_allowed (key : String) (now : ℚ) :
    (l.allow key now).1.allowed = true ↔
      (live (now - l.windowSize) (l.log key)).length < l.maxRequests := by
  obtain ⟨-, -, outcome⟩ := l.allow_spec key now
  split at outcome
  · rename_i room
    exact ⟨fun _ => room, fun _ => outcome.1⟩
  · rename_i full
    rw [outcome.1]
    exact ⟨fun granted => absurd granted Bool.false_ne_true, fun room => absurd room full⟩

/-- A check says the same. -/
lemma check_allowed (key : String) (now : ℚ) :
    (l.check key now).1.allowed = true ↔
      (live (now - l.windowSize) (l.log key)).length < l.maxRequests := by
  cases stored : l.stores key with
  | none =>
    have empty : l.log key = [] := by rw [log, stored]; rfl
    simp only [check, stored, empty]
    exact ⟨fun _ => l.max_pos, fun _ => rfl⟩
  | some timestamps =>
    have kept : l.log key = timestamps := by rw [log, stored]; rfl
    simp only [check, stored, kept]
    cases live (now - l.windowSize) timestamps with
    | nil => exact ⟨fun _ => l.max_pos, fun _ => decide_eq_true l.max_pos⟩
    | cons earliest later =>
      simp only [result, gt_iff_lt, decide_eq_true_eq]
      omega

/-- A call that leaves the log of its key as it is, or trims it, and touches nothing else. -/
structure Trims (now : ℚ) (key : String) (l' : SlidingWindowRateLimiter) : Prop where
  settings : SameSettings l l'
  others : ∀ other, other ≠ key → l'.log other = l.log other
  own : l'.log key = l.log key ∨ l'.log key = live (now - l.windowSize) (l.log key)

/-- Nothing has to be trimmed. -/
lemma trims_refl (key : String) (now : ℚ) : Trims l now key l := ⟨⟨rfl, rfl⟩, fun _ _ => rfl, .inl rfl⟩

/-- What is past the window may be trimmed. -/
lemma trims_put {key : String} {timestamps : List ℚ} (stored : l.stores key = some timestamps) (now : ℚ) :
    Trims l now key (l.put key (live (now - l.windowSize) timestamps)) where
  settings := l.sameSettings_put ..
  others := fun other ne => l.log_put_of_ne ne _
  own := .inr (by rw [log_put_self, log, stored]; rfl)

/-- A check does no more than trim. -/
lemma check_trims (key : String) (now : ℚ) : Trims l now key (l.check key now).2 := by
  cases stored : l.stores key with
  | none =>
    simp only [check, stored]
    exact l.trims_refl key now
  | some timestamps =>
    have trimmed := l.trims_put stored now
    simp only [check, stored]
    cases valid : live (now - l.windowSize) timestamps with
    | nil =>
      rw [valid] at trimmed
      exact trimmed
    | cons earliest later =>
      rw [valid] at trimmed
      exact trimmed

/-- `remaining` does no more than trim. -/
lemma remaining_trims (key : String) (now : ℚ) : Trims l now key (l.remaining key now).2 := by
  cases stored : l.stores key with
  | none =>
    simp only [remaining, stored]
    exact l.trims_refl key now
  | some timestamps =>
    simp only [remaining, stored]
    exact l.trims_put stored now

/-- Rounding up goes to no less. -/
lemma le_roundUp (x : ℚ) : x ≤ roundUp x := by
  have ceil := Int.le_ceil (x * 100)
  rw [roundUp, le_div_iff₀ (by norm_num)]
  exact ceil

end SlidingWindowRateLimiter

namespace LimiterRun
variable {s t : LimiterRun} {call : LimiterCall}

/-- What one call does: it trims the log of its key, or it is an `allow` that grants and logs. -/
lemma step_cases (stepped : s.step call = some t) :
    s.clock ≤ call.now ∧ t.clock = call.now ∧ s.limiter.SameSettings t.limiter ∧
    (∀ key, key ≠ call.key → t.limiter.log key = s.limiter.log key ∧ t.granted key = s.granted key) ∧
    ((t.granted call.key = s.granted call.key ∧
        (t.limiter.log call.key = s.limiter.log call.key ∨
          t.limiter.log call.key = live (call.now - s.limiter.windowSize) (s.limiter.log call.key))) ∨
      ((live (call.now - s.limiter.windowSize) (s.limiter.log call.key)).length < s.limiter.maxRequests ∧
        t.granted call.key = s.granted call.key ++ [call.now] ∧
        t.limiter.log call.key =
          live (call.now - s.limiter.windowSize) (s.limiter.log call.key) ++ [call.now])) := by
  rcases call with ⟨method, key, now⟩
  rw [step] at stepped
  split at stepped
  · cases stepped
  · rename_i forward
    refine ⟨not_lt.mp forward, ?_⟩
    cases method with
    | allow =>
      cases stepped
      obtain ⟨settings, others, outcome⟩ := s.limiter.allow_spec key now
      split at outcome
      · rename_i room
        obtain ⟨allowed, logged⟩ := outcome
        refine ⟨rfl, settings, fun other ne => ⟨others other ne, ?_⟩, .inr ⟨room, ?_, logged⟩⟩
        · show record s.granted key now (s.limiter.allow key now).1.allowed other = s.granted other
          rw [allowed]
          exact Function.update_of_ne ne _ _
        · show record s.granted key now (s.limiter.allow key now).1.allowed key = s.granted key ++ [now]
          rw [allowed]
          exact Function.update_self ..
      · obtain ⟨denied, trimmed, -⟩ := outcome
        have granted : record s.granted key now (s.limiter.allow key now).1.allowed = s.granted := by
          rw [denied]
          rfl
        exact ⟨rfl, settings, fun other ne => ⟨others other ne, congrFun granted other⟩,
          .inl ⟨congrFun granted key, .inr trimmed⟩⟩
    | check =>
      cases stepped
      obtain ⟨settings, others, own⟩ := s.limiter.check_trims key now
      exact ⟨rfl, settings, fun other ne => ⟨others other ne, rfl⟩, .inl ⟨rfl, own⟩⟩
    | remaining =>
      cases stepped
      obtain ⟨settings, others, own⟩ := s.limiter.remaining_trims key now
      exact ⟨rfl, settings, fun other ne => ⟨others other ne, rfl⟩, .inl ⟨rfl, own⟩⟩

/-- The invariant: every log has what later windows need, and no window is overfull. -/
structure Inv (s : LimiterRun) : Prop where
  keeps : ∀ key, Keeps s.limiter.windowSize s.clock (s.granted key) (s.limiter.log key)
  atMost : ∀ key, AtMost s.limiter.maxRequests s.limiter.windowSize (s.granted key)

/-- Each call keeps what holds of the logs. -/
lemma Inv.step (s : LimiterRun) (call : LimiterCall) (t : LimiterRun) (inv : Inv s)
    (stepped : s.step call = some t) : Inv t := by
  obtain ⟨forward, clock, settings, others, own⟩ := step_cases stepped
  constructor
  · intro key
    rw [settings.windowSize, clock]
    by_cases same : key = call.key
    · subst same
      obtain ⟨granted, kept | trimmed⟩ | ⟨-, granted, logged⟩ := own
      · rw [granted, kept]
        exact (inv.keeps _).advance forward
      · rw [granted, trimmed]
        exact (inv.keeps _).evict forward
      · rw [granted, logged]
        exact (inv.keeps _).grant forward
    · rw [(others key same).1, (others key same).2]
      exact (inv.keeps key).advance forward
  · intro key
    rw [settings.windowSize, settings.maxRequests]
    by_cases same : key = call.key
    · subst same
      obtain ⟨granted, -⟩ | ⟨room, granted, -⟩ := own
      · rw [granted]
        exact inv.atMost _
      · rw [granted]
        exact (inv.atMost _).grant (inv.keeps _) forward room
    · rw [(others key same).2]
      exact inv.atMost key

/-- Calls on other keys leave the log of a key alone. -/
lemma log_of_other_calls {key : String} {rest : List LimiterCall}
    (run : exec LimiterRun.step s rest = some t) (others : ∀ call ∈ rest, call.key ≠ key) :
    t.limiter.log key = s.limiter.log key ∧ s.limiter.SameSettings t.limiter := by
  induction rest generalizing s with
  | nil =>
    cases run
    exact ⟨rfl, rfl, rfl⟩
  | cons call rest ih =>
    rw [exec_cons, Option.bind_eq_some_iff] at run
    obtain ⟨u, first, last⟩ := run
    obtain ⟨-, -, settings, frame, -⟩ := step_cases first
    obtain ⟨log, settings'⟩ := ih last fun c mem => others c (List.mem_cons_of_mem _ mem)
    have untouched := (frame key (Ne.symm (others call List.mem_cons_self))).1
    exact ⟨log.trans untouched, settings'.windowSize.trans settings.windowSize,
      settings'.maxRequests.trans settings.maxRequests⟩

/-- After a denial the first of the live grants has left the window once the retry time has passed. -/
lemma granted_after_retry {key : String} {now now' : ℚ} (inv : Inv s) (forward : s.clock ≤ now)
    (denied : (s.limiter.allow key now).1.allowed = false)
    (later : now + (s.limiter.allow key now).1.retryAfter ≤ now') :
    (live (now' - s.limiter.windowSize) ((s.limiter.allow key now).2.log key)).length <
      s.limiter.maxRequests := by
  obtain ⟨-, -, outcome⟩ := s.limiter.allow_spec key now
  have bound := (inv.keeps key).length_live_le forward (inv.atMost key)
  split at outcome
  · exact absurd (denied.symm.trans outcome.1) Bool.false_ne_true
  · rename_i full
    obtain ⟨-, trimmed, retry⟩ := outcome
    rw [trimmed]
    have pos := s.limiter.max_pos
    cases valid : live (now - s.limiter.windowSize) (s.limiter.log key) with
    | nil =>
      rw [valid, List.length_nil] at full
      exact absurd pos full
    | cons earliest rest =>
      rw [valid] at bound full retry
      have wait := SlidingWindowRateLimiter.le_roundUp
        (max 0 (s.limiter.windowSize - (now - (earliest :: rest).headD now)))
      rw [← retry] at wait
      have elapsed : s.limiter.windowSize - (now - earliest) ≤ _ := (le_max_right _ _).trans wait
      have expired : earliest ≤ now' - s.limiter.windowSize := by linarith
      exact Nat.lt_of_lt_of_le (length_live_lt expired) bound

end LimiterRun

/-- In every reachable state: no window of any key holds more grants than the limit, `check` answers as
`allow` would, and an `allow` repeated once the retry time has passed since a denial, with only calls on
other keys in between, is granted. -/
theorem slidingWindow_guarantees (windowSize : ℚ) (maxRequests : ℤ) (limiter : SlidingWindowRateLimiter)
    (created : SlidingWindowRateLimiter.init windowSize maxRequests = .ok limiter) (clock : ℚ)
    (calls : List LimiterCall) (s : LimiterRun)
    (run : exec LimiterRun.step (LimiterRun.start limiter clock) calls = some s) :
    (∀ key t, (((s.granted key).filter fun g => decide (t - windowSize < g ∧ g ≤ t)).length : ℤ) ≤
      maxRequests) ∧
    (∀ key now, s.clock ≤ now →
      (s.limiter.check key now).1.allowed = (s.limiter.allow key now).1.allowed) ∧
    ∀ key now denial rest s', s.step ⟨.allow, key, now⟩ = some denial →
      (s.limiter.allow key now).1.allowed = false →
      exec LimiterRun.step denial rest = some s' → (∀ call ∈ rest, call.key ≠ key) →
      ∀ now', s'.clock ≤ now' → now + (s.limiter.allow key now).1.retryAfter ≤ now' →
        (s'.limiter.allow key now').1.allowed = true := by
  have settings : limiter.windowSize = windowSize ∧ (limiter.maxRequests : ℤ) = maxRequests ∧
      limiter.stores = fun _ => none := by
    rw [SlidingWindowRateLimiter.init] at created
    split at created
    · cases created
    · split at created
      · cases created
      · rename_i positive
        cases created
        exact ⟨rfl, Int.toNat_of_nonneg (le_of_not_ge positive), rfl⟩
  obtain ⟨window, limit, empty⟩ := settings
  have init : LimiterRun.Inv (LimiterRun.start limiter clock) := by
    refine ⟨fun key => ?_, fun key => AtMost.nil _ _⟩
    have log : limiter.log key = [] := by rw [SlidingWindowRateLimiter.log, empty]; rfl
    show Keeps limiter.windowSize clock [] (limiter.log key)
    rw [log]
    exact Keeps.nil _ _
  have same : limiter.SameSettings s.limiter := by
    refine exec_invariant (I := fun t => limiter.SameSettings t.limiter) ⟨rfl, rfl⟩ ?_ run
    intro u call t before stepped
    obtain ⟨-, -, after, -⟩ := LimiterRun.step_cases stepped
    exact ⟨after.windowSize.trans before.windowSize, after.maxRequests.trans before.maxRequests⟩
  have inv := exec_invariant init LimiterRun.Inv.step run
  refine ⟨fun key t => ?_, fun key now _ => ?_, ?_⟩
  · have bound := inv.atMost key t
    rw [same.windowSize, window, same.maxRequests, inWindow] at bound
    rw [← limit]
    exact_mod_cast bound
  · rw [Bool.eq_iff_iff, SlidingWindowRateLimiter.check_allowed, SlidingWindowRateLimiter.allow_allowed]
  · intro key now denial rest s' stepped denied run' others now' _ later
    obtain ⟨forward, -, settings, -⟩ := LimiterRun.step_cases stepped
    obtain ⟨log, settings'⟩ := LimiterRun.log_of_other_calls run' others
    have room := LimiterRun.granted_after_retry inv forward denied later
    have left : denial.limiter = (s.limiter.allow key now).2 := by
      rw [LimiterRun.step, if_neg (not_lt.mpr forward)] at stepped
      cases stepped
      rfl
    rw [SlidingWindowRateLimiter.allow_allowed, log, settings'.windowSize, settings'.maxRequests,
      settings.windowSize, settings.maxRequests, left]
    exact room

/-- A limit of one per second: the grant at 0.25 s makes a call at 1 s wait for another 0.25 s. -/
theorem slidingWindow_guarantees_retry :
    ∃ limiter s, SlidingWindowRateLimiter.init 1 1 = .ok limiter ∧
      exec LimiterRun.step (LimiterRun.start limiter 0)
        [⟨.allow, "us-east-1", 1 / 4⟩, ⟨.remaining, "us-east-1", 1 / 2⟩] = some s ∧
      (s.limiter.allow "us-east-1" 1).1 = ⟨false, 0, 1, 1, 1 / 4⟩ ∧
      (∀ key t, (((s.granted key).filter fun g => decide (t - 1 < g ∧ g ≤ t)).length : ℤ) ≤ 1) ∧
      ∀ denial, s.step ⟨.allow, "us-east-1", 1⟩ = some denial →
        (denial.limiter.allow "us-east-1" (5 / 4)).1.allowed = true := by
  have created : SlidingWindowRateLimiter.init 1 1 =
      .ok ⟨1, 1, by decide, by decide, fun _ => none⟩ := rfl
  have answer : (exec LimiterRun.step (LimiterRun.start ⟨1, 1, by decide, by decide, fun _ => none⟩ 0)
      [⟨.allow, "us-east-1", 1 / 4⟩, ⟨.remaining, "us-east-1", 1 / 2⟩]).map
        (fun s => (s.limiter.allow "us-east-1" 1).1) = some ⟨false, 0, 1, 1, 1 / 4⟩ := by
    decide +kernel
  obtain ⟨s, run, denied⟩ := Option.map_eq_some_iff.mp answer
  obtain ⟨atMost, -, retry⟩ := slidingWindow_guarantees 1 1 _ created 0 _ s run
  refine ⟨_, s, created, run, denied, atMost, fun denial stepped => ?_⟩
  refine retry "us-east-1" 1 denial [] denial stepped (by rw [denied]) rfl
    (fun _ mem => absurd mem List.not_mem_nil) (5 / 4) ?_ (by rw [denied]; norm_num)
  rw [(LimiterRun.step_cases stepped).2.1]
  norm_num

end StellarFlow.Queue
