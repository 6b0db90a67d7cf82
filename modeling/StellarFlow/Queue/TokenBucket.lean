import Mathlib.Algebra.Order.Ring.Rat
import Mathlib.Algebra.Order.Field.Rat
import Mathlib.Data.Rat.Floor
import Mathlib.Tactic.NormNum
import StellarFlow.Lib.Machine
import StellarFlow.Lib.Metering
import StellarFlow.Lib.Python

/-!
# The token bucket rate limiter

Model of `TokenBucketRateLimiter` in `src/queue/backpressure.py`, with rational amounts and times. Each
`allow` is one step that is given its reading of the monotonic clock. A tenant's bucket is an account in the
sense of `Metering`, refilled at every call whether or not the call is granted.
-/

namespace StellarFlow.Queue
open Machine Metering

/-- `TokenBucketResult`. -/
structure TokenBucketResult where
  allowed : Bool
  remaining : ℤ
  retryAfter : ℚ
  deriving DecidableEq

/-- `TokenBucketRateLimiter`; the constructor rejects the settings its fields exclude. -/
structure TokenBucketRateLimiter where
  capacity : ℚ
  refillRate : ℚ
  capacity_pos : 0 < capacity
  rate_pos : 0 < refillRate
  buckets : String → Option (ℚ × ℚ)

namespace TokenBucketRateLimiter

/-- `TokenBucketRateLimiter.__init__`. -/
def init (capacity refillRate : ℚ) : Except PyError TokenBucketRateLimiter :=
  if h : capacity ≤ 0 then .error (.valueError "capacity must be positive")
  else if h' : refillRate ≤ 0 then .error (.valueError "refill_rate must be positive")
  else .ok { capacity, refillRate, capacity_pos := Rat.not_le.mp h, rate_pos := Rat.not_le.mp h',
             buckets := fun _ => none }

variable (l : TokenBucketRateLimiter)

/-- The tokens of a tenant refilled up to an instant; a new tenant starts with a full bucket. -/
def newTokens (tenantId : String) (now : ℚ) : ℚ :=
  let (currentTokens, lastRefill) := (l.buckets tenantId).getD (l.capacity, now)
  let elapsed := now - lastRefill
  min l.capacity (currentTokens + elapsed * l.refillRate)

/-- The bucket stored back for one tenant. -/
def put (tenantId : String) (level now : ℚ) : TokenBucketRateLimiter :=
  { l with buckets := Function.update l.buckets tenantId (some (level, now)) }

/-- `TokenBucketRateLimiter.allow`; levels are never negative, so `int` rounds them down. -/
def allow (tenantId : String) (tokens now : ℚ) : TokenBucketResult × TokenBucketRateLimiter :=
  let newTokens := l.newTokens tenantId now
  if newTokens ≥ tokens then
    ({ allowed := true, remaining := ⌊newTokens - tokens⌋, retryAfter := 0 },
      l.put tenantId (newTokens - tokens) now)
  else
    let missing := tokens - newTokens
    ({ allowed := false, remaining := ⌊newTokens⌋, retryAfter := missing / l.refillRate },
      l.put tenantId newTokens now)

variable {l} in
/-- Other tenants keep their buckets. -/
lemma buckets_put_of_ne {tenantId other : String} {level now : ℚ} (ne : other ≠ tenantId) :
    (l.put tenantId level now).buckets other = l.buckets other :=
  Function.update_of_ne ne _ _

end TokenBucketRateLimiter

/-- A call of `allow` with its reading of the clock. -/
structure TokenCall where
  tenantId : String
  tokens : ℚ
  now : ℚ

/-- A limiter together with the latest clock reading and the tokens granted to each tenant, with the time of
each grant. -/
structure TokenRun where
  limiter : TokenBucketRateLimiter
  clock : ℚ
  granted : String → List (ℚ × ℚ)

namespace TokenRun

/-- A limiter before its first call. -/
def start (limiter : TokenBucketRateLimiter) (clock : ℚ) : TokenRun where
  limiter := limiter
  clock := clock
  granted := fun _ => []

/-- The grants so far after one more answer. -/
def record (granted : String → List (ℚ × ℚ)) (call : TokenCall) (allowed : Bool) : String → List (ℚ × ℚ) :=
  if allowed then
    Function.update granted call.tenantId (granted call.tenantId ++ [(call.now, call.tokens)])
  else granted

/-- One call, for a non-negative amount; the clock never runs backwards. -/
def step (s : TokenRun) (call : TokenCall) : Option TokenRun :=
  if call.now < s.clock ∨ call.tokens < 0 then none
  else
    let (result, limiter) := s.limiter.allow call.tenantId call.tokens call.now
    some { limiter, clock := call.now, granted := record s.granted call result.allowed }

end TokenRun

/-- The bucket of a tenant is an account of what the tenant was granted; a tenant without one has a full
account. -/
def Metered (s : TokenRun) (tenantId : String) : Prop :=
  match s.limiter.buckets tenantId with
  | none => s.granted tenantId = []
  | some (level, last) => last ≤ s.clock ∧
      Account s.limiter.capacity s.limiter.refillRate level last (s.granted tenantId)

/-- The account a call works on. -/
lemma Metered.account {s : TokenRun} {tenantId : String} {now : ℚ} (metered : Metered s tenantId)
    (forward : s.clock ≤ now) :
    Account s.limiter.capacity s.limiter.refillRate (s.limiter.newTokens tenantId now) now
      (s.granted tenantId) := by
  have gains := s.limiter.rate_pos.le
  rw [Metered] at metered
  rw [TokenBucketRateLimiter.newTokens]
  cases stored : s.limiter.buckets tenantId with
  | none =>
    rw [stored] at metered
    rw [show s.granted tenantId = [] from metered]
    exact (Account.full s.limiter.capacity_pos.le gains now).refill gains le_rfl
  | some bucket =>
    rw [stored] at metered
    obtain ⟨past, account⟩ := metered
    exact account.refill gains (past.trans forward)

/-- What one call does: it settles the tenant's account, with or without a grant. -/
lemma TokenRun.step_cases {s t : TokenRun} {call : TokenCall} (stepped : s.step call = some t) :
    s.clock ≤ call.now ∧ 0 ≤ call.tokens ∧
    ((call.tokens ≤ s.limiter.newTokens call.tenantId call.now ∧
        t = { limiter := s.limiter.put call.tenantId
                (s.limiter.newTokens call.tenantId call.now - call.tokens) call.now
              clock := call.now
              granted := Function.update s.granted call.tenantId
                (s.granted call.tenantId ++ [(call.now, call.tokens)]) }) ∨
      t = { limiter := s.limiter.put call.tenantId (s.limiter.newTokens call.tenantId call.now) call.now
            clock := call.now
            granted := s.granted }) := by
  rw [step] at stepped
  split at stepped
  · cases stepped
  · rename_i valid
    obtain ⟨forward, nonneg⟩ := not_or.mp valid
    refine ⟨not_lt.mp forward, not_lt.mp nonneg, ?_⟩
    by_cases covered : call.tokens ≤ s.limiter.newTokens call.tenantId call.now
    · left
      simp only [TokenBucketRateLimiter.allow, ge_iff_le, if_pos covered, record, if_true] at stepped
      exact ⟨covered, (Option.some.inj stepped).symm⟩
    · right
      simp only [TokenBucketRateLimiter.allow, ge_iff_le, if_neg covered, record, Bool.false_eq_true,
        if_false] at stepped
      exact (Option.some.inj stepped).symm

/-- A tenant that a call is not about keeps its account. -/
lemma Metered.frame {s : TokenRun} {tenantId other : String} {level now : ℚ}
    {granted : String → List (ℚ × ℚ)} (metered : Metered s other) (forward : s.clock ≤ now)
    (ne : other ≠ tenantId) (same : granted other = s.granted other) :
    Metered { limiter := s.limiter.put tenantId level now, clock := now, granted } other := by
  rw [Metered] at metered ⊢
  rw [TokenBucketRateLimiter.buckets_put_of_ne ne]
  cases bucket : s.limiter.buckets other with
  | none =>
    rw [bucket] at metered
    exact same.trans metered
  | some bucket' =>
    rw [bucket, ← same] at metered
    exact ⟨metered.1.trans forward, metered.2⟩

/-- The tenant a call is about has the account the call leaves. -/
lemma Metered.settled {s : TokenRun} {tenantId : String} {level now : ℚ} {granted : String → List (ℚ × ℚ)}
    (account : Account s.limiter.capacity s.limiter.refillRate level now (granted tenantId)) :
    Metered { limiter := s.limiter.put tenantId level now, clock := now, granted } tenantId := by
  have stored : (s.limiter.put tenantId level now).buckets tenantId = some (level, now) :=
    Function.update_self ..
  rw [Metered, stored]
  exact ⟨le_rfl, account⟩

/-- Each call keeps the tenants metered. -/
lemma Metered.step (s : TokenRun) (call : TokenCall) (t : TokenRun) (metered : ∀ tenantId, Metered s tenantId)
    (stepped : s.step call = some t) : ∀ tenantId, Metered t tenantId := by
  intro tenantId
  obtain ⟨forward, nonneg, ⟨covered, rfl⟩ | rfl⟩ := TokenRun.step_cases stepped
  · by_cases same : tenantId = call.tenantId
    · subst same
      apply Metered.settled
      rw [Function.update_self]
      exact ((metered _).account forward).spend s.limiter.rate_pos.le nonneg covered
    · exact (metered tenantId).frame forward same (Function.update_of_ne same _ _)
  · by_cases same : tenantId = call.tenantId
    · subst same
      exact Metered.settled ((metered _).account forward)
    · exact (metered tenantId).frame forward same rfl

/-- No call changes the settings. -/
lemma settings_step {capacity refillRate : ℚ} (s : TokenRun) (call : TokenCall) (t : TokenRun)
    (settings : s.limiter.capacity = capacity ∧ s.limiter.refillRate = refillRate)
    (stepped : s.step call = some t) :
    t.limiter.capacity = capacity ∧ t.limiter.refillRate = refillRate := by
  obtain ⟨-, -, ⟨-, rfl⟩ | rfl⟩ := TokenRun.step_cases stepped
  · exact settings
  · exact settings

/-- In every reachable state each tenant's level is between zero and the capacity, and over every interval
the tenant was granted at most the capacity and the refill of the interval. -/
theorem tokenBucket_conforms (capacity refillRate : ℚ) (limiter : TokenBucketRateLimiter)
    (created : TokenBucketRateLimiter.init capacity refillRate = .ok limiter) (clock : ℚ)
    (calls : List TokenCall) (s : TokenRun)
    (run : exec TokenRun.step (TokenRun.start limiter clock) calls = some s) (tenantId : String) :
    (∀ level last, s.limiter.buckets tenantId = some (level, last) → 0 ≤ level ∧ level ≤ capacity) ∧
      ∀ t₁ t₂, t₁ ≤ t₂ →
        (((s.granted tenantId).filter fun g => decide (t₁ ≤ g.1 ∧ g.1 ≤ t₂)).map Prod.snd).sum ≤
          capacity + refillRate * (t₂ - t₁) := by
  have fresh : (limiter.capacity = capacity ∧ limiter.refillRate = refillRate) ∧
      limiter.buckets = fun _ => none := by
    rw [TokenBucketRateLimiter.init] at created
    split at created
    · cases created
    · split at created
      · cases created
      · cases created
        exact ⟨⟨rfl, rfl⟩, rfl⟩
  obtain ⟨settings, empty⟩ := fresh
  have init : ∀ tenantId, Metered (TokenRun.start limiter clock) tenantId := by
    intro tenantId
    rw [Metered, show (TokenRun.start limiter clock).limiter.buckets = _ from empty]
    rfl
  have metered := exec_invariant init Metered.step run tenantId
  obtain ⟨cap, rate⟩ := exec_invariant (I := fun t => t.limiter.capacity = capacity ∧
    t.limiter.refillRate = refillRate) settings settings_step run
  rw [Metered] at metered
  cases stored : s.limiter.buckets tenantId with
  | none =>
    rw [stored] at metered
    have unused := (Account.full s.limiter.capacity_pos.le s.limiter.rate_pos.le clock).conforms
    rw [show s.granted tenantId = [] from metered, ← cap, ← rate]
    refine ⟨fun level last found => ?_, unused⟩
    cases found
  | some bucket =>
    rw [stored] at metered
    obtain ⟨-, account⟩ := metered
    rw [cap, rate] at account
    refine ⟨fun level last found => ?_, account.conforms⟩
    cases found
    exact ⟨account.nonneg, account.le_cap⟩

/-- A bucket of ten tokens that gains two a second: emptied, refused too early, and used again. -/
theorem tokenBucket_conforms_refilled :
    ∃ limiter s, TokenBucketRateLimiter.init 10 2 = .ok limiter ∧
      exec TokenRun.step (TokenRun.start limiter 0)
        [⟨"tenant-a", 10, 0⟩, ⟨"tenant-a", 2, 1 / 2⟩, ⟨"tenant-a", 2, 1⟩] = some s ∧
      s.granted "tenant-a" = [(0, 10), (1, 2)] ∧ s.limiter.buckets "tenant-a" = some (0, 1) ∧
      ∀ t₁ t₂, t₁ ≤ t₂ →
        (((s.granted "tenant-a").filter fun g => decide (t₁ ≤ g.1 ∧ g.1 ≤ t₂)).map Prod.snd).sum ≤
          10 + 2 * (t₂ - t₁) := by
  have created : TokenBucketRateLimiter.init 10 2 = .ok ⟨10, 2, by decide, by decide, fun _ => none⟩ := rfl
  have answer : (exec TokenRun.step (TokenRun.start ⟨10, 2, by decide, by decide, fun _ => none⟩ 0)
      [⟨"tenant-a", 10, 0⟩, ⟨"tenant-a", 2, 1 / 2⟩, ⟨"tenant-a", 2, 1⟩]).map
        (fun s => (s.granted "tenant-a", s.limiter.buckets "tenant-a")) =
      some ([(0, 10), (1, 2)], some (0, 1)) := by
    decide +kernel
  obtain ⟨s, run, reached⟩ := Option.map_eq_some_iff.mp answer
  obtain ⟨granted, bucket⟩ := Prod.mk.inj reached
  exact ⟨_, s, created, run, granted, bucket, (tokenBucket_conforms 10 2 _ created 0 _ s run "tenant-a").2⟩

namespace TokenBucketRateLimiter
variable (l : TokenBucketRateLimiter)

/-- `TokenBucketRateLimiter.reset`. -/
def reset (tenantId : String) : TokenBucketRateLimiter :=
  { l with buckets := Function.update l.buckets tenantId none }

/-- `TokenBucketRateLimiter.reset_all`. -/
def resetAll : TokenBucketRateLimiter :=
  { l with buckets := fun _ => none }

end TokenBucketRateLimiter

/-- A call of the limiter that may change it. -/
inductive TokenMove where
  | allow (call : TokenCall)
  | reset (tenantId : String)
  | resetAll

/-- The tenant a call is made for. -/
def TokenMove.tenant? : TokenMove → Option String
  | .allow call => some call.tenantId
  | .reset tenantId => some tenantId
  | .resetAll => none

namespace TokenBucketRateLimiter

/-- One call on a limiter with its latest clock reading; the clock never runs backwards. -/
def step (s : TokenBucketRateLimiter × ℚ) : TokenMove → Option (TokenBucketRateLimiter × ℚ)
  | .allow call =>
    if call.now < s.2 then none else some ((s.1.allow call.tenantId call.tokens call.now).2, call.now)
  | .reset tenantId => some (s.1.reset tenantId, s.2)
  | .resetAll => some (s.1.resetAll, s.2)

variable {l : TokenBucketRateLimiter} {tenantId : String} {tokens now : ℚ}

/-- A bucket never has more than its capacity. -/
lemma newTokens_le_capacity : l.newTokens tenantId now ≤ l.capacity :=
  min_le_left _ _

/-- A call is allowed where its tokens are there. -/
lemma allow_eq : (l.allow tenantId tokens now).1.allowed = true ↔ tokens ≤ l.newTokens tenantId now := by
  by_cases covered : tokens ≤ l.newTokens tenantId now
  · simp [allow, covered]
  · simp [allow, covered]

/-- A refused call keeps the refilled level and names the time that makes up for what is missing. -/
lemma allow_denied (denied : (l.allow tenantId tokens now).1.allowed = false) :
    l.newTokens tenantId now < tokens ∧
      (l.allow tenantId tokens now).1.retryAfter = (tokens - l.newTokens tenantId now) / l.refillRate ∧
      (l.allow tenantId tokens now).2 = l.put tenantId (l.newTokens tenantId now) now := by
  have short : ¬tokens ≤ l.newTokens tenantId now := by
    rw [← allow_eq, denied]
    exact Bool.false_ne_true
  refine ⟨not_le.mp short, ?_, ?_⟩
  · simp [allow, short]
  · simp [allow, short]

/-- A call sets the level of its tenant. -/
lemma allow_limiter (l : TokenBucketRateLimiter) (tenantId : String) (tokens now : ℚ) :
    ∃ level, (l.allow tenantId tokens now).2 = l.put tenantId level now := by
  by_cases covered : tokens ≤ l.newTokens tenantId now
  · exact ⟨l.newTokens tenantId now - tokens, by simp [allow, covered]⟩
  · exact ⟨l.newTokens tenantId now, by simp [allow, covered]⟩

/-- A tenant who was refused and has not called since: the level and the time of the refusal are stored, or
all buckets were cleared. -/
structure Waiting (capacity refillRate : ℚ) (tenantId : String) (level now : ℚ)
    (s : TokenBucketRateLimiter × ℚ) : Prop where
  capacity_eq : s.1.capacity = capacity
  rate_eq : s.1.refillRate = refillRate
  bucket : s.1.buckets tenantId = some (level, now) ∨ s.1.buckets tenantId = none

variable {capacity refillRate level : ℚ} {s t : TokenBucketRateLimiter × ℚ}

/-- A call made for somebody else leaves a waiting tenant waiting. -/
lemma Waiting.next {move : TokenMove} (waiting : Waiting capacity refillRate tenantId level now s)
    (other : move.tenant? ≠ some tenantId) (stepped : step s move = some t) :
    Waiting capacity refillRate tenantId level now t := by
  obtain ⟨cap, rate, bucket⟩ := waiting
  cases move with
  | allow call =>
    have ne : tenantId ≠ call.tenantId := fun same => other (congrArg some same.symm)
    rw [TokenBucketRateLimiter.step] at stepped
    split at stepped
    · cases stepped
    · cases stepped
      obtain ⟨settled, left⟩ := allow_limiter s.1 call.tenantId call.tokens call.now
      have kept : (s.1.put call.tenantId settled call.now).buckets tenantId = s.1.buckets tenantId :=
        buckets_put_of_ne ne
      rw [left]
      exact ⟨cap, rate, bucket.imp kept.trans kept.trans⟩
  | reset cleared =>
    cases stepped
    have ne : tenantId ≠ cleared := fun same => other (congrArg some same.symm)
    have kept : (s.1.reset cleared).buckets tenantId = s.1.buckets tenantId := Function.update_of_ne ne _ _
    exact ⟨cap, rate, bucket.imp kept.trans kept.trans⟩
  | resetAll =>
    cases stepped
    exact ⟨cap, rate, .inr rfl⟩

/-- Moves of others leave the bucket waiting. -/
lemma Waiting.run {moves : List TokenMove} (waiting : Waiting capacity refillRate tenantId level now s)
    (others : ∀ move ∈ moves, move.tenant? ≠ some tenantId) (run : exec step s moves = some t) :
    Waiting capacity refillRate tenantId level now t := by
  induction moves generalizing s with
  | nil =>
    cases run
    exact waiting
  | cons move moves ih =>
    obtain ⟨mid, stepped, rest⟩ := Option.bind_eq_some_iff.mp run
    have other := others move List.mem_cons_self
    exact ih (waiting.next other stepped) (fun m mem => others m (List.mem_cons_of_mem _ mem)) rest

/-- What a waiting tenant finds once the missing tokens had the time to flow in. -/
lemma Waiting.newTokens_iff {later : ℚ} (waiting : Waiting capacity refillRate tenantId level now s)
    (gains : 0 < refillRate) (waited : now + (tokens - level) / refillRate ≤ later) :
    tokens ≤ s.1.newTokens tenantId later ↔ tokens ≤ capacity := by
  refine ⟨fun covered => covered.trans (waiting.capacity_eq ▸ newTokens_le_capacity), fun fits => ?_⟩
  rw [newTokens]
  obtain stored | cleared := waiting.bucket
  · have refilled : tokens ≤ level + (later - now) * refillRate := by
      have span : (tokens - level) / refillRate ≤ later - now := le_sub_iff_add_le'.mpr waited
      have gained : tokens - level ≤ (later - now) * refillRate := (div_le_iff₀ gains).mp span
      exact sub_le_iff_le_add'.mp gained
    rw [stored, waiting.rate_eq, waiting.capacity_eq]
    exact le_min fits refilled
  · rw [cleared, waiting.capacity_eq]
    refine le_min fits ?_
    have still : (later - later) * s.1.refillRate = 0 := by rw [sub_self, zero_mul]
    rw [still, add_zero]
    exact fits

end TokenBucketRateLimiter

/-- No move changes the settings. -/
lemma step_settings {capacity refillRate : ℚ} (s : TokenBucketRateLimiter × ℚ) (move : TokenMove)
    (t : TokenBucketRateLimiter × ℚ) (settings : s.1.capacity = capacity ∧ s.1.refillRate = refillRate)
    (stepped : TokenBucketRateLimiter.step s move = some t) :
    t.1.capacity = capacity ∧ t.1.refillRate = refillRate := by
  cases move with
  | allow call =>
    rw [TokenBucketRateLimiter.step] at stepped
    split at stepped
    · cases stepped
    · cases stepped
      obtain ⟨level, left⟩ := TokenBucketRateLimiter.allow_limiter s.1 call.tenantId call.tokens call.now
      rw [left]
      exact settings
  | reset tenantId =>
    cases stepped
    exact settings
  | resetAll =>
    cases stepped
    exact settings

/-- A refused request is granted after the time it was told to wait, whatever other tenants do meanwhile,
exactly when it asks for no more than the capacity. -/
theorem retryAfter_kept_iff (capacity refillRate : ℚ) (limiter : TokenBucketRateLimiter)
    (created : TokenBucketRateLimiter.init capacity refillRate = .ok limiter) (clock : ℚ)
    (calls : List TokenMove) (s : TokenBucketRateLimiter × ℚ)
    (run : exec TokenBucketRateLimiter.step (limiter, clock) calls = some s)
    (tenantId : String) (tokens now : ℚ)
    (denied : (s.1.allow tenantId tokens now).1.allowed = false)
    (between : List TokenMove) (others : ∀ move ∈ between, move.tenant? ≠ some tenantId)
    (t : TokenBucketRateLimiter × ℚ)
    (meanwhile : exec TokenBucketRateLimiter.step ((s.1.allow tenantId tokens now).2, now) between = some t)
    (later : ℚ)
    (waited : now + (s.1.allow tenantId tokens now).1.retryAfter ≤ later) :
    (t.1.allow tenantId tokens later).1.allowed = true ↔ tokens ≤ capacity := by
  have fresh : limiter.capacity = capacity ∧ limiter.refillRate = refillRate := by
    rw [TokenBucketRateLimiter.init] at created
    split at created
    · cases created
    · split at created
      · cases created
      · cases created
        exact ⟨rfl, rfl⟩
  obtain ⟨cap, rate⟩ := exec_invariant (I := fun s => s.1.capacity = capacity ∧ s.1.refillRate = refillRate)
    fresh step_settings run
  obtain ⟨-, told, left⟩ := TokenBucketRateLimiter.allow_denied denied
  rw [told, rate] at waited
  rw [left] at meanwhile
  have refused : TokenBucketRateLimiter.Waiting capacity refillRate tenantId
      (s.1.newTokens tenantId now) now (s.1.put tenantId (s.1.newTokens tenantId now) now, now) :=
    ⟨cap, rate, .inl (Function.update_self ..)⟩
  have waiting := refused.run others meanwhile
  have gains : 0 < refillRate := rate ▸ s.1.rate_pos
  rw [TokenBucketRateLimiter.allow_eq]
  exact waiting.newTokens_iff gains waited

/-- Five tokens were taken, eight are refused for a second and a half, and granted then; another tenant was
served in between. -/
theorem retryAfter_kept_iff_waited :
    ∃ limiter s t, TokenBucketRateLimiter.init 10 2 = .ok limiter ∧
      exec TokenBucketRateLimiter.step (limiter, 0) [.allow ⟨"tenant-a", 5, 0⟩] = some s ∧
      (s.1.allow "tenant-a" 8 0).1.allowed = false ∧ (s.1.allow "tenant-a" 8 0).1.retryAfter = 3 / 2 ∧
      exec TokenBucketRateLimiter.step ((s.1.allow "tenant-a" 8 0).2, 0) [.allow ⟨"tenant-b", 3, 1⟩] = some t ∧
      ((t.1.allow "tenant-a" 8 (3 / 2)).1.allowed = true ↔ (8 : ℚ) ≤ 10) := by
  have created : TokenBucketRateLimiter.init 10 2 = .ok ⟨10, 2, by decide, by decide, fun _ => none⟩ := rfl
  refine ⟨_, _, _, created, rfl, by decide +kernel, by decide +kernel, rfl, ?_⟩
  exact retryAfter_kept_iff 10 2 _ created 0 [.allow ⟨"tenant-a", 5, 0⟩] _ rfl "tenant-a" 8 0
    (by decide +kernel) [.allow ⟨"tenant-b", 3, 1⟩] (by decide) _ rfl (3 / 2) (by decide +kernel)

/-- Eleven tokens are refused by a full bucket of ten with a wait of half a second, and refused again then. -/
theorem retryAfter_over_capacity :
    ∃ limiter, TokenBucketRateLimiter.init 10 2 = .ok limiter ∧
      (limiter.allow "tenant-a" 11 0).1.allowed = false ∧
      (limiter.allow "tenant-a" 11 0).1.retryAfter = 1 / 2 ∧
      ((limiter.allow "tenant-a" 11 0).2.allow "tenant-a" 11 (1 / 2)).1.allowed = false := by
  have created : TokenBucketRateLimiter.init 10 2 = .ok ⟨10, 2, by decide, by decide, fun _ => none⟩ := rfl
  exact ⟨_, created, by decide +kernel, by decide +kernel, by decide +kernel⟩

end StellarFlow.Queue
