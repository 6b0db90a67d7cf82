import Mathlib.Algebra.Order.Ring.Rat
import Mathlib.Algebra.Order.Field.Rat
import Mathlib.Data.Finset.Card
import Mathlib.Data.Finset.Filter
import Mathlib.Data.Finset.Dedup
import Mathlib.Tactic.Linarith
import Mathlib.Tactic.NormNum
import StellarFlow.Lib.Machine
import StellarFlow.Lib.PyValue
import StellarFlow.Lib.SlidingLog

/-!
# The Redis rate limiter and its fallback

Model of `_redis_allow` and `_InMemorySlidingWindow.allow` in `src/queue/rate_limiter.py`. A Redis key is a
sorted set whose members are their own scores; a missing key is the empty set. The pipeline is one step,
and a key whose `EXPIRE` has run out is gone when the next command looks it up. Seconds are exact rationals;
of a double such as 1.001, whose product with 1000 is rounded, this says nothing.

The pipeline records every request before it decides on it, requests of one millisecond are one member,
and a pause of `redis_key_ttl` empties the set. So its decisions depend on the timestamps alone: a request
fits when fewer than `max_requests` distinct timestamps since the last such pause are in its window. The
fallback counts the requests it granted, and the two decide alike exactly when these counts always fall on
the same side of the limit (`redis_decides_as_memory_iff`).
-/

namespace StellarFlow.Queue.RedisWindow
open Machine SlidingLog

/-- `SlidingWindowConfig`. -/
structure SlidingWindowConfig where
  windowSize : ℚ
  maxRequests : ℤ
  redisKeyPrefix : String
  redisKeyTtl : ℤ

/-- `_InMemorySlidingWindow`. -/
structure InMemorySlidingWindow where
  windowSize : ℚ
  maxRequests : ℤ
  timestamps : String → Option (List ℚ)

namespace InMemorySlidingWindow

/-- `_InMemorySlidingWindow.__init__`. -/
def init (windowSize : ℚ) (maxRequests : ℤ) : InMemorySlidingWindow where
  windowSize := windowSize
  maxRequests := maxRequests
  timestamps := fun _ => none

/-- The timestamps stored back for one key. -/
def put (w : InMemorySlidingWindow) (key : String) (tsList : List ℚ) : InMemorySlidingWindow :=
  { w with timestamps := Function.update w.timestamps key (some tsList) }

/-- `_InMemorySlidingWindow.allow`. -/
def allow (w : InMemorySlidingWindow) (key : String) (now : ℚ) : Bool × InMemorySlidingWindow :=
  match w.timestamps key with
  | none => (true, w.put key [now])
  | some tsList =>
    let trimmed := live (now - w.windowSize) tsList
    if (trimmed.length : ℤ) < w.maxRequests then (true, w.put key (trimmed ++ [now]))
    else (false, w.put key trimmed)

end InMemorySlidingWindow

/-- A sorted set whose members are their own scores, with the time it expires, in milliseconds. -/
structure SortedSet where
  members : Finset ℤ
  expires : Option ℤ

namespace SortedSet

/-- A missing key. -/
def absent : SortedSet := ⟨∅, none⟩

/-- The key as a command finds it: deleted once its expiry has come. -/
def lookup (now : ℤ) (z : SortedSet) : SortedSet :=
  match z.expires with
  | none => z
  | some deadline => if deadline ≤ now then absent else z

/-- `ZREMRANGEBYSCORE`. -/
def zremrangebyscore (low high : ℤ) (z : SortedSet) : SortedSet :=
  { z with members := z.members.filter fun member => ¬ (low ≤ member ∧ member ≤ high) }

/-- `ZCARD`. -/
def zcard (z : SortedSet) : ℕ := z.members.card

/-- `ZADD` of a member as its own score. -/
def zadd (member : ℤ) (z : SortedSet) : SortedSet := { z with members := insert member z.members }

/-- `EXPIRE`. -/
def expire (now seconds : ℤ) (z : SortedSet) : SortedSet := { z with expires := some (now + seconds * 1000) }

end SortedSet

/-- `SlidingWindowRateLimiter._redis_key`. -/
def SlidingWindowConfig.redisKey (config : SlidingWindowConfig) (key : String) : String :=
  config.redisKeyPrefix ++ ":" ++ key

/-- `SlidingWindowRateLimiter._redis_allow`, given the reading of the clock in seconds. -/
def redisAllow (config : SlidingWindowConfig) (redis : String → SortedSet) (key : String) (time : ℚ) :
    Bool × (String → SortedSet) :=
  let rkey := config.redisKey key
  let nowMs := Py.truncate (time * 1000)
  let windowMs := Py.truncate (config.windowSize * 1000)
  let cutoffMs := nowMs - windowMs
  let trimmed := ((redis rkey).lookup nowMs).zremrangebyscore 0 cutoffMs
  let count := trimmed.zcard
  (decide ((count : ℤ) < config.maxRequests),
    Function.update redis rkey ((trimmed.zadd nowMs).expire nowMs config.redisKeyTtl))

section Timestamps
variable (ttl windowMs maxRequests : ℤ)

/-- Of the earlier timestamps, latest first, those after the last pause of `ttl` seconds or more. -/
def sincePause : ℤ → List ℤ → List ℤ
  | _, [] => []
  | now, t :: past => if t + ttl * 1000 ≤ now then [] else t :: sincePause t past

/-- Fewer than `maxRequests` distinct timestamps since the last pause are outside the range from zero to
the start of the window. -/
def Fits (now : ℤ) (past : List ℤ) : Prop :=
  (((sincePause ttl now past).toFinset.filter fun t => ¬ (0 ≤ t ∧ t ≤ now - windowMs)).card : ℤ) < maxRequests

instance (now : ℤ) (past : List ℤ) : Decidable (Fits ttl windowMs maxRequests now past) :=
  inferInstanceAs (Decidable (_ < _))

/-- Of a history, latest first, the timestamps that fitted when they came. -/
def fitting : List ℤ → List ℤ
  | [] => []
  | now :: past => if Fits ttl windowMs maxRequests now past then now :: fitting past else fitting past

/-- Every request of a history fits exactly when fewer than `maxRequests` of the earlier ones in its window
fitted. -/
def CountsAlike : List ℤ → Prop
  | [] => True
  | now :: past => CountsAlike past ∧
      (Fits ttl windowMs maxRequests now past ↔
        ((live (now - windowMs) (fitting ttl windowMs maxRequests past)).length : ℤ) < maxRequests)

end Timestamps

/-- A time in milliseconds as seconds. -/
def seconds (ms : ℤ) : ℚ := ms / 1000

/-- Whole milliseconds are read back from seconds. -/
lemma truncate_seconds (ms : ℤ) : Py.truncate (seconds ms * 1000) = ms := by
  rw [seconds, div_mul_cancel₀ _ (by norm_num), Py.truncate_intCast]

/-- Seconds are in the order of their milliseconds. -/
lemma seconds_le {a b : ℤ} : seconds a ≤ seconds b ↔ a ≤ b := by
  rw [seconds, seconds, div_le_div_iff_of_pos_right (by norm_num), Int.cast_le]

/-- As many requests live in seconds as in milliseconds. -/
lemma live_seconds (now windowMs : ℤ) (log : List ℤ) :
    (live (seconds now - seconds windowMs) (log.map seconds)).length = (live (now - windowMs) log).length := by
  rw [live, live, List.filter_map, List.length_map]
  congr 1
  apply List.filter_congr
  intro t _
  rw [Function.comp_apply, decide_eq_decide, seconds, seconds, seconds, ← sub_div,
    div_lt_div_iff_of_pos_right (by norm_num), ← Int.cast_sub, Int.cast_lt]

section Redis
variable {ttl windowMs now : ℤ} {z : SortedSet} {past : List ℤ}

/-- A key after requests, latest first, has what any later window can contain of them. -/
def Recorded (ttl windowMs : ℤ) (z : SortedSet) : List ℤ → Prop
  | [] => z = SortedSet.absent
  | t :: past => z.expires = some (t + ttl * 1000) ∧
      ∀ cutoff, t - windowMs ≤ cutoff →
        z.members.filter (fun m => ¬ (0 ≤ m ∧ m ≤ cutoff)) =
          (t :: sincePause ttl t past).toFinset.filter fun m => ¬ (0 ≤ m ∧ m ≤ cutoff)

/-- The set holds what was recorded since the key expired. -/
lemma Recorded.lookup (recorded : Recorded ttl windowMs z past) (latest : ∀ t ∈ past, t ≤ now) {cutoff : ℤ}
    (le : now - windowMs ≤ cutoff) :
    (z.lookup now).members.filter (fun m => ¬ (0 ≤ m ∧ m ≤ cutoff)) =
      (sincePause ttl now past).toFinset.filter fun m => ¬ (0 ≤ m ∧ m ≤ cutoff) := by
  cases past with
  | nil =>
    rw [show z = SortedSet.absent from recorded]
    rfl
  | cons t past =>
    obtain ⟨deadline, members⟩ := recorded
    have before := latest t List.mem_cons_self
    simp only [SortedSet.lookup, deadline, sincePause]
    split
    · rfl
    · exact members cutoff (by omega)

/-- What one pipeline leaves for the next. -/
lemma Recorded.record (recorded : Recorded ttl windowMs z past) (latest : ∀ t ∈ past, t ≤ now) :
    Recorded ttl windowMs
      ((((z.lookup now).zremrangebyscore 0 (now - windowMs)).zadd now).expire now ttl) (now :: past) := by
  refine ⟨rfl, fun cutoff le => ?_⟩
  have trimmed : ((z.lookup now).members.filter fun m => ¬ (0 ≤ m ∧ m ≤ now - windowMs)).filter
      (fun m => ¬ (0 ≤ m ∧ m ≤ cutoff)) =
        (z.lookup now).members.filter fun m => ¬ (0 ≤ m ∧ m ≤ cutoff) := by
    rw [Finset.filter_filter]
    apply Finset.filter_congr
    intro m _
    omega
  show (insert now ((z.lookup now).members.filter fun m => ¬ (0 ≤ m ∧ m ≤ now - windowMs))).filter _ = _
  rw [List.toFinset_cons, Finset.filter_insert, Finset.filter_insert, trimmed, recorded.lookup latest le]

variable {config : SlidingWindowConfig} {key : String}

/-- The pipeline grants exactly the requests that fit. -/
lemma redisAllow_eq (window : config.windowSize = seconds windowMs) (redis : String → SortedSet)
    (recorded : Recorded config.redisKeyTtl windowMs (redis (config.redisKey key)) past)
    (latest : ∀ t ∈ past, t ≤ now) :
    (redisAllow config redis key (seconds now)).1 =
        decide (Fits config.redisKeyTtl windowMs config.maxRequests now past) ∧
      Recorded config.redisKeyTtl windowMs
        ((redisAllow config redis key (seconds now)).2 (config.redisKey key)) (now :: past) := by
  simp only [redisAllow, window, truncate_seconds, Function.update_self]
  refine ⟨?_, recorded.record latest⟩
  rw [decide_eq_decide, Fits, ← recorded.lookup latest le_rfl]
  rfl

end Redis

namespace InMemorySlidingWindow
variable (w : InMemorySlidingWindow)

/-- The timestamps of a key; a key without any behaves as one with an empty list. -/
def log (key : String) : List ℚ := (w.timestamps key).getD []

/-- The log of a key is the one put there. -/
@[simp] lemma log_put_self (key : String) (tsList : List ℚ) : (w.put key tsList).log key = tsList := by
  simp [log, put]

/-- `allow` grants, and stores the grant, exactly while fewer than the limit are live. -/
lemma allow_eq (pos : 1 ≤ w.maxRequests) (key : String) (now : ℚ) :
    (w.allow key now).1 = decide (((live (now - w.windowSize) (w.log key)).length : ℤ) < w.maxRequests) ∧
    (w.allow key now).2 = w.put key (if ((live (now - w.windowSize) (w.log key)).length : ℤ) < w.maxRequests
      then live (now - w.windowSize) (w.log key) ++ [now] else live (now - w.windowSize) (w.log key)) := by
  cases stored : w.timestamps key with
  | none =>
    have empty : w.log key = [] := by rw [log, stored]; rfl
    simp only [allow, stored, empty]
    have room : ((live (now - w.windowSize) []).length : ℤ) < w.maxRequests := pos
    rw [if_pos room]
    exact ⟨(decide_eq_true room).symm, rfl⟩
  | some tsList =>
    have kept : w.log key = tsList := by rw [log, stored]; rfl
    simp only [allow, stored, kept]
    split
    · rename_i room
      exact ⟨(decide_eq_true room).symm, rfl⟩
    · rename_i full
      exact ⟨(decide_eq_false full).symm, rfl⟩

end InMemorySlidingWindow

section Memory
variable {ttl windowMs maxRequests now : ℤ} {key : String} {past : List ℤ} {w : InMemorySlidingWindow}

/-- A window that has granted what fitted, seen from any later time. -/
structure Granted (ttl windowMs maxRequests : ℤ) (key : String) (w : InMemorySlidingWindow)
    (past : List ℤ) : Prop where
  window : w.windowSize = seconds windowMs
  limit : w.maxRequests = maxRequests
  keeps : ∀ now, (∀ t ∈ past, t ≤ now) → Keeps (seconds windowMs) (seconds now)
    ((fitting ttl windowMs maxRequests past).reverse.map seconds) (w.log key)

/-- What the window counts is what fitted. -/
lemma Granted.count (granted : Granted ttl windowMs maxRequests key w past) (latest : ∀ t ∈ past, t ≤ now) :
    (live (seconds now - w.windowSize) (w.log key)).length =
      (live (now - windowMs) (fitting ttl windowMs maxRequests past)).length := by
  rw [granted.window, (granted.keeps now latest).kept (seconds now) le_rfl, live_seconds, live, live,
    List.filter_reverse, List.length_reverse]

/-- The window goes on granting what fits as long as the counts are on the same side. -/
lemma Granted.allow (granted : Granted ttl windowMs maxRequests key w past) (pos : 1 ≤ maxRequests)
    (latest : ∀ t ∈ past, t ≤ now)
    (alike : Fits ttl windowMs maxRequests now past ↔
      ((live (now - windowMs) (fitting ttl windowMs maxRequests past)).length : ℤ) < maxRequests) :
    Granted ttl windowMs maxRequests key (w.allow key (seconds now)).2 (now :: past) := by
  obtain ⟨-, next⟩ := w.allow_eq (granted.limit.symm ▸ pos) key (seconds now)
  have now_keeps := granted.keeps now latest
  rw [next, granted.count latest, granted.limit]
  refine ⟨granted.window, granted.limit, fun later after => ?_⟩
  have le : seconds now ≤ seconds later := seconds_le.mpr (after now List.mem_cons_self)
  rw [InMemorySlidingWindow.log_put_self, granted.window]
  by_cases room : ((live (now - windowMs) (fitting ttl windowMs maxRequests past)).length : ℤ) < maxRequests
  · rw [if_pos room, fitting, if_pos (alike.mpr room), List.reverse_cons, List.map_append]
    exact (now_keeps.grant le_rfl).advance le
  · rw [if_neg room, fitting, if_neg (fun fits => room (alike.mp fits))]
    exact (now_keeps.evict le_rfl).advance le

end Memory

/-- The answers of the Redis limiter to requests for a key at times in milliseconds. -/
def redisDecisions (config : SlidingWindowConfig) (key : String) (times : List ℤ) : List Bool :=
  answers (fun redis ms => redisAllow config redis key (seconds ms)) (fun _ => SortedSet.absent) times

/-- The answers of the in-memory window with the same settings. -/
def memoryDecisions (config : SlidingWindowConfig) (key : String) (times : List ℤ) : List Bool :=
  answers (fun w ms => InMemorySlidingWindow.allow w key (seconds ms))
    (InMemorySlidingWindow.init config.windowSize config.maxRequests) times

section Decisions
variable {config : SlidingWindowConfig} {windowMs : ℤ}

/-- After a list of requests the set has recorded them. -/
lemma recorded_after (window : config.windowSize = seconds windowMs) (key : String) (times : List ℤ)
    (sorted : times.Pairwise (· ≤ ·)) :
    Recorded config.redisKeyTtl windowMs
      (after (fun redis ms => redisAllow config redis key (seconds ms)) (fun _ => SortedSet.absent) times
        (config.redisKey key)) times.reverse := by
  induction times using List.reverseRecOn with
  | nil => rfl
  | append_singleton times now ih =>
    obtain ⟨sorted', -, latest⟩ := List.pairwise_append.mp sorted
    rw [after_snoc, List.reverse_append]
    refine (redisAllow_eq window _ (ih sorted') fun t mem => ?_).2
    exact latest t (List.mem_reverse.mp mem) now List.mem_cons_self

/-- After a list of requests that count alike the log has granted them. -/
lemma granted_after (window : config.windowSize = seconds windowMs) (pos : 1 ≤ config.maxRequests)
    (key : String) (times : List ℤ) (sorted : times.Pairwise (· ≤ ·))
    (alike : CountsAlike config.redisKeyTtl windowMs config.maxRequests times.reverse) :
    Granted config.redisKeyTtl windowMs config.maxRequests key
      (after (fun w ms => InMemorySlidingWindow.allow w key (seconds ms))
        (InMemorySlidingWindow.init config.windowSize config.maxRequests) times) times.reverse := by
  induction times using List.reverseRecOn with
  | nil => exact ⟨window, rfl, fun now _ => Keeps.nil _ _⟩
  | append_singleton times now ih =>
    obtain ⟨sorted', -, latest⟩ := List.pairwise_append.mp sorted
    rw [List.reverse_append] at alike ⊢
    rw [after_snoc]
    refine (ih sorted' alike.1).allow pos (fun t mem => ?_) alike.2
    exact latest t (List.mem_reverse.mp mem) now List.mem_cons_self

end Decisions

/-- For requests at non-decreasing times the two limiters decide alike exactly when the counts of distinct
recent timestamps and of fitting requests are always on the same side of the limit. -/
theorem redis_decides_as_memory_iff (config : SlidingWindowConfig) (windowMs : ℤ)
    (window : config.windowSize = seconds windowMs) (pos : 1 ≤ config.maxRequests) (key : String)
    (times : List ℤ) (sorted : times.Pairwise (· ≤ ·)) :
    redisDecisions config key times = memoryDecisions config key times ↔
      CountsAlike config.redisKeyTtl windowMs config.maxRequests times.reverse := by
  induction times using List.reverseRecOn with
  | nil => exact ⟨fun _ => trivial, fun _ => rfl⟩
  | append_singleton times now ih =>
    obtain ⟨sorted', -, later⟩ := List.pairwise_append.mp sorted
    have latest : ∀ t ∈ times.reverse, t ≤ now := fun t mem =>
      later t (List.mem_reverse.mp mem) now List.mem_cons_self
    have redis := (redisAllow_eq window _ (recorded_after window key times sorted') latest).1
    rw [redisDecisions, memoryDecisions, answers_snoc_eq_iff, List.reverse_append]
    refine (and_congr_left' (ih sorted')).trans (and_congr_right fun alike => ?_)
    -- once the earlier decisions agree, the fallback has granted what fitted
    have granted := granted_after window pos key times sorted' alike
    have memory := (InMemorySlidingWindow.allow_eq _ (granted.limit.symm ▸ pos) key (seconds now)).1
    rw [redis, memory, decide_eq_decide, granted.count latest, granted.limit]
    rfl

/-- Two requests and, after a pause longer than the window, a third: all fit and all are granted. -/
theorem redis_decides_as_memory_iff_spaced :
    (1 : ℤ) ≤ 2 ∧ ([0, 400, 1500] : List ℤ).Pairwise (· ≤ ·) ∧
      (redisDecisions ⟨seconds 1000, 2, "rl:sw", 10⟩ "us-east-1" [0, 400, 1500] =
          memoryDecisions ⟨seconds 1000, 2, "rl:sw", 10⟩ "us-east-1" [0, 400, 1500] ↔
        CountsAlike 10 1000 2 [1500, 400, 0]) :=
  ⟨by decide, by decide,
    redis_decides_as_memory_iff ⟨seconds 1000, 2, "rl:sw", 10⟩ 1000 rfl (by decide) "us-east-1"
      [0, 400, 1500] (by decide)⟩

/-- Three requests in one millisecond are one member of the sorted set, and the third is granted although
the limit is two. -/
theorem redis_grants_burst_beyond_limit :
    redisDecisions ⟨seconds 1000, 2, "rl:sw", 10⟩ "us-east-1" [0, 0, 0] = [true, true, true] ∧
      memoryDecisions ⟨seconds 1000, 2, "rl:sw", 10⟩ "us-east-1" [0, 0, 0] = [true, true, false] ∧
      redisDecisions ⟨seconds 1000, 2, "rl:sw", 10⟩ "us-east-1" [0, 0, 0] ≠
        memoryDecisions ⟨seconds 1000, 2, "rl:sw", 10⟩ "us-east-1" [0, 0, 0] := by
  refine ⟨?_, ?_, ?_⟩ <;> decide +kernel

end StellarFlow.Queue.RedisWindow
