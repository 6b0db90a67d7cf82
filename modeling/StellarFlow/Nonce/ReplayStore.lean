import Mathlib.Data.Finset.Erase
import Mathlib.Data.Finset.Insert
import Mathlib.Data.Finset.Filter
import StellarFlow.Lib.Dict
import StellarFlow.Lib.JavaScript
import StellarFlow.Lib.Lease
import StellarFlow.Lib.Machine

/-!
# The anti-replay store

Model of `CryptographicNonceStore` in `src/services/nonceStoreService.ts`: a nonce of a client is reserved for
`ttlSeconds`, in Redis with SET NX EX, or, while there is no Redis client, in a set in memory from which a timer deletes
it. `invalidate` deletes it from the set and, where there is a client, from Redis a little later.

Neither store knows of the other, and the timer of a nonce that was invalidated goes on. Times are in milliseconds.
-/

namespace StellarFlow.AntiReplay

inductive Store where
  | redis
  | memory
  deriving DecidableEq

/-- A nonce of a client, both trimmed. -/
structure Nonce where
  clientId : String
  value : String
  deriving DecidableEq

/-- A nonce was accepted by a store, or rejected, or an `invalidate` has deleted it from a store. -/
inductive Action where
  | accepted (store : Store)
  | rejected
  | forgotten (store : Store)
  deriving DecidableEq

structure Event where
  action : Action
  nonce : Nonce
  time : ℚ
  deriving DecidableEq

structure Timer where
  due : ℚ
  key : String

/-- The stores, the timers, the calls of `invalidate` that wait for Redis, and what has happened, the last first. -/
structure System where
  now : ℚ
  redis : Dict String (Lease.Key ℚ Unit)
  inMemoryStore : Finset String
  timers : List Timer
  pending : List Nonce
  history : List Event

/-- What `getRedisClient` gives to a call: nothing, or a client whose commands are answered or fail. -/
inductive Client where
  | absent
  | answers
  | raises
  deriving DecidableEq

inductive Move where
  | tick (later : ℚ)
  | consume (clientId nonce : String) (client : Client)
  | invalidate (clientId nonce : String) (client : Client)
  | del (k : ℕ) (succeeds : Bool)

def NONCE_TTL_SECONDS : ℚ := 300

def normalizeClientId (clientId : String) : Except String String :=
  let value := Js.trim clientId
  if value = "" then .error "Client ID is required to validate a nonce" else .ok value

def normalizeNonce (nonce : String) : Except String String :=
  let value := Js.trim nonce
  if value = "" then .error "Nonce value is required" else .ok value

def normalize (clientId nonce : String) : Except String Nonce := do
  let clientId ← normalizeClientId clientId
  let value ← normalizeNonce nonce
  return ⟨clientId, value⟩

section Stores
variable (sha256 : String → String) (ttlSeconds : ℚ)

def hashNonce (nonce : Nonce) : String := sha256 (nonce.clientId ++ ":" ++ nonce.value)

def redisKey (nonce : Nonce) : String := "anti-replay:" ++ nonce.clientId ++ ":" ++ hashNonce sha256 nonce

/-- The window in milliseconds. -/
def window : ℚ := ttlSeconds * 1000

/-- When a timer of `setTimeout(_, ttlSeconds * 1000)` is due: whole milliseconds, and 1 where they do not fit. -/
def delay : ℚ := if 1 ≤ window ttlSeconds ∧ window ttlSeconds ≤ 2147483647 then ⌊window ttlSeconds⌋ else 1

/-- What EX takes: a positive integer. -/
def isExpiry : Bool := ttlSeconds.den = 1 && 0 < ttlSeconds

namespace System

def record (s : System) (action : Action) (nonce : Nonce) : System :=
  { s with history := ⟨action, nonce, s.now⟩ :: s.history }

/-- Time goes on; the timers that are due fire. -/
def tick (s : System) (later : ℚ) : System :=
  { s with
    now := later
    inMemoryStore := s.inMemoryStore.filter fun key => ¬∃ timer ∈ s.timers, timer.due ≤ later ∧ timer.key = key
    timers := s.timers.filter fun timer => later < timer.due }

/-- `consume` without a client. -/
def consumeInMemory (s : System) (nonce : Nonce) : System × Bool :=
  let key := redisKey sha256 nonce
  if key ∈ s.inMemoryStore then (s.record .rejected nonce, false)
  else
    let timer : Timer := ⟨s.now + delay ttlSeconds, key⟩
    ({ s with inMemoryStore := insert key s.inMemoryStore, timers := s.timers ++ [timer] }.record (.accepted .memory)
      nonce, true)

/-- `consume` with a client: SET key 1 NX EX ttlSeconds. -/
def consumeRedis (s : System) (nonce : Nonce) : System × Bool :=
  let key := redisKey sha256 nonce
  if (Lease.live s.now (s.redis.get? key)).isSome then (s.record .rejected nonce, false)
  else ({ s with redis := s.redis.set key ⟨(), s.now + window ttlSeconds⟩ }.record (.accepted .redis) nonce, true)

/-- `consume`; `none` when it throws. -/
def consume (s : System) (clientId nonce : String) (client : Client) : Option (System × Bool) :=
  match normalize clientId nonce, client with
  | .error _, _ => none
  | .ok nonce, .absent => some (s.consumeInMemory sha256 ttlSeconds nonce)
  | .ok nonce, .answers => if isExpiry ttlSeconds then some (s.consumeRedis sha256 ttlSeconds nonce) else none
  | .ok _, .raises => none

/-- `invalidate` up to `redis.del`. -/
def invalidate (s : System) (clientId nonce : String) (client : Client) : System :=
  match normalize clientId nonce with
  | .error _ => s
  | .ok nonce =>
    let s' :=
      { s with inMemoryStore := s.inMemoryStore.erase (redisKey sha256 nonce) }.record (.forgotten .memory) nonce
    if client = .absent then s' else { s' with pending := s'.pending ++ [nonce] }

def del (s : System) (nonce : Nonce) : System :=
  { s with redis := s.redis.pop (redisKey sha256 nonce) }.record (.forgotten .redis) nonce

def step (s : System) : Move → Option System
  | .tick later => if s.now ≤ later then some (s.tick later) else none
  | .consume clientId nonce client =>
    match s.consume sha256 ttlSeconds clientId nonce client with
    | some (s', _) => some s'
    | none => some s
  | .invalidate clientId nonce client => some (s.invalidate sha256 clientId nonce client)
  | .del k succeeds =>
    match s.pending[k]? with
    | some nonce =>
      let s' := { s with pending := s.pending.eraseIdx k }
      some (if succeeds then s'.del sha256 nonce else s')
    | none => none

def initial : System := ⟨0, Dict.empty, ∅, [], [], []⟩

end System
end Stores

/-- The time of the last acceptance of a nonce by some of the stores, if these have not forgotten it since. -/
def lastAccepted (counts : Store → Bool) (nonce : Nonce) : List Event → Option ℚ
  | [] => none
  | e :: older =>
    match e.action with
    | .accepted store => if counts store ∧ e.nonce = nonce then some e.time else lastAccepted counts nonce older
    | .forgotten store => if counts store ∧ e.nonce = nonce then none else lastAccepted counts nonce older
    | .rejected => lastAccepted counts nonce older

section Window
variable (ttlSeconds : ℚ)

/-- What the claim of the class says of an event, after what came before: a nonce is not accepted twice within a window,
unless it was invalidated in between, and only a nonce that was accepted within a window is rejected. -/
def Justified (e : Event) (older : List Event) : Prop :=
  match e.action with
  | .accepted _ => ∀ mid e' older' store, older = mid ++ e' :: older' → e'.action = .accepted store →
      e'.nonce = e.nonce → e.time - e'.time < window ttlSeconds →
      ∃ f ∈ mid, f.nonce = e.nonce ∧ ∃ store, f.action = .forgotten store
  | .rejected => ∃ f ∈ older, (∃ store, f.action = .accepted store) ∧ f.nonce = e.nonce ∧
      e.time - f.time < window ttlSeconds
  | .forgotten _ => True

/-- All that has happened was so. -/
def OncePerWindow : List Event → Prop
  | [] => True
  | e :: older => Justified ttlSeconds e older ∧ OncePerWindow older

/-- The nonce was accepted within a window, by any store, and not invalidated since. -/
def isStanding (nonce : Nonce) (now : ℚ) (history : List Event) : Bool :=
  (lastAccepted (fun _ => true) nonce history).any fun time => now - time < window ttlSeconds

/-- The nonce was accepted by Redis within a window and not deleted from it since. -/
def isKeptByRedis (nonce : Nonce) (now : ℚ) (history : List Event) : Bool :=
  (lastAccepted (· = .redis) nonce history).any fun time => now - time < window ttlSeconds

/-- The nonce was accepted in memory and not deleted since, neither by an `invalidate` nor by a timer of this or of an
earlier acceptance. -/
def isKeptInMemory (nonce : Nonce) (now : ℚ) (history : List Event) : Bool :=
  (lastAccepted (· = .memory) nonce history).any fun time =>
    history.all fun e => ¬(e.action = .accepted .memory ∧ e.nonce = nonce ∧ time < e.time + delay ttlSeconds ∧
      e.time + delay ttlSeconds ≤ now)

/-- The nonce was accepted within a window. -/
def isRecent (nonce : Nonce) (now : ℚ) (history : List Event) : Bool :=
  history.any fun e => (e.action = .accepted .redis ∨ e.action = .accepted .memory) ∧ e.nonce = nonce ∧
    now - e.time < window ttlSeconds

/-- The store of a call keeps what stands, and what it keeps is recent. -/
def System.isSafe (s : System) : Move → Bool
  | .consume clientId nonce client =>
    match normalize clientId nonce, client with
    | .ok nonce, .absent =>
      let kept := isKeptInMemory ttlSeconds nonce s.now s.history
      (!isStanding ttlSeconds nonce s.now s.history || kept) && (!kept || isRecent ttlSeconds nonce s.now s.history)
    | .ok nonce, .answers =>
      let kept := isKeptByRedis ttlSeconds nonce s.now s.history
      !isExpiry ttlSeconds || !isStanding ttlSeconds nonce s.now s.history || kept
    | _, _ => true
  | _ => true

end Window

variable {ttlSeconds : ℚ} {nonce other : Nonce} {now : ℚ} {history : List Event} {e : Event} {counts : Store → Bool}

section History

/-- The last acceptance is in the history. -/
lemma mem_of_lastAccepted {time : ℚ} (last : lastAccepted counts nonce history = some time) :
    ∃ e ∈ history, ∃ store, counts store = true ∧ e.action = .accepted store ∧ e.nonce = nonce ∧ e.time = time := by
  induction history with
  | nil => cases last
  | cons e older ih =>
    have found (last : lastAccepted counts nonce older = some time) : ∃ e' ∈ e :: older, ∃ store, counts store = true ∧
        e'.action = .accepted store ∧ e'.nonce = nonce ∧ e'.time = time := by
      obtain ⟨e', mem, rest⟩ := ih last
      exact ⟨e', List.mem_cons_of_mem _ mem, rest⟩
    rw [lastAccepted] at last
    split at last
    case h_1 store action =>
      split at last
      case isTrue here =>
        cases last
        exact ⟨e, List.mem_cons_self, store, here.1, action, here.2, rfl⟩
      case isFalse => exact found last
    case h_2 =>
      split at last
      case isTrue => cases last
      case isFalse => exact found last
    case h_3 => exact found last

/-- After each acceptance of the nonce within a window there was an `invalidate`. -/
def Reopened (ttlSeconds : ℚ) (nonce : Nonce) (now : ℚ) (history : List Event) : Prop :=
  ∀ mid e older store, history = mid ++ e :: older → e.action = .accepted store → e.nonce = nonce →
    now - e.time < window ttlSeconds → ∃ f ∈ mid, f.nonce = nonce ∧ ∃ store, f.action = .forgotten store

/-- A new acceptance is open once its window is over. -/
lemma reopened_cons_accepted {store : Store} (accepted : e.action = .accepted store) (same : e.nonce = nonce)
    (before : ∀ e' ∈ history, e'.time ≤ e.time) :
    Reopened ttlSeconds nonce now (e :: history) ↔ ¬now - e.time < window ttlSeconds := by
  constructor
  · intro reopened recent
    obtain ⟨f, mem, -⟩ := reopened [] e history store rfl accepted same recent
    cases mem
  · intro late mid e' older store' split _ _ recent
    have le : e'.time ≤ e.time := by
      cases mid with
      | nil => cases split; exact le_rfl
      | cons first mid =>
        cases split
        exact before e' (List.mem_append_right _ List.mem_cons_self)
    exact absurd (lt_of_le_of_lt (sub_le_sub_left le now) recent) late

/-- An `invalidate` opens the nonce. -/
lemma reopened_cons_forgotten {store : Store} (forgotten : e.action = .forgotten store) (same : e.nonce = nonce) :
    Reopened ttlSeconds nonce now (e :: history) := by
  intro mid e' older store' split accepted _ _
  cases mid with
  | nil =>
    cases split
    rw [forgotten] at accepted
    cases accepted
  | cons first mid =>
    cases split
    exact ⟨e, List.mem_cons_self, same, store, forgotten⟩

/-- An event that is neither changes nothing. -/
lemma reopened_cons_other (silent : e.nonce = nonce → e.action = .rejected) :
    Reopened ttlSeconds nonce now (e :: history) ↔ Reopened ttlSeconds nonce now history := by
  constructor
  · intro reopened mid e' older store split accepted same recent
    obtain ⟨f, mem, mine, store', forgotten⟩ := reopened (e :: mid) e' older store (by rw [split]; rfl) accepted same
      recent
    obtain rfl | inside := List.mem_cons.1 mem
    · rw [silent mine] at forgotten
      cases forgotten
    · exact ⟨f, inside, mine, store', forgotten⟩
  · intro reopened mid e' older store split accepted same recent
    cases mid with
    | nil =>
      cases split
      rw [silent same] at accepted
      cases accepted
    | cons first mid =>
      cases split
      obtain ⟨f, mem, rest⟩ := reopened mid e' older store rfl accepted same recent
      exact ⟨f, List.mem_cons_of_mem _ mem, rest⟩

/-- A nonce is open just where it does not stand. -/
lemma reopened_iff (sorted : history.Pairwise fun e e' => e'.time ≤ e.time) :
    Reopened ttlSeconds nonce now history ↔ isStanding ttlSeconds nonce now history = false := by
  induction history with
  | nil => exact iff_of_true (fun mid e older store split => by cases mid <;> cases split) rfl
  | cons e older ih =>
    obtain ⟨before, rest⟩ := List.pairwise_cons.1 sorted
    rw [isStanding] at ih
    rw [isStanding, lastAccepted]
    by_cases same : e.nonce = nonce
    · split
      case h_1 store accepted =>
        rw [reopened_cons_accepted accepted same before, if_pos ⟨rfl, same⟩, Option.any_some, decide_eq_false_iff_not]
      case h_2 store forgotten =>
        rw [if_pos ⟨rfl, same⟩]
        exact iff_of_true (reopened_cons_forgotten forgotten same) rfl
      case h_3 rejected => exact (reopened_cons_other fun _ => rejected).trans (ih rest)
    · have silent : Reopened ttlSeconds nonce now (e :: older) ↔ Reopened ttlSeconds nonce now older :=
        reopened_cons_other fun mine => absurd mine same
      split
      case h_1 => rw [silent, if_neg fun here => same here.2, ih rest]
      case h_2 => rw [silent, if_neg fun here => same here.2, ih rest]
      case h_3 => rw [silent, ih rest]

/-- An acceptance is right exactly where nothing stands. -/
lemma justified_accepted {store : Store} (sorted : history.Pairwise fun e e' => e'.time ≤ e.time) :
    Justified ttlSeconds ⟨.accepted store, nonce, now⟩ history ↔ isStanding ttlSeconds nonce now history = false :=
  reopened_iff sorted

/-- A rejection is right exactly where something is recent. -/
lemma justified_rejected :
    Justified ttlSeconds ⟨.rejected, nonce, now⟩ history ↔ isRecent ttlSeconds nonce now history = true := by
  rw [isRecent, List.any_eq_true]
  constructor
  · rintro ⟨f, mem, ⟨store, accepted⟩, same, recent⟩
    refine ⟨f, mem, decide_eq_true ⟨?_, same, recent⟩⟩
    cases store with
    | redis => exact .inl accepted
    | memory => exact .inr accepted
  · rintro ⟨f, mem, here⟩
    obtain ⟨accepted | accepted, same, recent⟩ := of_decide_eq_true here
    · exact ⟨f, mem, ⟨.redis, accepted⟩, same, recent⟩
    · exact ⟨f, mem, ⟨.memory, accepted⟩, same, recent⟩

/-- A nonce is kept in memory until the timer of an acceptance since. -/
lemma isKeptInMemory_iff : isKeptInMemory ttlSeconds nonce now history = true ↔
    ∃ time, lastAccepted (· = .memory) nonce history = some time ∧ ∀ e ∈ history, e.action = .accepted .memory →
      e.nonce = nonce → time < e.time + delay ttlSeconds → now < e.time + delay ttlSeconds := by
  rw [isKeptInMemory, Option.any_eq_true]
  refine exists_congr fun time => and_congr_right fun _ => ?_
  rw [List.all_eq_true]
  refine forall₂_congr fun e _ => ?_
  rw [decide_eq_true_iff, not_and, not_and, not_and, not_le]

/-- An event of another nonce, or one that the stores in question have no part in. -/
lemma lastAccepted_cons_other (silent : ∀ store, counts store = true → e.nonce = nonce →
    e.action ≠ .accepted store ∧ e.action ≠ .forgotten store) :
    lastAccepted counts nonce (e :: history) = lastAccepted counts nonce history := by
  rw [lastAccepted]
  split
  case h_1 store accepted => exact if_neg fun here => (silent store here.1 here.2).1 accepted
  case h_2 store forgotten => exact if_neg fun here => (silent store here.1 here.2).2 forgotten
  case h_3 => rfl

/-- A new acceptance is the last one. -/
lemma lastAccepted_cons_accepted {store : Store} (counted : counts store = true) :
    lastAccepted counts nonce (⟨.accepted store, nonce, now⟩ :: history) = some now := if_pos ⟨counted, rfl⟩

/-- After an `invalidate` there is no last acceptance. -/
lemma lastAccepted_cons_forgotten {store : Store} (counted : counts store = true) :
    lastAccepted counts nonce (⟨.forgotten store, nonce, now⟩ :: history) = none := if_pos ⟨counted, rfl⟩

/-- What is not about memory changes nothing there. -/
lemma isKeptInMemory_cons_other (silent : e.nonce = nonce →
    e.action ≠ .accepted .memory ∧ e.action ≠ .forgotten .memory) :
    isKeptInMemory ttlSeconds nonce now (e :: history) = isKeptInMemory ttlSeconds nonce now history := by
  rw [Bool.eq_iff_iff, isKeptInMemory_iff, isKeptInMemory_iff, lastAccepted_cons_other]
  · refine exists_congr fun time => and_congr_right fun _ => ?_
    rw [List.forall_mem_cons, and_iff_right]
    exact fun accepted same => absurd accepted (silent same).1
  · intro store memory same
    rw [of_decide_eq_true memory]
    exact silent same

/-- What was accepted just now stays until its own timer. -/
lemma isKeptInMemory_accepted : isKeptInMemory ttlSeconds nonce now (⟨.accepted .memory, nonce, now⟩ :: history) =
    true := isKeptInMemory_iff.2 ⟨now, lastAccepted_cons_accepted rfl, fun _ _ _ _ early => early⟩

/-- What is forgotten is not kept. -/
lemma isKeptInMemory_forgotten : isKeptInMemory ttlSeconds nonce now (⟨.forgotten .memory, nonce, now⟩ :: history) =
    false := by
  rw [isKeptInMemory, lastAccepted_cons_forgotten (decide_eq_true rfl)]
  rfl

/-- Redis keeps a nonce for a window. -/
lemma isKeptByRedis_iff : isKeptByRedis ttlSeconds nonce now history = true ↔
    ∃ time, lastAccepted (· = .redis) nonce history = some time ∧ now - time < window ttlSeconds := by
  rw [isKeptByRedis, Option.any_eq_true]
  exact exists_congr fun time => and_congr_right fun _ => decide_eq_true_iff

/-- What Redis keeps is recent. -/
lemma isRecent_of_isKeptByRedis (kept : isKeptByRedis ttlSeconds nonce now history = true) :
    isRecent ttlSeconds nonce now history = true := by
  obtain ⟨time, last, recent⟩ := isKeptByRedis_iff.1 kept
  obtain ⟨e, mem, store, redis, accepted, same, rfl⟩ := mem_of_lastAccepted last
  rw [of_decide_eq_true redis] at accepted
  exact List.any_eq_true.2 ⟨e, mem, decide_eq_true ⟨.inl accepted, same, recent⟩⟩

end History

section Keys
variable {sha256 : String → String}

/-- The key of a nonce tells the client, up to the last colon, and with it the value. -/
lemma redisKey_inj (injective : Function.Injective sha256) (noColon : ∀ text, ':' ∉ (sha256 text).toList) :
    redisKey sha256 nonce = redisKey sha256 other ↔ nonce = other := by
  refine ⟨fun same => ?_, fun same => by rw [same]⟩
  have reversed (nonce : Nonce) : (redisKey sha256 nonce).toList.reverse =
      (hashNonce sha256 nonce).toList.reverse ++ ':' :: ("anti-replay:" ++ nonce.clientId).toList.reverse := by
    rw [redisKey, String.toList_append, String.toList_append, List.reverse_append, List.reverse_append]
    rfl
  have digest (nonce : Nonce) : (redisKey sha256 nonce).toList.reverse.takeWhile (· ≠ ':') =
      (hashNonce sha256 nonce).toList.reverse := by
    rw [reversed, List.takeWhile_append_of_pos, List.takeWhile_cons_of_neg (by decide), List.append_nil]
    intro c mem
    refine decide_eq_true ?_
    rintro rfl
    exact noColon _ (List.mem_reverse.1 mem)
  have digests : hashNonce sha256 nonce = hashNonce sha256 other := by
    refine String.toList_inj.1 (List.reverse_injective ?_)
    rw [← digest, same, digest]
  have clients : nonce.clientId = other.clientId := by
    have rests := congrArg (fun key => key.toList.reverse) same
    simp only [reversed, digests, List.append_cancel_left_eq, List.cons.injEq, true_and] at rests
    exact (String.append_right_inj _).1 (String.toList_inj.1 (List.reverse_injective rests))
  have texts := injective digests
  rw [clients] at texts
  cases nonce
  cases other
  exact congrArg₂ Nonce.mk clients ((String.append_right_inj _).1 texts)

/-- A call of `consume` is carried out by a store, or throws. -/
lemma System.step_consume {s s' : System} {clientId value : String} {client : Client}
    (taken : s.step sha256 ttlSeconds (.consume clientId value client) = some s') :
    (∃ nonce, normalize clientId value = .ok nonce ∧ client = .absent ∧
      s' = (s.consumeInMemory sha256 ttlSeconds nonce).1) ∨
    (∃ nonce, normalize clientId value = .ok nonce ∧ client = .answers ∧ isExpiry ttlSeconds = true ∧
      s' = (s.consumeRedis sha256 ttlSeconds nonce).1) ∨
    (s' = s ∧ ∀ nonce, normalize clientId value = .ok nonce →
      client = .raises ∨ client = .answers ∧ isExpiry ttlSeconds = false) := by
  rw [System.step, System.consume.eq_def] at taken
  cases named : normalize clientId value with
  | error message =>
    rw [named] at taken
    cases taken
    exact .inr (.inr ⟨rfl, fun _ ok => by cases ok⟩)
  | ok nonce =>
    rw [named] at taken
    cases client with
    | absent => cases taken; exact .inl ⟨nonce, rfl, rfl, rfl⟩
    | answers =>
      cases expiry : isExpiry ttlSeconds with
      | true =>
        rw [expiry] at taken
        cases taken
        exact .inr (.inl ⟨nonce, rfl, rfl, rfl, rfl⟩)
      | false =>
        rw [expiry] at taken
        cases taken
        exact .inr (.inr ⟨rfl, fun _ _ => .inr ⟨rfl, rfl⟩⟩)
    | raises => cases taken; exact .inr (.inr ⟨rfl, fun _ _ => .inl rfl⟩)

/-- The stores hold what the history says. -/
structure System.Sound (sha256 : String → String) (ttlSeconds : ℚ) (s : System) : Prop where
  sorted : s.history.Pairwise fun e e' => e'.time ≤ e.time
  past : ∀ e ∈ s.history, e.time ≤ s.now
  redis : ∀ nonce, s.redis.get? (redisKey sha256 nonce) =
    (lastAccepted (· = .redis) nonce s.history).map fun time => ⟨(), time + window ttlSeconds⟩
  memory : ∀ nonce, redisKey sha256 nonce ∈ s.inMemoryStore ↔ isKeptInMemory ttlSeconds nonce s.now s.history = true
  timers : ∀ timer, timer ∈ s.timers ↔ s.now < timer.due ∧ ∃ e ∈ s.history, e.action = .accepted .memory ∧
    timer = ⟨e.time + delay ttlSeconds, redisKey sha256 e.nonce⟩

/-- A timer never fires at once. -/
lemma delay_pos (ttlSeconds : ℚ) : 0 < delay ttlSeconds := by
  rw [delay]
  split
  case isTrue fits => exact_mod_cast Int.floor_pos.2 fits.1
  case isFalse => exact one_pos

variable {s s' : System}

/-- At the start there is no history. -/
lemma System.sound_initial : System.initial.Sound sha256 ttlSeconds where
  sorted := List.Pairwise.nil
  past _ mem := absurd mem List.not_mem_nil
  redis _ := rfl
  memory _ := iff_of_false (Finset.notMem_empty _) Bool.false_ne_true
  timers _ := iff_of_false List.not_mem_nil fun ⟨_, _, mem, _⟩ => absurd mem List.not_mem_nil

/-- The calls that wait do not matter. -/
lemma System.Sound.pending (sound : s.Sound sha256 ttlSeconds) (pending : List Nonce) :
    { s with pending }.Sound sha256 ttlSeconds := ⟨sound.sorted, sound.past, sound.redis, sound.memory, sound.timers⟩

/-- The key of a nonce is in Redis for as long as the history says. -/
lemma System.Sound.live_iff (sound : s.Sound sha256 ttlSeconds) :
    (Lease.live s.now (s.redis.get? (redisKey sha256 nonce))).isSome =
      isKeptByRedis ttlSeconds nonce s.now s.history := by
  rw [Bool.eq_iff_iff, isKeptByRedis_iff, Option.isSome_iff_exists, sound.redis]
  constructor
  · rintro ⟨key, live⟩
    obtain ⟨found, early⟩ := Lease.live_eq_some.1 live
    obtain ⟨time, last, rfl⟩ := Option.map_eq_some_iff.1 found
    exact ⟨time, last, sub_lt_iff_lt_add'.2 early⟩
  · rintro ⟨time, last, recent⟩
    rw [last]
    exact ⟨_, Lease.live_eq_some.2 ⟨rfl, sub_lt_iff_lt_add'.1 recent⟩⟩

/-- An event that is of neither the memory nor the timers. -/
lemma System.Sound.record {action : Action} {redis : Dict String (Lease.Key ℚ Unit)}
    (sound : s.Sound sha256 ttlSeconds) (silent : action ≠ .accepted .memory ∧ action ≠ .forgotten .memory)
    (keys : ∀ other, redis.get? (redisKey sha256 other) =
      (lastAccepted (· = .redis) other (⟨action, nonce, s.now⟩ :: s.history)).map
        fun time => ⟨(), time + window ttlSeconds⟩) :
    ({ s with redis }.record action nonce).Sound sha256 ttlSeconds where
  sorted := List.pairwise_cons.2 ⟨sound.past, sound.sorted⟩
  past := List.forall_mem_cons.2 ⟨le_rfl, sound.past⟩
  redis := keys
  memory other := by
    show _ ∈ s.inMemoryStore ↔ isKeptInMemory ttlSeconds other s.now (_ :: s.history) = true
    rw [isKeptInMemory_cons_other fun _ => silent]
    exact sound.memory other
  timers timer := by
    show timer ∈ s.timers ↔ s.now < timer.due ∧ ∃ e ∈ _ :: s.history, _
    rw [sound.timers, List.exists_mem_cons_iff, or_iff_right fun here => silent.1 here.1]

/-- A rejection is recorded. -/
lemma System.Sound.rejected (sound : s.Sound sha256 ttlSeconds) :
    (s.record .rejected nonce).Sound sha256 ttlSeconds := by
  refine sound.record ⟨by decide, by decide⟩ fun other => ?_
  rw [lastAccepted_cons_other fun _ _ _ => ⟨by simp, by simp⟩]
  exact sound.redis other

/-- The part of Redis in of an event of the memory. -/
lemma System.Sound.redis_cons {action : Action} (sound : s.Sound sha256 ttlSeconds)
    (silent : action ≠ .accepted .redis ∧ action ≠ .forgotten .redis) : s.redis.get? (redisKey sha256 other) =
      (lastAccepted (· = .redis) other (⟨action, nonce, s.now⟩ :: s.history)).map
        fun time => ⟨(), time + window ttlSeconds⟩ := by
  rw [lastAccepted_cons_other, sound.redis]
  intro store redis _
  rw [of_decide_eq_true redis]
  exact silent

variable (injective : Function.Injective sha256) (noColon : ∀ text, ':' ∉ (sha256 text).toList)
include injective noColon

/-- Redis changes the key of one nonce. -/
lemma System.Sound.changed {action : Action} {redis : Dict String (Lease.Key ℚ Unit)}
    (sound : s.Sound sha256 ttlSeconds) (silent : action ≠ .accepted .memory ∧ action ≠ .forgotten .memory)
    (own : redis.get? (redisKey sha256 nonce) =
      (lastAccepted (· = .redis) nonce (⟨action, nonce, s.now⟩ :: s.history)).map
        fun time => ⟨(), time + window ttlSeconds⟩)
    (others : ∀ key, key ≠ redisKey sha256 nonce → redis.get? key = s.redis.get? key) :
    ({ s with redis }.record action nonce).Sound sha256 ttlSeconds := by
  refine sound.record silent fun other => ?_
  by_cases same : other = nonce
  · rw [same]
    exact own
  · rw [others _ fun key => same ((redisKey_inj injective noColon).1 key), lastAccepted_cons_other]
    · exact sound.redis other
    · exact fun _ _ mine => absurd mine.symm same

/-- Redis accepts a nonce. -/
lemma System.Sound.acceptedByRedis (sound : s.Sound sha256 ttlSeconds) :
    ({ s with redis := s.redis.set (redisKey sha256 nonce) ⟨(), s.now + window ttlSeconds⟩ }.record
      (.accepted .redis) nonce).Sound sha256 ttlSeconds := by
  refine sound.changed injective noColon ⟨by decide, by decide⟩ ?_ fun key other => ?_
  · rw [Dict.get?_set, if_pos rfl, lastAccepted_cons_accepted (decide_eq_true rfl), Option.map_some]
  · rw [Dict.get?_set, if_neg other]

/-- Redis deletes a key. -/
lemma System.Sound.del (sound : s.Sound sha256 ttlSeconds) : (s.del sha256 nonce).Sound sha256 ttlSeconds := by
  refine sound.changed injective noColon ⟨by decide, by decide⟩ ?_ fun key other => ?_
  · rw [Dict.get?_pop, if_pos rfl, lastAccepted_cons_forgotten (decide_eq_true rfl), Option.map_none]
  · rw [Dict.get?_pop, if_neg other]

/-- The memory accepts a nonce. -/
lemma System.Sound.acceptedInMemory (sound : s.Sound sha256 ttlSeconds) :
    ({ s with
        inMemoryStore := insert (redisKey sha256 nonce) s.inMemoryStore
        timers := s.timers ++ [(⟨s.now + delay ttlSeconds, redisKey sha256 nonce⟩ : Timer)] }.record
      (.accepted .memory) nonce).Sound sha256 ttlSeconds where
  sorted := List.pairwise_cons.2 ⟨sound.past, sound.sorted⟩
  past := List.forall_mem_cons.2 ⟨le_rfl, sound.past⟩
  redis _ := sound.redis_cons ⟨by decide, by decide⟩
  memory other := by
    show _ ∈ insert _ s.inMemoryStore ↔ isKeptInMemory ttlSeconds other s.now (_ :: s.history) = true
    rw [Finset.mem_insert, redisKey_inj injective noColon]
    by_cases same : other = nonce
    · rw [same]
      exact iff_of_true (.inl rfl) isKeptInMemory_accepted
    · rw [or_iff_right same, isKeptInMemory_cons_other fun mine => absurd mine.symm same]
      exact sound.memory other
  timers timer := by
    show timer ∈ s.timers ++ [_] ↔ s.now < timer.due ∧ ∃ e ∈ _ :: s.history, _
    rw [List.mem_append, List.mem_singleton, sound.timers, List.exists_mem_cons_iff, and_or_left, or_comm]
    refine or_congr_left ⟨?_, fun own => own.2.2⟩
    rintro rfl
    exact ⟨lt_add_of_pos_right _ (delay_pos ttlSeconds), rfl, rfl⟩

/-- The memory forgets a nonce. -/
lemma System.Sound.forgottenInMemory (nonce : Nonce) (sound : s.Sound sha256 ttlSeconds) :
    ({ s with inMemoryStore := s.inMemoryStore.erase (redisKey sha256 nonce) }.record
      (.forgotten .memory) nonce).Sound sha256 ttlSeconds where
  sorted := List.pairwise_cons.2 ⟨sound.past, sound.sorted⟩
  past := List.forall_mem_cons.2 ⟨le_rfl, sound.past⟩
  redis _ := sound.redis_cons ⟨by decide, by decide⟩
  memory other := by
    show _ ∈ s.inMemoryStore.erase _ ↔ isKeptInMemory ttlSeconds other s.now (_ :: s.history) = true
    rw [Finset.mem_erase, Ne, redisKey_inj injective noColon]
    by_cases same : other = nonce
    · rw [same, isKeptInMemory_forgotten]
      exact iff_of_false (fun kept => kept.1 rfl) Bool.false_ne_true
    · rw [and_iff_right same, isKeptInMemory_cons_other fun mine => absurd mine.symm same]
      exact sound.memory other
  timers timer := by
    show timer ∈ s.timers ↔ s.now < timer.due ∧ ∃ e ∈ _ :: s.history, _
    rw [sound.timers, List.exists_mem_cons_iff, or_iff_right fun here => Action.noConfusion here.1]

/-- The timers that fire delete what they are said to delete. -/
lemma System.Sound.tick {later : ℚ} (sound : s.Sound sha256 ttlSeconds) (le : s.now ≤ later) :
    (s.tick later).Sound sha256 ttlSeconds where
  sorted := sound.sorted
  past e mem := (sound.past e mem).trans le
  redis := sound.redis
  memory nonce := by
    show _ ∈ s.inMemoryStore.filter _ ↔ isKeptInMemory ttlSeconds nonce later s.history = true
    rw [Finset.mem_filter, sound.memory, isKeptInMemory_iff, isKeptInMemory_iff]
    constructor
    · rintro ⟨⟨time, last, early⟩, spared⟩
      refine ⟨time, last, fun e mem accepted same after => ?_⟩
      by_contra due
      refine spared ⟨⟨e.time + delay ttlSeconds, redisKey sha256 e.nonce⟩, ?_, not_lt.1 due, by rw [same]⟩
      exact (sound.timers _).2 ⟨early e mem accepted same after, e, mem, accepted, rfl⟩
    · rintro ⟨time, last, early⟩
      refine ⟨⟨time, last, fun e mem accepted same after => le.trans_lt (early e mem accepted same after)⟩, ?_⟩
      rintro ⟨timer, waits, due, key⟩
      obtain ⟨coming, e, mem, accepted, rfl⟩ := (sound.timers timer).1 waits
      obtain ⟨e', mem', -, -, -, -, rfl⟩ := mem_of_lastAccepted last
      have same := (redisKey_inj injective noColon).1 key
      exact absurd (early e mem accepted same ((sound.past e' mem').trans_lt coming)) (not_lt.2 due)
  timers timer := by
    show timer ∈ s.timers.filter _ ↔ later < timer.due ∧ _
    rw [List.mem_filter, sound.timers, decide_eq_true_iff]
    exact ⟨fun ⟨⟨_, rest⟩, coming⟩ => ⟨coming, rest⟩, fun ⟨coming, rest⟩ => ⟨⟨le.trans_lt coming, rest⟩, coming⟩⟩

/-- A nonce is consumed in memory. -/
lemma System.Sound.consumeInMemory (sound : s.Sound sha256 ttlSeconds) :
    (s.consumeInMemory sha256 ttlSeconds nonce).1.Sound sha256 ttlSeconds := by
  rw [System.consumeInMemory]
  split
  case isTrue => exact sound.rejected
  case isFalse => exact sound.acceptedInMemory injective noColon

/-- A nonce is consumed in Redis. -/
lemma System.Sound.consumeRedis (sound : s.Sound sha256 ttlSeconds) :
    (s.consumeRedis sha256 ttlSeconds nonce).1.Sound sha256 ttlSeconds := by
  rw [System.consumeRedis]
  split
  case isTrue => exact sound.rejected
  case isFalse => exact sound.acceptedByRedis injective noColon

/-- A nonce is invalidated. -/
lemma System.Sound.invalidate {clientId value : String} {client : Client} (sound : s.Sound sha256 ttlSeconds) :
    (s.invalidate sha256 clientId value client).Sound sha256 ttlSeconds := by
  rw [System.invalidate]
  split
  case h_1 => exact sound
  case h_2 nonce _ =>
    have forgotten := sound.forgottenInMemory injective noColon nonce
    split
    · exact forgotten
    · exact forgotten.pending _

/-- Each step keeps soundness. -/
lemma System.Sound.step {m : Move} (sound : s.Sound sha256 ttlSeconds)
    (taken : s.step sha256 ttlSeconds m = some s') : s'.Sound sha256 ttlSeconds := by
  cases m with
  | tick later =>
    rw [System.step] at taken
    split at taken
    case isTrue le => cases taken; exact sound.tick injective noColon le
    case isFalse => cases taken
  | consume clientId value client =>
    obtain ⟨nonce, -, -, rfl⟩ | ⟨nonce, -, -, -, rfl⟩ | ⟨rfl, -⟩ := System.step_consume taken
    · exact sound.consumeInMemory injective noColon
    · exact sound.consumeRedis injective noColon
    · exact sound
  | invalidate clientId value client => cases taken; exact sound.invalidate injective noColon
  | del k succeeds =>
    rw [System.step] at taken
    split at taken
    case h_1 nonce waits =>
      cases taken
      split
      · exact (sound.pending _).del injective noColon
      · exact sound.pending _
    case h_2 => cases taken

omit injective noColon

/-- What the memory does is right exactly where it keeps what stands, and keeps nothing for too long. -/
lemma System.Sound.once_consumeInMemory (sound : s.Sound sha256 ttlSeconds)
    (once : OncePerWindow ttlSeconds s.history) :
    OncePerWindow ttlSeconds (s.consumeInMemory sha256 ttlSeconds nonce).1.history ↔
      (!isStanding ttlSeconds nonce s.now s.history || isKeptInMemory ttlSeconds nonce s.now s.history) = true ∧
        (!isKeptInMemory ttlSeconds nonce s.now s.history || isRecent ttlSeconds nonce s.now s.history) = true := by
  rw [System.consumeInMemory]
  split
  case isTrue stored =>
    rw [(sound.memory nonce).1 stored, Bool.or_true, and_iff_right rfl, Bool.not_true, Bool.false_or]
    exact (and_iff_left once).trans justified_rejected
  case isFalse free =>
    rw [Bool.eq_false_iff.2 fun kept => free ((sound.memory nonce).2 kept), Bool.or_false, Bool.not_eq_true',
      Bool.not_false, Bool.true_or, and_iff_left rfl]
    exact (and_iff_left once).trans (justified_accepted sound.sorted)

/-- What Redis does is right exactly where it keeps what stands. -/
lemma System.Sound.once_consumeRedis (sound : s.Sound sha256 ttlSeconds) (once : OncePerWindow ttlSeconds s.history) :
    OncePerWindow ttlSeconds (s.consumeRedis sha256 ttlSeconds nonce).1.history ↔
      (!isStanding ttlSeconds nonce s.now s.history || isKeptByRedis ttlSeconds nonce s.now s.history) = true := by
  rw [System.consumeRedis, sound.live_iff]
  split
  case isTrue kept =>
    rw [kept, Bool.or_true]
    exact iff_of_true ⟨justified_rejected.2 (isRecent_of_isKeptByRedis kept), once⟩ rfl
  case isFalse free =>
    rw [Bool.eq_false_iff.2 free, Bool.or_false, Bool.not_eq_true']
    exact (and_iff_left once).trans (justified_accepted sound.sorted)

/-- A step is right exactly where it is safe. -/
lemma System.Sound.once_step {m : Move} (sound : s.Sound sha256 ttlSeconds) (once : OncePerWindow ttlSeconds s.history)
    (taken : s.step sha256 ttlSeconds m = some s') :
    OncePerWindow ttlSeconds s'.history ↔ s.isSafe ttlSeconds m = true := by
  cases m with
  | tick later =>
    rw [System.step] at taken
    split at taken
    case isTrue => cases taken; exact iff_of_true once rfl
    case isFalse => cases taken
  | consume clientId value client =>
    rw [System.isSafe.eq_def]
    obtain ⟨nonce, named, rfl, rfl⟩ | ⟨nonce, named, rfl, expiry, rfl⟩ | ⟨rfl, unanswered⟩ := System.step_consume taken
    · simp only [named, Bool.and_eq_true]
      exact sound.once_consumeInMemory once
    · simp only [named, expiry, Bool.not_true, Bool.false_or]
      exact sound.once_consumeRedis once
    · refine iff_of_true once ?_
      cases named : normalize clientId value with
      | error message => simp only [named]
      | ok nonce =>
        obtain rfl | ⟨rfl, expiry⟩ := unanswered nonce named
        · simp only [named]
        · simp only [named, expiry, Bool.not_false, Bool.true_or]
  | invalidate clientId value client =>
    cases taken
    refine iff_of_true ?_ rfl
    rw [System.invalidate]
    split
    case h_1 => exact once
    case h_2 =>
      split
      · exact ⟨trivial, once⟩
      · exact ⟨trivial, once⟩
  | del k succeeds =>
    rw [System.step] at taken
    split at taken
    case h_1 =>
      cases taken
      refine iff_of_true ?_ rfl
      split
      · exact ⟨trivial, once⟩
      · exact once
    case h_2 => cases taken

/-- A nonce is accepted once per window throughout a run exactly if the store of each call that consumes it keeps what
stands, and nothing for too long. -/
theorem once_per_window_iff (sha256 : String → String) (ttlSeconds : ℚ) (injective : Function.Injective sha256)
    (noColon : ∀ text, ':' ∉ (sha256 text).toList) (trace : List Move) (s : System)
    (run : Machine.exec (System.step sha256 ttlSeconds) System.initial trace = some s) :
    Machine.Always (System.step sha256 ttlSeconds) (fun s => OncePerWindow ttlSeconds s.history) System.initial trace ↔
      Machine.Guarded (System.step sha256 ttlSeconds) (fun s m => s.isSafe ttlSeconds m = true) System.initial trace :=
  Machine.always_iff_guarded (I := System.Sound sha256 ttlSeconds) System.sound_initial trivial
    (fun _ _ _ sound _ taken => sound.step injective noColon taken)
    (fun _ _ _ sound once taken => sound.once_step once taken) run

/-- Where only Redis accepts, it keeps what stands. -/
lemma isKeptByRedis_of_isStanding (online : ∀ e ∈ history, e.action ≠ .accepted .memory)
    (standing : isStanding ttlSeconds nonce now history = true) :
    isKeptByRedis ttlSeconds nonce now history = true := by
  obtain ⟨time, last, recent⟩ := (Option.any_eq_true _ _).1 standing
  refine isKeptByRedis_iff.2 ⟨time, ?_, of_decide_eq_true recent⟩
  clear standing recent
  induction history with
  | nil => cases last
  | cons e older ih =>
    obtain ⟨here, before⟩ := List.forall_mem_cons.1 online
    obtain ⟨action, mine, time'⟩ := e
    by_cases same : mine = nonce
    · rw [same] at last ⊢
      cases action with
      | accepted store =>
        cases store with
        | redis =>
          rw [lastAccepted_cons_accepted rfl] at last
          exact (lastAccepted_cons_accepted rfl).trans last
        | memory => exact absurd rfl here
      | forgotten store =>
        rw [lastAccepted_cons_forgotten rfl] at last
        cases last
      | rejected => exact ih before last
    · rw [lastAccepted_cons_other fun _ _ own => absurd own same] at last ⊢
      exact ih before last

/-- Only a call without a client is accepted in memory. -/
lemma System.online_step {m : Move} (online : ∀ e ∈ s.history, e.action ≠ .accepted .memory)
    (connected : ∀ clientId value, m ≠ .consume clientId value .absent)
    (taken : s.step sha256 ttlSeconds m = some s') : ∀ e ∈ s'.history, e.action ≠ .accepted .memory := by
  cases m with
  | tick later =>
    rw [System.step] at taken
    split at taken
    case isTrue => cases taken; exact online
    case isFalse => cases taken
  | consume clientId value client =>
    obtain ⟨nonce, -, rfl, -⟩ | ⟨nonce, -, -, -, rfl⟩ | ⟨rfl, -⟩ := System.step_consume taken
    · exact absurd rfl (connected clientId value)
    · rw [System.consumeRedis]
      split
      · exact List.forall_mem_cons.2 ⟨by simp, online⟩
      · exact List.forall_mem_cons.2 ⟨by simp, online⟩
    · exact online
  | invalidate clientId value client =>
    cases taken
    rw [System.invalidate]
    split
    case h_1 => exact online
    case h_2 =>
      split
      · exact List.forall_mem_cons.2 ⟨by simp, online⟩
      · exact List.forall_mem_cons.2 ⟨by simp, online⟩
  | del k succeeds =>
    rw [System.step] at taken
    split at taken
    case h_1 =>
      cases taken
      split
      · exact List.forall_mem_cons.2 ⟨by simp, online⟩
      · exact online
    case h_2 => cases taken

/-- With a client, every step is safe. -/
lemma System.isSafe_of_online {m : Move} (online : ∀ e ∈ s.history, e.action ≠ .accepted .memory)
    (connected : ∀ clientId value, m ≠ .consume clientId value .absent) : s.isSafe ttlSeconds m = true := by
  cases m with
  | consume clientId value client =>
    rw [System.isSafe.eq_def]
    cases named : normalize clientId value with
    | error message => simp only [named]
    | ok nonce =>
      cases client with
      | absent => exact absurd rfl (connected clientId value)
      | answers =>
        simp only [named]
        cases standing : isStanding ttlSeconds nonce s.now s.history with
        | false => rw [Bool.not_false, Bool.or_true, Bool.true_or]
        | true => rw [isKeptByRedis_of_isStanding online standing, Bool.or_true]
      | raises => simp only [named]
  | _ => rfl

/-- With a Redis client for every call, a nonce is accepted once per window throughout. -/
theorem once_per_window_of_redis (injective : Function.Injective sha256) (noColon : ∀ text, ':' ∉ (sha256 text).toList)
    {trace : List Move} (connected : ∀ clientId value, Move.consume clientId value .absent ∉ trace) :
    Machine.Always (System.step sha256 ttlSeconds) (fun s => OncePerWindow ttlSeconds s.history) System.initial
      trace := by
  have guarded : Machine.Guarded (System.step sha256 ttlSeconds)
      (fun _ m => ∀ clientId value, m ≠ .consume clientId value .absent) System.initial trace := by
    rintro pre m _ le - clientId value rfl
    exact connected clientId value (le.subset (List.mem_append_right pre List.mem_cons_self))
  have always : Machine.Always (System.step sha256 ttlSeconds) (fun s => s.Sound sha256 ttlSeconds ∧
      OncePerWindow ttlSeconds s.history ∧ ∀ e ∈ s.history, e.action ≠ .accepted .memory) System.initial trace := by
    refine Machine.always_of_guarded ⟨System.sound_initial, trivial, List.forall_mem_nil _⟩ ?_ guarded
    rintro s m s' ⟨sound, once, online⟩ connected taken
    exact ⟨sound.step injective noColon taken,
      (sound.once_step once taken).2 (System.isSafe_of_online online connected),
      System.online_step online connected taken⟩
  exact fun pre t le reached => (always pre t le reached).2.1

end Keys

/-- The text without its colons. -/
def escape : List Char → List Char
  | [] => []
  | c :: cs => (if c = ':' then ['z', '0'] else ['y', c]) ++ escape cs

/-- The escaped text tells the text. -/
lemma escape_injective : Function.Injective escape := by
  intro xs ys same
  induction xs generalizing ys with
  | nil =>
    cases ys with
    | nil => rfl
    | cons y ys =>
      rw [escape, escape] at same
      split at same
      · cases same
      · cases same
  | cons x xs ih =>
    cases ys with
    | nil =>
      rw [escape, escape] at same
      split at same
      · cases same
      · cases same
    | cons y ys =>
      rw [escape, escape] at same
      split_ifs at same with left right right
      · rw [left, right, ih (List.append_cancel_left same)]
      · cases same
      · cases same
      · obtain ⟨rfl, rest⟩ : x = y ∧ escape xs = escape ys := by simpa using same
        rw [ih rest]

/-- An escaped text has no colon. -/
lemma colon_notMem_escape (cs : List Char) : ':' ∉ escape cs := by
  induction cs with
  | nil => exact List.not_mem_nil
  | cons c cs ih =>
    rw [escape, List.mem_append, not_or]
    refine ⟨?_, ih⟩
    split
    case isTrue => decide
    case isFalse other =>
      rintro (_ | ⟨_, here | ⟨_, none⟩⟩)
      · exact other rfl
      · cases none

/-- SHA-256 on one text; other texts stand for their own digests. -/
def sampleSha256 (text : String) : String :=
  if text = "GABC:n1" then "50013df0d4d510b268519a0949e41a0d58396d047a29ecce9574f7ec4ba4add9"
  else String.ofList ('x' :: escape text.toList)

/-- The digest of the sample tells its input. -/
lemma sampleSha256_injective : Function.Injective sampleSha256 := by
  intro s s' same
  have heads := congrArg (fun text => text.toList.head?) same
  simp only [sampleSha256] at same heads
  split_ifs at same heads with here here' here'
  · rw [here, here']
  · rw [String.toList_ofList] at heads
    exact absurd heads (by simp)
  · rw [String.toList_ofList] at heads
    exact absurd heads (by simp)
  · exact String.toList_injective (escape_injective (List.cons.inj (String.ofList_injective same)).2)

/-- The digest of the sample has no colon. -/
lemma colon_notMem_sampleSha256 (text : String) : ':' ∉ (sampleSha256 text).toList := by
  rw [sampleSha256]
  split
  case isTrue => decide
  case isFalse =>
    rw [String.toList_ofList]
    exact fun mem => (List.mem_cons.1 mem).elim (by decide) (colon_notMem_escape _)

/-- Accepted, rejected a second later, and accepted again when the window is over. -/
def reuse : List Move :=
  [.consume "GABC" "n1" .answers, .tick 1000, .consume " GABC" "n1" .answers, .tick 300000,
    .consume "GABC" "n1" .answers]

/-- A nonce is used again after its window. -/
theorem once_per_window_iff_reuse :
    Machine.Always (System.step sampleSha256 NONCE_TTL_SECONDS) (fun s => OncePerWindow NONCE_TTL_SECONDS s.history)
      System.initial reuse := by
  obtain ⟨s, run⟩ := Option.isSome_iff_exists.1
    (show (Machine.exec (System.step sampleSha256 NONCE_TTL_SECONDS) System.initial reuse).isSome by decide +kernel)
  exact (once_per_window_iff sampleSha256 NONCE_TTL_SECONDS sampleSha256_injective colon_notMem_sampleSha256 reuse s
    run).2 (by decide +kernel)

/-- Redis accepts the nonce, and a second later, when there is no client, the memory does. -/
theorem accepted_twice_in_outage :
    ¬Machine.Always (System.step sampleSha256 NONCE_TTL_SECONDS) (fun s => OncePerWindow NONCE_TTL_SECONDS s.history)
      System.initial [.consume "GABC" "n1" .answers, .tick 1000, .consume "GABC" "n1" .absent] := by
  intro always
  have history : (Machine.exec (System.step sampleSha256 NONCE_TTL_SECONDS) System.initial
      [.consume "GABC" "n1" .answers, .tick 1000, .consume "GABC" "n1" .absent]).map System.history =
      some [⟨.accepted .memory, ⟨"GABC", "n1"⟩, 1000⟩, ⟨.accepted .redis, ⟨"GABC", "n1"⟩, 0⟩] := by decide +kernel
  obtain ⟨s, run, last⟩ := Option.map_eq_some_iff.1 history
  have once : OncePerWindow NONCE_TTL_SECONDS s.history := always _ s (List.prefix_refl _) run
  rw [last] at once
  obtain ⟨f, mem, -⟩ := once.1 [] _ [] .redis rfl rfl rfl (by decide +kernel)
  cases mem

end StellarFlow.AntiReplay
