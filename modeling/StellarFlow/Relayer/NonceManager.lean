import Mathlib.Data.List.Sort
import Mathlib.Algebra.Order.Ring.Rat
import StellarFlow.Lib.Dict
import StellarFlow.Lib.Python

/-!
# The relayer's nonce manager

Model of `NonceManager` in `app/services/nonce_manager.py`: the sequence counter of one relayer account,
kept under a Redis key, and the slots of the sequences that are in flight. Redis executes one command at
a time, so its commands are functions on the value of the key. Within one process the manager's lock
makes each method one step; the clock and Horizon's answers are arguments.
-/

namespace StellarFlow.Relayer

/-- The Redis key of an account; `none` when it does not exist. -/
abbrev RedisKey := Option ℤ

namespace RedisKey

/-- `EXISTS`. -/
def present (key : RedisKey) : Bool := key.isSome

/-- `SET key value NX`. -/
def setNx (key : RedisKey) (value : ℤ) : RedisKey := some (key.getD value)

/-- `SET key value`. -/
def set (_ : RedisKey) (value : ℤ) : RedisKey := some value

/-- The value `INCR` returns and stores; an absent key counts as zero. -/
def incr (key : RedisKey) : ℤ := key.getD 0 + 1

/-- `DEL`. -/
def del (_ : RedisKey) : RedisKey := none

end RedisKey

/-- `NonceManager`; the constructor rejects an empty address. -/
structure NonceManager where
  accountAddress : String
  nonempty : accountAddress ≠ ""
  staleTimeout : ℚ
  key : RedisKey
  pending : Dict ℤ ℚ

/-- `MAX_RESYNC_RETRIES`. -/
def maxResyncRetries : ℕ := 3

namespace NonceManager

/-- `NonceManager.__init__`, for an account whose Redis key has the given value. -/
def init (accountAddress : String) (staleTimeout : ℚ) (key : RedisKey) : Except PyError NonceManager :=
  if h : accountAddress = "" then .error (.valueError "account_address must be a non-empty string.")
  else .ok { accountAddress, nonempty := h, staleTimeout, key, pending := .empty }

variable (m : NonceManager)

/-- `NonceManager.in_flight_count`. -/
def inFlightCount : ℕ := m.pending.keys.length

/-- `INCR` and the slot for the number it returns. -/
def allocate (now : ℚ) : ℤ × NonceManager :=
  let sequence := m.key.incr
  (sequence, { m with key := some sequence, pending := m.pending.set sequence now })

/-- `NonceManager.acquire`. -/
def acquire (seed : Option ℤ) (now : ℚ) : Except PyError ℤ × NonceManager :=
  if m.key.present then
    let (sequence, m) := m.allocate now
    (.ok sequence, m)
  else match seed with
    | none =>
      (.error (.valueError (s!"Redis key for {Py.repr m.accountAddress} does not exist " ++
        "and no seed was provided. Call resync_from_horizon() " ++
        "or pass a seed to bootstrap the counter.")), m)
    | some seed =>
      let (sequence, m) := { m with key := m.key.setNx seed }.allocate now
      (.ok sequence, m)

/-- The slot of a sequence is given up. -/
def drop (sequence : ℤ) : NonceManager :=
  { m with pending := m.pending.pop sequence }

/-- `NonceManager.confirm`. -/
def confirm (sequence : ℤ) : NonceManager := m.drop sequence

/-- `NonceManager.fail`. -/
def fail (sequence : ℤ) : NonceManager := m.drop sequence

/-- The retry loop of `resync_from_horizon`: the first answer, or the last exception. `horizon attempt` is
what `_fetch_horizon_sequence` returns or raises at an attempt. -/
def fetchRetrying (horizon : ℕ → Except String ℤ) : List ℕ → String → Except String ℤ
  | [], lastExc => .error lastExc
  | attempt :: rest, _ =>
    match horizon attempt with
    | .ok ledgerSequence => .ok ledgerSequence
    | .error exc => fetchRetrying horizon rest exc

/-- The locked section of `resync_from_horizon`. -/
def adopt (ledgerSequence : ℤ) : NonceManager :=
  { m with key := m.key.set ledgerSequence, pending := .empty }

/-- `NonceManager.resync_from_horizon`. -/
def resyncFromHorizon (horizon : ℕ → Except String ℤ) : Except PyError ℤ × NonceManager :=
  match fetchRetrying horizon (List.range' 1 maxResyncRetries) "None" with
  | .ok ledgerSequence => (.ok ledgerSequence, m.adopt ledgerSequence)
  | .error lastExc =>
    (.error (.exception "NonceMismatchError"
      (s!"Horizon re-sync failed for {Py.repr m.accountAddress} after " ++
        s!"{maxResyncRetries} attempts: {lastExc}")), m)

/-- `NonceManager.get_stale`. -/
def getStale (timeoutSeconds : Option ℚ) (now : ℚ) : List ℤ :=
  let threshold := timeoutSeconds.getD m.staleTimeout
  (m.pending.keysWhere fun issuedAt => threshold < now - issuedAt).insertionSort (· ≤ ·)

/-- `NonceManager.get_pending_sequences`. -/
def getPendingSequences : List ℤ :=
  m.pending.keys.insertionSort (· ≤ ·)

/-- `NonceManager.get_current_counter`. -/
def getCurrentCounter : Option ℤ := m.key

/-- `NonceManager.invalidate`. -/
def invalidate : NonceManager :=
  { m with key := m.key.del, pending := .empty }

/-- The pending sequences are the keys. -/
@[simp] lemma mem_getPendingSequences {n : ℤ} : n ∈ m.getPendingSequences ↔ n ∈ m.pending.keys :=
  List.mem_insertionSort _

/-- The manager after it has handed out a sequence. -/
def handedOut (sequence : ℤ) (now : ℚ) : NonceManager :=
  { m with key := some sequence, pending := m.pending.set sequence now }

/-- What `acquire` does: it raises and changes nothing, or it hands out the number after the counter, or
the number after the seed of an absent counter. -/
lemma acquire_cases (seed : Option ℤ) (now : ℚ) :
    (∃ error, m.key = none ∧ m.acquire seed now = (.error error, m)) ∨
    ∃ sequence, m.acquire seed now = (.ok sequence, m.handedOut sequence now) ∧
      (m.key = some (sequence - 1) ∨ m.key = none ∧ seed = some (sequence - 1)) := by
  cases key : m.key with
  | some counter =>
    right
    refine ⟨counter + 1, ?_, .inl (by simp)⟩
    simp [acquire, RedisKey.present, key, allocate, RedisKey.incr, handedOut]
  | none =>
    cases seed with
    | none =>
      left
      simp only [acquire, RedisKey.present, key, Option.isSome_none, Bool.false_eq_true, if_false]
      exact ⟨_, trivial, rfl⟩
    | some seed =>
      right
      refine ⟨seed + 1, ?_, .inr ⟨rfl, by simp⟩⟩
      simp [acquire, RedisKey.present, key, allocate, RedisKey.incr, RedisKey.setNx, handedOut]

/-- What `resync_from_horizon` does: it raises and changes nothing, or it adopts an answer. -/
lemma resyncFromHorizon_cases (horizon : ℕ → Except String ℤ) :
    (∃ error, m.resyncFromHorizon horizon = (.error error, m)) ∨
    ∃ ledgerSequence, m.resyncFromHorizon horizon = (.ok ledgerSequence, m.adopt ledgerSequence) := by
  rw [resyncFromHorizon]
  split
  · exact .inr ⟨_, rfl⟩
  · exact .inl ⟨_, rfl⟩

end NonceManager

end StellarFlow.Relayer
