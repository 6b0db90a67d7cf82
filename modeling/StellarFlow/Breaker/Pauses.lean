import Mathlib.Tactic.Linarith
import StellarFlow.Lib.Dict
import StellarFlow.Lib.JavaScript
import StellarFlow.Lib.Machine

/-!
# Emergency pauses

Model of `runCheck`, `triggerPause` and `isWithinCooldown` in `src/services/circuitBreakerService.ts` with the rules of
`src/services/invariantChecker.ts`. The calls run interleaved, one awaited step at a time, while the clock goes on; each
step may throw. Whether the network accepts a transaction is settled when it is sent, and the answer may be lost.

A call checks the cooldown against the pauses recorded so far, and records its own only after it was submitted. So two
calls can both pass, and an accepted pause whose answer or record is lost is taken for a failure; and a rejected pause
is not followed by a cooldown at all. The pauses keep the cooldown where no call passes the check while another of its
type goes on or soon after one was rejected, and nothing throws after a transaction was accepted.
-/

namespace StellarFlow.Breaker

inductive InvariantSeverity where
  | high
  | critical
  deriving DecidableEq

/-- The `details` of a violation. -/
structure Details where
  keeperPublicKey : String
  balance : Option Js.Double
  minKeeperXlmBalance : Js.Double

structure InvariantViolation where
  breachType : String
  severity : InvariantSeverity
  message : String
  details : Details

/-- The settings of the service, and the text of a number. -/
structure Settings where
  enabled : Bool
  contractId : String
  keeperPublicKey : String
  minKeeperXlmBalance : Js.Double
  cooldownMs : ℤ
  text : Js.Double → String

inductive EventStatus where
  | detected
  | pauseSubmitted
  | pauseFailed
  deriving DecidableEq

/-- A row of `CircuitBreakerEvent`. Beyond its columns, `accepted` tells whether the network had accepted a transaction
of the call that wrote it. -/
structure Record where
  violation : InvariantViolation
  status : EventStatus
  txHash : Option String
  keeperPublicKey : String
  detectedAt : ℤ
  accepted : Bool

/-- Where a call of `triggerPause` stands: what it awaits next, or that it has ended. -/
inductive Phase where
  | finding
  | detecting
  | submitting
  | sent (hash : String) (accepted : Bool)
  | recording (hash : String)
  | failing (accepted : Bool)
  | finished
  deriving DecidableEq

/-- A call, with the time it was started at. -/
structure Call where
  violation : InvariantViolation
  now : ℤ
  phase : Phase

/-- A pause transaction that was sent. -/
structure Pause where
  breachType : String
  hash : String
  time : ℤ
  accepted : Bool
  deriving DecidableEq

structure Service where
  clock : ℤ
  lastPauseByBreachType : Dict String ℤ
  records : List Record
  calls : List Call
  sent : List Pause

inductive Move where
  | tick (ms : ℕ)
  | runCheck (lockdown : Bool) (keeperXlmBalance : Option Js.Double)
  | triggerPause (violation : InvariantViolation)
  | find (i : ℕ)
  | detect (i : ℕ)
  | send (i : ℕ) (hash : String) (accepted : Bool)
  | answer (i : ℕ)
  | record (i : ℕ)
  | error (i : ℕ)
  | fail (i : ℕ) (written : Bool)

variable (st : Settings)

def evaluateBalanceInvariants (keeperXlmBalance : Option Js.Double) : List InvariantViolation :=
  match keeperXlmBalance with
  | none =>
    [⟨"KEEPER_BALANCE_UNREADABLE", .high, "Keeper account balance could not be read — invariant state is unknown.",
      ⟨st.keeperPublicKey, none, st.minKeeperXlmBalance⟩⟩]
  | some balance =>
    if balance.lt st.minKeeperXlmBalance then
      [⟨"KEEPER_XLM_BALANCE_BELOW_FLOOR", .critical,
        s!"Keeper XLM balance {st.text balance} is below the invariant floor of {st.text st.minKeeperXlmBalance} XLM.",
        ⟨st.keeperPublicKey, some balance, st.minKeeperXlmBalance⟩⟩]
    else []

def requiresCircuitBreakerPause (violations : List InvariantViolation) : List InvariantViolation :=
  violations.filter fun v => v.severity = .critical

def Service.advance (s : Service) (i : ℕ) (call : Call) (phase : Phase) : Service :=
  { s with calls := s.calls.set i { call with phase := phase } }

/-- `eventRecorder`. -/
def Service.write (s : Service) (violation : InvariantViolation) (status : EventStatus) (txHash : Option String)
    (accepted : Bool) : Service :=
  { s with records := s.records ++ [⟨violation, status, txHash, st.keeperPublicKey, s.clock, accepted⟩] }

/-- `triggerPause` up to its first await: the cooldown in memory is checked at once. -/
def Service.triggerPause (s : Service) (violation : InvariantViolation) : Service :=
  if s.clock - (s.lastPauseByBreachType.get? violation.breachType).getD 0 < st.cooldownMs then s
  else { s with calls := s.calls ++ [⟨violation, s.clock, .finding⟩] }

/-- `persistedPauseFinder`. -/
def Service.persistedPauseFinder (s : Service) (breachType : String) (since : ℤ) : Bool :=
  s.records.any fun row =>
    row.violation.breachType = breachType && row.status = .pauseSubmitted && since ≤ row.detectedAt

/-- One move. `runCheck` finds at most one violation, so its loops run at most once. -/
def Service.step (s : Service) : Move → Option Service
  | .tick ms => some { s with clock := s.clock + ms }
  | .runCheck lockdown keeperXlmBalance =>
    if !st.enabled || st.contractId = "" || lockdown then some s
    else
      match requiresCircuitBreakerPause (evaluateBalanceInvariants st keeperXlmBalance) with
      | [] => some s
      | violation :: _ => some (s.triggerPause st violation)
  | .triggerPause violation => some (s.triggerPause st violation)
  | .find i =>
    match s.calls[i]? with
    | some ⟨violation, now, .finding⟩ =>
      if s.persistedPauseFinder violation.breachType (now - st.cooldownMs) then
        some (s.advance i ⟨violation, now, .finding⟩ .finished)
      else some (s.advance i ⟨violation, now, .finding⟩ .detecting)
    | _ => none
  | .detect i =>
    match s.calls[i]? with
    | some ⟨violation, now, .detecting⟩ =>
      some ((s.write st violation .detected none false).advance i ⟨violation, now, .detecting⟩ .submitting)
    | _ => none
  | .send i hash accepted =>
    match s.calls[i]? with
    | some ⟨violation, now, .submitting⟩ =>
      some { s.advance i ⟨violation, now, .submitting⟩ (.sent hash accepted) with
        sent := s.sent ++ [⟨violation.breachType, hash, s.clock, accepted⟩] }
    | _ => none
  | .answer i =>
    match s.calls[i]? with
    | some ⟨violation, now, .sent hash true⟩ =>
      some { s.advance i ⟨violation, now, .sent hash true⟩ (.recording hash) with
        lastPauseByBreachType := s.lastPauseByBreachType.set violation.breachType now }
    | _ => none
  | .record i =>
    match s.calls[i]? with
    | some ⟨violation, now, .recording hash⟩ =>
      some ((s.write st violation .pauseSubmitted (some hash) true).advance i ⟨violation, now, .recording hash⟩
        .finished)
    | _ => none
  | .error i =>
    match s.calls[i]? with
    | some ⟨violation, now, .finding⟩ => some (s.advance i ⟨violation, now, .finding⟩ .finished)
    | some ⟨violation, now, .detecting⟩ => some (s.advance i ⟨violation, now, .detecting⟩ .finished)
    | some ⟨violation, now, .submitting⟩ => some (s.advance i ⟨violation, now, .submitting⟩ (.failing false))
    | some ⟨violation, now, .sent hash accepted⟩ =>
      some (s.advance i ⟨violation, now, .sent hash accepted⟩ (.failing accepted))
    | some ⟨violation, now, .recording hash⟩ =>
      some (s.advance i ⟨violation, now, .recording hash⟩ (.failing true))
    | _ => none
  | .fail i written =>
    match s.calls[i]? with
    | some ⟨violation, now, .failing accepted⟩ =>
      if written then
        some ((s.write st violation .pauseFailed none accepted).advance i ⟨violation, now, .failing accepted⟩ .finished)
      else some (s.advance i ⟨violation, now, .failing accepted⟩ .finished)
    | _ => none

/-- A service that has just been deployed. -/
def Service.initial (clock : ℤ) : Service := ⟨clock, Dict.empty, [], [], []⟩

/-- Whether a cooldown is to follow the pause: after every one that was sent, or only after the accepted ones. -/
def Pause.counts (all : Bool) (p : Pause) : Bool := all || p.accepted

/-- After a pause that counts none of its type is sent within the cooldown. -/
def Service.Spaced (all : Bool) (s : Service) : Prop :=
  s.sent.Pairwise fun p q => p.breachType = q.breachType → p.counts all = true → p.time + st.cooldownMs ≤ q.time

/-- No accepted pause is recorded as a failure. -/
def Service.Truthful (s : Service) : Prop := ∀ row ∈ s.records, row.status = .pauseFailed → row.accepted = false

/-- The type of a call that has passed the check and not ended or failed yet. -/
def Call.held (call : Call) : Option String :=
  match call.phase with
  | .detecting => some call.violation.breachType
  | .submitting => some call.violation.breachType
  | .sent _ _ => some call.violation.breachType
  | .recording _ => some call.violation.breachType
  | _ => none

def Service.held (s : Service) : List String := s.calls.filterMap Call.held

/-- A pause of the type was rejected less than a cooldown ago. -/
def Service.isRejected (s : Service) (breachType : String) (now : ℤ) : Bool :=
  s.sent.any fun p => p.breachType = breachType && !p.accepted && now < p.time + st.cooldownMs

/-- A call passes the check only when no other of its type goes on and, if every pause counts, none was rejected less
than a cooldown ago; and nothing throws after a transaction was accepted. -/
def Service.isOrderly (all : Bool) (s : Service) : Move → Bool
  | .find i =>
    match s.calls[i]? with
    | some ⟨violation, now, .finding⟩ =>
      s.persistedPauseFinder violation.breachType (now - st.cooldownMs) ||
        (violation.breachType ∉ s.held && !(all && s.isRejected st violation.breachType now))
    | _ => true
  | .error i =>
    match s.calls[i]? with
    | some ⟨_, _, .sent _ true⟩ => false
    | some ⟨_, _, .recording _⟩ => false
    | _ => true
  | _ => true

/-- The transaction of the call is still to be sent. -/
def Call.isUnsent (call : Call) : Bool :=
  match call.phase with
  | .detecting => true
  | .submitting => true
  | _ => false

/-- The transaction of the call has been accepted, and is still to be recorded. -/
def Call.isAccepted (call : Call) : Bool :=
  match call.phase with
  | .sent _ accepted => accepted
  | .recording _ => true
  | _ => false

/-- The calls that go on are of different types. An accepted pause is recorded, or about to be, and a pause that counts
is a cooldown older than the calls of its type that are still to send theirs. -/
structure Service.Orderly (all : Bool) (s : Service) : Prop where
  started : ∀ call ∈ s.calls, call.now ≤ s.clock
  past : ∀ p ∈ s.sent, p.time ≤ s.clock
  nodup : s.held.Nodup
  settled : ∀ p ∈ s.sent, p.accepted = true →
    (∃ call ∈ s.calls, call.violation.breachType = p.breachType ∧ call.isAccepted = true) ∨
    ∃ row ∈ s.records, row.violation.breachType = p.breachType ∧ row.status = .pauseSubmitted ∧ p.time ≤ row.detectedAt
  clear : ∀ call ∈ s.calls, call.isUnsent = true → ∀ p ∈ s.sent, p.breachType = call.violation.breachType →
    p.counts all = true → p.time + st.cooldownMs ≤ call.now
  failing : ∀ call ∈ s.calls, call.phase ≠ .failing true
  truthful : s.Truthful
  spaced : s.Spaced st all

variable {st} {all : Bool} {s s' : Service} {m : Move} {i : ℕ} {call : Call} {phase : Phase} {hash : String}
variable {accepted : Bool}

/-- The moves of the service, case by case. -/
inductive Service.Step (st : Settings) (s : Service) : Move → Service → Prop where
  | tick {ms : ℕ} : Step st s (.tick ms) { s with clock := s.clock + ms }
  | idle {m : Move} : Step st s m s
  | start {m : Move} (violation : InvariantViolation) :
      Step st s m { s with calls := s.calls ++ [⟨violation, s.clock, .finding⟩] }
  | skip {i : ℕ} {call : Call} (found : s.calls[i]? = some call) (finding : call.phase = .finding) :
      Step st s (.find i) (s.advance i call .finished)
  | pass {i : ℕ} {call : Call} (found : s.calls[i]? = some call) (finding : call.phase = .finding)
      (unpaused : s.persistedPauseFinder call.violation.breachType (call.now - st.cooldownMs) = false) :
      Step st s (.find i) (s.advance i call .detecting)
  | detect {i : ℕ} {call : Call} (found : s.calls[i]? = some call) (detecting : call.phase = .detecting) :
      Step st s (.detect i) ((s.write st call.violation .detected none false).advance i call .submitting)
  | send {i : ℕ} {hash : String} {accepted : Bool} {call : Call} (found : s.calls[i]? = some call)
      (submitting : call.phase = .submitting) :
      Step st s (.send i hash accepted) { s.advance i call (.sent hash accepted) with
        sent := s.sent ++ [⟨call.violation.breachType, hash, s.clock, accepted⟩] }
  | answer {i : ℕ} {hash : String} {call : Call} (found : s.calls[i]? = some call)
      (sent : call.phase = .sent hash true) : Step st s (.answer i) { s.advance i call (.recording hash) with
        lastPauseByBreachType := s.lastPauseByBreachType.set call.violation.breachType call.now }
  | record {i : ℕ} {hash : String} {call : Call} (found : s.calls[i]? = some call)
      (recording : call.phase = .recording hash) : Step st s (.record i)
        ((s.write st call.violation .pauseSubmitted (some hash) true).advance i call .finished)
  | ended {i : ℕ} {call : Call} (found : s.calls[i]? = some call) (unaccepted : call.isAccepted = false) :
      Step st s (.error i) (s.advance i call .finished)
  | failed {i : ℕ} {call : Call} (found : s.calls[i]? = some call) (unaccepted : call.isAccepted = false) :
      Step st s (.error i) (s.advance i call (.failing false))
  | lost {i : ℕ} {call : Call} (found : s.calls[i]? = some call) (accepted : call.isAccepted = true) :
      Step st s (.error i) (s.advance i call (.failing true))
  | fail {i : ℕ} {call : Call} {accepted : Bool} (found : s.calls[i]? = some call)
      (failing : call.phase = .failing accepted) : Step st s (.fail i true)
        ((s.write st call.violation .pauseFailed none accepted).advance i call .finished)
  | forget {i : ℕ} {call : Call} {accepted : Bool} (found : s.calls[i]? = some call)
      (failing : call.phase = .failing accepted) : Step st s (.fail i false) (s.advance i call .finished)

/-- What `triggerPause` can do is among the steps. -/
lemma Service.triggerPause_cases (s : Service) (violation : InvariantViolation) :
    Service.Step st s m (s.triggerPause st violation) := by
  rw [Service.triggerPause]
  split
  case isTrue => exact .idle
  case isFalse => exact .start violation

/-- Each step of the model is one of those named. -/
lemma Service.step_cases (taken : s.step st m = some s') : Service.Step st s m s' := by
  cases m with
  | tick ms =>
    cases taken
    exact .tick
  | runCheck lockdown keeperXlmBalance =>
    rw [Service.step] at taken
    split at taken
    case isTrue =>
      cases taken
      exact .idle
    case isFalse =>
      split at taken
      case h_1 =>
        cases taken
        exact .idle
      case h_2 violation _ _ =>
        cases taken
        exact s.triggerPause_cases violation
  | triggerPause violation =>
    cases taken
    exact s.triggerPause_cases violation
  | find i =>
    rw [Service.step] at taken
    split at taken
    case h_1 violation now found =>
      split at taken
      case isTrue =>
        cases taken
        exact .skip found rfl
      case isFalse unpaused =>
        cases taken
        exact .pass found rfl (Bool.eq_false_iff.2 unpaused)
    case h_2 => cases taken
  | detect i =>
    rw [Service.step] at taken
    split at taken
    case h_1 violation now found =>
      cases taken
      exact .detect found rfl
    case h_2 => cases taken
  | send i hash accepted =>
    rw [Service.step] at taken
    split at taken
    case h_1 violation now found =>
      cases taken
      exact .send found rfl
    case h_2 => cases taken
  | answer i =>
    rw [Service.step] at taken
    split at taken
    case h_1 violation now hash found =>
      cases taken
      exact .answer found rfl
    case h_2 => cases taken
  | record i =>
    rw [Service.step] at taken
    split at taken
    case h_1 violation now hash found =>
      cases taken
      exact .record found rfl
    case h_2 => cases taken
  | error i =>
    rw [Service.step] at taken
    split at taken
    case h_1 violation now found =>
      cases taken
      exact .ended found rfl
    case h_2 violation now found =>
      cases taken
      exact .ended found rfl
    case h_3 violation now found =>
      cases taken
      exact .failed found rfl
    case h_4 violation now hash accepted found =>
      cases taken
      cases accepted with
      | true => exact .lost found rfl
      | false => exact .failed found rfl
    case h_5 violation now hash found =>
      cases taken
      exact .lost found rfl
    case h_6 => cases taken
  | fail i written =>
    rw [Service.step] at taken
    split at taken
    case h_1 violation now accepted found =>
      split at taken
      case isTrue written =>
        cases taken
        cases written
        exact .fail found rfl
      case isFalse lost =>
        cases taken
        cases Bool.eq_false_iff.2 lost
        exact .forget found rfl
    case h_2 => cases taken

/-- A call goes on, and sends nothing. -/
lemma Service.Orderly.replaced (inv : s.Orderly st all) (found : s.calls[i]? = some call)
    (calls : s'.calls = s.calls.set i { call with phase := phase }) (clock : s'.clock = s.clock)
    (sent : s'.sent = s.sent) (records : s.records ⊆ s'.records) (truthful : s'.Truthful)
    (free : ∀ r, Call.held { call with phase := phase } = some r → call.held = some r ∨ r ∉ s.held)
    (settled : call.isAccepted = true → Call.isAccepted { call with phase := phase } = true ∨
      ∃ row ∈ s'.records, row.violation.breachType = call.violation.breachType ∧ row.status = .pauseSubmitted ∧
        s.clock ≤ row.detectedAt)
    (clear : Call.isUnsent { call with phase := phase } = true → ∀ p ∈ s.sent,
      p.breachType = call.violation.breachType → p.counts all = true → p.time + st.cooldownMs ≤ call.now)
    (failing : phase ≠ .failing true) : s'.Orderly st all := by
  refine ⟨?_, ?_, ?_, ?_, ?_, ?_, truthful, ?_⟩
  · intro u mem
    rw [calls] at mem
    rw [clock]
    have new : Call.now { call with phase := phase } ≤ s.clock := inv.started call (List.mem_of_getElem? found)
    exact Machine.forall_set (P := fun u => u.now ≤ s.clock) found inv.started (fun _ => new) mem
  · rw [sent, clock]
    exact inv.past
  · rw [Service.held, calls]
    exact Machine.nodup_held_set found inv.nodup free
  · intro p mem accepted
    rw [sent] at mem
    -- where the pause is of the call that goes on, it is recorded now, or still to be recorded
    rcases inv.settled p mem accepted with ⟨u, old, type, unrecorded⟩ | ⟨row, old, recorded⟩
    · rw [calls]
      rcases Machine.mem_set_or_eq found { call with phase := phase } old with rfl | kept
      · rcases settled unrecorded with same | ⟨row, new, type', status, time⟩
        · exact .inl ⟨_, List.mem_set (List.getElem?_eq_some_iff.1 found).1 _, type, same⟩
        · exact .inr ⟨row, new, type'.trans type, status, (inv.past p mem).trans time⟩
      · exact .inl ⟨u, kept, type, unrecorded⟩
    · exact .inr ⟨row, records old, recorded⟩
  · intro u mem unsent
    rw [calls] at mem
    rw [sent]
    rcases List.mem_or_eq_of_mem_set mem with old | rfl
    · exact inv.clear u old unsent
    · exact clear unsent
  · intro u mem
    rw [calls] at mem
    exact Machine.forall_set (P := fun u => u.phase ≠ .failing true) found inv.failing (fun _ => failing) mem
  · rw [Service.Spaced, sent]
    exact inv.spaced

/-- A call goes on, and does not pass the check, send or record. -/
lemma Service.Orderly.advance (inv : s.Orderly st all) (found : s.calls[i]? = some call)
    (unheld : Call.held { call with phase := phase } = none) (unaccepted : call.isAccepted = false)
    (unsent : Call.isUnsent { call with phase := phase } = false) (failing : phase ≠ .failing true) :
    (s.advance i call phase).Orderly st all := by
  refine inv.replaced found rfl rfl rfl (List.Subset.refl _) inv.truthful (fun r held => ?_) (fun is => ?_)
    (fun is => ?_) failing
  · cases held.symm.trans unheld
  · cases is.symm.trans unaccepted
  · cases is.symm.trans unsent

/-- A status is written that agrees with what the contract said. -/
lemma Service.Truthful.write (truthful : s.Truthful) {violation : InvariantViolation} {status : EventStatus}
    {txHash : Option String} (honest : status = .pauseFailed → accepted = false) :
    (s.write st violation status txHash accepted).Truthful := by
  intro row mem failed
  rcases List.mem_append.1 mem with old | last
  · exact truthful row old failed
  · cases List.mem_singleton.1 last
    exact honest failed

/-- A call that was accepted and not recorded holds its breach type. -/
lemma Call.held_of_isAccepted (unrecorded : call.isAccepted = true) : call.held = some call.violation.breachType := by
  obtain ⟨violation, now, phase⟩ := call
  cases phase with
  | sent => rfl
  | recording => rfl
  | finding => cases unrecorded
  | detecting => cases unrecorded
  | submitting => cases unrecorded
  | failing => cases unrecorded
  | finished => cases unrecorded

/-- A call on its way to be sent holds its breach type. -/
lemma Call.held_of_isUnsent (unsent : call.isUnsent = true) : call.held = some call.violation.breachType := by
  obtain ⟨violation, now, phase⟩ := call
  cases phase with
  | detecting => rfl
  | submitting => rfl
  | finding => cases unsent
  | sent => cases unsent
  | recording => cases unsent
  | failing => cases unsent
  | finished => cases unsent

/-- A call that passes the check while no other of its type goes on is a cooldown behind every accepted pause. -/
lemma Service.Orderly.clear_of_accepted (inv : s.Orderly st all) (free : call.violation.breachType ∉ s.held)
    (unpaused : s.persistedPauseFinder call.violation.breachType (call.now - st.cooldownMs) = false) {p : Pause}
    (mem : p ∈ s.sent) (type : p.breachType = call.violation.breachType) (accepted : p.accepted = true) :
    p.time + st.cooldownMs ≤ call.now := by
  rcases inv.settled p mem accepted with ⟨u, other, type', unrecorded⟩ | ⟨row, recorded, type', status, time⟩
  · have holds : u.held = some call.violation.breachType := by
      rw [Call.held_of_isAccepted unrecorded, type', type]
    exact absurd (List.mem_filterMap.2 ⟨u, other, holds⟩) free
  · by_contra late
    have within : call.now - st.cooldownMs ≤ row.detectedAt := by linarith
    refine ne_true_of_eq_false unpaused (List.any_eq_true.2 ⟨row, recorded, ?_⟩)
    rw [type', type, status, decide_eq_true rfl, decide_eq_true rfl, decide_eq_true within]
    rfl

/-- If no pause of its type was rejected less than a cooldown ago, it is a cooldown behind every pause. -/
lemma Service.Orderly.clear_of_pass (inv : s.Orderly st all) (free : call.violation.breachType ∉ s.held)
    (unrejected : (all && s.isRejected st call.violation.breachType call.now) = false)
    (unpaused : s.persistedPauseFinder call.violation.breachType (call.now - st.cooldownMs) = false) {p : Pause}
    (mem : p ∈ s.sent) (type : p.breachType = call.violation.breachType) (counts : p.counts all = true) :
    p.time + st.cooldownMs ≤ call.now := by
  cases accepted : p.accepted with
  | true => exact inv.clear_of_accepted free unpaused mem type accepted
  | false =>
    rw [Pause.counts, accepted, Bool.or_false] at counts
    rw [counts, Bool.true_and] at unrejected
    by_contra late
    refine ne_true_of_eq_false unrejected (List.any_eq_true.2 ⟨p, mem, ?_⟩)
    rw [type, accepted, decide_eq_true rfl, decide_eq_true (not_le.1 late)]
    rfl

/-- The pause of a call that has passed the check comes a cooldown after the accepted ones of its type. -/
lemma Service.Orderly.send (inv : s.Orderly st all) (found : s.calls[i]? = some call)
    (submitting : call.phase = .submitting) : Service.Orderly st all { s.advance i call (.sent hash accepted) with
      sent := s.sent ++ [⟨call.violation.breachType, hash, s.clock, accepted⟩] } := by
  have mem := List.mem_of_getElem? found
  have unsent : call.isUnsent = true := by rw [Call.isUnsent, submitting]
  have holds := Call.held_of_isUnsent unsent
  have set : Call.mk call.violation call.now (.sent hash accepted) ∈
      s.calls.set i { call with phase := .sent hash accepted } := List.mem_set (List.getElem?_eq_some_iff.1 found).1 _
  refine ⟨?_, ?_, ?_, ?_, ?_, ?_, inv.truthful, ?_⟩
  · intro u mem'
    have new : Call.now { call with phase := .sent hash accepted } ≤ s.clock := inv.started call mem
    exact Machine.forall_set (P := fun u => u.now ≤ s.clock) found inv.started (fun _ => new) mem'
  · intro p new
    rcases List.mem_append.1 new with old | last
    · exact inv.past p old
    · cases List.mem_singleton.1 last
      exact le_refl _
  · exact Machine.nodup_held_set found inv.nodup fun r held => .inl (holds.trans held)
  · intro p new taken
    rcases List.mem_append.1 new with old | last
    · refine (inv.settled p old taken).imp_left ?_
      rintro ⟨u, other, type, unrecorded⟩
      rcases Machine.mem_set_or_eq found { call with phase := .sent hash accepted } other with rfl | kept
      · rw [Call.isAccepted, submitting] at unrecorded
        cases unrecorded
      · exact ⟨u, kept, type, unrecorded⟩
    · cases List.mem_singleton.1 last
      exact .inl ⟨_, set, rfl, taken⟩
  · intro u mem' is p new type taken
    -- the call holds its type, so the other calls still to send are of other types
    rcases Machine.mem_set_of_held found inv.nodup holds mem' with rfl | ⟨old, other⟩
    · cases is
    rcases List.mem_append.1 new with before | last
    · exact inv.clear u old is p before type taken
    · cases List.mem_singleton.1 last
      rw [Call.held_of_isUnsent is] at other
      exact absurd (congrArg some type.symm) other
  · intro u mem'
    rcases List.mem_or_eq_of_mem_set mem' with old | rfl
    · exact inv.failing u old
    · exact nofun
  · refine List.pairwise_append.2 ⟨inv.spaced, List.pairwise_singleton _ _, fun p old q last => ?_⟩
    cases List.mem_singleton.1 last
    exact fun type taken => (inv.clear call mem unsent p old type taken).trans (inv.started call mem)

/-- An orderly step keeps the order. -/
lemma orderly_step (inv : s.Orderly st all) (orderly : s.isOrderly st all m = true) (taken : s.step st m = some s') :
    s'.Orderly st all := by
  cases Service.step_cases taken with
  | @tick ms =>
    have later : s.clock ≤ s.clock + ms := by omega
    exact ⟨fun call mem => (inv.started call mem).trans later, fun p mem => (inv.past p mem).trans later, inv.nodup,
      inv.settled, inv.clear, inv.failing, inv.truthful, inv.spaced⟩
  | idle => exact inv
  | start violation =>
    refine ⟨Machine.forall_snoc inv.started (le_refl _), inv.past, ?_, ?_, Machine.forall_snoc inv.clear nofun,
      Machine.forall_snoc inv.failing nofun, inv.truthful, inv.spaced⟩
    · rw [Service.held, Machine.held_snoc rfl]
      exact inv.nodup
    · intro p mem accepted
      refine (inv.settled p mem accepted).imp_left ?_
      rintro ⟨call, old, unrecorded⟩
      exact ⟨call, List.mem_append_left _ old, unrecorded⟩
  | skip found finding =>
    exact inv.advance found rfl (by rw [Call.isAccepted, finding]) rfl nofun
  | @pass i call found finding unpaused =>
    have allowed : call.violation.breachType ∉ s.held ∧
        (all && s.isRejected st call.violation.breachType call.now) = false := by
      obtain ⟨violation, now, phase⟩ := call
      cases finding
      rw [Service.isOrderly, found] at orderly
      rcases Bool.or_eq_true_iff.1 orderly with paused | allowed
      · cases paused.symm.trans unpaused
      · obtain ⟨free, unrejected⟩ := Bool.and_eq_true_iff.1 allowed
        exact ⟨of_decide_eq_true free, Bool.eq_false_of_not_eq_true' unrejected⟩
    obtain ⟨free, unrejected⟩ := allowed
    refine inv.replaced found rfl rfl rfl (List.Subset.refl _) inv.truthful (fun r held => .inr ?_) (fun is => ?_)
      (fun _ p mem type counts => inv.clear_of_pass free unrejected unpaused mem type counts) nofun
    · cases held
      exact free
    · rw [Call.isAccepted, finding] at is
      cases is
  | detect found detecting =>
    refine inv.replaced found rfl rfl rfl (List.subset_append_left _ _) (inv.truthful.write nofun)
      (fun r held => .inl ?_) (fun is => ?_) (fun _ => inv.clear _ (List.mem_of_getElem? found) ?_) nofun
    · rw [Call.held, detecting]
      exact held
    · rw [Call.isAccepted, detecting] at is
      cases is
    · rw [Call.isUnsent, detecting]
  | send found submitting => exact inv.send found submitting
  | answer found sent =>
    refine inv.replaced found rfl rfl rfl (List.Subset.refl _) inv.truthful (fun r held => .inl ?_) (fun _ => .inl rfl)
      nofun nofun
    rw [Call.held, sent]
    exact held
  | record found recording =>
    refine inv.replaced found rfl rfl rfl (List.subset_append_left _ _) (inv.truthful.write nofun) nofun
      (fun _ => .inr ⟨_, List.mem_append_right _ List.mem_cons_self, rfl, rfl, le_refl _⟩) nofun nofun
  | ended found unaccepted => exact inv.advance found rfl unaccepted rfl nofun
  | failed found unaccepted => exact inv.advance found rfl unaccepted rfl nofun
  | @lost i call found accepted =>
    -- an orderly run has no such step
    obtain ⟨violation, now, phase⟩ := call
    rw [Service.isOrderly, found] at orderly
    cases phase with
    | sent hash taken =>
      cases accepted
      cases orderly
    | recording hash => cases orderly
    | finding => cases accepted
    | detecting => cases accepted
    | submitting => cases accepted
    | failing => cases accepted
    | finished => cases accepted
  | @fail i call accepted found failing =>
    have unaccepted : accepted = false := by
      refine Bool.eq_false_iff.2 fun taken => inv.failing call (List.mem_of_getElem? found) ?_
      rw [failing, taken]
    refine inv.replaced found rfl rfl rfl (List.subset_append_left _ _) (inv.truthful.write fun _ => unaccepted) nofun
      (fun is => ?_) nofun nofun
    rw [Call.isAccepted, failing] at is
    cases is
  | forget found failing => exact inv.advance found rfl (by rw [Call.isAccepted, failing]) rfl nofun

/-- In an orderly run the pauses of a type keep the cooldown, and no accepted one is recorded as a failure. -/
theorem pauses_keep_cooldown {clock : ℤ} {trace : List Move}
    (orderly : Machine.Guarded (Service.step st) (fun s m => s.isOrderly st all m = true) (Service.initial clock)
      trace) :
    Machine.Always (Service.step st) (fun s => s.Spaced st all ∧ s.Truthful) (Service.initial clock) trace := by
  have init : (Service.initial clock).Orderly st all :=
    ⟨fun _ mem => absurd mem List.not_mem_nil, fun _ mem => absurd mem List.not_mem_nil, List.nodup_nil,
      fun _ mem => absurd mem List.not_mem_nil, fun _ mem => absurd mem List.not_mem_nil,
      fun _ mem => absurd mem List.not_mem_nil, fun _ mem => absurd mem List.not_mem_nil, List.Pairwise.nil⟩
  have inv := Machine.always_of_guarded init (fun _ _ _ inv met taken => orderly_step inv met taken) orderly
  exact fun pre s le reached => ⟨(inv pre s le reached).spaced, (inv pre s le reached).truthful⟩

def sampleSettings : Settings where
  enabled := true
  contractId := "contract"
  keeperPublicKey := "keeper"
  minKeeperXlmBalance := .finite 20
  cooldownMs := 1800000
  text := fun _ => "?"

/-- The moves of a check that finds the keeper at 5 XLM, up to the answer of the network. -/
def sampleCheck (i : ℕ) (hash : String) : List Move :=
  [.runCheck false (some (.finite 5)), .find i, .detect i, .send i hash true, .answer i]

/-- Two checks more than a cooldown apart both pause the contract. -/
theorem pauses_keep_cooldown_sample : ∃ s,
    Machine.exec (Service.step sampleSettings) (Service.initial 2000000)
      (sampleCheck 0 "a" ++ [.record 0, .tick 1800001] ++ sampleCheck 1 "b" ++ [.record 1]) = some s ∧
    s.sent.map (fun p => (p.hash, p.time)) = [("a", 2000000), ("b", 3800001)] ∧
    s.Spaced sampleSettings true ∧ s.Truthful := by
  have run : (Machine.exec (Service.step sampleSettings) (Service.initial 2000000)
      (sampleCheck 0 "a" ++ [.record 0, .tick 1800001] ++ sampleCheck 1 "b" ++ [.record 1])).map
        (fun s => s.sent.map fun p => (p.hash, p.time)) = some [("a", 2000000), ("b", 3800001)] := by decide +kernel
  have orderly : Machine.Guarded (Service.step sampleSettings) (fun s m => s.isOrderly sampleSettings true m = true)
      (Service.initial 2000000)
      (sampleCheck 0 "a" ++ [.record 0, .tick 1800001] ++ sampleCheck 1 "b" ++ [.record 1]) := by decide +kernel
  obtain ⟨s, reached, sent⟩ := Option.map_eq_some_iff.1 run
  exact ⟨s, reached, sent, pauses_keep_cooldown orderly _ s (List.prefix_refl _) reached⟩

/-- Two checks that overlap both pause the contract; and an accepted pause is recorded as a failure, if the record that
it was submitted cannot be written. -/
theorem pauses_break_cooldown :
    (∃ s, Machine.exec (Service.step sampleSettings) (Service.initial 2000000)
      [.runCheck false (some (.finite 5)), .runCheck false (some (.finite 5)), .find 0, .find 1, .detect 0, .detect 1,
        .send 0 "a" true, .send 1 "b" true] = some s ∧ ¬s.Spaced sampleSettings false) ∧
    ∃ s, Machine.exec (Service.step sampleSettings) (Service.initial 2000000)
      (sampleCheck 0 "a" ++ [.error 0, .fail 0 true]) = some s ∧ ¬s.Truthful := by
  constructor
  · have run : (Machine.exec (Service.step sampleSettings) (Service.initial 2000000)
        [.runCheck false (some (.finite 5)), .runCheck false (some (.finite 5)), .find 0, .find 1, .detect 0, .detect 1,
          .send 0 "a" true, .send 1 "b" true]).map (fun s => s.sent) =
        some [⟨"KEEPER_XLM_BALANCE_BELOW_FLOOR", "a", 2000000, true⟩,
          ⟨"KEEPER_XLM_BALANCE_BELOW_FLOOR", "b", 2000000, true⟩] := by decide +kernel
    obtain ⟨s, reached, sent⟩ := Option.map_eq_some_iff.1 run
    refine ⟨s, reached, ?_⟩
    rw [Service.Spaced, sent]
    decide
  · have run : (Machine.exec (Service.step sampleSettings) (Service.initial 2000000)
        (sampleCheck 0 "a" ++ [.error 0, .fail 0 true])).map
          (fun s => s.records.any fun row => row.status = .pauseFailed && row.accepted) = some true := by decide +kernel
    obtain ⟨s, reached, failed⟩ := Option.map_eq_some_iff.1 run
    refine ⟨s, reached, fun truthful => ?_⟩
    obtain ⟨row, mem, both⟩ := List.any_eq_true.1 failed
    obtain ⟨status, accepted⟩ := Bool.and_eq_true_iff.1 both
    cases accepted.symm.trans (truthful row mem (of_decide_eq_true status))

end StellarFlow.Breaker
