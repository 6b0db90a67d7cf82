import Mathlib.Tactic.Linarith
import StellarFlow.Lib.Dict
import StellarFlow.Lib.Machine
import StellarFlow.Lib.PyValue
import StellarFlow.Lib.Python

/-!
# Resubmission with fee escalation

Model of `TransactionResubmitter` in `src/network/nonce_tracker.py`, with a rational escalation factor and
rational times. The callback is an oracle: each sweep of `escalate_pending` is given, for each transaction,
the clock after the fee was computed and what the callback does. A sweep is one step; the fees it offers are
logged together with the fees transactions are tracked with.

Fees are integers, and the escalated one is truncated: it is larger only if the factor adds at least one
stroop, and a fee above the ceiling comes down to it.
-/

namespace StellarFlow.Nonce
open Machine

/-- `PendingSubmission`. -/
structure PendingSubmission where
  txId : String
  baseFee : ℤ
  submittedAt : ℚ
  attempts : ℕ

/-- `TransactionResubmitter`; the constructor rejects the settings its fields exclude. -/
structure TransactionResubmitter where
  initialFee : ℤ
  escalationFactor : ℚ
  maxFee : ℤ
  resubmitTimeout : ℚ
  hasFn : Bool
  pending : Dict String PendingSubmission
  initial_min : 100 ≤ initialFee
  factor_gt : 1 < escalationFactor
  initial_le : initialFee ≤ maxFee
  timeout_pos : 0 < resubmitTimeout

/-- What a call of the callback does. -/
inductive CallbackOutcome where
  | returned (success : Bool)
  | raised (e : PyError)

/-- The turn of one transaction in a sweep: the clock when it is stamped, and the callback. -/
structure Turn where
  now : ℚ
  outcome : CallbackOutcome

/-- What is logged of a run: the fee a transaction is tracked with, and the fees offered for it. -/
inductive FeeEvent where
  | tracked (txId : String) (fee : ℤ)
  | offered (txId : String) (fee : ℤ) (success : Bool)
  deriving DecidableEq

/-- A timeout that is not refused is positive. -/
lemma timeout_of_not {resubmitTimeout : ℚ} (h : ¬resubmitTimeout ≤ 0) : 0 < resubmitTimeout := not_le.mp h

namespace TransactionResubmitter

/-- `TransactionResubmitter.__init__`. -/
def init (initialFee : ℤ) (escalationFactor : ℚ) (maxFee : ℤ) (resubmitTimeout : ℚ) (hasFn : Bool) :
    Except PyError TransactionResubmitter :=
  if h₁ : initialFee < 100 then .error (.valueError "initial_fee must be at least 100 stroops")
  else if h₂ : escalationFactor ≤ 1 then .error (.valueError "escalation_factor must be > 1.0")
  else if h₃ : maxFee < initialFee then .error (.valueError "max_fee must be >= initial_fee")
  else if h₄ : resubmitTimeout ≤ 0 then .error (.valueError "resubmit_timeout must be > 0")
  else .ok {
    initialFee, escalationFactor, maxFee, resubmitTimeout, hasFn
    pending := Dict.empty
    initial_min := not_lt.mp h₁
    factor_gt := not_le.mp h₂
    initial_le := not_lt.mp h₃
    timeout_pos := timeout_of_not h₄ }

variable (r : TransactionResubmitter)

/-- `TransactionResubmitter.track`. -/
def track (txId : String) (baseFee : Option ℤ) (now : ℚ) : TransactionResubmitter × List FeeEvent :=
  if txId ∈ r.pending.keys then (r, [])
  else
    let baseFee := baseFee.getD r.initialFee
    ({ r with pending := r.pending.set txId { txId, baseFee, submittedAt := now, attempts := 0 } },
      [.tracked txId baseFee])

/-- `TransactionResubmitter.untrack`. -/
def untrack (txId : String) : TransactionResubmitter :=
  { r with pending := r.pending.pop txId }

/-- `TransactionResubmitter.set_resubmit_fn`. -/
def setResubmitFn : TransactionResubmitter :=
  { r with hasFn := true }

/-- `TransactionResubmitter._compute_escalated_fee`. -/
def computeEscalatedFee (baseFee : ℤ) : ℤ :=
  let raw := Py.truncate (baseFee * r.escalationFactor)
  min raw r.maxFee

/-- The body of the second loop of `escalate_pending`: the submission it leaves, the fee it offers, and whether
the transaction was resubmitted. Exceptions other than `Exception` are not caught. -/
def attempt (turn : Turn) (sub : PendingSubmission) :
    PendingSubmission × List FeeEvent × Except PyError Bool :=
  let newFee := r.computeEscalatedFee sub.baseFee
  let sub := { sub with attempts := sub.attempts + 1, submittedAt := turn.now }
  if r.hasFn then
    match turn.outcome with
    | .returned true => ({ sub with baseFee := newFee }, [.offered sub.txId newFee true], .ok true)
    | .returned false => (sub, [.offered sub.txId newFee false], .ok false)
    | .raised e => (sub, [.offered sub.txId newFee false], if e.isException then .ok false else .error e)
  else (sub, [], .ok false)

/-- The second loop of `escalate_pending`. -/
def escalate (turns : String → Turn) :
    TransactionResubmitter → List PendingSubmission →
      Except PyError (List String) × TransactionResubmitter × List FeeEvent
  | r, [] => (.ok [], r, [])
  | r, sub :: candidates =>
    let (sub', events, outcome) := r.attempt (turns sub.txId) sub
    let r := { r with pending := r.pending.modify sub.txId fun _ => sub' }
    match outcome with
    | .error e => (.error e, r, events)
    | .ok success =>
      let (escalated, r, more) := escalate turns r candidates
      (escalated.map fun ids => if success then sub.txId :: ids else ids, r, events ++ more)

/-- The pending submissions whose age has reached the timeout. -/
def candidates (now : ℚ) : List PendingSubmission :=
  (r.pending.entries.map Prod.snd).filter fun sub => now - sub.submittedAt ≥ r.resubmitTimeout

/-- `TransactionResubmitter.escalate_pending`. -/
def escalatePending (now : ℚ) (turns : String → Turn) :
    Except PyError (List String) × TransactionResubmitter × List FeeEvent :=
  escalate turns r (r.candidates now)

end TransactionResubmitter

/-- A call of the resubmitter. -/
inductive ResubmitMove where
  | track (txId : String) (baseFee : Option ℤ) (now : ℚ)
  | untrack (txId : String)
  | setResubmitFn
  | escalatePending (now : ℚ) (turns : String → Turn)

/-- A resubmitter with the log of its run. -/
structure ResubmitRun where
  resubmitter : TransactionResubmitter
  log : List FeeEvent

/-- One call; the fees given to `track` are positive. -/
def ResubmitRun.step (s : ResubmitRun) : ResubmitMove → Option ResubmitRun
  | .track txId baseFee now =>
    if baseFee.getD s.resubmitter.initialFee ≤ 0 then none
    else
      let (resubmitter, events) := s.resubmitter.track txId baseFee now
      some { resubmitter, log := s.log ++ events }
  | .untrack txId => some { s with resubmitter := s.resubmitter.untrack txId }
  | .setResubmitFn => some { s with resubmitter := s.resubmitter.setResubmitFn }
  | .escalatePending now turns =>
    let (_, resubmitter, events) := s.resubmitter.escalatePending now turns
    some { resubmitter, log := s.log ++ events }

/-- The fee under which an event submits a transaction. -/
def FeeEvent.submitted : FeeEvent → Option (String × ℤ)
  | .tracked txId fee => some (txId, fee)
  | .offered txId fee success => if success then some (txId, fee) else none

/-- The fee an event tracks a transaction with. -/
def FeeEvent.registered : FeeEvent → Option (String × ℤ)
  | .tracked txId fee => some (txId, fee)
  | .offered .. => none

/-- The fee of the latest event of a kind for a transaction. -/
def latest (kind : FeeEvent → Option (String × ℤ)) (log : List FeeEvent) (txId : String) : Option ℤ :=
  log.foldl (fun last e =>
    match kind e with
    | some (id, fee) => if id = txId then some fee else last
    | none => last) none

/-- Something holds of every offer of a log, given the log before it, the transaction and the fee. -/
def AllOffers (P : List FeeEvent → String → ℤ → Prop) (log : List FeeEvent) : Prop :=
  ∀ pre txId fee success, pre ++ [.offered txId fee success] <+: log → P pre txId fee

/-- A fee that escalates: the ceiling, or one below it to which the factor adds a stroop. -/
def Escalates (factor : ℚ) (maxFee fee : ℤ) : Prop :=
  fee = maxFee ∨ (fee < maxFee ∧ (fee : ℚ) + 1 ≤ fee * factor)

/-- The offer stays below the ceiling, does not fall below the fee submitted last, and is above it unless that
is the ceiling. -/
def Raised (maxFee : ℤ) (log : List FeeEvent) (txId : String) (fee : ℤ) : Prop :=
  ∃ last, latest FeeEvent.submitted log txId = some last ∧
    fee ≤ maxFee ∧ last ≤ fee ∧ (last ≠ maxFee → last < fee)

/-- The fee the transaction was tracked with escalates. -/
def WellTracked (factor : ℚ) (maxFee : ℤ) (log : List FeeEvent) (txId : String) (_ : ℤ) : Prop :=
  ∃ first, latest FeeEvent.registered log txId = some first ∧ Escalates factor maxFee first

/-- The last event of a transaction is the last. -/
lemma latest_snoc (kind : FeeEvent → Option (String × ℤ)) (log : List FeeEvent) (e : FeeEvent) (txId : String) :
    latest kind (log ++ [e]) txId =
      match kind e with
      | some (id, fee) => if id = txId then some fee else latest kind log txId
      | none => latest kind log txId := by
  rw [latest, List.foldl_append]
  rfl

/-- A transaction is tracked with its fee. -/
lemma latest_tracked {kind : FeeEvent → Option (String × ℤ)} {log : List FeeEvent} {txId : String} {fee : ℤ}
    (about : kind (.tracked txId fee) = some (txId, fee)) :
    latest kind (log ++ [.tracked txId fee]) txId = some fee := by
  rw [latest_snoc, about]
  exact if_pos rfl

/-- No offers were made. -/
lemma allOffers_nil (P : List FeeEvent → String → ℤ → Prop) : AllOffers P [] := by
  intro pre txId fee success before
  exact absurd (List.prefix_nil.mp before) (by simp)

/-- One more event has to be a proper offer. -/
lemma allOffers_snoc {P : List FeeEvent → String → ℤ → Prop} {log : List FeeEvent} {e : FeeEvent} :
    AllOffers P (log ++ [e]) ↔
      AllOffers P log ∧ ∀ txId fee success, e = .offered txId fee success → P log txId fee := by
  constructor
  · intro all
    refine ⟨fun pre txId fee success before => ?_, fun txId fee success eq => ?_⟩
    · exact all pre txId fee success (before.trans (List.prefix_append _ _))
    · exact all log txId fee success (eq ▸ List.prefix_refl _)
  · rintro ⟨all, last⟩ pre txId fee success before
    obtain whole | earlier := List.prefix_concat_iff.mp before
    · obtain ⟨rfl, eq⟩ := List.append_inj' whole rfl
      exact last txId fee success (List.singleton_inj.mp eq).symm
    · exact all pre txId fee success earlier

section Fees
variable {r : TransactionResubmitter} {fee : ℤ}

/-- The greatest fee is positive. -/
lemma maxFee_pos (r : TransactionResubmitter) : 0 < r.maxFee := by
  have min := r.initial_min
  have le := r.initial_le
  omega

/-- The escalated fee of a positive one is the floor of the product, under the ceiling. -/
lemma computeEscalatedFee_eq (pos : 0 < fee) :
    r.computeEscalatedFee fee = min ⌊(fee : ℚ) * r.escalationFactor⌋ r.maxFee := by
  have factor := r.factor_gt
  have nonneg : (0 : ℚ) ≤ fee * r.escalationFactor := by
    have fee_pos : (0 : ℚ) < fee := by exact_mod_cast pos
    positivity
  rw [TransactionResubmitter.computeEscalatedFee, Py.truncate, if_pos nonneg]

/-- The factor never lowers a positive fee. -/
lemma le_floor (pos : 0 < fee) : fee ≤ ⌊(fee : ℚ) * r.escalationFactor⌋ := by
  have factor := r.factor_gt
  have fee_pos : (0 : ℚ) < fee := by exact_mod_cast pos
  rw [Int.le_floor]
  nlinarith only [factor, fee_pos]

/-- The escalated fee is what it should be exactly for the fees that escalate. -/
lemma raised_iff (pos : 0 < fee) :
    (r.computeEscalatedFee fee ≤ r.maxFee ∧ fee ≤ r.computeEscalatedFee fee ∧
        (fee ≠ r.maxFee → fee < r.computeEscalatedFee fee)) ↔
      Escalates r.escalationFactor r.maxFee fee := by
  have grows := le_floor (r := r) pos
  have enough : ((fee : ℚ) + 1 ≤ fee * r.escalationFactor) ↔ fee + 1 ≤ ⌊(fee : ℚ) * r.escalationFactor⌋ := by
    rw [Int.le_floor]
    push_cast
    rfl
  rw [computeEscalatedFee_eq pos, Escalates, enough]
  omega

/-- A fee that escalates leads to fees that escalate. -/
lemma Escalates.next (pos : 0 < fee) (escalates : Escalates r.escalationFactor r.maxFee fee) :
    Escalates r.escalationFactor r.maxFee (r.computeEscalatedFee fee) := by
  obtain ⟨le, above, strict⟩ := (raised_iff pos).mpr escalates
  rw [Escalates]
  by_cases full : r.computeEscalatedFee fee = r.maxFee
  · exact .inl full
  · right
    refine ⟨lt_of_le_of_ne le full, ?_⟩
    obtain top | ⟨-, enough⟩ := escalates
    · omega
    · -- the factor adds more to a larger fee
      have factor := r.factor_gt
      have larger : (fee : ℚ) ≤ r.computeEscalatedFee fee := by exact_mod_cast above
      nlinarith only [factor, larger, enough]

/-- An escalated fee is positive. -/
lemma computeEscalatedFee_pos (pos : 0 < fee) : 0 < r.computeEscalatedFee fee := by
  have grows := le_floor (r := r) pos
  have ceiling := maxFee_pos r
  rw [computeEscalatedFee_eq pos]
  omega

end Fees

/-- A pending submission against the log: its fee is the one submitted last, and it escalates where the fee it was
tracked with does, which differs from it only if there were offers. -/
structure Tracked (factor : ℚ) (maxFee : ℤ) (log : List FeeEvent) (txId : String) (sub : PendingSubmission) : Prop where
  key : sub.txId = txId
  pos : 0 < sub.baseFee
  last : latest FeeEvent.submitted log txId = some sub.baseFee
  first : ∃ fee, latest FeeEvent.registered log txId = some fee ∧
    (Escalates factor maxFee fee → Escalates factor maxFee sub.baseFee) ∧
    (AllOffers (WellTracked factor maxFee) log → sub.baseFee = fee ∨ Escalates factor maxFee fee)

/-- The invariant of a run: so far the offers are as they should be exactly when the transactions they are made for
were tracked with fees that escalate. -/
structure Consistent (factor : ℚ) (maxFee : ℤ) (s : ResubmitRun) : Prop where
  settings : s.resubmitter.escalationFactor = factor ∧ s.resubmitter.maxFee = maxFee
  agree : AllOffers (Raised maxFee) s.log ↔ AllOffers (WellTracked factor maxFee) s.log
  tracked : ∀ txId sub, s.resubmitter.pending.get? txId = some sub → Tracked factor maxFee s.log txId sub

section Runs
variable {factor : ℚ} {maxFee : ℤ} {r : TransactionResubmitter} {log : List FeeEvent} {s t : ResubmitRun}
  {sub sub' : PendingSubmission} {txId : String}

/-- An event about another transaction. -/
lemma Tracked.frame (tracked : Tracked factor maxFee log txId sub) {e : FeeEvent}
    (submitted : ∀ id fee, e.submitted = some (id, fee) → id ≠ txId)
    (registered : ∀ id fee, e.registered = some (id, fee) → id ≠ txId) :
    Tracked factor maxFee (log ++ [e]) txId sub := by
  have same : ∀ kind : FeeEvent → Option (String × ℤ), (∀ id fee, kind e = some (id, fee) → id ≠ txId) →
      latest kind (log ++ [e]) txId = latest kind log txId := by
    intro kind other
    rw [latest_snoc]
    split
    · rename_i id fee found
      exact if_neg (other id fee found)
    · rfl
  obtain ⟨key, pos, last, fee, first, escalates, unchanged⟩ := tracked
  refine ⟨key, pos, (same _ submitted).trans last, fee, (same _ registered).trans first, escalates, fun all => ?_⟩
  exact unchanged (allOffers_snoc.mp all).1

/-- An attempt offers the escalated fee, or nothing. -/
lemma attempt_cases (r : TransactionResubmitter) (turn : Turn) (sub : PendingSubmission) :
    (r.attempt turn sub).1.txId = sub.txId ∧
      (((r.attempt turn sub).2.1 = [] ∧ (r.attempt turn sub).1.baseFee = sub.baseFee) ∨
        ∃ success, (r.attempt turn sub).2.1 = [.offered sub.txId (r.computeEscalatedFee sub.baseFee) success] ∧
          (r.attempt turn sub).1.baseFee = if success then r.computeEscalatedFee sub.baseFee else sub.baseFee) := by
  rw [TransactionResubmitter.attempt]
  split
  · split
    · exact ⟨rfl, .inr ⟨true, rfl, rfl⟩⟩
    · exact ⟨rfl, .inr ⟨false, rfl, rfl⟩⟩
    · exact ⟨rfl, .inr ⟨false, rfl, rfl⟩⟩
  · exact ⟨rfl, .inl ⟨rfl, rfl⟩⟩

/-- An offer of the escalated fee of a tracked submission. -/
lemma Tracked.offered (tracked : Tracked r.escalationFactor r.maxFee log txId sub) (success : Bool)
    (key : sub'.txId = sub.txId)
    (fee : sub'.baseFee = if success then r.computeEscalatedFee sub.baseFee else sub.baseFee) :
    (AllOffers (WellTracked r.escalationFactor r.maxFee) log →
      (Raised r.maxFee log txId (r.computeEscalatedFee sub.baseFee) ↔
        WellTracked r.escalationFactor r.maxFee log txId (r.computeEscalatedFee sub.baseFee))) ∧
      Tracked r.escalationFactor r.maxFee
        (log ++ [.offered txId (r.computeEscalatedFee sub.baseFee) success]) txId sub' := by
  obtain ⟨keyed, pos, last, first, registered, escalates, unchanged⟩ := tracked
  have raised : Raised r.maxFee log txId (r.computeEscalatedFee sub.baseFee) ↔
      Escalates r.escalationFactor r.maxFee sub.baseFee := by
    rw [Raised, last, ← raised_iff pos]
    simp
  have well : ∀ fee, WellTracked r.escalationFactor r.maxFee log txId fee ↔
      Escalates r.escalationFactor r.maxFee first := by
    intro fee
    rw [WellTracked, registered]
    simp
  constructor
  · intro all
    rw [raised, well]
    refine ⟨fun good => ?_, escalates⟩
    obtain same | good' := unchanged all
    · rw [← same]
      exact good
    · exact good'
  · refine ⟨key.trans keyed, ?_, ?_, first, ?_, fun good => ?_, fun all => .inr ?_⟩
    · rw [fee]
      split
      · exact computeEscalatedFee_pos pos
      · exact pos
    · rw [latest_snoc, fee]
      cases success with
      | true => simp [FeeEvent.submitted]
      | false => simpa [FeeEvent.submitted] using last
    · rw [latest_snoc]
      exact registered
    · rw [fee]
      split
      · exact (escalates good).next pos
      · exact escalates good
    · exact (well _).mp ((allOffers_snoc.mp all).2 _ _ _ rfl)

/-- One candidate of a sweep. -/
lemma Consistent.attempted (consistent : Consistent factor maxFee s)
    (found : s.resubmitter.pending.get? sub.txId = some sub) (turn : Turn) :
    Consistent factor maxFee
      { resubmitter := { s.resubmitter with
          pending := s.resubmitter.pending.modify sub.txId fun _ => (s.resubmitter.attempt turn sub).1 }
        log := s.log ++ (s.resubmitter.attempt turn sub).2.1 } := by
  obtain ⟨⟨rfl, rfl⟩, agree, tracked⟩ := consistent
  have here := tracked sub.txId sub found
  obtain ⟨key, ⟨silent, fee⟩ | ⟨success, event, fee⟩⟩ := attempt_cases s.resubmitter turn sub
  · rw [silent, List.append_nil]
    refine ⟨⟨rfl, rfl⟩, agree, fun txId other found' => ?_⟩
    rw [Dict.get?_modify] at found'
    split at found'
    · rename_i same
      subst same
      rw [found] at found'
      cases found'
      exact ⟨key, fee ▸ here.pos, fee ▸ here.last, fee ▸ here.first⟩
    · exact tracked txId other found'
  · rw [event]
    obtain ⟨exact_, after⟩ := here.offered success key fee
    refine ⟨⟨rfl, rfl⟩, ?_, fun txId other found' => ?_⟩
    · rw [allOffers_snoc, allOffers_snoc, agree]
      refine and_congr_right fun all => ⟨?_, ?_⟩
      · rintro last txId fee success' ⟨⟩
        exact (exact_ all).mp (last _ _ _ rfl)
      · rintro last txId fee success' ⟨⟩
        exact (exact_ all).mpr (last _ _ _ rfl)
    · rw [Dict.get?_modify] at found'
      split at found'
      · rename_i same
        subst same
        rw [found] at found'
        cases found'
        exact after
      · rename_i ne
        refine (tracked txId other found').frame (fun id fee about => ?_) (fun id fee about => ?_)
        · simp only [FeeEvent.submitted] at about
          split at about
          · cases about
            exact Ne.symm ne
          · cases about
        · cases about

/-- The candidates that are left of a sweep. -/
lemma Consistent.escalate (turns : String → Turn) (candidates : List PendingSubmission) {r : TransactionResubmitter}
    (consistent : Consistent factor maxFee ⟨r, log⟩)
    (found : ∀ sub ∈ candidates, r.pending.get? sub.txId = some sub) (distinct : (candidates.map (·.txId)).Nodup) :
    Consistent factor maxFee
      ⟨(TransactionResubmitter.escalate turns r candidates).2.1,
        log ++ (TransactionResubmitter.escalate turns r candidates).2.2⟩ := by
  induction candidates generalizing r log with
  | nil =>
    rw [TransactionResubmitter.escalate, List.append_nil]
    exact consistent
  | cons sub candidates ih =>
    obtain ⟨here, others⟩ := List.forall_mem_cons.mp found
    obtain ⟨new, distinct⟩ := List.nodup_cons.mp distinct
    have after := consistent.attempted here (turns sub.txId)
    rw [TransactionResubmitter.escalate]
    cases outcome : (r.attempt (turns sub.txId) sub).2.2 with
    | error e =>
      simp only [outcome]
      exact after
    | ok success =>
      simp only [outcome]
      rw [← List.append_assoc]
      apply ih after _ distinct
      intro other mem
      rw [Dict.get?_modify, if_neg]
      · exact others other mem
      · intro same
        exact new (List.mem_map.mpr ⟨other, mem, same⟩)

/-- The candidates are pending, each once. -/
lemma Consistent.candidates (consistent : Consistent factor maxFee s) (now : ℚ) :
    (∀ sub ∈ s.resubmitter.candidates now, s.resubmitter.pending.get? sub.txId = some sub) ∧
      ((s.resubmitter.candidates now).map (·.txId)).Nodup := by
  have keyed : ∀ e ∈ s.resubmitter.pending.entries, e.2.txId = e.1 := fun e mem =>
    (consistent.tracked e.1 e.2 (Dict.get?_of_mem mem)).key
  constructor
  · intro sub mem
    obtain ⟨e, entry, rfl⟩ := List.mem_map.mp (List.mem_of_mem_filter mem)
    rw [keyed e entry]
    exact Dict.get?_of_mem entry
  · have keys : (s.resubmitter.pending.entries.map Prod.snd).map (·.txId) =
        s.resubmitter.pending.entries.map Prod.fst := by
      rw [List.map_map]
      exact List.map_congr_left keyed
    have all := s.resubmitter.pending.nodup
    rw [← keys] at all
    exact all.sublist (List.filter_sublist.map _)

/-- A transaction that is tracked. -/
lemma Consistent.track (consistent : Consistent factor maxFee s) (txId : String) (baseFee : Option ℤ) (now : ℚ)
    (pos : 0 < baseFee.getD s.resubmitter.initialFee) :
    Consistent factor maxFee
      ⟨(s.resubmitter.track txId baseFee now).1, s.log ++ (s.resubmitter.track txId baseFee now).2⟩ := by
  rw [TransactionResubmitter.track]
  split
  · rw [List.append_nil]
    exact consistent
  · rename_i new
    obtain ⟨settings, agree, tracked⟩ := consistent
    refine ⟨settings, ?_, fun id other found => ?_⟩
    · rw [allOffers_snoc, allOffers_snoc, agree]
      refine and_congr_right fun _ => iff_of_true ?_ ?_
      · intro _ _ _ eq
        cases eq
      · intro _ _ _ eq
        cases eq
    · rw [Dict.get?_set] at found
      split at found
      · rename_i same
        subst same
        cases found
        exact ⟨rfl, pos, latest_tracked rfl, _, latest_tracked rfl, fun good => good, fun _ => .inl rfl⟩
      · rename_i ne
        refine (tracked id other found).frame (fun id' fee about => ?_) (fun id' fee about => ?_)
        · cases about
          exact Ne.symm ne
        · cases about
          exact Ne.symm ne

/-- Each move keeps the record. -/
lemma Consistent.step (s : ResubmitRun) (move : ResubmitMove) (t : ResubmitRun)
    (consistent : Consistent factor maxFee s) (stepped : s.step move = some t) : Consistent factor maxFee t := by
  cases move with
  | track txId baseFee now =>
    rw [ResubmitRun.step] at stepped
    split at stepped
    · cases stepped
    · rename_i pos
      cases stepped
      exact consistent.track txId baseFee now (not_le.mp pos)
  | untrack txId =>
    cases stepped
    refine ⟨consistent.settings, consistent.agree, fun id sub found => ?_⟩
    rw [TransactionResubmitter.untrack, Dict.get?_pop] at found
    split at found
    · cases found
    · exact consistent.tracked id sub found
  | setResubmitFn =>
    cases stepped
    exact ⟨consistent.settings, consistent.agree, consistent.tracked⟩
  | escalatePending now turns =>
    cases stepped
    obtain ⟨found, distinct⟩ := consistent.candidates now
    exact Consistent.escalate turns _ consistent found distinct

end Runs

/-- In every run, the fees offered never exceed the ceiling, never fall below the fee the transaction was last
submitted with, and are above it unless that is the ceiling, exactly when every transaction a fee is offered for
was tracked with the ceiling, or with a fee below it to which the factor adds at least one stroop. -/
theorem offers_raised_iff (initialFee : ℤ) (escalationFactor : ℚ) (maxFee : ℤ) (resubmitTimeout : ℚ) (hasFn : Bool)
    (r : TransactionResubmitter)
    (created : TransactionResubmitter.init initialFee escalationFactor maxFee resubmitTimeout hasFn = .ok r)
    (moves : List ResubmitMove) (s : ResubmitRun) (run : exec ResubmitRun.step ⟨r, []⟩ moves = some s) :
    AllOffers (Raised maxFee) s.log ↔ AllOffers (WellTracked escalationFactor maxFee) s.log := by
  have start : Consistent escalationFactor maxFee ⟨r, []⟩ := by
    rw [TransactionResubmitter.init] at created
    repeat
      split at created
      · cases created
    cases created
    refine ⟨⟨rfl, rfl⟩, iff_of_true (allOffers_nil _) (allOffers_nil _), fun txId sub found => ?_⟩
    cases found
  exact (exec_invariant start Consistent.step run).agree

/-- A sweep in which the callback gives the same answer for every transaction. -/
def sweepAt (now : ℚ) (success : Bool) : ResubmitMove :=
  .escalatePending now fun _ => ⟨now, .returned success⟩

/-- From 100 by half of it to 150, and up to the ceiling of 200, which is refused and offered again. -/
theorem offers_raised_iff_half :
    ∃ r s, TransactionResubmitter.init 100 (3 / 2) 200 30 true = .ok r ∧
      exec ResubmitRun.step ⟨r, []⟩
        [.track "tx" none 0, sweepAt 30 true, sweepAt 40 true, sweepAt 60 false, sweepAt 90 true] = some s ∧
      s.log = [.tracked "tx" 100, .offered "tx" 150 true, .offered "tx" 200 false, .offered "tx" 200 true] ∧
      (AllOffers (Raised 200) s.log ↔ AllOffers (WellTracked (3 / 2) 200) s.log) := by
  have created : TransactionResubmitter.init 100 (3 / 2) 200 30 true =
      .ok ⟨100, 3 / 2, 200, 30, true, Dict.empty, by decide, by decide +kernel, by decide, by decide⟩ := by
    rw [TransactionResubmitter.init, dif_neg (by decide), dif_neg (by decide +kernel), dif_neg (by decide),
      dif_neg (by decide)]
  have logged : (exec ResubmitRun.step ⟨⟨100, 3 / 2, 200, 30, true, Dict.empty, by decide, by decide +kernel,
      by decide, by decide⟩, []⟩
        [.track "tx" none 0, sweepAt 30 true, sweepAt 40 true, sweepAt 60 false, sweepAt 90 true]).map
          ResubmitRun.log =
      some [.tracked "tx" 100, .offered "tx" 150 true, .offered "tx" 200 false, .offered "tx" 200 true] := by
    decide +kernel
  obtain ⟨s, run, log⟩ := Option.map_eq_some_iff.mp logged
  exact ⟨_, s, created, run, log, offers_raised_iff 100 (3 / 2) 200 30 true _ created _ s run⟩

/-- A factor of 1.005 leaves a fee of 100 where it is: half a stroop is cut off. -/
theorem offers_same_fee :
    ∃ r s, TransactionResubmitter.init 100 (201 / 200) 10000 30 true = .ok r ∧
      exec ResubmitRun.step ⟨r, []⟩ [.track "tx" none 0, sweepAt 30 true] = some s ∧
      s.log = [.tracked "tx" 100, .offered "tx" 100 true] ∧ ¬AllOffers (Raised 10000) s.log := by
  have created : TransactionResubmitter.init 100 (201 / 200) 10000 30 true =
      .ok ⟨100, 201 / 200, 10000, 30, true, Dict.empty, by decide, by decide +kernel, by decide, by decide⟩ := by
    rw [TransactionResubmitter.init, dif_neg (by decide), dif_neg (by decide +kernel), dif_neg (by decide),
      dif_neg (by decide)]
  have logged : (exec ResubmitRun.step ⟨⟨100, 201 / 200, 10000, 30, true, Dict.empty, by decide,
      by decide +kernel, by decide, by decide⟩, []⟩ [.track "tx" none 0, sweepAt 30 true]).map ResubmitRun.log =
      some [.tracked "tx" 100, .offered "tx" 100 true] := by
    decide +kernel
  obtain ⟨s, run, log⟩ := Option.map_eq_some_iff.mp logged
  refine ⟨_, s, created, run, log, fun all => ?_⟩
  rw [log] at all
  obtain ⟨last, submitted, -, -, above⟩ := all [.tracked "tx" 100] "tx" 100 true (List.prefix_refl _)
  cases submitted
  exact absurd (above (by decide)) (by decide)

end StellarFlow.Nonce
