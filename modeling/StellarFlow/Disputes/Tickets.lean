import Mathlib.Data.List.Chain
import Mathlib.Data.Rat.Defs
import StellarFlow.Lib.Machine

/-!
# Dispute tickets

Model of `transitionStatus` and `triggerManualRefund` in `src/services/disputeService.ts` on one ticket. The calls run
interleaved, one database statement at a time, and each statement may throw. `statuses` and `refunds` are not part of
the code: the values of the status one after the other, and how often refund metadata was written.

Both read the ticket in one statement and overwrite its status in another, and a refund is refused for closed tickets
only. So the statuses are a path of the table where each update still finds the status that its call has read, and no
refund is triggered for a ticket that is refunded already.
-/

namespace StellarFlow.Disputes

inductive DisputeStatus where
  | open
  | investigating
  | refunded
  | closed
  deriving DecidableEq

def DisputeStatus.name : DisputeStatus → String
  | .open => "open"
  | .investigating => "investigating"
  | .refunded => "refunded"
  | .closed => "closed"

/-- `DISPUTE_STATUSES`. -/
def disputeStatuses : List DisputeStatus := [.open, .investigating, .refunded, .closed]

/-- `DISPUTE_TRANSITIONS`. -/
def disputeTransitions : DisputeStatus → List DisputeStatus
  | .open => [.investigating, .refunded, .closed]
  | .investigating => [.refunded, .closed]
  | .refunded => [.closed]
  | .closed => []

/-- `toStatus` is any text when the request comes in. -/
structure TransitionDisputeInput where
  toStatus : String
  byId : Option String
  email : Option String
  webhookUrl : Option String

structure ManualRefundInput where
  refundAmount : Option ℚ
  byId : Option String
  email : Option String
  webhookUrl : Option String

/-- The columns of the ticket that are written. -/
structure DisputeRow where
  status : DisputeStatus
  email : Option String
  webhookUrl : Option String
  refundAmount : Option ℚ
  refundedById : Option String
  refundedAt : Option ℤ
  resolvedById : Option String
  resolvedAt : Option ℤ

/-- The ticket of `openDispute`. -/
def DisputeRow.opened (email webhookUrl : Option String) : DisputeRow :=
  ⟨.open, email, webhookUrl, none, none, none, none, none⟩

/-- Where a call stands: it has to read the ticket, or to update it, or is answered. -/
inductive Call where
  | transition (input : TransitionDisputeInput)
  | transitioning (input : TransitionDisputeInput) (current toStatus : DisputeStatus)
  | refund (input : ManualRefundInput)
  | refunding (input : ManualRefundInput) (existing : DisputeStatus)
  | failed (error : String)
  | succeeded

structure Ticket where
  row : DisputeRow
  calls : List Call
  statuses : List DisputeStatus
  refunds : ℕ

inductive Move where
  | transitionStatus (input : TransitionDisputeInput)
  | triggerManualRefund (input : ManualRefundInput)
  | read (i : ℕ)
  | update (i : ℕ) (now : ℤ)
  | error (i : ℕ) (message : String)

/-- What `transitionStatus` does with the status it has read. -/
def transitionFrom (current : DisputeStatus) (input : TransitionDisputeInput) : Call :=
  match disputeStatuses.find? fun status => status.name = input.toStatus with
  | none =>
    .failed ("Invalid target status. Must be one of: " ++ ", ".intercalate (disputeStatuses.map DisputeStatus.name))
  | some toStatus =>
    if toStatus ∈ disputeTransitions current then .transitioning input current toStatus
    else .failed ("Cannot transition dispute from '" ++ current.name ++ "' to '" ++ input.toStatus ++ "'")

/-- What `triggerManualRefund` does with the status it has read. -/
def refundFrom (existing : DisputeStatus) (input : ManualRefundInput) : Call :=
  if existing = .closed then .failed "Cannot refund a dispute that has already been closed"
  else .refunding input existing

/-- The UPDATE of `transitionStatus`. -/
def DisputeRow.transition (row : DisputeRow) (input : TransitionDisputeInput) (toStatus : DisputeStatus) (now : ℤ) :
    DisputeRow :=
  { row with
    status := toStatus
    resolvedById := if toStatus = .closed then input.byId else row.resolvedById
    resolvedAt := if toStatus = .closed then some now else row.resolvedAt
    email := input.email.or row.email
    webhookUrl := input.webhookUrl.or row.webhookUrl }

/-- The UPDATE of `triggerManualRefund`. -/
def DisputeRow.refund (row : DisputeRow) (input : ManualRefundInput) (now : ℤ) : DisputeRow :=
  { row with
    status := .refunded
    refundAmount := input.refundAmount
    refundedById := input.byId
    refundedAt := some now
    email := input.email.or row.email
    webhookUrl := input.webhookUrl.or row.webhookUrl }

def Ticket.advance (s : Ticket) (i : ℕ) (call : Call) : Ticket := { s with calls := s.calls.set i call }

/-- One move. -/
def Ticket.step (s : Ticket) : Move → Option Ticket
  | .transitionStatus input => some { s with calls := s.calls ++ [.transition input] }
  | .triggerManualRefund input => some { s with calls := s.calls ++ [.refund input] }
  | .read i =>
    match s.calls[i]? with
    | some (.transition input) => some (s.advance i (transitionFrom s.row.status input))
    | some (.refund input) => some (s.advance i (refundFrom s.row.status input))
    | _ => none
  | .update i now =>
    match s.calls[i]? with
    | some (.transitioning input _ toStatus) =>
      some { s.advance i .succeeded with
        row := s.row.transition input toStatus now, statuses := s.statuses ++ [toStatus] }
    | some (.refunding input _) =>
      some { s.advance i .succeeded with
        row := s.row.refund input now, statuses := s.statuses ++ [.refunded], refunds := s.refunds + 1 }
    | _ => none
  | .error i message => (s.calls[i]?).map fun _ => s.advance i (.failed message)

def Ticket.initial (email webhookUrl : Option String) : Ticket := ⟨DisputeRow.opened email webhookUrl, [], [.open], 0⟩

/-- The values of the status are a path of the table from `open`, and refund metadata was written at most once. -/
def FollowsTable (s : Ticket) : Prop :=
  s.statuses.head? = some .open ∧ s.statuses.IsChain (fun a b => b ∈ disputeTransitions a) ∧ s.refunds ≤ 1

/-- An update finds the status that its call has read, and a refund has not read `refunded`. -/
def Ticket.isCurrent (s : Ticket) : Move → Bool
  | .update i _ =>
    match s.calls[i]? with
    | some (.transitioning _ current _) => s.row.status = current
    | some (.refunding _ existing) => s.row.status = existing && existing ≠ .refunded
    | _ => true
  | _ => true

/-- What a call has tested. -/
def Call.IsTested : Call → Prop
  | .transitioning _ current toStatus => toStatus ∈ disputeTransitions current
  | .refunding _ existing => existing ≠ .closed
  | _ => True

/-- The path ends at the status of the ticket, which has come to a refund before metadata is written, and the calls have
made their tests. -/
structure Orderly (s : Ticket) : Prop where
  starts : s.statuses.head? = some .open
  path : s.statuses.IsChain fun a b => b ∈ disputeTransitions a
  last : s.statuses.getLast? = some s.row.status
  refunds : s.refunds ≤ 1
  unrefunded : .refunded ∈ disputeTransitions s.row.status → s.refunds = 0
  tested : ∀ call ∈ s.calls, call.IsTested

variable {s s' : Ticket} {m : Move} {i : ℕ} {call call' : Call}

/-- `transitionFrom` tests the status that it read. -/
lemma isTested_transitionFrom (current : DisputeStatus) (input : TransitionDisputeInput) :
    (transitionFrom current input).IsTested := by
  rw [transitionFrom]
  split
  · trivial
  · split
    case isTrue allowed => exact allowed
    case isFalse => trivial

/-- `refundFrom` tests the status that it read. -/
lemma isTested_refundFrom (existing : DisputeStatus) (input : ManualRefundInput) :
    (refundFrom existing input).IsTested := by
  rw [refundFrom]
  split
  case isTrue => trivial
  case isFalse unclosed => exact unclosed

/-- A call that tested what it read goes on. -/
lemma Orderly.advance (orderly : Orderly s) (found : s.calls[i]? = some call) (tested : call'.IsTested) :
    Orderly (s.advance i call') :=
  ⟨orderly.starts, orderly.path, orderly.last, orderly.refunds, orderly.unrefunded,
    fun _ mem => Machine.forall_set found orderly.tested (fun _ => tested) mem⟩

/-- A call that tested what it read is added. -/
lemma Orderly.join (orderly : Orderly s) (tested : call.IsTested) : Orderly { s with calls := s.calls ++ [call] } :=
  ⟨orderly.starts, orderly.path, orderly.last, orderly.refunds, orderly.unrefunded,
    Machine.forall_snoc orderly.tested tested⟩

/-- One more edge of the table. -/
lemma Orderly.write (orderly : Orderly s) (row : DisputeRow) (refunds : ℕ)
    (allowed : row.status ∈ disputeTransitions s.row.status) (once : refunds ≤ 1)
    (unrefunded : .refunded ∈ disputeTransitions row.status → refunds = 0) :
    Orderly { s with row := row, statuses := s.statuses ++ [row.status], refunds := refunds } := by
  refine ⟨?_, ?_, List.getLast?_concat, once, unrefunded, orderly.tested⟩
  · exact List.head?_append.trans (by rw [orderly.starts]; rfl)
  · refine List.isChain_append.2 ⟨orderly.path, List.isChain_singleton _, fun a last b first => ?_⟩
    rw [orderly.last] at last
    cases last
    cases first
    exact allowed

/-- No step of the table leads from a ticket that is refunded or closed back to one that may be refunded. -/
lemma not_refundable {a b : DisputeStatus} (step : b ∈ disputeTransitions a)
    (refundable : .refunded ∈ disputeTransitions b) :
    .refunded ∈ disputeTransitions a := by
  cases a with
  | «open» => decide
  | investigating => decide
  | refunded =>
    cases List.mem_singleton.1 step
    cases refundable
  | closed => cases step

/-- A ticket that is neither refunded nor closed may be refunded. -/
lemma refundable {a : DisputeStatus} (unrefunded : a ≠ .refunded) (unclosed : a ≠ .closed) :
    .refunded ∈ disputeTransitions a := by
  cases a with
  | «open» => decide
  | investigating => decide
  | refunded => exact absurd rfl unrefunded
  | closed => exact absurd rfl unclosed

/-- A step whose call read the present row keeps that every call tested what it read. -/
lemma orderly_step (orderly : Orderly s) (current : s.isCurrent m = true) (taken : s.step m = some s') :
    Orderly s' := by
  cases m with
  | transitionStatus input =>
    cases taken
    exact orderly.join trivial
  | triggerManualRefund input =>
    cases taken
    exact orderly.join trivial
  | read i =>
    rw [Ticket.step] at taken
    split at taken
    case h_1 input found =>
      cases taken
      exact orderly.advance found (isTested_transitionFrom _ _)
    case h_2 input found =>
      cases taken
      exact orderly.advance found (isTested_refundFrom _ _)
    case h_3 => cases taken
  | update i now =>
    rw [Ticket.isCurrent] at current
    rw [Ticket.step] at taken
    split at taken
    case h_1 input status toStatus found =>
      rw [found] at current
      obtain rfl := of_decide_eq_true current
      cases taken
      have allowed : toStatus ∈ disputeTransitions s.row.status := orderly.tested _ (List.mem_of_getElem? found)
      have written := orderly.write (s.row.transition input toStatus now) s.refunds allowed orderly.refunds
        fun refundable => orderly.unrefunded (not_refundable allowed refundable)
      exact written.advance found trivial
    case h_2 input existing found =>
      rw [found, Bool.and_eq_true] at current
      obtain rfl := of_decide_eq_true current.1
      have unrefunded := of_decide_eq_true current.2
      cases taken
      have unclosed : s.row.status ≠ .closed := orderly.tested _ (List.mem_of_getElem? found)
      have allowed := refundable unrefunded unclosed
      -- the table allows the refund, so there was none before
      have none := orderly.unrefunded allowed
      have written := orderly.write (s.row.refund input now) (s.refunds + 1) allowed (by omega)
        fun refundable => by cases List.mem_singleton.1 refundable
      exact written.advance found trivial
    case h_3 => cases taken
  | error i message =>
    obtain ⟨call, found, rfl⟩ := Option.map_eq_some_iff.1 taken
    exact orderly.advance found trivial

/-- In a run whose updates find what their calls have read, and whose refunds have not read `refunded`, the ticket
follows the table. -/
theorem tickets_follow_table {email webhookUrl : Option String} {trace : List Move}
    (current : Machine.Guarded Ticket.step (fun s m => s.isCurrent m = true) (Ticket.initial email webhookUrl) trace) :
    Machine.Always Ticket.step FollowsTable (Ticket.initial email webhookUrl) trace := by
  have init : Orderly (Ticket.initial email webhookUrl) :=
    ⟨rfl, List.isChain_singleton _, rfl, Nat.zero_le _, fun _ => rfl, fun call mem => absurd mem List.not_mem_nil⟩
  have inv := Machine.always_of_guarded init (fun s m s' inv met taken => orderly_step inv met taken) current
  intro pre s le reached
  have orderly := inv pre s le reached
  exact ⟨orderly.starts, orderly.path, orderly.refunds⟩

def sampleRefund : ManualRefundInput := ⟨some 5, some "operator", none, none⟩

/-- A ticket that is refunded and closed. -/
theorem tickets_follow_table_sample : Machine.Always Ticket.step FollowsTable (Ticket.initial none none)
    [.triggerManualRefund sampleRefund, .read 0, .update 0 0, .transitionStatus ⟨"closed", none, none, none⟩, .read 1,
      .update 1 1] :=
  tickets_follow_table (by decide)

/-- Two refunds that have both read `open`. -/
theorem refunded_twice : ∃ s, Machine.exec Ticket.step (Ticket.initial none none)
    [.triggerManualRefund sampleRefund, .triggerManualRefund sampleRefund, .read 0, .read 1, .update 0 0, .update 1 1] =
      some s ∧ s.statuses = [.open, .refunded, .refunded] ∧ s.refunds = 2 ∧ ¬FollowsTable s := by
  refine ⟨_, rfl, rfl, rfl, fun follows => ?_⟩
  exact absurd follows.2.2 (by decide)

end StellarFlow.Disputes
