import Mathlib.Logic.Function.Basic
import StellarFlow.Governance.Proposals
import StellarFlow.Lib.Machine

/-!
# Indexing governance events

Model of `indexContractEvents` in `src/services/governanceTimelockService.ts`, one event at a time, between which the
other writers of the tables may act. What an action does to the status and the times of a proposal depends on these
alone (`Action.effect`), and the tables follow it (`lifecycles_act`).

An event that is delivered again writes what it gives now. That changes nothing exactly when a `ProposalQueued` event
gives the times that the last one of its proposal gave, and when a `TimelockActionExecuted` event finds no row or one
that was marked in the same millisecond.
-/

namespace StellarFlow.Governance
open Js

/-- What the surroundings decide in the turn of an event: the clock, and whether its two statements succeed. -/
structure Turn where
  now : ℤ
  stored : Bool
  handled : Bool

/-- The indexer and its tables. The events whose turn was completed are kept with its time. -/
structure Indexer where
  lastIndexedLedger : ℕ
  proposals : Proposals
  timelockEvents : TimelockEvents
  indexed : List (ℤ × RawSorobanEvent)

/-- `if (ledger > this.lastIndexedLedger) this.lastIndexedLedger = ledger`. -/
def Indexer.advance (s : Indexer) (ledger : ℕ) : Indexer :=
  { s with lastIndexedLedger := max s.lastIndexedLedger ledger }

/-- The handler of an event; `none` if it throws. A failure to mark a proposal as executed is logged only. -/
def handleEvent (rt : Runtime) (contractId : String) (table : Proposals) (turn : Turn) (eventType : EventType)
    (proposalId : String) (event : RawSorobanEvent) : Option Proposals :=
  match eventType with
  | .proposalQueued =>
    if turn.handled then
      handleProposalQueued rt table proposalId contractId event (event.txHash.getD "") turn.now
    else none
  | _ => some (if turn.handled then handleTimelockActionExecuted table proposalId turn.now else table)

/-- The turn of one event in the loop of `indexContractEvents`, and whether it ends without an exception. -/
def indexEvent (rt : Runtime) (contractId : String) (s : Indexer) (turn : Turn) (event : RawSorobanEvent) :
    Bool × Indexer :=
  match eventTypeOf rt event with
  | none => (true, s.advance event.ledger)
  | some eventType =>
    match proposalIdOf rt event with
    | none => (true, s)
    | some proposalId =>
      if turn.stored then
        let s := { s with timelockEvents := upsertEvent rt s.timelockEvents eventType proposalId contractId event }
        match handleEvent rt contractId s.proposals turn eventType proposalId event with
        | none => (false, s)
        | some proposals =>
          (true, { s with proposals, indexed := s.indexed ++ [(turn.now, event)] }.advance event.ledger)
      else (false, s)

/-- The loop of `indexContractEvents`. -/
def indexEvents (rt : Runtime) (contractId : String) (s : Indexer) (turns : ℕ → Turn) :
    List RawSorobanEvent → Bool × Indexer
  | [] => (true, s)
  | event :: events =>
    match indexEvent rt contractId s (turns 0) event with
    | (true, s) => indexEvents rt contractId s (fun i => turns (i + 1)) events
    | (false, s) => (false, s)

/-- `indexContractEvents`, and whether it ends without an exception; `getEvents` may throw. -/
def indexContractEvents (rt : Runtime) (contractId : String) (s : Indexer) (turns : ℕ → Turn)
    (getEvents : ℕ → Option (List RawSorobanEvent)) : Bool × Indexer :=
  match getEvents (max 1 s.lastIndexedLedger) with
  | none => (false, s)
  | some events => indexEvents rt contractId s turns events

/-- The statements that write the tables: the turn of an event, and the UPDATEs of the other tasks. -/
inductive Action where
  | deliver (turn : Turn) (event : RawSorobanEvent)
  | expire (proposal : TimelockedProposal) (gracePeriodMs now updatedAt : ℤ) (recorded : Bool)
  | notify (proposalId : String) (now : ℤ)
  | execute (proposalId transactionHash : String) (now : ℤ)

/-- The UPDATE of `cleanExpiredProposals` for a proposal, and its event if the row was changed. -/
def Indexer.expire (rt : Runtime) (s : Indexer) (proposal : TimelockedProposal) (gracePeriodMs now updatedAt : ℤ)
    (recorded : Bool) : Indexer :=
  let expired := (s.proposals.get? proposal.proposalId).any (·.status = .queued)
  { s with
    proposals := expireProposal s.proposals proposal.proposalId updatedAt
    timelockEvents :=
      if expired && recorded then
        recordExpired rt s.timelockEvents proposal gracePeriodMs now s.lastIndexedLedger
      else s.timelockEvents }

/-- One action. -/
def act (rt : Runtime) (contractId : String) (s : Indexer) : Action → Indexer
  | .deliver turn event => (indexEvent rt contractId s turn event).2
  | .expire proposal gracePeriodMs now updatedAt recorded => s.expire rt proposal gracePeriodMs now updatedAt recorded
  | .notify proposalId now => { s with proposals := notifyProposal s.proposals proposalId now }
  | .execute proposalId transactionHash now =>
    { s with proposals := executeProposal s.proposals proposalId transactionHash now }

/-- The event has been indexed. -/
def Indexer.Knows (s : Indexer) (event : RawSorobanEvent) : Prop := event ∈ s.indexed.map Prod.snd

/-- The status and the times of a proposal. -/
structure Lifecycle where
  status : Status
  expiresAt : ℤ
  executedAt : Option ℤ
  queuedAt : Option ℤ

def GovernanceProposal.lifecycle (row : GovernanceProposal) : Lifecycle :=
  ⟨row.status, row.expiresAt, row.executedAt, row.queuedAt⟩

/-- The status and the times of every proposal. -/
def lifecycles (table : Proposals) (proposalId : String) : Option Lifecycle :=
  (table.get? proposalId).map GovernanceProposal.lifecycle

/-- The expiry and the close time that a `ProposalQueued` event gives at a time, if both are valid. -/
def datesOf (rt : Runtime) (event : RawSorobanEvent) (now : ℤ) : Option (ℤ × ℤ) :=
  match effectiveExpiresAt rt event now, ledgerClosedAt rt event now with
  | some expiresAt, some queuedAt => some (expiresAt, queuedAt)
  | _, _ => none

/-- What the upsert of `handleProposalQueued` makes of the status and the times. -/
def Lifecycle.queued (expiresAt queuedAt : ℤ) : Option Lifecycle → Lifecycle
  | none => ⟨.queued, expiresAt, none, some queuedAt⟩
  | some old => { old with expiresAt, queuedAt := some queuedAt }

/-- What a delivery does to the proposals, in terms of their status and times. -/
def deliverEffect (rt : Runtime) (turn : Turn) (event : RawSorobanEvent) (table : String → Option Lifecycle) :
    String → Option Lifecycle :=
  match eventTypeOf rt event, proposalIdOf rt event with
  | some eventType, some proposalId =>
    if turn.stored && turn.handled then
      if eventType = .proposalQueued then
        match datesOf rt event turn.now with
        | some (expiresAt, queuedAt) =>
          Function.update table proposalId (some (Lifecycle.queued expiresAt queuedAt (table proposalId)))
        | none => table
      else Function.update table proposalId ((table proposalId).map fun old =>
        { old with status := .executed, executedAt := some turn.now })
    else table
  | _, _ => table

/-- What an action does to the proposals, in terms of their status and times. -/
def Action.effect (rt : Runtime) (table : String → Option Lifecycle) : Action → String → Option Lifecycle
  | .deliver turn event => deliverEffect rt turn event table
  | .expire proposal _ _ _ _ =>
    Function.update table proposal.proposalId ((table proposal.proposalId).map fun old =>
      if old.status = .queued then { old with status := .expired } else old)
  | .notify _ _ => table
  | .execute proposalId _ now =>
    Function.update table proposalId ((table proposalId).map fun old =>
      if old.status = .queued then { old with status := .executed, executedAt := some now } else old)

/-- An update changes the lifecycle of one proposal. -/
lemma lifecycles_update {table : Proposals} {pid : String} {matching : GovernanceProposal → Bool}
    {change : GovernanceProposal → GovernanceProposal} {f : Lifecycle → Lifecycle}
    (follows : ∀ row, (if matching row then change row else row).lifecycle = f row.lifecycle) :
    lifecycles (table.update pid matching change) =
      Function.update (lifecycles table) pid ((lifecycles table pid).map f) := by
  funext x
  rw [lifecycles, get?_update, Option.map_map]
  by_cases same : x = pid
  · subst same
    rw [Function.update_self, lifecycles, Option.map_map]
    congr 1
    funext row
    simp only [Function.comp_apply, true_and]
    exact follows row
  · rw [Function.update_of_ne same, lifecycles]
    congr 1
    funext row
    simp only [Function.comp_apply, same, false_and, if_false]

/-- An upsert queues the lifecycle of one proposal. -/
lemma lifecycles_set_upserted (table : Proposals) (pid contractId txHash : String) (expiresAt queuedAt now : ℤ) :
    lifecycles (table.set pid (upsertedRow contractId txHash expiresAt queuedAt now (table.get? pid))) =
      Function.update (lifecycles table) pid (some (Lifecycle.queued expiresAt queuedAt (lifecycles table pid))) := by
  funext x
  rw [lifecycles, Dict.get?_set]
  by_cases same : x = pid
  · rw [if_pos same, same, Function.update_self, lifecycles]
    cases table.get? pid with
    | none => rfl
    | some row => rfl
  · rw [if_neg same, Function.update_of_ne same, lifecycles]

/-- A queued event is upserted with the dates read from it, or leaves the table alone. -/
lemma handleProposalQueued_eq (rt : Runtime) (table : Proposals) (pid contractId : String)
    (event : RawSorobanEvent) (txHash : String) (now : ℤ) :
    handleProposalQueued rt table pid contractId event txHash now =
      (datesOf rt event now).map fun d =>
        table.set pid (upsertedRow contractId txHash d.1 d.2 now (table.get? pid)) := by
  rw [handleProposalQueued, datesOf]
  cases effectiveExpiresAt rt event now with
  | none => rfl
  | some expiresAt =>
    cases ledgerClosedAt rt event now with
    | none => rfl
    | some queuedAt => rfl

/-- The turn of an event is completed. -/
def completes (rt : Runtime) (turn : Turn) (event : RawSorobanEvent) : Bool :=
  match eventTypeOf rt event, proposalIdOf rt event with
  | some eventType, some _ =>
    turn.stored && (eventType ≠ .proposalQueued || turn.handled && (datesOf rt event turn.now).isSome)
  | _, _ => false

/-- What the turn of an event can do to the proposals and to the events that are indexed. -/
lemma indexEvent_spec (rt : Runtime) (contractId : String) (s : Indexer) (turn : Turn) (event : RawSorobanEvent) :
    lifecycles (indexEvent rt contractId s turn event).2.proposals =
        deliverEffect rt turn event (lifecycles s.proposals) ∧
      (indexEvent rt contractId s turn event).2.indexed =
        s.indexed ++ if completes rt turn event then [(turn.now, event)] else [] := by
  rw [indexEvent, deliverEffect, completes]
  cases kind : eventTypeOf rt event with
  | none => exact ⟨rfl, (List.append_nil _).symm⟩
  | some eventType =>
    cases id : proposalIdOf rt event with
    | none => exact ⟨rfl, (List.append_nil _).symm⟩
    | some pid =>
      by_cases stored : turn.stored = true
      · simp only [stored, if_true, Bool.true_and]
        rw [handleEvent.eq_def]
        cases eventType with
        | proposalQueued =>
          by_cases handled : turn.handled = true
          · simp only [handled, if_true, handleProposalQueued_eq]
            cases dates : datesOf rt event turn.now with
            | none => simp
            | some d => exact ⟨lifecycles_set_upserted .., rfl⟩
          · simp [handled]
        | timelockActionExecuted =>
          by_cases handled : turn.handled = true
          · simp only [handled, if_true]
            exact ⟨lifecycles_update fun row => rfl, rfl⟩
          · simp [handled, Indexer.advance]
        | proposalExecutionExpired =>
          by_cases handled : turn.handled = true
          · simp only [handled, if_true]
            exact ⟨lifecycles_update fun row => rfl, rfl⟩
          · simp [handled, Indexer.advance]
      · simp [stored]

/-- The tables follow the effect of each action. -/
lemma lifecycles_act (rt : Runtime) (contractId : String) (s : Indexer) (a : Action) :
    lifecycles (act rt contractId s a).proposals = a.effect rt (lifecycles s.proposals) := by
  cases a with
  | deliver turn event => exact (indexEvent_spec rt contractId s turn event).1
  | expire proposal gracePeriodMs now updatedAt recorded =>
    apply lifecycles_update
    intro row
    by_cases queued : row.status = .queued
    · simp [queued, GovernanceProposal.lifecycle]
    · simp [queued, GovernanceProposal.lifecycle]
  | notify pid now =>
    show lifecycles (Proposals.update _ _ _ _) = _
    rw [lifecycles_update (f := id) fun row => rfl, Option.map_id_fun, id, Function.update_eq_self]
    rfl
  | execute pid transactionHash now =>
    apply lifecycles_update
    intro row
    by_cases queued : row.status = .queued
    · simp [queued, GovernanceProposal.lifecycle]
    · simp [queued, GovernanceProposal.lifecycle]

/-- The event is a `ProposalQueued` event of the proposal. -/
def queues (rt : Runtime) (pid : String) (event : RawSorobanEvent) : Bool :=
  eventTypeOf rt event = some .proposalQueued && proposalIdOf rt event = some pid

/-- The `ProposalQueued` event of a proposal that was indexed last, with its time. -/
def lastQueued (rt : Runtime) (indexed : List (ℤ × RawSorobanEvent)) (pid : String) : Option (ℤ × RawSorobanEvent) :=
  indexed.reverse.find? fun d => queues rt pid d.2

/-- The delivery fails; or the event is a `ProposalQueued` event that gives the times which the last one of its
proposal gave; or it finds no row to mark as executed, or one that was marked in the same millisecond. -/
def Stable (rt : Runtime) (s : Indexer) (turn : Turn) (event : RawSorobanEvent) : Prop :=
  completes rt turn event = true → turn.handled = true → ∀ pid, proposalIdOf rt event = some pid →
    if eventTypeOf rt event = some .proposalQueued then
      ∃ d, lastQueued rt s.indexed pid = some d ∧ datesOf rt d.2 d.1 = datesOf rt event turn.now
    else ∀ row, s.proposals.get? pid = some row → row.status = .executed ∧ row.executedAt = some turn.now

/-- The second run leaves out some deliveries of events that had been indexed before. -/
inductive Thinned (rt : Runtime) (contractId : String) : Indexer → List Action → List Action → Prop where
  | nil {s} : Thinned rt contractId s [] []
  | keep {s a trace trace'} :
    Thinned rt contractId (act rt contractId s a) trace trace' →
    Thinned rt contractId s (a :: trace) (a :: trace')
  | drop {s turn event trace trace'} :
    s.Knows event →
    Thinned rt contractId (act rt contractId s (.deliver turn event)) trace trace' →
    Thinned rt contractId s (.deliver turn event :: trace) trace'

/-- One action as a step of a run. -/
def step (rt : Runtime) (contractId : String) (s : Indexer) (a : Action) : Option Indexer :=
  some (act rt contractId s a)

/-- Every event that is delivered again is stable. -/
def StableStep (rt : Runtime) (s : Indexer) (a : Action) : Prop :=
  ∀ turn event, a = .deliver turn event → s.Knows event → Stable rt s turn event

/-- The times of a proposal are those that its last `ProposalQueued` event gave. -/
def Follows (rt : Runtime) (s : Indexer) : Prop :=
  ∀ pid d, lastQueued rt s.indexed pid = some d → ∃ l queuedAt, lifecycles s.proposals pid = some l ∧
    datesOf rt d.2 d.1 = some (l.expiresAt, queuedAt) ∧ l.queuedAt = some queuedAt

variable {rt : Runtime} {contractId : String} {turn : Turn} {event : RawSorobanEvent}
  {table : String → Option Lifecycle}

/-- An event queues a proposal when it is of that type and of that id. -/
lemma queues_iff {pid : String} :
    queues rt pid event = true ↔ eventTypeOf rt event = some .proposalQueued ∧ proposalIdOf rt event = some pid := by
  rw [queues, Bool.and_eq_true_iff, decide_eq_true_eq, decide_eq_true_eq]

/-- A delivery that queues the proposal becomes its last one. -/
lemma lastQueued_snoc (indexed : List (ℤ × RawSorobanEvent)) (d : ℤ × RawSorobanEvent) (pid : String) :
    lastQueued rt (indexed ++ [d]) pid = if queues rt pid d.2 then some d else lastQueued rt indexed pid := by
  rw [lastQueued, List.reverse_append, List.reverse_singleton, List.singleton_append, List.find?_cons]
  cases queues rt pid d.2 with
  | false => rfl
  | true => rfl

/-- What a delivery can do: write the times of a queued proposal, mark a proposal as executed, or nothing. -/
lemma deliverEffect_cases (rt : Runtime) (turn : Turn) (event : RawSorobanEvent) (table : String → Option Lifecycle) :
    (∃ pid expiresAt queuedAt, queues rt pid event = true ∧ completes rt turn event = true ∧ turn.handled = true ∧
      datesOf rt event turn.now = some (expiresAt, queuedAt) ∧ deliverEffect rt turn event table =
        Function.update table pid (some (Lifecycle.queued expiresAt queuedAt (table pid)))) ∨
    (∃ pid, proposalIdOf rt event = some pid ∧ eventTypeOf rt event ≠ some .proposalQueued ∧
      completes rt turn event = true ∧ turn.handled = true ∧ deliverEffect rt turn event table =
        Function.update table pid ((table pid).map fun old =>
          { old with status := .executed, executedAt := some turn.now })) ∨
    (¬ (completes rt turn event = true ∧ turn.handled = true) ∧ deliverEffect rt turn event table = table) := by
  rw [deliverEffect, completes]
  cases kind : eventTypeOf rt event with
  | none => exact .inr (.inr ⟨by simp, rfl⟩)
  | some eventType =>
    cases id : proposalIdOf rt event with
    | none => exact .inr (.inr ⟨by simp, rfl⟩)
    | some pid =>
      by_cases succeeds : turn.stored = true ∧ turn.handled = true
      · obtain ⟨stored, handled⟩ := succeeds
        by_cases queued : eventType = .proposalQueued
        · subst queued
          cases dates : datesOf rt event turn.now with
          | none => exact .inr (.inr ⟨by simp, by simp⟩)
          | some d => exact .inl ⟨pid, d.1, d.2, queues_iff.2 ⟨kind, id⟩, by simp [stored, handled], handled, rfl,
              by simp [stored, handled]⟩
        · exact .inr (.inl ⟨pid, rfl, by simp [queued], by simp [stored, queued], handled,
            by simp [stored, handled, queued]⟩)
      · refine .inr (.inr ⟨?_, ?_⟩)
        · rintro ⟨done, handled⟩
          exact succeeds ⟨(Bool.and_eq_true_iff.1 done).1, handled⟩
        · rw [← Bool.and_eq_true_iff] at succeeds
          simp only [succeeds, if_false, Bool.false_eq_true]

/-- Queueing sets the dates. -/
lemma Lifecycle.queued_times (expiresAt queuedAt : ℤ) (old : Option Lifecycle) :
    (Lifecycle.queued expiresAt queuedAt old).expiresAt = expiresAt ∧
      (Lifecycle.queued expiresAt queuedAt old).queuedAt = some queuedAt := by
  cases old with
  | none => exact ⟨rfl, rfl⟩
  | some l => exact ⟨rfl, rfl⟩

/-- An update that keeps the times of its proposal keeps those of every proposal. -/
lemma update_keeps_times {pid x : String} {l : Lifecycle} {f : Lifecycle → Lifecycle}
    (keeps : ∀ old, (f old).expiresAt = old.expiresAt ∧ (f old).queuedAt = old.queuedAt) (found : table x = some l) :
    ∃ l', Function.update table pid ((table pid).map f) x = some l' ∧
      l'.expiresAt = l.expiresAt ∧ l'.queuedAt = l.queuedAt := by
  by_cases same : x = pid
  · subst same
    rw [Function.update_self, found]
    exact ⟨f l, rfl, keeps l⟩
  · rw [Function.update_of_ne same]
    exact ⟨l, found, rfl, rfl⟩

/-- Only a `ProposalQueued` event of a proposal changes its times. -/
lemma effect_keeps_times (rt : Runtime) {a : Action} {x : String} {l : Lifecycle} (found : table x = some l)
    (other : ∀ turn event, a = .deliver turn event → completes rt turn event = true → queues rt x event = false) :
    ∃ l', a.effect rt table x = some l' ∧ l'.expiresAt = l.expiresAt ∧ l'.queuedAt = l.queuedAt := by
  have unchanged : ∃ l', table x = some l' ∧ l'.expiresAt = l.expiresAt ∧ l'.queuedAt = l.queuedAt :=
    ⟨l, found, rfl, rfl⟩
  cases a with
  | deliver turn event =>
    rw [Action.effect]
    rcases deliverEffect_cases rt turn event table with ⟨pid, e, q, queued, done, -, -, effect⟩ |
      ⟨pid, -, -, -, -, effect⟩ | ⟨-, effect⟩
    · have elsewhere : x ≠ pid := by
        rintro rfl
        rw [other turn event rfl done] at queued
        cases queued
      rw [effect, Function.update_of_ne elsewhere]
      exact unchanged
    · rw [effect]
      exact update_keeps_times (fun _ => ⟨rfl, rfl⟩) found
    · rw [effect]
      exact unchanged
  | expire proposal _ _ _ _ =>
    apply update_keeps_times _ found
    intro old
    split
    · exact ⟨rfl, rfl⟩
    · exact ⟨rfl, rfl⟩
  | notify _ _ => exact unchanged
  | execute pid _ _ =>
    apply update_keeps_times _ found
    intro old
    split
    · exact ⟨rfl, rfl⟩
    · exact ⟨rfl, rfl⟩

/-- A delivery is indexed where it completes. -/
lemma indexed_act (rt : Runtime) (contractId : String) (s : Indexer) (a : Action) :
    (∃ turn event, a = .deliver turn event ∧ completes rt turn event = true ∧
      (act rt contractId s a).indexed = s.indexed ++ [(turn.now, event)]) ∨
    ((∀ turn event, a = .deliver turn event → completes rt turn event = false) ∧
      (act rt contractId s a).indexed = s.indexed) := by
  cases a with
  | deliver turn event =>
    have indexed := (indexEvent_spec rt contractId s turn event).2
    cases done : completes rt turn event with
    | true =>
      rw [done, if_pos rfl] at indexed
      exact .inl ⟨turn, event, rfl, done, indexed⟩
    | false =>
      rw [done, if_neg Bool.false_ne_true, List.append_nil] at indexed
      refine .inr ⟨?_, indexed⟩
      intro turn' event' same
      cases same
      exact done
  | expire _ _ _ _ _ => exact .inr ⟨fun _ _ => (nomatch ·), rfl⟩
  | notify _ _ => exact .inr ⟨fun _ _ => (nomatch ·), rfl⟩
  | execute _ _ _ => exact .inr ⟨fun _ _ => (nomatch ·), rfl⟩

/-- Each action keeps the dates those of the last event. -/
lemma follows_act {s : Indexer} (inv : Follows rt s) (a : Action) : Follows rt (act rt contractId s a) := by
  intro pid d last
  rw [lifecycles_act]
  rcases indexed_act rt contractId s a with ⟨turn, event, rfl, done, indexed⟩ | ⟨other, indexed⟩
  · rw [indexed, lastQueued_snoc] at last
    cases queued : queues rt pid event with
    | true =>
      rw [queued, if_pos rfl] at last
      cases last
      rcases deliverEffect_cases rt turn event (lifecycles s.proposals) with
        ⟨x, e, q, here, -, -, dates, effect⟩ | ⟨_, -, kind, -⟩ | ⟨failed, -⟩
      · obtain rfl : x = pid := Option.some.inj ((queues_iff.1 here).2.symm.trans (queues_iff.1 queued).2)
        obtain ⟨expires, closed⟩ := Lifecycle.queued_times e q (lifecycles s.proposals x)
        refine ⟨_, q, ?_, ?_, closed⟩
        · rw [Action.effect, effect, Function.update_self]
        · rw [expires]
          exact dates
      · exact absurd (queues_iff.1 queued).1 kind
      · refine absurd ⟨done, ?_⟩ failed
        obtain ⟨kind, id⟩ := queues_iff.1 queued
        simp only [completes, kind, id, ne_eq, not_true_eq_false, decide_false, Bool.false_or,
          Bool.and_eq_true_iff] at done
        exact done.2.1
    | false =>
      rw [queued, if_neg Bool.false_ne_true] at last
      obtain ⟨l, q, found, dates, closed⟩ := inv pid d last
      obtain ⟨l', found', expires', closed'⟩ := effect_keeps_times rt (a := .deliver turn event) found
        (fun _ _ same _ => by cases same; exact queued)
      exact ⟨l', q, found', expires' ▸ dates, closed'.trans closed⟩
  · rw [indexed] at last
    obtain ⟨l, q, found, dates, closed⟩ := inv pid d last
    obtain ⟨l', found', expires', closed'⟩ := effect_keeps_times rt (a := a) found
      (fun turn event same done => by rw [other turn event same] at done; cases done)
    exact ⟨l', q, found', expires' ▸ dates, closed'.trans closed⟩

/-- A queueing event that is known has a last delivery. -/
lemma lastQueued_of_known {s : Indexer} {pid : String} (queued : queues rt pid event = true) (known : s.Knows event) :
    ∃ d, lastQueued rt s.indexed pid = some d := by
  apply Option.ne_none_iff_exists'.1
  intro none
  obtain ⟨d, mem, rfl⟩ := List.mem_map.1 known
  exact List.find?_eq_none.1 none d (List.mem_reverse.2 mem) queued

/-- An event that is delivered again changes nothing exactly when it is stable. -/
lemma deliver_unchanged_iff {s : Indexer} (inv : Follows rt s) (known : s.Knows event) :
    deliverEffect rt turn event (lifecycles s.proposals) = lifecycles s.proposals ↔ Stable rt s turn event := by
  rcases deliverEffect_cases rt turn event (lifecycles s.proposals) with
    ⟨pid, e, q, queued, done, handled, dates, effect⟩ | ⟨pid, id, kind, done, handled, effect⟩ | ⟨failed, effect⟩
  · obtain ⟨kind, id⟩ := queues_iff.1 queued
    obtain ⟨d, last⟩ := lastQueued_of_known queued known
    obtain ⟨⟨status, expiresAt, executedAt, queuedAt⟩, q', found, dates', closed⟩ := inv pid d last
    have stable : Stable rt s turn event ↔ datesOf rt d.2 d.1 = datesOf rt event turn.now := by
      simp only [Stable, done, handled, id, kind, if_true, true_imp_iff, Option.some.injEq, forall_eq', last,
        exists_eq_left']
    rw [effect, Function.update_eq_self_iff, found, stable, dates, dates']
    cases closed
    simp only [Lifecycle.queued, Option.some.injEq, Lifecycle.mk.injEq, Prod.mk.injEq, true_and,
      eq_comm (a := e), eq_comm (a := q)]
  · have stable : Stable rt s turn event ↔
        ∀ row, s.proposals.get? pid = some row → row.status = .executed ∧ row.executedAt = some turn.now := by
      simp only [Stable, done, handled, id, kind, if_false, true_imp_iff, Option.some.injEq, forall_eq']
    rw [effect, Function.update_eq_self_iff, stable, lifecycles]
    cases s.proposals.get? pid with
    | none => simp
    | some row =>
      simp only [Option.map_some, Option.some.injEq, forall_eq', GovernanceProposal.lifecycle, Lifecycle.mk.injEq,
        true_and, and_true, eq_comm (a := Status.executed), eq_comm (a := some turn.now)]
  · rw [effect]
    exact iff_of_true rfl fun done handled => absurd ⟨done, handled⟩ failed

/-- Deliveries of stable events can be left out of a run. -/
lemma lifecycles_thinned {s t : Indexer} {trace trace' : List Action} (thinned : Thinned rt contractId s trace trace')
    (inv : Follows rt s) (same : lifecycles s.proposals = lifecycles t.proposals)
    (guarded : Machine.Guarded (step rt contractId) (StableStep rt) s trace) :
    lifecycles (trace.foldl (act rt contractId) s).proposals =
      lifecycles (trace'.foldl (act rt contractId) t).proposals := by
  induction thinned generalizing t with
  | nil => exact same
  | @keep s a trace trace' _ ih =>
    obtain ⟨-, rest⟩ := Machine.guarded_cons.1 guarded
    apply ih (follows_act inv a) _ (rest _ rfl)
    rw [lifecycles_act, lifecycles_act, same]
  | @drop s turn event trace trace' known _ ih =>
    obtain ⟨met, rest⟩ := Machine.guarded_cons.1 guarded
    apply ih (follows_act inv _) _ (rest _ rfl)
    rw [lifecycles_act, ← same]
    exact (deliver_unchanged_iff inv known).2 (met turn event rfl known)

/-- No action fails, so a run is a fold. -/
lemma exec_eq_foldl (s : Indexer) (trace : List Action) :
    Machine.exec (step rt contractId) s trace = some (trace.foldl (act rt contractId) s) := by
  induction trace generalizing s with
  | nil => rfl
  | cons a trace ih => exact (Machine.exec_cons s a trace).trans (ih _)

/-- A poll is a run of deliveries of the events it gets. -/
lemma indexContractEvents_run (s : Indexer) (turns : ℕ → Turn) (getEvents : ℕ → Option (List RawSorobanEvent)) :
    ∃ trace : List Action,
      (∀ a ∈ trace, ∃ turn event events, a = .deliver turn event ∧ event ∈ events ∧
        getEvents (max 1 s.lastIndexedLedger) = some events) ∧
      Machine.exec (step rt contractId) s trace =
        some (indexContractEvents rt contractId s turns getEvents).2 := by
  have loop (events : List RawSorobanEvent) : ∀ (s : Indexer) (turns : ℕ → Turn), ∃ trace : List Action,
      (∀ a ∈ trace, ∃ turn event, a = .deliver turn event ∧ event ∈ events) ∧
        Machine.exec (step rt contractId) s trace = some (indexEvents rt contractId s turns events).2 := by
    induction events with
    | nil => exact fun s turns => ⟨[], fun _ mem => absurd mem List.not_mem_nil, rfl⟩
    | cons event events ih =>
      intro s turns
      rw [indexEvents]
      split
      case h_1 s' turn =>
        obtain ⟨trace, deliveries, result⟩ := ih s' fun i => turns (i + 1)
        refine ⟨.deliver (turns 0) event :: trace, ?_, ?_⟩
        · intro a mem
          rcases List.mem_cons.1 mem with rfl | later
          · exact ⟨_, event, rfl, List.mem_cons_self⟩
          · obtain ⟨turn, x, same, inside⟩ := deliveries a later
            exact ⟨turn, x, same, List.mem_cons_of_mem _ inside⟩
        · rw [Machine.exec_cons, step, act, turn]
          exact result
      case h_2 s' turn =>
        refine ⟨[.deliver (turns 0) event], ?_, ?_⟩
        · intro a mem
          rw [List.mem_singleton.1 mem]
          exact ⟨_, event, rfl, List.mem_cons_self⟩
        · rw [Machine.exec_cons, step, act, turn]
          rfl
  rw [indexContractEvents]
  cases page : getEvents (max 1 s.lastIndexedLedger) with
  | none => exact ⟨[], fun _ mem => absurd mem List.not_mem_nil, rfl⟩
  | some events =>
    obtain ⟨trace, deliveries, result⟩ := loop events s turns
    refine ⟨trace, ?_, result⟩
    intro a mem
    obtain ⟨turn, event, same, inside⟩ := deliveries a mem
    exact ⟨turn, event, events, same, inside, rfl⟩

/-- In every state a run reaches, an event that is delivered again leaves the status and the times of the proposals
as they are exactly when it is stable; and a run in which all such events are stable ends as it does without
them. -/
theorem redelivery_harmless_iff {s₀ s : Indexer} {trace : List Action} (fresh : s₀.indexed = [])
    (run : Machine.exec (step rt contractId) s₀ trace = some s) :
    (∀ turn event, s.Knows event →
      (lifecycles (indexEvent rt contractId s turn event).2.proposals = lifecycles s.proposals ↔
        Stable rt s turn event)) ∧
    (Machine.Guarded (step rt contractId) (StableStep rt) s₀ trace →
      ∀ trace' s', Thinned rt contractId s₀ trace trace' →
        Machine.exec (step rt contractId) s₀ trace' = some s' →
        lifecycles s'.proposals = lifecycles s.proposals) := by
  have init : Follows rt s₀ := by
    intro pid d last
    rw [fresh] at last
    cases last
  constructor
  · intro turn event known
    have inv : Follows rt s := Machine.exec_invariant init
      (fun s a t inv taken => by cases taken; exact follows_act inv a) run
    rw [(indexEvent_spec rt contractId s turn event).1]
    exact deliver_unchanged_iff inv known
  · intro guarded trace' s' thinned run'
    rw [exec_eq_foldl] at run run'
    cases run
    cases run'
    exact (lifecycles_thinned thinned init rfl guarded).symm

/-- A runtime for texts that are neither XDR nor numbers. -/
def sampleRuntime : Runtime where
  fromXdr := fun _ => none
  text := fun _ => ""
  stringify := fun _ => ""
  number := fun _ => .nan
  date := fun s =>
    if s = "1970-01-01T00:00:01Z" then some 1000
    else if s = "1970-01-02T00:00:00Z" then some 86400000
    else none
  iso := fun _ => ""

/-- A `ProposalQueued` event that carries an expiry and the close time of its ledger. -/
def sampleEvent : RawSorobanEvent where
  ledger := 7
  ledgerClosedAt := some "1970-01-01T00:00:01Z"
  contractId := none
  txHash := some "tx"
  topic := .array [.string "ProposalQueued", .string "p"]
  value := .object [("expiresAt", .string "1970-01-02T00:00:00Z")]

def sampleIndexer : Indexer := ⟨0, Dict.empty, Dict.empty, []⟩

/-- An event with dates of its own, delivered twice. -/
theorem redelivery_harmless_sample :
    ∃ s, Machine.exec (step sampleRuntime "c") sampleIndexer [.deliver ⟨5, true, true⟩ sampleEvent] = some s ∧
      s.Knows sampleEvent ∧
      lifecycles (indexEvent sampleRuntime "c" s ⟨6, true, true⟩ sampleEvent).2.proposals = lifecycles s.proposals := by
  have run : Machine.exec (step sampleRuntime "c") sampleIndexer [.deliver ⟨5, true, true⟩ sampleEvent] =
    some (indexEvent sampleRuntime "c" sampleIndexer ⟨5, true, true⟩ sampleEvent).2 := rfl
  have known : (indexEvent sampleRuntime "c" sampleIndexer ⟨5, true, true⟩ sampleEvent).2.Knows sampleEvent :=
    List.Mem.head _
  refine ⟨_, run, known, ((redelivery_harmless_iff rfl run).1 ⟨6, true, true⟩ sampleEvent known).2 ?_⟩
  intro _ _ pid id
  cases id
  exact ⟨_, rfl, rfl⟩

/-- The same event without an expiry in its payload. -/
def bareEvent : RawSorobanEvent := { sampleEvent with value := .null }

/-- Two polls of a log with one event, a second apart: the proposal expires a second later. -/
theorem redelivery_moves_expiry :
    let getEvents := fun start => some ([bareEvent].filter fun e => start ≤ e.ledger)
    let first := (indexContractEvents sampleRuntime "c" sampleIndexer (fun _ => ⟨0, true, true⟩) getEvents).2
    let second := (indexContractEvents sampleRuntime "c" first (fun _ => ⟨1000, true, true⟩) getEvents).2
    first.Knows bareEvent ∧ (lifecycles first.proposals "p").map (·.expiresAt) = some 86400000 ∧
      (lifecycles second.proposals "p").map (·.expiresAt) = some 86401000 :=
  ⟨List.Mem.head _, rfl, rfl⟩

end StellarFlow.Governance
