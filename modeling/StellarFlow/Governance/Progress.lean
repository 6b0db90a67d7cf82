import Mathlib.Data.List.Pairwise
import StellarFlow.Governance.Indexing

/-!
# Progress of the event indexer

Runs of `indexContractEvents` polls over a growing chain log. A poll gets the first 200 events from the ledger of
the cursor on, and may fail at any event; between polls the log grows, the other tasks write, and the service is
started again from the tables.

The cursor is never past an event that has not been indexed (`Safe`). A poll that moves nothing has indexed
everything exactly when its page shows an event of a later ledger, or what comes after the page is indexed already:
with 200 events in the ledger of the cursor, or 200 malformed ones, the indexer stays where it is.
-/

namespace StellarFlow.Governance

/-- The events of a contract in the order of their ledgers, which are numbered from 1. -/
structure ChainLog where
  events : List RawSorobanEvent
  sorted : events.Pairwise fun a b => a.ledger ≤ b.ledger
  positive : ∀ e ∈ events, 1 ≤ e.ledger

/-- The events from a ledger on. -/
def ChainLog.since (log : ChainLog) (startLedger : ℕ) : List RawSorobanEvent :=
  log.events.filter fun e => startLedger ≤ e.ledger

/-- `getEvents` with a limit of 200. -/
def ChainLog.getEvents (log : ChainLog) (startLedger : ℕ) : List RawSorobanEvent := (log.since startLedger).take 200

/-- The log after further ledgers have closed; they come after those of the log. -/
def ChainLog.close (log : ChainLog) (events : List RawSorobanEvent) : Option ChainLog :=
  if valid : (log.events ++ events).Pairwise (fun a b => a.ledger ≤ b.ledger) ∧
      ∀ e ∈ log.events ++ events, 1 ≤ e.ledger then
    some ⟨log.events ++ events, valid.1, valid.2⟩
  else none

/-- `start` resumes from the last ledger of the tables; a new process has no cursor of its own. -/
def Indexer.start (s : Indexer) (newProcess : Bool) : Indexer :=
  match s.timelockEvents.entries with
  | [] => { s with lastIndexedLedger := if newProcess then 0 else s.lastIndexedLedger }
  | first :: rows => { s with lastIndexedLedger := rows.foldl (fun n row => max n row.2.ledgerSeq) first.2.ledgerSeq }

/-- The chain and the service. -/
structure Node where
  log : ChainLog
  indexer : Indexer

/-- A poll, and whether it ends without an exception. -/
def Node.poll (rt : Runtime) (contractId : String) (n : Node) (turns : ℕ → Turn) (rpcFails : Bool) : Bool × Indexer :=
  indexContractEvents rt contractId n.indexer turns fun startLedger =>
    if rpcFails then none else some (n.log.getEvents startLedger)

inductive Happening where
  | close (events : List RawSorobanEvent)
  | poll (turns : ℕ → Turn) (rpcFails : Bool)
  | write (a : Action)
  | start (newProcess : Bool)

/-- One happening; the writes are those of the other tasks. -/
def Node.step (rt : Runtime) (contractId : String) (n : Node) : Happening → Option Node
  | .close events => (n.log.close events).map fun log => { n with log }
  | .poll turns rpcFails => some { n with indexer := (n.poll rt contractId turns rpcFails).2 }
  | .write (.deliver _ _) => none
  | .write a => some { n with indexer := act rt contractId n.indexer a }
  | .start newProcess => some { n with indexer := n.indexer.start newProcess }

/-- A `ProposalQueued` or `TimelockActionExecuted` event with a proposal id. -/
def indexable (rt : Runtime) (event : RawSorobanEvent) : Bool :=
  (eventTypeOf rt event).isSome && (proposalIdOf rt event).isSome

/-- An event with one of the two names and no proposal id. -/
def malformed (rt : Runtime) (event : RawSorobanEvent) : Bool :=
  (eventTypeOf rt event).isSome && (proposalIdOf rt event).isNone

/-- Every event that can be indexed has been. -/
def Complete (rt : Runtime) (log : ChainLog) (s : Indexer) : Prop :=
  ∀ e ∈ log.events, indexable rt e = true → s.Knows e

/-- The page of the next poll shows a later ledger in an event that is not malformed, or all that comes after the
page has been indexed. -/
def SeesAhead (rt : Runtime) (n : Node) : Prop :=
  let startLedger := max 1 n.indexer.lastIndexedLedger
  (∃ e ∈ n.log.getEvents startLedger, malformed rt e = false ∧ n.indexer.lastIndexedLedger < e.ledger) ∨
    ∀ e ∈ (n.log.since startLedger).drop 200, indexable rt e = true →
      n.indexer.Knows e ∨ e ∈ n.log.getEvents startLedger

/-- The events of earlier ledgers have been indexed, and the log has come as far. -/
def Covers (rt : Runtime) (log : ChainLog) (s : Indexer) (ledger : ℕ) : Prop :=
  (∀ e ∈ log.events, indexable rt e = true → e.ledger < ledger → s.Knows e) ∧
    (ledger = 0 ∨ ∃ e ∈ log.events, ledger ≤ e.ledger)

/-- The cursor is not past an event that has not been indexed, and would not be after a start. -/
structure Safe (rt : Runtime) (log : ChainLog) (s : Indexer) : Prop where
  cursor : Covers rt log s s.lastIndexedLedger
  rows : ∀ row ∈ s.timelockEvents.entries, Covers rt log s row.2.ledgerSeq

variable {rt : Runtime} {contractId : String} {log : ChainLog} {s : Indexer} {turn : Turn} {event : RawSorobanEvent}

/-- What the turn of an event can do to the cursor, the tables and the events that are indexed. -/
lemma indexEvent_cases (rt : Runtime) (contractId : String) (s : Indexer) (turn : Turn) (event : RawSorobanEvent) :
    (indexable rt event = false ∧ malformed rt event = false ∧
      indexEvent rt contractId s turn event = (true, s.advance event.ledger)) ∨
    (malformed rt event = true ∧ indexEvent rt contractId s turn event = (true, s)) ∨
    (∃ rows, (rows = s.timelockEvents ∨ ∃ eventType pid,
        rows = upsertEvent rt s.timelockEvents eventType pid contractId event) ∧
      indexEvent rt contractId s turn event = (false, { s with timelockEvents := rows })) ∨
    (indexable rt event = true ∧ ∃ eventType pid proposals, indexEvent rt contractId s turn event =
      (true, Indexer.advance
        ⟨s.lastIndexedLedger, proposals, upsertEvent rt s.timelockEvents eventType pid contractId event,
          s.indexed ++ [(turn.now, event)]⟩ event.ledger)) := by
  rw [indexEvent, indexable, malformed]
  cases eventTypeOf rt event with
  | none => exact .inl ⟨rfl, rfl, rfl⟩
  | some eventType =>
    cases proposalIdOf rt event with
    | none => exact .inr (.inl ⟨rfl, rfl⟩)
    | some pid =>
      by_cases stored : turn.stored = true
      · simp only [stored, if_true]
        cases handleEvent rt contractId s.proposals turn eventType pid event with
        | none => exact .inr (.inr (.inl ⟨_, .inr ⟨eventType, pid, rfl⟩, rfl⟩))
        | some proposals => exact .inr (.inr (.inr ⟨rfl, eventType, pid, proposals, rfl⟩))
      · simp only [stored]
        exact .inr (.inr (.inl ⟨_, .inl rfl, rfl⟩))

/-- An upsert adds a row at the ledger of the event. -/
lemma mem_upsertEvent {events : TimelockEvents} {eventType : EventType} {pid : String}
    {row : (String × EventType × String) × TimelockEvent}
    (mem : row ∈ (upsertEvent rt events eventType pid contractId event).entries) :
    row.2.ledgerSeq = event.ledger ∨ row ∈ events.entries := by
  rw [upsertEvent] at mem
  split at mem
  case h_1 =>
    rcases Dict.mem_entries_set mem with rfl | ⟨old, -⟩
    · exact .inl rfl
    · exact .inr old
  case h_2 =>
    rcases Dict.mem_entries_set mem with rfl | ⟨old, -⟩
    · exact .inl rfl
    · exact .inr old

/-- An indexer that knows more covers as much. -/
lemma Covers.mono {s' : Indexer} {ledger : ℕ} (covers : Covers rt log s ledger)
    (knows : ∀ e, s.Knows e → s'.Knows e) : Covers rt log s' ledger :=
  ⟨fun e mem kind before => knows e (covers.1 e mem kind before), covers.2⟩

/-- What two ledgers cover, the higher one covers. -/
lemma Covers.max {m n : ℕ} (left : Covers rt log s m) (right : Covers rt log s n) : Covers rt log s (max m n) := by
  rcases le_total m n with le | le
  · rwa [max_eq_right le]
  · rwa [max_eq_left le]

/-- An event is known once it is indexed. -/
lemma Indexer.knows_snoc {indexed : List (ℤ × RawSorobanEvent)} {now : ℤ} {x : RawSorobanEvent} :
    x ∈ (indexed ++ [(now, event)]).map Prod.snd ↔ x ∈ indexed.map Prod.snd ∨ x = event := by
  rw [List.map_append, List.mem_append, List.map_singleton, List.mem_singleton]

/-- Indexing forgets no event. -/
lemma indexEvent_knows {x : RawSorobanEvent} (known : s.Knows x) :
    (indexEvent rt contractId s turn event).2.Knows x := by
  rcases indexEvent_cases rt contractId s turn event with ⟨-, -, result⟩ | ⟨-, result⟩ | ⟨rows, -, result⟩ |
    ⟨-, _, _, _, result⟩
  · rw [result]
    exact known
  · rw [result]
    exact known
  · rw [result]
    exact known
  · rw [result]
    exact Indexer.knows_snoc.2 (.inl known)

/-- What a turn that ends without an exception does. -/
lemma indexEvent_done (rt : Runtime) (contractId : String) (s : Indexer) (turn : Turn) (event : RawSorobanEvent)
    (done : (indexEvent rt contractId s turn event).1 = true) :
    (∀ x, (indexEvent rt contractId s turn event).2.Knows x ↔ s.Knows x ∨ x = event ∧ indexable rt x = true) ∧
    ∀ n, (indexEvent rt contractId s turn event).2.lastIndexedLedger ≤ n ↔
      s.lastIndexedLedger ≤ n ∧ (malformed rt event = false → event.ledger ≤ n) := by
  rcases indexEvent_cases rt contractId s turn event with ⟨other, fine, result⟩ | ⟨bad, result⟩ | ⟨rows, -, result⟩ |
    ⟨kind, _, _, _, result⟩
  · rw [result]
    refine ⟨fun x => ⟨.inl, ?_⟩, fun n => ?_⟩
    · rintro (known | ⟨rfl, kind⟩)
      · exact known
      · rw [other] at kind
        cases kind
    · rw [fine]
      exact max_le_iff.trans (and_congr_right' ⟨fun le _ => le, fun le => le rfl⟩)
  · have other : indexable rt event = false := by
      rw [malformed, Bool.and_eq_true_iff, Option.isNone_iff_eq_none] at bad
      rw [indexable, bad.2, Option.isSome_none, Bool.and_false]
    rw [result]
    refine ⟨fun x => ⟨.inl, ?_⟩, fun n => ?_⟩
    · rintro (known | ⟨rfl, kind⟩)
      · exact known
      · rw [other] at kind
        cases kind
    · rw [bad]
      exact ⟨fun le => ⟨le, (nomatch ·)⟩, fun both => both.1⟩
  · rw [result] at done
    cases done
  · have fine : malformed rt event = false := by
      rw [indexable, Bool.and_eq_true_iff] at kind
      rw [malformed, ← Option.not_isSome, kind.2, Bool.not_true, Bool.and_false]
    rw [result]
    refine ⟨fun x => Indexer.knows_snoc.trans (or_congr_right ⟨?_, fun same => same.1⟩), fun n => ?_⟩
    · rintro rfl
      exact ⟨rfl, kind⟩
    · rw [fine]
      exact max_le_iff.trans (and_congr_right' ⟨fun le _ => le, fun le => le rfl⟩)

/-- The turn of an event whose predecessors have been indexed keeps the cursor safe. -/
lemma indexEvent_safe (inv : Safe rt log s) (mem : event ∈ log.events)
    (before : ∀ x ∈ log.events, indexable rt x = true → x.ledger < event.ledger → s.Knows x) :
    Safe rt log (indexEvent rt contractId s turn event).2 := by
  have here : Covers rt log s event.ledger := ⟨before, .inr ⟨event, mem, le_rfl⟩⟩
  have knows : ∀ x, s.Knows x → (indexEvent rt contractId s turn event).2.Knows x := fun x => indexEvent_knows
  rcases indexEvent_cases rt contractId s turn event with ⟨-, -, result⟩ | ⟨-, result⟩ | ⟨rows, written, result⟩ |
    ⟨-, _, _, _, result⟩
  · rw [result] at knows ⊢
    exact ⟨(inv.cursor.max here).mono knows, fun row old => (inv.rows row old).mono knows⟩
  · rw [result]
    exact inv
  · rw [result] at knows ⊢
    refine ⟨inv.cursor.mono knows, fun row found => ?_⟩
    rcases written with rfl | ⟨_, _, rfl⟩
    · exact (inv.rows row found).mono knows
    · rcases mem_upsertEvent found with new | old
      · rw [new]
        exact here.mono knows
      · exact (inv.rows row old).mono knows
  · rw [result] at knows ⊢
    refine ⟨(inv.cursor.max here).mono knows, fun row found => ?_⟩
    rcases mem_upsertEvent found with new | old
    · rw [new]
      exact here.mono knows
    · exact (inv.rows row old).mono knows

/-- A poll of events whose predecessors have been indexed or come before them keeps the cursor safe. -/
lemma indexEvents_safe {events : List RawSorobanEvent} (turns : ℕ → Turn) (inv : Safe rt log s)
    (mem : ∀ e ∈ events, e ∈ log.events)
    (before : ∀ pre e post, events = pre ++ e :: post → ∀ x ∈ log.events, indexable rt x = true →
      x.ledger < e.ledger → s.Knows x ∨ x ∈ pre) :
    Safe rt log (indexEvents rt contractId s turns events).2 := by
  induction events generalizing s turns with
  | nil => exact inv
  | cons event events ih =>
    have next : Safe rt log (indexEvent rt contractId s (turns 0) event).2 := by
      apply indexEvent_safe inv (mem event List.mem_cons_self)
      intro x inside kind lt
      exact (before [] event events rfl x inside kind lt).resolve_right List.not_mem_nil
    have knows : ∀ x, s.Knows x → (indexEvent rt contractId s (turns 0) event).2.Knows x := fun x => indexEvent_knows
    have done := indexEvent_done rt contractId s (turns 0) event
    rw [indexEvents]
    split
    case h_1 s' turn =>
      rw [turn] at next knows done
      refine ih _ next (fun e later => mem e (List.mem_cons_of_mem _ later)) ?_
      intro pre e post split x inside kind lt
      rcases before (event :: pre) e post (by rw [split, List.cons_append]) x inside kind lt with known | found
      · exact .inl (knows x known)
      · rcases List.mem_cons.1 found with rfl | later
        · exact .inl (((done rfl).1 x).2 (.inr ⟨rfl, kind⟩))
        · exact .inr later
    case h_2 s' turn =>
      rw [turn] at next
      exact next

/-- What a poll that ends without an exception has indexed, and how far it has moved the cursor. -/
lemma indexEvents_done {events : List RawSorobanEvent} {turns : ℕ → Turn}
    (done : (indexEvents rt contractId s turns events).1 = true) :
    (∀ x, (indexEvents rt contractId s turns events).2.Knows x ↔ s.Knows x ∨ x ∈ events ∧ indexable rt x = true) ∧
    ∀ n, (indexEvents rt contractId s turns events).2.lastIndexedLedger ≤ n ↔
      s.lastIndexedLedger ≤ n ∧ ∀ e ∈ events, malformed rt e = false → e.ledger ≤ n := by
  induction events generalizing s turns with
  | nil => simp [indexEvents]
  | cons event events ih =>
    have first := indexEvent_done rt contractId s (turns 0) event
    rw [indexEvents] at done ⊢
    split at done
    case h_1 s' turn =>
      rw [turn] at first
      obtain ⟨knows, cursor⟩ := first rfl
      obtain ⟨knows', cursor'⟩ := ih done
      refine ⟨fun x => ?_, fun n => ?_⟩
      · rw [knows', knows, List.mem_cons, or_and_right, or_assoc]
      · rw [cursor', cursor, and_assoc, List.forall_mem_cons]
    case h_2 s' turn => cases done

/-- The events before one of a page have been indexed, or come before it in the page. -/
lemma before_page (inv : Safe rt log s) {pre post : List RawSorobanEvent} {e : RawSorobanEvent}
    (page : log.getEvents (max 1 s.lastIndexedLedger) = pre ++ e :: post) {x : RawSorobanEvent}
    (mem : x ∈ log.events) (kind : indexable rt x = true) (lt : x.ledger < e.ledger) : s.Knows x ∨ x ∈ pre := by
  by_cases old : x.ledger < max 1 s.lastIndexedLedger
  · have positive := log.positive x mem
    exact .inl (inv.cursor.1 x mem kind (by omega))
  · have whole : log.since (max 1 s.lastIndexedLedger) =
        pre ++ e :: (post ++ (log.since (max 1 s.lastIndexedLedger)).drop 200) := by
      rw [← List.cons_append, ← List.append_assoc, ← page, ChainLog.getEvents, List.take_append_drop]
    have sorted : (log.since (max 1 s.lastIndexedLedger)).Pairwise fun a b => a.ledger ≤ b.ledger :=
      log.sorted.filter _
    have inside : x ∈ log.since (max 1 s.lastIndexedLedger) :=
      List.mem_filter.2 ⟨mem, decide_eq_true (not_lt.1 old)⟩
    rw [whole] at sorted inside
    rcases List.mem_append.1 inside with earlier | later
    · exact .inr earlier
    · rcases List.mem_cons.1 later with rfl | after
      · exact absurd lt (lt_irrefl _)
      · have le := (List.pairwise_cons.1 (List.pairwise_append.1 sorted).2.1).1 x after
        exact absurd lt (not_lt.2 le)

/-- A poll leaves no event behind. -/
lemma poll_safe {n : Node} (inv : Safe rt n.log n.indexer) (turns : ℕ → Turn) (rpcFails : Bool) :
    Safe rt n.log (n.poll rt contractId turns rpcFails).2 := by
  rw [Node.poll, indexContractEvents]
  cases rpcFails with
  | true => exact inv
  | false =>
    apply indexEvents_safe turns inv
    · intro e mem
      exact List.mem_of_mem_filter (List.mem_of_mem_take mem)
    · intro pre e post page x mem kind lt
      exact before_page inv page mem kind lt

/-- A poll that ends without an exception and leaves the cursor where it was has indexed everything exactly when it
sees ahead. -/
lemma poll_complete_iff {n : Node} (inv : Safe rt n.log n.indexer) {turns : ℕ → Turn} {rpcFails : Bool}
    (done : (n.poll rt contractId turns rpcFails).1 = true) :
    ((n.poll rt contractId turns rpcFails).2.lastIndexedLedger = n.indexer.lastIndexedLedger →
      Complete rt n.log (n.poll rt contractId turns rpcFails).2) ↔ SeesAhead rt n := by
  cases rpcFails with
  | true => cases done
  | false =>
    obtain ⟨knows, cursor⟩ := indexEvents_done done
    have poll : n.poll rt contractId turns false = indexEvents rt contractId n.indexer turns
      (n.log.getEvents (max 1 n.indexer.lastIndexedLedger)) := rfl
    rw [poll, SeesAhead]
    have unmoved : (indexEvents rt contractId n.indexer turns
        (n.log.getEvents (max 1 n.indexer.lastIndexedLedger))).2.lastIndexedLedger = n.indexer.lastIndexedLedger ↔
        ∀ e ∈ n.log.getEvents (max 1 n.indexer.lastIndexedLedger), malformed rt e = false →
          e.ledger ≤ n.indexer.lastIndexedLedger := by
      have grows := ((cursor _).1 le_rfl).1
      refine ⟨fun same => ((cursor _).1 same.le).2, fun low => le_antisymm ((cursor _).2 ⟨le_rfl, low⟩) grows⟩
    rw [unmoved]
    constructor
    · intro progress
      by_cases low : ∀ e ∈ n.log.getEvents (max 1 n.indexer.lastIndexedLedger), malformed rt e = false →
          e.ledger ≤ n.indexer.lastIndexedLedger
      · refine .inr fun e after kind => ?_
        have mem : e ∈ n.log.events := List.mem_of_mem_filter (List.mem_of_mem_drop after)
        rcases (knows e).1 (progress low e mem kind) with known | ⟨inside, -⟩
        · exact .inl known
        · exact .inr inside
      · push Not at low
        exact .inl low
    · rintro (⟨e, inside, fine, later⟩ | rest) low
      · exact absurd (low e inside fine) (not_le.2 later)
      · intro e mem kind
        rw [knows]
        by_cases old : e.ledger < max 1 n.indexer.lastIndexedLedger
        · have positive := n.log.positive e mem
          exact .inl (inv.cursor.1 e mem kind (by omega))
        · have inside : e ∈ n.log.since (max 1 n.indexer.lastIndexedLedger) :=
            List.mem_filter.2 ⟨mem, decide_eq_true (not_lt.1 old)⟩
          rw [← List.take_append_drop 200 (n.log.since _), List.mem_append] at inside
          rcases inside with page | after
          · exact .inr ⟨page, kind⟩
          · exact (rest e after kind).imp_right fun page => ⟨page, kind⟩

/-- A new ledger lies ahead of the indexer. -/
lemma close_safe {log' : ChainLog} {events : List RawSorobanEvent} (inv : Safe rt log s)
    (closed : log.close events = some log') : Safe rt log' s := by
  rw [ChainLog.close] at closed
  split at closed
  case isTrue valid =>
    cases closed
    have grows (ledger : ℕ) (covers : Covers rt log s ledger) : Covers rt ⟨_, valid.1, valid.2⟩ s ledger := by
      refine ⟨fun e mem kind lt => ?_, ?_⟩
      · rcases List.mem_append.1 mem with old | new
        · exact covers.1 e old kind lt
        · -- a new event is not before a ledger that the log has reached
          rcases covers.2 with rfl | ⟨last, reached, le⟩
          · exact absurd lt (Nat.not_lt_zero _)
          · have le' := (List.pairwise_append.1 valid.1).2.2 last reached e new
            exact absurd lt (not_lt.2 (le.trans le'))
      · exact covers.2.imp_right fun ⟨e, mem, le⟩ => ⟨e, List.mem_append_left _ mem, le⟩
    exact ⟨grows _ inv.cursor, fun row mem => grows _ (inv.rows row mem)⟩
  case isFalse => cases closed

/-- A restart resumes from the table or from the ledger in memory. -/
lemma start_safe (inv : Safe rt log s) (newProcess : Bool) : Safe rt log (s.start newProcess) := by
  have none : Covers rt log s 0 := ⟨fun _ _ _ lt => absurd lt (Nat.not_lt_zero _), .inl rfl⟩
  rw [Indexer.start]
  cases rows : s.timelockEvents.entries with
  | nil =>
    cases newProcess with
    | true => exact ⟨none, inv.rows⟩
    | false => exact ⟨inv.cursor, inv.rows⟩
  | cons first rest =>
    refine ⟨?_, inv.rows⟩
    have all : ∀ row ∈ first :: rest, Covers rt log s row.2.ledgerSeq := rows ▸ inv.rows
    have last (m : ℕ) (covers : Covers rt log s m) (later : ∀ row ∈ rest, Covers rt log s row.2.ledgerSeq) :
        Covers rt log s (rest.foldl (fun n row => max n row.2.ledgerSeq) m) := by
      clear rows all
      induction rest generalizing m with
      | nil => exact covers
      | cons row rest ih =>
        exact ih _ (covers.max (later row List.mem_cons_self)) fun r mem => later r (List.mem_cons_of_mem _ mem)
    exact last _ (all first List.mem_cons_self) fun row mem => all row (List.mem_cons_of_mem _ mem)

/-- An expiry is recorded at the ledger given. -/
lemma mem_recordExpired {events : TimelockEvents} {proposal : TimelockedProposal} {gracePeriodMs now : ℤ} {ledger : ℕ}
    {row : (String × EventType × String) × TimelockEvent}
    (mem : row ∈ (recordExpired rt events proposal gracePeriodMs now ledger).entries) :
    row.2.ledgerSeq = ledger ∨ row ∈ events.entries := by
  rw [recordExpired] at mem
  split at mem
  case h_1 => exact .inr mem
  case h_2 =>
    rcases Dict.mem_entries_set mem with rfl | ⟨old, -⟩
    · exact .inl rfl
    · exact .inr old

/-- Recording an expiry leaves no event behind. -/
lemma expire_safe (inv : Safe rt log s) (proposal : TimelockedProposal) (gracePeriodMs now updatedAt : ℤ)
    (recorded : Bool) : Safe rt log (s.expire rt proposal gracePeriodMs now updatedAt recorded) := by
  refine ⟨inv.cursor, fun row mem => ?_⟩
  simp only [Indexer.expire] at mem
  split at mem
  case isTrue =>
    rcases mem_recordExpired mem with new | old
    · rw [new]
      exact inv.cursor
    · exact inv.rows row old
  case isFalse => exact inv.rows row mem

/-- Nothing that happens leaves an event behind. -/
lemma step_safe {n n' : Node} {h : Happening} (inv : Safe rt n.log n.indexer)
    (taken : n.step rt contractId h = some n') : Safe rt n'.log n'.indexer := by
  cases h with
  | close events =>
    obtain ⟨log, closed, rfl⟩ := Option.map_eq_some_iff.1 taken
    exact close_safe inv closed
  | poll turns rpcFails =>
    cases taken
    exact poll_safe inv turns rpcFails
  | write a =>
    cases a with
    | deliver _ _ => cases taken
    | expire proposal gracePeriodMs now updatedAt recorded =>
      cases taken
      exact expire_safe inv proposal gracePeriodMs now updatedAt recorded
    | notify _ _ =>
      cases taken
      exact ⟨inv.cursor, inv.rows⟩
    | execute _ _ _ =>
      cases taken
      exact ⟨inv.cursor, inv.rows⟩
  | start newProcess =>
    cases taken
    exact start_safe inv newProcess

/-- A service that has indexed nothing yet. -/
def Node.initial (log : ChainLog) (proposals : Proposals) : Node := ⟨log, ⟨0, proposals, Dict.empty, []⟩⟩

/-- In every state a run reaches, a poll that ends without an exception and leaves the cursor where it was has
indexed everything exactly when it sees ahead; and no poll, failing or not, leaves the cursor past an event that has
not been indexed. -/
theorem poll_progress_iff {log : ChainLog} {proposals : Proposals} {trace : List Happening} {n : Node}
    (run : Machine.exec (Node.step rt contractId) (Node.initial log proposals) trace = some n) (turns : ℕ → Turn)
    (rpcFails : Bool) :
    ((n.poll rt contractId turns rpcFails).1 = true →
      (((n.poll rt contractId turns rpcFails).2.lastIndexedLedger = n.indexer.lastIndexedLedger →
        Complete rt n.log (n.poll rt contractId turns rpcFails).2) ↔ SeesAhead rt n)) ∧
    ∀ e ∈ n.log.events, indexable rt e = true →
      e.ledger < (n.poll rt contractId turns rpcFails).2.lastIndexedLedger →
      (n.poll rt contractId turns rpcFails).2.Knows e := by
  have init : Safe rt log (Node.initial log proposals).indexer :=
    ⟨⟨fun _ _ _ lt => absurd lt (Nat.not_lt_zero _), .inl rfl⟩, fun _ mem => absurd mem List.not_mem_nil⟩
  have inv : Safe rt n.log n.indexer :=
    Machine.exec_invariant (I := fun n : Node => Safe rt n.log n.indexer) init (fun _ _ _ => step_safe) run
  exact ⟨poll_complete_iff inv, (poll_safe inv turns rpcFails).cursor.1⟩

def sampleLog : ChainLog := ⟨[sampleEvent], List.pairwise_singleton _ _, fun e mem => by
  rw [List.mem_singleton.1 mem]
  decide⟩

def sampleTurns : ℕ → Turn := fun _ => ⟨0, true, true⟩

/-- A poll that has indexed all its events, and is made again. -/
theorem poll_progress_sample :
    ∃ n, Machine.exec (Node.step sampleRuntime "c") (Node.initial sampleLog Dict.empty) [.poll sampleTurns false] =
        some n ∧
      (n.poll sampleRuntime "c" sampleTurns false).1 = true ∧
      (n.poll sampleRuntime "c" sampleTurns false).2.lastIndexedLedger = n.indexer.lastIndexedLedger ∧
      Complete sampleRuntime n.log (n.poll sampleRuntime "c" sampleTurns false).2 := by
  have run : Machine.exec (Node.step sampleRuntime "c") (Node.initial sampleLog Dict.empty)
      [.poll sampleTurns false] = some ⟨sampleLog, ((Node.initial sampleLog Dict.empty).poll sampleRuntime "c"
        sampleTurns false).2⟩ := rfl
  refine ⟨_, run, rfl, rfl, ?_⟩
  refine (((poll_progress_iff run sampleTurns false).1 rfl).2 (.inr ?_)) rfl
  exact fun e after => absurd after List.not_mem_nil

/-- An event of another kind. -/
def otherEvent : RawSorobanEvent := { sampleEvent with topic := .array [.string "Transfer"] }

/-- A ledger with 201 events, of which the last is a `ProposalQueued` event. -/
def crowdedLog : ChainLog where
  events := List.replicate 200 otherEvent ++ [sampleEvent]
  sorted := by
    refine List.pairwise_append.2 ⟨List.pairwise_replicate.2 (.inr le_rfl), List.pairwise_singleton _ _, ?_⟩
    intro a left b right
    rw [List.eq_of_mem_replicate left, List.mem_singleton.1 right]
    exact le_rfl
  positive := by
    intro e mem
    rcases List.mem_append.1 mem with left | right
    · rw [List.eq_of_mem_replicate left]
      decide
    · rw [List.mem_singleton.1 right]
      decide

/-- Events of another type are passed over. -/
lemma indexEvents_replicate_other (s : Indexer) (turns : ℕ → Turn) (n : ℕ) :
    indexEvents sampleRuntime "c" s turns (List.replicate (n + 1) otherEvent) = (true, s.advance 7) := by
  induction n generalizing s turns with
  | zero => rfl
  | succ n ih =>
    have first : indexEvent sampleRuntime "c" s (turns 0) otherEvent = (true, s.advance 7) := rfl
    rw [List.replicate_succ, indexEvents, first]
    simp only
    rw [ih, Indexer.advance, Indexer.advance, max_assoc, max_self]

/-- The cursor stays at the crowded ledger, and its last event is never indexed. -/
theorem poll_stalls :
    ∃ n, Machine.exec (Node.step sampleRuntime "c") (Node.initial crowdedLog Dict.empty) [.poll sampleTurns false] =
        some n ∧
      (n.poll sampleRuntime "c" sampleTurns false).1 = true ∧
      (n.poll sampleRuntime "c" sampleTurns false).2.lastIndexedLedger = n.indexer.lastIndexedLedger ∧
      sampleEvent ∈ n.log.events ∧ indexable sampleRuntime sampleEvent = true ∧
      ¬ (n.poll sampleRuntime "c" sampleTurns false).2.Knows sampleEvent := by
  have page (start : ℕ) (le : start ≤ 7) : crowdedLog.getEvents start = List.replicate 200 otherEvent := by
    have all : crowdedLog.since start = List.replicate 200 otherEvent ++ [sampleEvent] := by
      apply List.filter_eq_self.2
      intro e mem
      apply decide_eq_true
      rcases List.mem_append.1 mem with left | right
      · rw [List.eq_of_mem_replicate left]
        exact le
      · rw [List.mem_singleton.1 right]
        exact le
    rw [ChainLog.getEvents, all, List.take_left' List.length_replicate]
  have poll (s : Indexer) (low : s.lastIndexedLedger ≤ 7) :
      (Node.mk crowdedLog s).poll sampleRuntime "c" sampleTurns false = (true, s.advance 7) := by
    have result := indexEvents_replicate_other s sampleTurns 199
    rw [← page (max 1 s.lastIndexedLedger) (by omega)] at result
    exact result
  refine ⟨⟨crowdedLog, (Node.initial crowdedLog Dict.empty).indexer.advance 7⟩, ?_, ?_⟩
  · rw [Machine.exec_cons, Node.step, Node.initial, poll _ (by decide)]
    rfl
  · rw [poll _ (by decide)]
    refine ⟨rfl, rfl, List.mem_append_right _ List.mem_cons_self, rfl, ?_⟩
    exact List.not_mem_nil

end StellarFlow.Governance
