import StellarFlow.Governance.Indexing

/-!
# Overlapping ticks

`setInterval` starts a tick while an earlier one is waiting, so the tasks of `GovernanceTimelockService` run
interleaved. A task holds the rows its SELECT returned, and goes on with them after each answer of the database or
the network. The calls of `executeGovernanceProposal` are logged as they are made and answered. To submit a proposal is
to make this call; that the transaction is built, signed and sent later in the call is left out.

What a statement can do to a status is said once (`effect_status`): `Executed` is final, and `Expired` gives way only
to an indexed `TimelockActionExecuted` event. A row that is marked as expired is past the time at which its proposal
may be submitted, as long as the times of the proposals that tasks hold stay as they are.
-/

namespace StellarFlow.Governance

/-- The runtime, the contract of the ticks, and `defaultGracePeriodMs`. -/
structure Settings where
  rt : Runtime
  contractId : String
  gracePeriodMs : ℤ

/-- Where the loop of `checkAndExecute` stands: between two proposals, waiting for the network, or waiting for the
UPDATE after a transaction. -/
inductive Phase where
  | ready
  | calling (proposal : TimelockedProposal)
  | called (proposal : TimelockedProposal) (transactionHash : String)

/-- A run of `cleanExpiredProposals` or of `checkAndExecute`, with the rows that are still to come. -/
inductive Task where
  | cleaning (gracePeriodMs now : ℤ) (pending : List TimelockedProposal)
  | executing (pending : List TimelockedProposal) (phase : Phase)

/-- What happens to calls of `executeGovernanceProposal`; a call is logged with the status of its row. -/
inductive Call where
  | made (contractId proposalId : String) (status : Option Status)
  | succeeded (proposalId : String)
  | failed (proposalId : String)
  deriving DecidableEq

structure Service where
  clock : ℤ
  indexer : Indexer
  tasks : List Task
  calls : List Call

inductive Move where
  | wait (ms : ℕ)
  | index (turn : Turn) (event : RawSorobanEvent)
  | notify (proposalId : String)
  | clean (gracePeriodMs now : ℤ)
  | expire (i : ℕ) (updates recorded : Bool)
  | check (ledgerTimestamp now : ℤ)
  | next (i : ℕ)
  | settle (i : ℕ) (transactionHash : Option String)
  | update (i : ℕ) (updates : Bool)

/-- The status and the times of every proposal. -/
def Service.table (s : Service) : String → Option Lifecycle := lifecycles s.indexer.proposals

/-- The SELECT of `cleanExpiredProposals`. -/
def Service.expiredProposals (s : Service) (gracePeriodMs now : ℤ) : List TimelockedProposal :=
  (s.indexer.proposals.selectQueued fun expiresAt => expiresAt < now - gracePeriodMs).take 100

/-- The SELECT of `checkAndExecute`. -/
def Service.dueProposals (cfg : Settings) (s : Service) (ledgerTimestamp now : ℤ) : List TimelockedProposal :=
  s.indexer.proposals.selectQueued fun expiresAt => expiresAt ≤ ledgerTimestamp && expiresAt ≥ now - cfg.gracePeriodMs

/-- One move: time passes, the turn of an event, a SELECT that starts a task (with the clock it read before), an
UPDATE, or a call and its answer. -/
def Service.step (cfg : Settings) (s : Service) : Move → Option Service
  | .wait ms => some { s with clock := s.clock + ms }
  | .index turn event => some { s with indexer := act cfg.rt cfg.contractId s.indexer (.deliver turn event) }
  | .notify pid => some { s with indexer := act cfg.rt cfg.contractId s.indexer (.notify pid s.clock) }
  | .clean gracePeriodMs now =>
    if now ≤ s.clock then
      some { s with tasks := s.tasks ++ [.cleaning gracePeriodMs now (s.expiredProposals gracePeriodMs now)] }
    else none
  | .expire i updates recorded =>
    match s.tasks[i]? with
    | some (.cleaning gracePeriodMs now (p :: pending)) =>
      some { s with
        tasks := s.tasks.set i (.cleaning gracePeriodMs now pending)
        indexer :=
          if updates then
            act cfg.rt cfg.contractId s.indexer (.expire p gracePeriodMs now s.clock recorded)
          else s.indexer }
    | _ => none
  | .check ledgerTimestamp now =>
    if now ≤ s.clock then
      some { s with tasks := s.tasks ++ [.executing (s.dueProposals cfg ledgerTimestamp now) .ready] }
    else none
  | .next i =>
    match s.tasks[i]? with
    | some (.executing (p :: pending) .ready) =>
      if s.clock > p.expiresAt + cfg.gracePeriodMs then
        some { s with tasks := s.tasks.set i (.executing pending .ready) }
      else
        let contractId := if p.contractId ≠ "" then p.contractId else cfg.contractId
        some { s with
          tasks := s.tasks.set i (.executing pending (.calling p))
          calls := s.calls ++ [.made contractId p.proposalId ((s.table p.proposalId).map Lifecycle.status)] }
    | _ => none
  | .settle i transactionHash =>
    match s.tasks[i]? with
    | some (.executing pending (.calling p)) =>
      match transactionHash with
      | some hash =>
        some { s with
          tasks := s.tasks.set i (.executing pending (.called p hash))
          calls := s.calls ++ [.succeeded p.proposalId] }
      | none =>
        some { s with
          tasks := s.tasks.set i (.executing pending .ready)
          calls := s.calls ++ [.failed p.proposalId] }
    | _ => none
  | .update i updates =>
    match s.tasks[i]? with
    | some (.executing pending (.called p hash)) =>
      some { s with
        tasks := s.tasks.set i (.executing pending .ready)
        indexer :=
          if updates then act cfg.rt cfg.contractId s.indexer (.execute p.proposalId hash s.clock)
          else s.indexer }
    | _ => none

/-- A service without tasks. -/
def Service.initial (clock : ℤ) (indexer : Indexer) : Service := ⟨clock, indexer, [], []⟩

variable {cfg : Settings} {s s' : Service} {m : Move}

/-- The moves of the service, case by case. -/
inductive Step (cfg : Settings) (s : Service) : Move → Service → Prop where
  | wait (ms : ℕ) : Step cfg s (.wait ms) { s with clock := s.clock + ms }
  | index (turn : Turn) (event : RawSorobanEvent) :
    Step cfg s (.index turn event) { s with indexer := act cfg.rt cfg.contractId s.indexer (.deliver turn event) }
  | notify (pid : String) :
    Step cfg s (.notify pid) { s with indexer := act cfg.rt cfg.contractId s.indexer (.notify pid s.clock) }
  | clean {g now : ℤ} (past : now ≤ s.clock) :
    Step cfg s (.clean g now) { s with tasks := s.tasks ++ [.cleaning g now (s.expiredProposals g now)] }
  | expire {i : ℕ} {g now : ℤ} {p : TimelockedProposal} {pending : List TimelockedProposal} {recorded : Bool}
    (task : s.tasks[i]? = some (.cleaning g now (p :: pending))) :
    Step cfg s (.expire i true recorded) { s with
      tasks := s.tasks.set i (.cleaning g now pending)
      indexer := act cfg.rt cfg.contractId s.indexer (.expire p g now s.clock recorded) }
  | expireFails {i : ℕ} {g now : ℤ} {p : TimelockedProposal} {pending : List TimelockedProposal} {recorded : Bool}
    (task : s.tasks[i]? = some (.cleaning g now (p :: pending))) :
    Step cfg s (.expire i false recorded) { s with tasks := s.tasks.set i (.cleaning g now pending) }
  | check {ledgerTimestamp now : ℤ} (past : now ≤ s.clock) :
    Step cfg s (.check ledgerTimestamp now) { s with
      tasks := s.tasks ++ [.executing (s.dueProposals cfg ledgerTimestamp now) .ready] }
  | skip {i : ℕ} {p : TimelockedProposal} {pending : List TimelockedProposal}
    (task : s.tasks[i]? = some (.executing (p :: pending) .ready)) :
    Step cfg s (.next i) { s with tasks := s.tasks.set i (.executing pending .ready) }
  | call {i : ℕ} {p : TimelockedProposal} {pending : List TimelockedProposal} {contractId : String}
    (task : s.tasks[i]? = some (.executing (p :: pending) .ready))
    (inTime : s.clock ≤ p.expiresAt + cfg.gracePeriodMs) :
    Step cfg s (.next i) { s with
      tasks := s.tasks.set i (.executing pending (.calling p))
      calls := s.calls ++ [.made contractId p.proposalId ((s.table p.proposalId).map Lifecycle.status)] }
  | succeed {i : ℕ} {p : TimelockedProposal} {pending : List TimelockedProposal} {hash : String}
    (task : s.tasks[i]? = some (.executing pending (.calling p))) :
    Step cfg s (.settle i (some hash)) { s with
      tasks := s.tasks.set i (.executing pending (.called p hash))
      calls := s.calls ++ [.succeeded p.proposalId] }
  | fail {i : ℕ} {p : TimelockedProposal} {pending : List TimelockedProposal}
    (task : s.tasks[i]? = some (.executing pending (.calling p))) :
    Step cfg s (.settle i none) { s with
      tasks := s.tasks.set i (.executing pending .ready)
      calls := s.calls ++ [.failed p.proposalId] }
  | update {i : ℕ} {p : TimelockedProposal} {pending : List TimelockedProposal} {hash : String}
    (task : s.tasks[i]? = some (.executing pending (.called p hash))) :
    Step cfg s (.update i true) { s with
      tasks := s.tasks.set i (.executing pending .ready)
      indexer := act cfg.rt cfg.contractId s.indexer (.execute p.proposalId hash s.clock) }
  | updateFails {i : ℕ} {p : TimelockedProposal} {pending : List TimelockedProposal} {hash : String}
    (task : s.tasks[i]? = some (.executing pending (.called p hash))) :
    Step cfg s (.update i false) { s with tasks := s.tasks.set i (.executing pending .ready) }

/-- Each step of the model is one of those named. -/
lemma Service.step_cases (taken : s.step cfg m = some s') : Step cfg s m s' := by
  cases m with
  | wait ms =>
    cases taken
    exact .wait ms
  | index turn event =>
    cases taken
    exact .index turn event
  | notify pid =>
    cases taken
    exact .notify pid
  | clean g now =>
    rw [Service.step] at taken
    split at taken
    case isTrue past =>
      cases taken
      exact .clean past
    case isFalse => cases taken
  | expire i updates recorded =>
    rw [Service.step] at taken
    split at taken
    case h_1 task =>
      cases taken
      cases updates with
      | true => exact .expire task
      | false => exact .expireFails task
    case h_2 => cases taken
  | check ledgerTimestamp now =>
    rw [Service.step] at taken
    split at taken
    case isTrue past =>
      cases taken
      exact .check past
    case isFalse => cases taken
  | next i =>
    rw [Service.step] at taken
    split at taken
    case h_1 task =>
      split at taken
      case isTrue =>
        cases taken
        exact .skip task
      case isFalse inTime =>
        cases taken
        exact .call task (not_lt.1 inTime)
    case h_2 => cases taken
  | settle i transactionHash =>
    rw [Service.step] at taken
    split at taken
    case h_1 task =>
      cases transactionHash with
      | some hash =>
        cases taken
        exact .succeed task
      | none =>
        cases taken
        exact .fail task
    case h_2 => cases taken
  | update i updates =>
    rw [Service.step] at taken
    split at taken
    case h_1 task =>
      cases taken
      cases updates with
      | true => exact .update task
      | false => exact .updateFails task
    case h_2 => cases taken

/-- The event is a `TimelockActionExecuted` event of the proposal. -/
def executes (rt : Runtime) (pid : String) (event : RawSorobanEvent) : Bool :=
  eventTypeOf rt event = some .timelockActionExecuted && proposalIdOf rt event = some pid

/-- No event says that an execution has expired. -/
lemma eventTypeOf_ne_expired (rt : Runtime) (event : RawSorobanEvent) :
    eventTypeOf rt event ≠ some .proposalExecutionExpired := by
  rw [eventTypeOf]
  split
  case h_1 => exact (nomatch ·)
  case h_2 => exact (nomatch ·)
  case h_3 => exact (nomatch ·)

/-- Of a proposal, an event that completes either queues it or executes it. -/
lemma executes_of_completes {rt : Runtime} {turn : Turn} {event : RawSorobanEvent} {pid : String}
    (id : proposalIdOf rt event = some pid) (kind : eventTypeOf rt event ≠ some .proposalQueued)
    (done : completes rt turn event = true) : executes rt pid event = true := by
  rw [executes, Bool.and_eq_true_iff, decide_eq_true_eq, decide_eq_true_eq]
  refine ⟨?_, id⟩
  rw [completes] at done
  cases type : eventTypeOf rt event with
  | none =>
    rw [type] at done
    cases done
  | some eventType =>
    cases eventType with
    | proposalQueued => exact absurd type kind
    | timelockActionExecuted => rfl
    | proposalExecutionExpired => exact absurd type (eventTypeOf_ne_expired rt event)

/-- A conditional UPDATE of the status, as seen in one row. -/
lemma update_status {table : String → Option Lifecycle} {x : String} {l : Lifecycle} (pid : String)
    (f : Lifecycle → Lifecycle) (found : table x = some l) :
    ∃ l', Function.update table pid ((table pid).map f) x = some l' ∧ (l' = l ∨ x = pid ∧ l' = f l) := by
  by_cases same : x = pid
  · subst same
    rw [Function.update_self, found]
    exact ⟨f l, rfl, .inr ⟨rfl, rfl⟩⟩
  · rw [Function.update_of_ne same]
    exact ⟨l, found, .inl rfl⟩

/-- What an action can do to the status of a proposal. -/
lemma effect_status (rt : Runtime) {table : String → Option Lifecycle} {x : String} {l : Lifecycle} (a : Action)
    (found : table x = some l) :
    ∃ l', a.effect rt table x = some l' ∧
      (l'.status = l.status ∨
        l'.status = .executed ∧
          (l.status = .queued ∨ ∃ turn event, a = .deliver turn event ∧ executes rt x event = true) ∨
        l'.status = .expired ∧ l.status = .queued ∧ ∃ p g now updatedAt recorded,
          a = .expire p g now updatedAt recorded ∧ p.proposalId = x) := by
  cases a with
  | deliver turn event =>
    rw [Action.effect]
    rcases deliverEffect_cases rt turn event table with ⟨pid, e, q, -, -, -, -, effect⟩ |
      ⟨pid, id, kind, done, -, effect⟩ | ⟨-, effect⟩
    · rw [effect]
      by_cases same : x = pid
      · subst same
        rw [Function.update_self, found]
        exact ⟨_, rfl, .inl rfl⟩
      · rw [Function.update_of_ne same]
        exact ⟨l, found, .inl rfl⟩
    · rw [effect]
      obtain ⟨l', after, rfl | ⟨same, rfl⟩⟩ := update_status pid (fun old =>
        { old with status := .executed, executedAt := some turn.now }) found
      · exact ⟨l', after, .inl rfl⟩
      · exact ⟨_, after, .inr (.inl ⟨rfl, .inr ⟨turn, event, rfl, same ▸ executes_of_completes id kind done⟩⟩)⟩
    · rw [effect]
      exact ⟨l, found, .inl rfl⟩
  | expire p g now updatedAt recorded =>
    obtain ⟨l', after, rfl | ⟨same, rfl⟩⟩ := update_status p.proposalId (fun old =>
      if old.status = .queued then { old with status := .expired } else old) found
    · exact ⟨l', after, .inl rfl⟩
    · refine ⟨_, after, ?_⟩
      split
      case isTrue queued => exact .inr (.inr ⟨rfl, queued, p, g, now, updatedAt, recorded, rfl, same.symm⟩)
      case isFalse => exact .inl rfl
  | notify pid now => exact ⟨l, found, .inl rfl⟩
  | execute pid hash now =>
    obtain ⟨l', after, rfl | ⟨same, rfl⟩⟩ := update_status pid (fun old =>
      if old.status = .queued then { old with status := .executed, executedAt := some now } else old) found
    · exact ⟨l', after, .inl rfl⟩
    · refine ⟨_, after, ?_⟩
      split
      case isTrue queued => exact .inr (.inl ⟨rfl, .inl queued⟩)
      case isFalse => exact .inl rfl

/-- A move changes the tables by at most one action. -/
lemma step_action (taken : s.step cfg m = some s') :
    s'.table = s.table ∨ ∃ a : Action, s'.table = a.effect cfg.rt s.table ∧
      ∀ turn event, a = .deliver turn event → m = .index turn event := by
  have acted (a : Action) : lifecycles (act cfg.rt cfg.contractId s.indexer a).proposals = a.effect cfg.rt s.table :=
    lifecycles_act cfg.rt cfg.contractId s.indexer a
  cases Service.step_cases taken with
  | wait => exact .inl rfl
  | index turn event => exact .inr ⟨_, acted _, fun _ _ same => by cases same; rfl⟩
  | notify => exact .inr ⟨_, acted _, fun _ _ => (nomatch ·)⟩
  | clean => exact .inl rfl
  | expire => exact .inr ⟨_, acted _, fun _ _ => (nomatch ·)⟩
  | expireFails => exact .inl rfl
  | check => exact .inl rfl
  | skip => exact .inl rfl
  | call => exact .inl rfl
  | succeed => exact .inl rfl
  | fail => exact .inl rfl
  | update => exact .inr ⟨_, acted _, fun _ _ => (nomatch ·)⟩
  | updateFails => exact .inl rfl

/-- The status of a proposal changes from `Queued` only, or to `Executed` by an event. -/
lemma step_status (taken : s.step cfg m = some s') {x : String} {l : Lifecycle} (found : s.table x = some l) :
    ∃ l', s'.table x = some l' ∧
      (l'.status = l.status ∨ l.status = .queued ∨
        l'.status = .executed ∧ ∃ turn event, m = .index turn event ∧ executes cfg.rt x event = true) := by
  rcases step_action taken with same | ⟨a, effect, index⟩
  · rw [same]
    exact ⟨l, found, .inl rfl⟩
  · obtain ⟨l', after, same | ⟨executed, queued | ⟨turn, event, deliver, event'⟩⟩ | ⟨-, queued, -⟩⟩ :=
      effect_status cfg.rt a found
    · exact ⟨l', effect ▸ after, .inl same⟩
    · exact ⟨l', effect ▸ after, .inr (.inl queued)⟩
    · exact ⟨l', effect ▸ after, .inr (.inr ⟨executed, turn, event, index turn event deliver, event'⟩)⟩
    · exact ⟨l', effect ▸ after, .inr (.inl queued)⟩

/-- `Executed` is final, and `Expired` gives way only to an event that says that the proposal was executed. -/
lemma exec_status {trace : List Move} (run : Machine.exec (Service.step cfg) s trace = some s') {x : String}
    {l : Lifecycle} (found : s.table x = some l) :
    ∃ l', s'.table x = some l' ∧ (l.status = .executed → l'.status = .executed) ∧
      (l.status = .expired → l'.status = .expired ∨ l'.status = .executed ∧
        ∃ turn event, .index turn event ∈ trace ∧ executes cfg.rt x event = true) := by
  induction trace generalizing s l with
  | nil =>
    cases run
    exact ⟨l, found, id, .inl⟩
  | cons m trace ih =>
    rw [Machine.exec_cons, Option.bind_eq_some_iff] at run
    obtain ⟨u, taken, run⟩ := run
    obtain ⟨k, between, change⟩ := step_status taken found
    obtain ⟨l', after, executed, expired⟩ := ih run between
    refine ⟨l', after, fun was => ?_, fun was => ?_⟩
    · rcases change with same | queued | ⟨now, -⟩
      · exact executed (same.trans was)
      · rw [was] at queued
        cases queued
      · exact executed now
    · rcases change with same | queued | ⟨now, turn, event, index, event'⟩
      · refine (expired (same.trans was)).imp_right ?_
        rintro ⟨now, turn, event, mem, event'⟩
        exact ⟨now, turn, event, List.mem_cons_of_mem _ mem, event'⟩
      · rw [was] at queued
        cases queued
      · exact .inr ⟨executed now, turn, event, index ▸ List.mem_cons_self, event'⟩

/-- The proposals that a task still has to treat. -/
def Task.pending : Task → List TimelockedProposal
  | .cleaning _ _ pending => pending
  | .executing pending _ => pending

def Task.isCleaning : Task → Bool
  | .cleaning _ _ _ => true
  | .executing _ _ => false

/-- No task still has to treat the proposal. -/
def Service.Free (s : Service) (pid : String) : Prop := ∀ t ∈ s.tasks, ∀ p ∈ t.pending, p.proposalId ≠ pid

/-- Proposals are cleaned up with the grace period of the service or a longer one, and an event that is indexed gives
no other expiry to a proposal that a task still has to treat. -/
def Undisturbed (cfg : Settings) (s : Service) : Move → Prop
  | .clean gracePeriodMs _ => cfg.gracePeriodMs ≤ gracePeriodMs
  | .index turn event => ∀ pid l dates, queues cfg.rt pid event = true → completes cfg.rt turn event = true →
      s.table pid = some l → datesOf cfg.rt event turn.now = some dates → dates.1 = l.expiresAt ∨ s.Free pid
  | _ => True

/-- The rows of a task have the expiry that it read. Those that it cleans up are past their grace period, and of
those that it executes the expired ones are. -/
def Task.Timely (cfg : Settings) (s : Service) (t : Task) : Prop :=
  ∀ p ∈ t.pending, ∃ l, s.table p.proposalId = some l ∧ l.expiresAt = p.expiresAt ∧
    (t.isCleaning = true ∨ l.status = .expired → p.expiresAt + cfg.gracePeriodMs < s.clock)

/-- The tasks are timely, and no call was made for a proposal that had expired. -/
structure Punctual (cfg : Settings) (s : Service) : Prop where
  tasks : ∀ t ∈ s.tasks, t.Timely cfg s
  calls : ∀ contractId pid status, .made contractId pid status ∈ s.calls → status ≠ some .expired

/-- A task stays timely when the rows it has to treat keep their expiry and expire in time only. -/
lemma Task.Timely.mono {t : Task} (timely : t.Timely cfg s) (later : s.clock ≤ s'.clock)
    (rows : ∀ p ∈ t.pending, ∀ l, s.table p.proposalId = some l → l.expiresAt = p.expiresAt →
      ∃ l', s'.table p.proposalId = some l' ∧ l'.expiresAt = l.expiresAt ∧
        (l'.status = .expired → l.status = .expired ∨ p.expiresAt + cfg.gracePeriodMs < s'.clock)) :
    t.Timely cfg s' := by
  intro p mem
  obtain ⟨l, found, expires, past⟩ := timely p mem
  obtain ⟨l', after, same, expired⟩ := rows p mem l found expires
  refine ⟨l', after, same.trans expires, ?_⟩
  rintro (cleaning | now)
  · exact lt_of_lt_of_le (past (.inl cleaning)) later
  · rcases expired now with was | past'
    · exact lt_of_lt_of_le (past (.inr was)) later
    · exact past'

/-- A task stays timely while the table does not change. -/
lemma Task.Timely.same_table {t : Task} (timely : t.Timely cfg s) (later : s.clock ≤ s'.clock)
    (table : s'.table = s.table) : t.Timely cfg s' :=
  timely.mono later fun _ _ l found _ => ⟨l, table ▸ found, rfl, .inl⟩

/-- What remains of a timely task is timely. -/
lemma Task.Timely.rest {t t' : Task} (timely : t.Timely cfg s) (kind : t'.isCleaning = t.isCleaning)
    (sub : ∀ p ∈ t'.pending, p ∈ t.pending) : t'.Timely cfg s := by
  intro p mem
  rw [kind]
  exact timely p (sub p mem)

/-- An UPDATE keeps a task timely; one that expires a proposal has to do so in time. -/
lemma Task.Timely.updated {t : Task} {a : Action} (timely : t.Timely cfg s) (clock : s'.clock = s.clock)
    (table : s'.table = a.effect cfg.rt s.table) (other : ∀ turn event, a ≠ .deliver turn event)
    (past : ∀ p g now updatedAt recorded, a = .expire p g now updatedAt recorded →
      ∃ l, s.table p.proposalId = some l ∧ l.expiresAt + cfg.gracePeriodMs < s.clock) : t.Timely cfg s' := by
  refine timely.mono clock.ge fun x _ l found expires => ?_
  obtain ⟨l', after, same, -⟩ := effect_keeps_times cfg.rt found
    fun turn event deliver => absurd deliver (other turn event)
  obtain ⟨k, after', change⟩ := effect_status cfg.rt a found
  obtain rfl : k = l' := Option.some.inj (after'.symm.trans after)
  refine ⟨k, table ▸ after, same, fun expired => ?_⟩
  rcases change with kept | ⟨executed, -⟩ | ⟨-, -, p, g, now, updatedAt, recorded, expire, id⟩
  · exact .inl (kept.symm.trans expired)
  · rw [executed] at expired
    cases expired
  · obtain ⟨row, found', late⟩ := past p g now updatedAt recorded expire
    rw [id, found] at found'
    cases found'
    rw [clock, ← expires]
    exact .inr late

/-- Indexing an event that gives no other expiry keeps a row. -/
lemma deliver_row {turn : Turn} {event : RawSorobanEvent} {x : String} {l : Lifecycle} (found : s.table x = some l)
    (undisturbed : ∀ dates, queues cfg.rt x event = true → completes cfg.rt turn event = true →
      datesOf cfg.rt event turn.now = some dates → dates.1 = l.expiresAt) :
    ∃ l', deliverEffect cfg.rt turn event s.table x = some l' ∧ l'.expiresAt = l.expiresAt ∧
      (l'.status = .expired → l.status = .expired) := by
  rcases deliverEffect_cases cfg.rt turn event s.table with ⟨pid, e, q, queued, done, -, dates, effect⟩ |
    ⟨pid, -, -, -, -, effect⟩ | ⟨-, effect⟩
  · rw [effect]
    by_cases same : x = pid
    · subst same
      rw [Function.update_self, found]
      exact ⟨_, rfl, undisturbed _ queued done dates, id⟩
    · rw [Function.update_of_ne same]
      exact ⟨l, found, rfl, id⟩
  · rw [effect]
    obtain ⟨l', after, rfl | ⟨-, rfl⟩⟩ := update_status pid (fun old =>
      { old with status := .executed, executedAt := some turn.now }) found
    · exact ⟨l', after, rfl, id⟩
    · exact ⟨_, after, rfl, (nomatch ·)⟩
  · rw [effect]
    exact ⟨l, found, rfl, id⟩

/-- The SELECT of `cleanExpiredProposals` returns rows that are past their grace period. -/
lemma timely_cleaning {g now : ℤ} (past : now ≤ s.clock) (longer : cfg.gracePeriodMs ≤ g) :
    Task.Timely cfg s (.cleaning g now (s.expiredProposals g now)) := by
  intro p selected
  obtain ⟨row, found, -, expires, window⟩ := mem_selectQueued (List.mem_of_mem_take selected)
  refine ⟨row.lifecycle, congrArg (Option.map _) found, expires, fun _ => ?_⟩
  have early : row.expiresAt < now - g := of_decide_eq_true window
  omega

/-- The SELECT of `checkAndExecute` returns queued rows. -/
lemma timely_executing (ledgerTimestamp now : ℤ) :
    Task.Timely cfg s (.executing (s.dueProposals cfg ledgerTimestamp now) .ready) := by
  intro p selected
  change p ∈ s.dueProposals cfg ledgerTimestamp now at selected
  rw [Service.dueProposals] at selected
  obtain ⟨row, found, queued, expires, -⟩ := mem_selectQueued selected
  refine ⟨row.lifecycle, congrArg (Option.map _) found, expires, ?_⟩
  rintro (cleaning | expired)
  · cases cleaning
  · rw [GovernanceProposal.lifecycle, queued] at expired
    cases expired

/-- A timely task starts. -/
lemma Punctual.started (inv : Punctual cfg s) {t : Task} (timely : t.Timely cfg s) :
    Punctual cfg { s with tasks := s.tasks ++ [t] } := by
  refine ⟨fun u mem => ?_, inv.calls⟩
  rcases List.mem_append.1 mem with old | new
  · exact inv.tasks u old
  · exact List.mem_singleton.1 new ▸ timely

/-- The tasks stay timely when one of them goes on with a part of its rows. -/
lemma Punctual.goes_on (inv : Punctual cfg s) {i : ℕ} {t t' u : Task} (task : s.tasks[i]? = some t)
    (kind : t'.isCleaning = t.isCleaning) (sub : ∀ p ∈ t'.pending, p ∈ t.pending) (mem : u ∈ s.tasks.set i t') :
    u.Timely cfg s :=
  Machine.forall_set task inv.tasks (fun timely => timely.rest kind sub) mem

/-- No call for an expired proposal is made when none of the added calls is one. -/
lemma Punctual.calls_append (inv : Punctual cfg s) {call : Call}
    (new : ∀ contractId pid status, call = .made contractId pid status → status ≠ some .expired)
    (contractId pid : String) (status : Option Status) (mem : .made contractId pid status ∈ s.calls ++ [call]) :
    status ≠ some .expired := by
  rcases List.mem_append.1 mem with old | last
  · exact inv.calls contractId pid status old
  · exact new contractId pid status (List.mem_singleton.1 last).symm

/-- A proposal that is within its grace period has not expired. -/
lemma Task.Timely.not_expired {t : Task} {p : TimelockedProposal} (timely : t.Timely cfg s) (mem : p ∈ t.pending)
    (inTime : s.clock ≤ p.expiresAt + cfg.gracePeriodMs) :
    (s.table p.proposalId).map Lifecycle.status ≠ some .expired := by
  obtain ⟨l, found, -, past⟩ := timely p mem
  rw [found]
  intro expired
  exact absurd (past (.inr (Option.some.inj expired))) (not_lt.2 inTime)

/-- A step that disturbs nothing keeps the tasks timely and the calls unexpired. -/
lemma punctual_step (inv : Punctual cfg s) (undisturbed : Undisturbed cfg s m) (taken : s.step cfg m = some s') :
    Punctual cfg s' := by
  cases Service.step_cases taken with
  | wait ms =>
    refine ⟨fun t mem => (inv.tasks t mem).same_table ?_ rfl, inv.calls⟩
    exact le_add_of_nonneg_right (Int.natCast_nonneg ms)
  | index turn event =>
    refine ⟨fun t mem => (inv.tasks t mem).mono le_rfl fun p pending l found _ => ?_, inv.calls⟩
    have kept : ∀ dates, queues cfg.rt p.proposalId event = true → completes cfg.rt turn event = true →
        datesOf cfg.rt event turn.now = some dates → dates.1 = l.expiresAt := by
      intro dates queued done given
      exact (undisturbed p.proposalId l dates queued done found given).resolve_right
        fun free => free t mem p pending rfl
    obtain ⟨l', after, expires, expired⟩ := deliver_row found kept
    refine ⟨l', ?_, expires, fun now => .inl (expired now)⟩
    rw [← after]
    exact congrFun (lifecycles_act cfg.rt cfg.contractId s.indexer (.deliver turn event)) p.proposalId
  | notify pid =>
    refine ⟨fun t mem => (inv.tasks t mem).same_table le_rfl ?_, inv.calls⟩
    exact lifecycles_act cfg.rt cfg.contractId s.indexer (.notify pid s.clock)
  | clean past => exact inv.started (timely_cleaning past undisturbed)
  | @expire i g now p pending recorded task =>
    have cleaned := inv.tasks _ (List.mem_of_getElem? task)
    obtain ⟨k, found, expires, past⟩ := cleaned p List.mem_cons_self
    have rest : ∀ t ∈ s.tasks.set i (.cleaning g now pending), t.Timely cfg s :=
      fun t => inv.goes_on task rfl fun x later => List.mem_cons_of_mem _ later
    refine ⟨fun t mem => (rest t mem).updated (a := .expire p g now s.clock recorded) rfl ?_
      (fun _ _ same => by cases same) ?_, inv.calls⟩
    · exact lifecycles_act cfg.rt cfg.contractId s.indexer _
    · intro _ _ _ _ _ same
      cases same
      exact ⟨k, found, expires ▸ past (.inl rfl)⟩
  | expireFails task =>
    exact ⟨fun t => inv.goes_on task rfl fun p later => List.mem_cons_of_mem _ later, inv.calls⟩
  | check => exact inv.started (timely_executing _ _)
  | skip task =>
    exact ⟨fun t => inv.goes_on task rfl fun p later => List.mem_cons_of_mem _ later, inv.calls⟩
  | @call i p pending contractId task inTime =>
    refine ⟨fun t => inv.goes_on task rfl fun p later => List.mem_cons_of_mem _ later, inv.calls_append ?_⟩
    intro contractId pid status made
    cases made
    exact (inv.tasks _ (List.mem_of_getElem? task)).not_expired List.mem_cons_self inTime
  | succeed task =>
    refine ⟨fun t => inv.goes_on task rfl fun p later => later, inv.calls_append ?_⟩
    intro contractId pid status made
    cases made
  | fail task =>
    refine ⟨fun t => inv.goes_on task rfl fun p later => later, inv.calls_append ?_⟩
    intro contractId pid status made
    cases made
  | @update i p pending hash task =>
    have rest : ∀ t ∈ s.tasks.set i (.executing pending .ready), t.Timely cfg s :=
      fun t => inv.goes_on task rfl fun x later => later
    refine ⟨fun t mem => (rest t mem).updated (a := .execute p.proposalId hash s.clock) rfl ?_
      (fun _ _ same => by cases same) (fun _ _ _ _ _ same => by cases same), inv.calls⟩
    exact lifecycles_act cfg.rt cfg.contractId s.indexer _
  | updateFails task => exact ⟨fun t => inv.goes_on task rfl fun p later => later, inv.calls⟩

/-- `Executed` is final, and `Expired` gives way only to an indexed `TimelockActionExecuted` event of the proposal. In
an undisturbed run `executeGovernanceProposal` is not called for a proposal that had expired; its transaction is sent
later in the call. -/
theorem statuses_final {clock : ℤ} {indexer : Indexer} {before after : List Move}
    (first : Machine.exec (Service.step cfg) (Service.initial clock indexer) before = some s)
    (run : Machine.exec (Service.step cfg) s after = some s') :
    (∀ pid l, s.table pid = some l → ∃ l', s'.table pid = some l' ∧
      (l.status = .executed → l'.status = .executed) ∧
      (l.status = .expired → l'.status = .expired ∨ l'.status = .executed ∧
        ∃ turn event, .index turn event ∈ after ∧ executes cfg.rt pid event = true)) ∧
    (Machine.Guarded (Service.step cfg) (Undisturbed cfg) (Service.initial clock indexer) (before ++ after) →
      ∀ contractId pid status, .made contractId pid status ∈ s'.calls → status ≠ some .expired) := by
  refine ⟨fun pid l found => exec_status run found, fun undisturbed => ?_⟩
  have init : Punctual cfg (Service.initial clock indexer) :=
    ⟨fun _ mem => absurd mem List.not_mem_nil, fun _ _ _ mem => absurd mem List.not_mem_nil⟩
  have whole : Machine.exec (Service.step cfg) (Service.initial clock indexer) (before ++ after) = some s' := by
    rw [Machine.exec_append, first]
    exact run
  have inv := Machine.always_of_guarded init (fun _ _ _ inv met taken => punctual_step inv met taken) undisturbed
  exact (inv _ s' (List.prefix_refl _) whole).calls

/-- A proposal with the expiry 0 and a grace period of 10. -/
def sampleSettings : Settings := ⟨sampleRuntime, "c", 10⟩

def sampleTable : Proposals := ⟨[("p", ⟨"c", .queued, 0, none, none, none, none, 0, none, 0⟩)], by decide⟩

def sampleService (clock : ℤ) : Service := Service.initial clock ⟨0, sampleTable, Dict.empty, []⟩

/-- A `TimelockActionExecuted` event of the proposal. -/
def executedEvent : RawSorobanEvent :=
  { sampleEvent with topic := .array [.string "TimelockActionExecuted", .string "p"] }

/-- A task that was going to clean the table, while another one submits the proposal in time. -/
theorem statuses_final_sample :
    ∃ s s', Machine.exec (Service.step sampleSettings) (sampleService 5) [.clean 10 5, .check 5 5, .next 1] = some s ∧
      Machine.exec (Service.step sampleSettings) s [.settle 1 (some "tx")] = some s' ∧
      (∃ l, s'.table "p" = some l) ∧
      ∀ contractId pid status, .made contractId pid status ∈ s'.calls → status ≠ some .expired := by
  have both : ((Machine.exec (Service.step sampleSettings) (sampleService 5) [.clean 10 5, .check 5 5, .next 1]).bind
      fun s => Machine.exec (Service.step sampleSettings) s [.settle 1 (some "tx")]).isSome = true := by decide +kernel
  obtain ⟨s', both⟩ := Option.isSome_iff_exists.1 both
  obtain ⟨s, first, run⟩ := Option.bind_eq_some_iff.1 both
  obtain ⟨statuses, submitted⟩ := statuses_final first run
  have row : (Machine.exec (Service.step sampleSettings) (sampleService 5) [.clean 10 5, .check 5 5, .next 1]).any
      (fun s => (s.table "p").isSome) = true := by decide +kernel
  rw [first] at row
  obtain ⟨l, found⟩ := Option.isSome_iff_exists.1 row
  obtain ⟨l', found', -⟩ := statuses "p" l found
  refine ⟨s, s', first, run, ⟨l', found'⟩, submitted ?_⟩
  refine Machine.guarded_cons.2 ⟨show (10 : ℤ) ≤ 10 from le_rfl, fun _ _ => ?_⟩
  refine Machine.guarded_cons.2 ⟨trivial, fun _ _ => ?_⟩
  refine Machine.guarded_cons.2 ⟨trivial, fun _ _ => ?_⟩
  exact Machine.guarded_cons.2 ⟨trivial, fun _ _ => Machine.guarded_nil⟩

/-- An expired proposal becomes executed when the chain says so; and one that is cleaned up with a shorter grace period
is submitted after it has expired. -/
theorem statuses_not_final :
    let status := fun (trace : List Move) =>
      (Machine.exec (Service.step sampleSettings) (sampleService 100) trace).bind fun s =>
        (s.table "p").map Lifecycle.status
    status [.clean 10 100, .expire 0 true true] = some .expired ∧
      status [.clean 10 100, .expire 0 true true, .index ⟨100, true, true⟩ executedEvent] = some .executed ∧
      (Machine.exec (Service.step sampleSettings) (sampleService 5)
        [.check 5 5, .clean 2 5, .expire 1 true true, .next 0]).map Service.calls =
        some [.made "c" "p" (some .expired)] := by
  decide +kernel

end StellarFlow.Governance
