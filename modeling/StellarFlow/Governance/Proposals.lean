import StellarFlow.Lib.Dict
import StellarFlow.Lib.JavaScript

/-!
# Governance proposals and their events

Model of the event readers and of the statements on the tables `GovernanceProposal` and `TimelockEvent` in
`src/services/governanceTimelockService.ts`. Proposals are kept by `proposalId`; it is unique, as the row's `id` is,
and neither changes. Times are milliseconds. A function that reads the clock takes the time as an argument.

No statement removes a row or makes it `Queued` again, and only an indexed event changes the status of a row that is
not `Queued`.
-/

namespace StellarFlow.Governance
open Js

/-- What `xdr.ScVal.fromXDR` gives, by the names of the arms that `decodeScVal` knows. -/
inductive ScVal where
  | text (s : String)
  | integer (s : String)
  | map (entries : List (Value × Value))
  | other

/-- The library functions: `ScVal.fromXDR(_, "base64")` (`none` if it throws), `String`, `JSON.stringify`, `Number`
of a text, the date of a text, and `toISOString`. -/
structure Runtime where
  fromXdr : String → Option ScVal
  text : Value → String
  stringify : Value → String
  number : String → Number
  date : String → Date
  iso : ℤ → String

/-- An event as `getEvents` returns it. -/
structure RawSorobanEvent where
  ledger : ℕ
  ledgerClosedAt : Option String
  contractId : Option String
  txHash : Option String
  topic : Value
  value : Value

/-- `decodeScVal`. The keys and values of a map are objects of the library, which it returns as they are; of equal
keys the last counts. -/
def decodeScVal (rt : Runtime) (raw : Value) : Value :=
  match raw with
  | .string s =>
    match rt.fromXdr s with
    | some (.text value) => .string value
    | some (.integer value) => .string value
    | some (.map entries) => .object (entries.map fun e => (rt.text e.1, e.2)).reverse
    | some .other => raw
    | none => raw
  | _ => raw

/-- A decoded value that is a text. -/
def decodeText (rt : Runtime) (raw : Value) : Option String :=
  match decodeScVal rt raw with
  | .string s => some s
  | _ => none

/-- `extractEventName`. -/
def extractEventName (rt : Runtime) (topic : Value) : Option String :=
  match topic with
  | .array items => decodeText rt (items.headD .undefined)
  | .string _ => decodeText rt topic
  | _ => none

/-- The proposal id of the value payload. -/
def payloadProposalId (rt : Runtime) (value : Value) : Option String :=
  let decoded := decodeScVal rt value
  if decoded.isObject then
    match ((decoded.property "proposalId").coalesce (decoded.property "proposal_id")).coalesce
        (decoded.property "id") with
    | .string pid => some pid
    | _ => none
  else none

/-- `extractProposalId`. -/
def extractProposalId (rt : Runtime) (topic value : Value) : Option String :=
  match topic with
  | .array (_ :: second :: _) =>
    match decodeText rt second with
    | some pid => if pid ≠ "" then some pid else payloadProposalId rt value
    | none => payloadProposalId rt value
  | _ => payloadProposalId rt value

/-- `new Date(num < 1e12 ? num * 1000 : num)`. -/
def dateOfTimestamp : Number → Date
  | .finite x => dateOf (.finite (if x < 1000000000000 then x * 1000 else x))
  | x => dateOf x

/-- `extractExpiresAt`; `none` is `null`. -/
def extractExpiresAt (rt : Runtime) (value : Value) : Option Date :=
  let decoded := decodeScVal rt value
  if decoded.isObject then
    let raw := ((((decoded.property "expiresAt").coalesce (decoded.property "expires_at")).coalesce
      (decoded.property "eta")).coalesce (decoded.property "executeAfter")).coalesce
      (decoded.property "execute_after")
    if raw.truthy then
      match raw with
      | .string s =>
        match rt.number s with
        | .nan => (rt.date s).map some
        | num => some (dateOfTimestamp num)
      | .number num => some (dateOfTimestamp num)
      | _ => none
    else none
  else none

inductive EventType where
  | proposalQueued
  | timelockActionExecuted
  | proposalExecutionExpired
  deriving DecidableEq

/-- The event names that are indexed. -/
def eventTypeOf (rt : Runtime) (event : RawSorobanEvent) : Option EventType :=
  match extractEventName rt event.topic with
  | some "ProposalQueued" => some .proposalQueued
  | some "TimelockActionExecuted" => some .timelockActionExecuted
  | _ => none

/-- The proposal id of an event, unless there is none or it is empty. -/
def proposalIdOf (rt : Runtime) (event : RawSorobanEvent) : Option String :=
  (extractProposalId rt event.topic event.value).filter (· ≠ "")

inductive Status where
  | queued
  | executed
  | expired
  | cancelled
  deriving DecidableEq

/-- A row of `GovernanceProposal`. -/
structure GovernanceProposal where
  contractId : String
  status : Status
  expiresAt : ℤ
  queuedAt : Option ℤ
  executedAt : Option ℤ
  transactionHash : Option String
  timelockActionSource : Option String
  notificationCount : ℕ
  executionReadyNotifiedAt : Option ℤ
  updatedAt : ℤ

/-- The table `GovernanceProposal` by `proposalId`. -/
abbrev Proposals := Dict String GovernanceProposal

/-- A row of `TimelockEvent`. -/
structure TimelockEvent where
  contractId : String
  ledgerSeq : ℕ
  topics : String
  value : String

/-- The table `TimelockEvent` by `txHash`, `eventType` and `proposalId`. -/
abbrev TimelockEvents := Dict (String × EventType × String) TimelockEvent

/-- What the SELECTs return of a row. -/
structure TimelockedProposal where
  proposalId : String
  contractId : String
  expiresAt : ℤ

/-- The queued rows whose `expiresAt` meets a condition, ordered by it. -/
def Proposals.selectQueued (table : Proposals) (window : ℤ → Bool) : List TimelockedProposal :=
  let rows := table.entries.filter fun e => e.2.status = .queued && window e.2.expiresAt
  (rows.map fun e => ⟨e.1, e.2.contractId, e.2.expiresAt⟩).mergeSort fun a b => a.expiresAt ≤ b.expiresAt

/-- `UPDATE … SET … WHERE "id" = … AND …`. -/
def Proposals.update (table : Proposals) (proposalId : String) (matching : GovernanceProposal → Bool)
    (change : GovernanceProposal → GovernanceProposal) : Proposals :=
  match table.get? proposalId with
  | some row => if matching row then table.set proposalId (change row) else table
  | none => table

/-- `effectiveExpiresAt`: the expiry of the payload, or 24 hours from now. -/
def effectiveExpiresAt (rt : Runtime) (event : RawSorobanEvent) (now : ℤ) : Date :=
  (extractExpiresAt rt event.value).getD (some (now + 24 * 60 * 60 * 1000))

/-- The close time of the event's ledger, or now. -/
def ledgerClosedAt (rt : Runtime) (event : RawSorobanEvent) (now : ℤ) : Date :=
  match event.ledgerClosedAt with
  | some s => if s ≠ "" then rt.date s else some now
  | none => some now

/-- The row after the upsert of `handleProposalQueued`: `create` or `update`. -/
def upsertedRow (contractId txHash : String) (expiresAt queuedAt now : ℤ) :
    Option GovernanceProposal → GovernanceProposal
  | none =>
    { contractId
      status := .queued
      expiresAt
      queuedAt := some queuedAt
      executedAt := none
      transactionHash := none
      timelockActionSource := some txHash
      notificationCount := 0
      executionReadyNotifiedAt := none
      updatedAt := now }
  | some row =>
    { row with
      queuedAt := some queuedAt
      timelockActionSource := some txHash
      expiresAt
      updatedAt := now }

/-- `handleProposalQueued`; the upsert throws when one of the dates is invalid. -/
def handleProposalQueued (rt : Runtime) (table : Proposals) (proposalId contractId : String)
    (event : RawSorobanEvent) (txHash : String) (now : ℤ) : Option Proposals :=
  match effectiveExpiresAt rt event now, ledgerClosedAt rt event now with
  | some expiresAt, some queuedAt =>
    some (table.set proposalId (upsertedRow contractId txHash expiresAt queuedAt now (table.get? proposalId)))
  | _, _ => none

/-- `handleTimelockActionExecuted`; a missing row is logged only. -/
def handleTimelockActionExecuted (table : Proposals) (proposalId : String) (now : ℤ) : Proposals :=
  table.update proposalId (fun _ => true) fun row =>
    { row with status := .executed, executedAt := some now, updatedAt := now }

/-- The UPDATE of `cleanExpiredProposals`. -/
def expireProposal (table : Proposals) (proposalId : String) (now : ℤ) : Proposals :=
  table.update proposalId (·.status = .queued) fun row => { row with status := .expired, updatedAt := now }

/-- The UPDATE of `notifyReadyProposals`. -/
def notifyProposal (table : Proposals) (proposalId : String) (now : ℤ) : Proposals :=
  table.update proposalId (fun _ => true) fun row =>
    { row with
      notificationCount := row.notificationCount + 1
      executionReadyNotifiedAt := some now
      updatedAt := now }

/-- The UPDATE of `checkAndExecute`. -/
def executeProposal (table : Proposals) (proposalId transactionHash : String) (now : ℤ) : Proposals :=
  table.update proposalId (·.status = .queued) fun row =>
    { row with
      status := .executed
      transactionHash := some transactionHash
      executedAt := some now
      updatedAt := now }

/-- The row that `cleanExpiredProposals` writes to `TimelockEvent`; an existing one stays. -/
def recordExpired (rt : Runtime) (events : TimelockEvents) (proposal : TimelockedProposal) (gracePeriodMs now : ℤ)
    (lastIndexedLedger : ℕ) : TimelockEvents :=
  let key := (s!"expired-{proposal.proposalId}-{now}", EventType.proposalExecutionExpired, proposal.proposalId)
  match events.get? key with
  | some _ => events
  | none => events.set key
      { contractId := proposal.contractId
        ledgerSeq := lastIndexedLedger
        topics := rt.stringify (.array [.string "ProposalExecutionExpired", .string proposal.proposalId])
        value := rt.stringify (.object
          [("proposalId", .string proposal.proposalId), ("contractId", .string proposal.contractId),
            ("expiresAt", .string (rt.iso proposal.expiresAt)), ("gracePeriodMs", .number (.finite gracePeriodMs)),
            ("expiredAt", .string (rt.iso now))]) }

/-- The upsert of an event; a row that exists gets the ledger only. -/
def upsertEvent (rt : Runtime) (events : TimelockEvents) (eventType : EventType) (proposalId contractId : String)
    (event : RawSorobanEvent) : TimelockEvents :=
  let key := (event.txHash.getD "", eventType, proposalId)
  match events.get? key with
  | some row => events.set key { row with ledgerSeq := event.ledger }
  | none => events.set key
      { contractId
        ledgerSeq := event.ledger
        topics := rt.stringify event.topic.orNull
        value := rt.stringify event.value.orNull }

/-- An update changes the row of one proposal, where it matches. -/
lemma get?_update (table : Proposals) (pid x : String) (matching : GovernanceProposal → Bool)
    (change : GovernanceProposal → GovernanceProposal) :
    (table.update pid matching change).get? x =
      (table.get? x).map fun row => if x = pid ∧ matching row then change row else row := by
  rw [Proposals.update]
  cases found : table.get? pid with
  | none =>
    by_cases same : x = pid
    · simp [same, found]
    · simp [same]
  | some row =>
    by_cases met : matching row = true
    · simp only [met, if_true]
      rw [Dict.get?_set]
      by_cases same : x = pid
      · simp [same, found, met]
      · simp [same]
    · simp only [met, Bool.false_eq_true, if_false]
      by_cases same : x = pid
      · simp [same, found, met]
      · simp [same]

/-- What is selected is queued, in the window. -/
lemma mem_selectQueued {table : Proposals} {window : ℤ → Bool} {proposal : TimelockedProposal}
    (mem : proposal ∈ table.selectQueued window) :
    ∃ row, table.get? proposal.proposalId = some row ∧ row.status = .queued ∧ row.expiresAt = proposal.expiresAt ∧
      window row.expiresAt = true := by
  rw [Proposals.selectQueued, List.mem_mergeSort, List.mem_map] at mem
  obtain ⟨e, found, rfl⟩ := mem
  obtain ⟨inside, met⟩ := List.mem_filter.1 found
  obtain ⟨queued, met⟩ := Bool.and_eq_true_iff.1 met
  exact ⟨e.2, Dict.lookup_of_mem table.nodup inside, of_decide_eq_true queued, rfl, met⟩

/-- A SELECT returns a proposal once. -/
lemma nodup_selectQueued (table : Proposals) (window : ℤ → Bool) :
    ((table.selectQueued window).map TimelockedProposal.proposalId).Nodup := by
  rw [Proposals.selectQueued, ((List.mergeSort_perm _ _).map _).nodup_iff, List.map_map]
  exact table.nodup.sublist (List.filter_sublist.map Prod.fst)

end StellarFlow.Governance
