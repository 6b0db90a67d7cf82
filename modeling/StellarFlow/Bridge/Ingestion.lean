import StellarFlow.Bridge.Events
import StellarFlow.Bridge.Listener

/-!
# Recording of bridge logs

Model of what `startWorker` in `src/services/bridgeEventListener.ts` does to the `BridgeEvent` table: it takes a packet,
inserts a row, and goes on to the next packet when anything throws. What comes after the insert changes the `status` of
a row and no other column that is modelled here; the status it leaves is part of a delivery.

`transactionHash` alone is unique in `prisma/schema.prisma`, and a `Decimal(38, 18)` column holds integers below 10²⁰.
So each log has a row exactly where no transaction has two logs and all amounts fit.
-/

namespace StellarFlow.Bridge

/-- A row with the columns that say which log it is of. -/
structure RecordedEvent extends BridgeEvent where
  blockNumber : Option ℕ
  logIndex : Option ℕ
  toAddress : Option String
  eventTimestamp : ℤ
  deriving DecidableEq

/-- The columns of the log fit: `Decimal(38, 18)`, `Int` and `BigInt`. -/
def BridgeEventData.fits (eventData : BridgeEventData) : Bool :=
  eventData.tokenAmount < 10 ^ 20 && eventData.logIndex < 2 ^ 31 && eventData.blockNumber < 2 ^ 63

/-- The row that is inserted, with the status that the worker leaves. -/
def BridgeEventData.row (eventData : BridgeEventData) (tokenAmount : ℚ) (status : EventStatus) : RecordedEvent where
  chainId := eventData.chainId
  eventType := eventData.eventType
  transactionHash := eventData.transactionHash
  blockNumber := some eventData.blockNumber
  logIndex := some eventData.logIndex
  tokenAmount := tokenAmount
  fromAddress := eventData.fromAddress
  toAddress := some eventData.toAddress
  destinationChainId := some eventData.destinationChainId
  destinationAddress := some eventData.destinationAddress
  eventTimestamp := eventData.eventTimestamp
  status := status

/-- `prisma.bridgeEvent.create`; it throws for a transaction that has a row, and for what does not fit a column. -/
def createEvent (rows : List RecordedEvent) (eventData : BridgeEventData) (status : EventStatus) :
    Option (List RecordedEvent) :=
  if rows.any fun row => row.transactionHash = eventData.transactionHash then none
  else if eventData.logIndex < 2 ^ 31 && eventData.blockNumber < 2 ^ 63 then
    (decimalColumn eventData.tokenAmount).map fun tokenAmount => rows ++ [eventData.row tokenAmount status]
  else none

/-- One packet of the worker loop, which goes on when the insert throws. -/
def workPacket (rows : List RecordedEvent) (delivery : BridgeEventData × EventStatus) : List RecordedEvent :=
  (createEvent rows delivery.1 delivery.2).getD rows

/-- The table after the worker has drained the queue. -/
def drained (deliveries : List (BridgeEventData × EventStatus)) : List RecordedEvent := deliveries.foldl workPacket []

/-- Which log event data is of. -/
def BridgeEventData.key (eventData : BridgeEventData) : String × Option ℕ :=
  (eventData.transactionHash, some eventData.logIndex)

def RecordedEvent.key (row : RecordedEvent) : String × Option ℕ := (row.transactionHash, row.logIndex)

/-- Packets of recognised logs, delivered any number of times; a pair of transaction and index is that of one log. -/
structure Deliveries (ethersId : String → String) where
  packets : List (BridgeEventData × EventStatus)
  parsed : ∀ d ∈ packets, ∃ log chain timestamp, parseLog ethersId log chain timestamp = some d.1
  identified : ∀ a ∈ packets, ∀ b ∈ packets, a.1.key = b.1.key → a.1 = b.1

/-- There is exactly one row for each pair of transaction and index that was delivered, with the data of the log, and
no other row. -/
def Recorded (packets : List (BridgeEventData × EventStatus)) (rows : List RecordedEvent) : Prop :=
  (∀ d ∈ packets, ∃ row, (rows.filter fun row => row.key = d.1.key) = [row] ∧
    row.eventType = d.1.eventType ∧ row.tokenAmount = d.1.tokenAmount ∧ row.fromAddress = d.1.fromAddress ∧
    row.toAddress = some d.1.toAddress ∧ row.destinationAddress = some d.1.destinationAddress) ∧
  ∀ row ∈ rows, ∃ d ∈ packets, d.1.key = row.key

variable {ethersId : String → String} {history : History} {a b : Log}

/-- What is parsed has the hash and the index of its log. -/
lemma parseLog_key {log : Log} {chain : ChainConfig} {timestamp : Option ℤ} {eventData : BridgeEventData}
    (parsed : parseLog ethersId log chain timestamp = some eventData) :
    eventData.transactionHash = log.transactionHash ∧ eventData.logIndex = log.index := by
  obtain ⟨_, -, parsed⟩ := Option.bind_eq_some_iff.1 parsed
  obtain ⟨_, -, parsed⟩ := Option.bind_eq_some_iff.1 parsed
  obtain ⟨_, -, rfl⟩ := Option.map_eq_some_iff.1 parsed
  exact ⟨rfl, rfl⟩

/-- A log of a chain is identified by its transaction and its index. -/
lemma History.eq_of_key (memA : a ∈ history.logs) (memB : b ∈ history.logs)
    (transaction : a.transactionHash = b.transactionHash) (index : a.index = b.index) : a = b := by
  have block := history.grouped a memA b memB transaction
  obtain ⟨i, ltI, rfl⟩ := List.getElem_of_mem memA
  obtain ⟨j, ltJ, rfl⟩ := List.getElem_of_mem memB
  have ordered := List.pairwise_iff_getElem.1 history.ordered
  rcases lt_trichotomy i j with lt | rfl | lt
  · have := ordered i j ltI ltJ lt
    omega
  · rfl
  · have := ordered j i ltJ ltI lt
    omega

/-- The packets of logs of one chain, however often and in whatever order they are delivered. -/
def Deliveries.ofHistory (ethersId : String → String) (history : History) (chain : ChainConfig)
    (getBlock : Log → Option ℤ) (logs : List (Log × EventStatus)) (polled : ∀ e ∈ logs, e.1 ∈ history.logs) :
    Deliveries ethersId where
  packets := logs.filterMap fun e => (parseLog ethersId e.1 chain (getBlock e.1)).map fun eventData => (eventData, e.2)
  parsed := by
    intro d mem
    obtain ⟨e, -, found⟩ := List.mem_filterMap.1 mem
    obtain ⟨eventData, parsed, rfl⟩ := Option.map_eq_some_iff.1 found
    exact ⟨e.1, chain, getBlock e.1, parsed⟩
  identified := by
    intro d mem d' mem' same
    obtain ⟨e, le, found⟩ := List.mem_filterMap.1 mem
    obtain ⟨e', le', found'⟩ := List.mem_filterMap.1 mem'
    obtain ⟨eventData, parsed, rfl⟩ := Option.map_eq_some_iff.1 found
    obtain ⟨eventData', parsed', rfl⟩ := Option.map_eq_some_iff.1 found'
    obtain ⟨transaction, index⟩ := parseLog_key parsed
    obtain ⟨transaction', index'⟩ := parseLog_key parsed'
    have key := Prod.mk.inj same
    have log : e.1 = e'.1 := by
      refine History.eq_of_key (polled e le) (polled e' le') ?_ ?_
      · rw [← transaction, ← transaction', key.1]
      · rw [← index, ← index', Option.some.inj key.2]
    rw [log, parsed'] at parsed
    exact (Option.some.inj parsed).symm

/-- The column takes the whole amounts below 10^20, as they are. -/
lemma decimalColumn_natCast (amount : ℕ) :
    decimalColumn amount = if amount < 10 ^ 20 then some (amount : ℚ) else none := by
  have same : |(amount : ℚ)| < 10 ^ 20 ↔ amount < 10 ^ 20 := by
    rw [abs_of_nonneg (Nat.cast_nonneg amount)]
    exact_mod_cast Iff.rfl
  rw [decimalColumn]
  exact if_congr same rfl rfl

/-- An insert appends the row, for a new transaction whose columns fit. -/
lemma createEvent_eq_some {rows rows' : List RecordedEvent} {eventData : BridgeEventData} {status : EventStatus} :
    createEvent rows eventData status = some rows' ↔
      (∀ row ∈ rows, row.transactionHash ≠ eventData.transactionHash) ∧ eventData.fits = true ∧
        rows' = rows ++ [eventData.row eventData.tokenAmount status] := by
  rw [createEvent, decimalColumn_natCast, BridgeEventData.fits]
  by_cases taken : (rows.any fun row => row.transactionHash = eventData.transactionHash) = true
  · rw [if_pos taken]
    obtain ⟨row, mem, same⟩ := List.any_eq_true.1 taken
    exact ⟨fun eq => (by cases eq), fun new => absurd (of_decide_eq_true same) (new.1 row mem)⟩
  · have new : ∀ row ∈ rows, row.transactionHash ≠ eventData.transactionHash := fun row mem same =>
      taken (List.any_eq_true.2 ⟨row, mem, decide_eq_true same⟩)
    rw [if_neg taken]
    simp only [Bool.and_eq_true, decide_eq_true_eq, and_assoc]
    by_cases small : eventData.tokenAmount < 10 ^ 20
    · by_cases columns : eventData.logIndex < 2 ^ 31 ∧ eventData.blockNumber < 2 ^ 63
      · rw [if_pos columns, if_pos small, Option.map_some, Option.some.injEq]
        exact ⟨fun eq => ⟨new, small, columns.1, columns.2, eq.symm⟩, fun facts => facts.2.2.2.2.symm⟩
      · rw [if_neg columns]
        exact ⟨fun eq => (by cases eq), fun facts => absurd ⟨facts.2.2.1, facts.2.2.2.1⟩ columns⟩
    · rw [if_neg small, Option.map_none, ite_self]
      exact ⟨fun eq => (by cases eq), fun facts => absurd facts.2.1 small⟩

/-- What the table holds: rows of packets that fit, with different transactions, and a row for each transaction of
such a packet. -/
structure Drains (packets : List (BridgeEventData × EventStatus)) (rows : List RecordedEvent) : Prop where
  sound : ∀ row ∈ rows, ∃ d ∈ packets, d.1.fits = true ∧ row = d.1.row d.1.tokenAmount d.2
  distinct : (rows.map fun row => row.transactionHash).Nodup
  complete : ∀ d ∈ packets, d.1.fits = true → ∃ row ∈ rows, row.transactionHash = d.1.transactionHash

/-- Draining takes the packets one after the other. -/
lemma drains_drained (packets : List (BridgeEventData × EventStatus)) : Drains packets (drained packets) := by
  induction packets using List.reverseRecOn with
  | nil => exact ⟨fun row mem => absurd mem List.not_mem_nil, List.nodup_nil, fun d mem => absurd mem List.not_mem_nil⟩
  | append_singleton packets d ih =>
    rw [drained, List.foldl_append, ← drained, List.foldl_cons, List.foldl_nil]
    generalize drained packets = rows at ih ⊢
    have sound : ∀ row ∈ rows, ∃ d' ∈ packets ++ [d], d'.1.fits = true ∧ row = d'.1.row d'.1.tokenAmount d'.2 :=
      fun row mem => (ih.sound row mem).imp fun d' facts => ⟨List.mem_append_left _ facts.1, facts.2⟩
    rw [workPacket]
    cases created : createEvent rows d.1 d.2 with
    | none =>
      refine ⟨sound, ih.distinct, fun d' mem fits => ?_⟩
      rcases List.mem_append.1 mem with old | last
      · exact ih.complete d' old fits
      · -- the insert has failed although the columns fit, so the transaction has a row
        obtain rfl := List.mem_singleton.1 last
        by_contra free
        have new : ∀ row ∈ rows, row.transactionHash ≠ d'.1.transactionHash := fun row mem same => free ⟨row, mem, same⟩
        rw [createEvent_eq_some.2 ⟨new, fits, rfl⟩] at created
        cases created
    | some rows' =>
      obtain ⟨new, fits, rfl⟩ := createEvent_eq_some.1 created
      refine ⟨?_, ?_, fun d' mem fits' => ?_⟩
      · refine List.forall_mem_append.2 ⟨sound, List.forall_mem_singleton.2 ?_⟩
        exact ⟨d, List.mem_append_right _ List.mem_cons_self, fits, rfl⟩
      · rw [Option.getD_some, List.map_append, List.map_singleton]
        rw [← List.concat_eq_append]
        refine List.Nodup.concat (fun mem => ?_) ih.distinct
        obtain ⟨row, old, same⟩ := List.mem_map.1 mem
        exact new row old same
      · rcases List.mem_append.1 mem with old | last
        · obtain ⟨row, mem', same⟩ := ih.complete d' old fits'
          exact ⟨row, List.mem_append_left _ mem', same⟩
        · rw [List.mem_singleton.1 last]
          exact ⟨_, List.mem_append_right _ List.mem_cons_self, rfl⟩

/-- The rows with the key of one of them are that one, where the keys differ. -/
lemma filter_key {rows : List RecordedEvent} (distinct : (rows.map fun row => row.transactionHash).Nodup)
    {row : RecordedEvent} (mem : row ∈ rows) : (rows.filter fun row' => row'.key = row.key) = [row] := by
  induction rows with
  | nil => cases mem
  | cons head rows ih =>
    obtain ⟨new, distinct⟩ := List.nodup_cons.1 distinct
    rcases List.mem_cons.1 mem with rfl | mem
    · have rest : (rows.filter fun row' => row'.key = row.key) = [] := by
        refine List.filter_eq_nil_iff.2 fun row' mem' same => new (List.mem_map.2 ⟨row', mem', ?_⟩)
        exact (Prod.mk.inj (of_decide_eq_true same)).1
      rw [List.filter_cons, if_pos (decide_eq_true rfl), rest]
    · have other : ¬decide (head.key = row.key) = true := fun same =>
        new (List.mem_map.2 ⟨row, mem, (Prod.mk.inj (of_decide_eq_true same)).1.symm⟩)
      rw [List.filter_cons, if_neg other, ih distinct mem]

/-- Each log has its row if and only if no transaction has logs of different indices, and all columns fit. -/
theorem recorded_iff (deliveries : Deliveries ethersId) :
    Recorded deliveries.packets (drained deliveries.packets) ↔
      (∀ d ∈ deliveries.packets, ∀ d' ∈ deliveries.packets,
        d.1.transactionHash = d'.1.transactionHash → d.1.logIndex = d'.1.logIndex) ∧
      ∀ d ∈ deliveries.packets, d.1.fits = true := by
  obtain ⟨sound, distinct, complete⟩ := drains_drained deliveries.packets
  have key_row : ∀ d : BridgeEventData × EventStatus, (d.1.row d.1.tokenAmount d.2).key = d.1.key := fun _ => rfl
  constructor
  · rintro ⟨recorded, -⟩
    have row_of : ∀ d ∈ deliveries.packets, ∃ row ∈ drained deliveries.packets, row.key = d.1.key := by
      intro d mem
      obtain ⟨row, only, -⟩ := recorded d mem
      obtain ⟨mem', same⟩ := List.mem_filter.1 (only ▸ List.mem_cons_self : row ∈ List.filter _ _)
      exact ⟨row, mem', of_decide_eq_true same⟩
    refine ⟨fun d mem d' mem' transaction => ?_, fun d mem => ?_⟩
    · obtain ⟨row, found, key⟩ := row_of d mem
      obtain ⟨row', found', key'⟩ := row_of d' mem'
      have same : row.transactionHash = row'.transactionHash := by
        rw [(Prod.mk.inj key).1, (Prod.mk.inj key').1, transaction]
      -- one transaction has one row, and the row has one index
      have equal := List.inj_on_of_nodup_map distinct found found' same
      rw [equal, key'] at key
      exact (Option.some.inj (Prod.mk.inj key).2).symm
    · obtain ⟨row, found, key⟩ := row_of d mem
      obtain ⟨d', mem', fits, rfl⟩ := sound row found
      rw [key_row] at key
      -- rows are made of packets that fit
      rw [← deliveries.identified d' mem' d mem key]
      exact fits
  · rintro ⟨single, fits⟩
    refine ⟨fun d mem => ?_, fun row mem => ?_⟩
    · obtain ⟨row, found, transaction⟩ := complete d mem (fits d mem)
      obtain ⟨d', mem', -, rfl⟩ := sound row found
      have key : d'.1.key = d.1.key := Prod.ext transaction (congrArg some (single d' mem' d mem transaction))
      have same := deliveries.identified d' mem' d mem key
      have only := filter_key distinct found
      rw [key_row] at only
      rw [← same]
      exact ⟨_, only, rfl, rfl, rfl, rfl, rfl⟩
    · obtain ⟨d, mem', -, rfl⟩ := sound row mem
      exact ⟨d, mem', rfl⟩

/-- A transaction with two locks. -/
def batchHistory : History where
  logs := [sampleLog 5 0 "0x1", sampleLog 5 1 "0x1"]
  ordered := by decide
  grouped := by decide

/-- Both logs are delivered once. -/
def batchDeliveries : Deliveries id :=
  Deliveries.ofHistory id batchHistory sampleChain (fun _ => some 1700000000)
    [(sampleLog 5 0 "0x1", .pending), (sampleLog 5 1 "0x1", .pending)] (by decide)

/-- The second log of a transaction has no row. -/
theorem not_recorded_batch : ¬Recorded batchDeliveries.packets (drained batchDeliveries.packets) := by
  rintro ⟨recorded, -⟩
  have second : batchDeliveries.packets[1]?.any (fun d =>
      (drained batchDeliveries.packets).filter (fun row => row.key = d.1.key) = []) = true := by decide +kernel
  obtain ⟨d, found, none⟩ := (Option.any_eq_true _ _).1 second
  obtain ⟨row, only, -⟩ := recorded d (List.mem_of_getElem? found)
  rw [of_decide_eq_true none] at only
  cases only

end StellarFlow.Bridge
