import Mathlib.Algebra.Order.Ring.Int
import StellarFlow.Lib.Machine
import StellarFlow.Lib.Memory

/-!
# The bridge listener

Model of `parseLog` and `pollChainEvents` in `src/services/bridgeEventListener.ts`, for one chain and polls that do not
overlap. A poll asks for the logs of the hundred blocks behind the last one it has worked through; what the chain and
the queue answer it is its label. `passed` is not part of the code: the block at which the listener started, and the
block it has come to.

The cursor follows the logs that the queue accepts, not the blocks that were asked for. It passes a log that is not
accepted when one of the same or of a later block is, it stays where a range has no log to accept, and a cursor that is
missing or 0 is put a thousand blocks before the head.
-/

namespace StellarFlow.Bridge

/-- A log of the bridge contract. -/
structure Log where
  blockNumber : ℕ
  index : ℕ
  transactionHash : String
  topics : List String
  data : List UInt8
  deriving DecidableEq

/-- The fields of `ChainConfig & { id: number }` that `parseLog` reads. -/
structure ChainConfig where
  id : ℕ
  chainType : String
  deriving DecidableEq

structure BridgeEventData where
  chainId : ℕ
  chainType : String
  eventType : String
  transactionHash : String
  blockNumber : ℕ
  logIndex : ℕ
  tokenAmount : ℕ
  fromAddress : String
  toAddress : String
  destinationChainId : String
  destinationAddress : String
  eventTimestamp : ℤ
  deriving DecidableEq

/-- All logs of the bridge contract, in the order of the chain; a transaction belongs to one block. -/
structure History where
  logs : List Log
  ordered : logs.Pairwise fun a b => a.blockNumber < b.blockNumber ∨ a.blockNumber = b.blockNumber ∧ a.index < b.index
  grouped : ∀ a ∈ logs, ∀ b ∈ logs, a.transactionHash = b.transactionHash → a.blockNumber = b.blockNumber

/-- `ethers.id` is a parameter; the event type of a signature. -/
def eventTypeOf (ethersId : String → String) (eventSignature : Option String) : Option String :=
  if eventSignature = some (ethersId "TokensLocked(address,address,uint256,uint256,bytes32)") then some "TOKEN_LOCK"
  else if eventSignature = some (ethersId "TokensReleased(address,uint256,uint256,bytes32)") then some "TOKEN_RELEASE"
  else if eventSignature = some (ethersId "TokensBurned(address,uint256,uint256,bytes32)") then some "TOKEN_BURN"
  else none

/-- The first two values of `decode(["uint256", "uint256", "bytes32"], data)`, which throws when words are missing. -/
def decodeWords (data : List UInt8) : Option (ℕ × ℕ) :=
  if 96 ≤ data.length then
    some (Memory.unpack .big (Memory.slice data 0 32), Memory.unpack .big (Memory.slice data 32 32))
  else none

variable (ethersId : String → String)

/-- `parseLog`, after `getBlock` has answered the timestamp of the block (`none` for no block, or an error). -/
def parseLog (log : Log) (chain : ChainConfig) (timestamp : Option ℤ) : Option BridgeEventData :=
  timestamp.bind fun timestamp =>
    (eventTypeOf ethersId log.topics[0]?).bind fun eventType =>
      (decodeWords log.data).map fun decoded =>
        let destination :=
          if eventType = "TOKEN_LOCK" then log.topics[2]?.getD "" else log.topics[1]?.getD ""
        { chainId := chain.id
          chainType := chain.chainType
          eventType := eventType
          transactionHash := log.transactionHash
          blockNumber := log.blockNumber
          logIndex := log.index
          tokenAmount := decoded.1
          fromAddress := log.topics[1]?.getD ""
          toAddress := destination
          destinationChainId := toString decoded.2
          destinationAddress := destination
          eventTimestamp := timestamp * 1000 }

/-- The log is one of a known event, whose words can be read. -/
def Log.isRecognised (log : Log) : Bool :=
  (eventTypeOf ethersId log.topics[0]?).isSome && (decodeWords log.data).isSome

/-- What a poll is answered: by the provider, and by the queue for the packet of a log. -/
structure Poll where
  currentBlock : ℤ
  getBlock : Log → Option ℤ
  enqueue : Log → Bool

/-- `lastProcessedBlocks.get(chain.chainId)`, and the logs whose packets were accepted. -/
structure Listener where
  lastProcessedBlock : Option ℤ
  queued : List Log
  passed : Option (ℤ × ℤ)

/-- A listener whose `start` has set the cursor, or has failed to. -/
def Listener.initial (lastProcessedBlock : Option ℤ) : Listener :=
  ⟨lastProcessedBlock, [], lastProcessedBlock.map fun block => (block, block)⟩

/-- `lastProcessedBlocks.get(chain.chainId) || currentBlock - 1000`. -/
def Listener.lastProcessed (s : Listener) (poll : Poll) : ℤ :=
  match s.lastProcessedBlock with
  | some block => if block ≠ 0 then block else poll.currentBlock - 1000
  | none => poll.currentBlock - 1000

/-- `fromBlock`. -/
def Listener.fromBlock (s : Listener) (poll : Poll) : ℤ := s.lastProcessed poll + 1

/-- `toBlock`; the batch size is 100. -/
def Listener.toBlock (s : Listener) (poll : Poll) : ℤ := min (s.fromBlock poll + 100 - 1) poll.currentBlock

/-- `provider.getLogs({ address, fromBlock, toBlock })`. -/
def History.getLogs (history : History) (fromBlock toBlock : ℤ) : List Log :=
  history.logs.filter fun log => fromBlock ≤ log.blockNumber ∧ log.blockNumber ≤ toBlock

variable (history : History) (chain : ChainConfig)

/-- There is event data of the log. -/
def Poll.isParsed (poll : Poll) (log : Log) : Bool := (parseLog ethersId log chain (poll.getBlock log)).isSome

/-- The packet of the log is accepted. -/
def Poll.isAccepted (poll : Poll) (log : Log) : Bool := poll.isParsed ethersId chain log && poll.enqueue log

/-- One turn of the loop over the logs. -/
def Listener.readLog (poll : Poll) (s : Listener) (log : Log) : Listener :=
  if poll.isAccepted ethersId chain log then
    { s with
      queued := s.queued ++ [log]
      lastProcessedBlock :=
        if s.lastProcessedBlock.getD 0 < log.blockNumber then some log.blockNumber else s.lastProcessedBlock }
  else s

/-- `pollChainEvents`. -/
def Listener.pollChainEvents (s : Listener) (poll : Poll) : Listener :=
  if s.toBlock poll < s.fromBlock poll then s
  else
    let t := (history.getLogs (s.fromBlock poll) (s.toBlock poll)).foldl (Listener.readLog ethersId chain poll) s
    let last := s.lastProcessed poll
    let position := if t.lastProcessedBlock = s.lastProcessedBlock then last else t.lastProcessedBlock.getD last
    { t with passed := some ((s.passed.map Prod.fst).getD last, position) }

def Listener.step (s : Listener) (poll : Poll) : Option Listener :=
  some (s.pollChainEvents ethersId history chain poll)

/-- The queue has accepted each recognised log of the blocks that the cursor has passed. -/
def Listener.SkipsNothing (s : Listener) : Prop :=
  ∀ range ∈ s.passed, ∀ log ∈ history.logs, log.isRecognised ethersId →
    range.1 < log.blockNumber → log.blockNumber ≤ range.2 → log ∈ s.queued

/-- If the range is not empty and the queue rejects no packet, the cursor moves on. -/
def Listener.Advances (s : Listener) (poll : Poll) : Prop :=
  s.fromBlock poll ≤ s.toBlock poll →
  (∀ log ∈ history.getLogs (s.fromBlock poll) (s.toBlock poll), poll.isParsed ethersId chain log → poll.enqueue log) →
  ∃ range ∈ (s.pollChainEvents ethersId history chain poll).passed, s.lastProcessed poll < range.2

/-- No recognised log lies between the block that was reached and the one at which the poll starts, none that is not
accepted lies below or beside one that is, and a range without rejections has an accepted log above the cursor. -/
def Listener.isCovered (s : Listener) (poll : Poll) : Prop :=
  let logs := history.getLogs (s.fromBlock poll) (s.toBlock poll)
  (∀ range ∈ s.passed, ∀ log ∈ history.logs, log.isRecognised ethersId →
    range.2 < log.blockNumber → log.blockNumber ≤ s.lastProcessed poll → log ∈ s.queued) ∧
  (∀ log ∈ logs, log.isRecognised ethersId → ¬poll.isAccepted ethersId chain log →
    ∀ log' ∈ logs, poll.isAccepted ethersId chain log' → log'.blockNumber < log.blockNumber) ∧
  (s.fromBlock poll ≤ s.toBlock poll → (∀ log ∈ logs, poll.isParsed ethersId chain log → poll.enqueue log) →
    ∃ log ∈ logs, poll.isAccepted ethersId chain log ∧ s.lastProcessedBlock.getD 0 < log.blockNumber)

instance (s : Listener) (poll : Poll) : Decidable (s.isCovered ethersId history chain poll) := by
  unfold Listener.isCovered
  infer_instance

variable {ethersId history chain} {s s' t : Listener} {poll : Poll} {logs : List Log} {log : Log}

/-- What a loop over logs does: it queues the accepted ones, and the cursor is not below any of them; it stays, or is
put on one of them that is above it. -/
structure Reads (ethersId : String → String) (chain : ChainConfig) (poll : Poll) (logs : List Log) (s t : Listener) :
    Prop where
  passed : t.passed = s.passed
  queued : t.queued = s.queued ++ logs.filter (poll.isAccepted ethersId chain)
  rises : s.lastProcessedBlock.getD 0 ≤ t.lastProcessedBlock.getD 0
  below : ∀ log ∈ logs, poll.isAccepted ethersId chain log → log.blockNumber ≤ t.lastProcessedBlock.getD 0
  moved : t.lastProcessedBlock = s.lastProcessedBlock ∨
    ∃ log ∈ logs, poll.isAccepted ethersId chain log ∧ t.lastProcessedBlock = some (log.blockNumber : ℤ)

/-- A poll reads the logs in their order. -/
lemma foldl_readLog (s : Listener) (logs : List Log) :
    Reads ethersId chain poll logs s (logs.foldl (Listener.readLog ethersId chain poll) s) := by
  induction logs using List.reverseRecOn with
  | nil => exact ⟨rfl, (List.append_nil _).symm, le_rfl, fun log mem => absurd mem List.not_mem_nil, .inl rfl⟩
  | append_singleton logs log ih =>
    rw [List.foldl_append, List.foldl_cons, List.foldl_nil]
    generalize logs.foldl (Listener.readLog ethersId chain poll) s = t at ih ⊢
    obtain ⟨passed, queued, rises, below, moved⟩ := ih
    have moved' : t.lastProcessedBlock = s.lastProcessedBlock ∨ ∃ log' ∈ logs ++ [log],
        poll.isAccepted ethersId chain log' ∧ t.lastProcessedBlock = some (log'.blockNumber : ℤ) :=
      moved.imp_right fun ⟨log', mem, found⟩ => ⟨log', List.mem_append_left _ mem, found⟩
    rw [Listener.readLog]
    by_cases accepted : poll.isAccepted ethersId chain log
    · rw [if_pos accepted]
      have queued' : t.queued ++ [log] = s.queued ++ (logs ++ [log]).filter (poll.isAccepted ethersId chain) := by
        rw [queued, List.filter_append, List.filter_singleton, accepted, cond_true, List.append_assoc]
      by_cases above : t.lastProcessedBlock.getD 0 < log.blockNumber
      · rw [if_pos above]
        refine ⟨passed, queued', rises.trans above.le, List.forall_mem_append.2 ⟨fun log' old accepted' => ?_, ?_⟩,
          .inr ⟨log, List.mem_append_right _ List.mem_cons_self, accepted, rfl⟩⟩
        · exact (below log' old accepted').trans above.le
        · exact List.forall_mem_singleton.2 fun _ => le_rfl
      · rw [if_neg above]
        refine ⟨passed, queued', rises, List.forall_mem_append.2 ⟨below, ?_⟩, moved'⟩
        exact List.forall_mem_singleton.2 fun _ => Int.not_lt.1 above
    -- a log that is not accepted leaves the listener as it is
    · rw [if_neg accepted]
      refine ⟨passed, ?_, rises, List.forall_mem_append.2 ⟨below, ?_⟩, moved'⟩
      · rw [queued, List.filter_append, List.filter_singleton, Bool.eq_false_of_not_eq_true accepted, cond_false,
          List.append_nil]
      · exact List.forall_mem_singleton.2 fun accepted' => absurd accepted' accepted

/-- `getLogs` answers with the logs of the blocks asked for. -/
lemma mem_getLogs {fromBlock toBlock : ℤ} : log ∈ history.getLogs fromBlock toBlock ↔
    log ∈ history.logs ∧ fromBlock ≤ log.blockNumber ∧ log.blockNumber ≤ toBlock := by
  rw [History.getLogs, List.mem_filter, decide_eq_true_iff]

/-- What a poll does: nothing where the range is empty, and else it reads the logs of the range and moves to the
cursor, or stays where it has started. -/
lemma pollChainEvents_cases (ethersId : String → String) (history : History) (chain : ChainConfig) (s : Listener)
    (poll : Poll) :
    (s.toBlock poll < s.fromBlock poll ∧ s.pollChainEvents ethersId history chain poll = s) ∨
    ∃ t position, Reads ethersId chain poll (history.getLogs (s.fromBlock poll) (s.toBlock poll)) s t ∧
      s.pollChainEvents ethersId history chain poll =
        { t with passed := some ((s.passed.map Prod.fst).getD (s.lastProcessed poll), position) } ∧
      (t.lastProcessedBlock = s.lastProcessedBlock ∧ position = s.lastProcessed poll ∨
        ∃ log ∈ history.getLogs (s.fromBlock poll) (s.toBlock poll), poll.isAccepted ethersId chain log ∧
          t.lastProcessedBlock = some (log.blockNumber : ℤ) ∧ position = log.blockNumber) := by
  rw [Listener.pollChainEvents]
  by_cases empty : s.toBlock poll < s.fromBlock poll
  · rw [if_pos empty]
    exact .inl ⟨empty, rfl⟩
  · rw [if_neg empty]
    have reads : Reads ethersId chain poll (history.getLogs (s.fromBlock poll) (s.toBlock poll)) s _ :=
      foldl_readLog s (history.getLogs (s.fromBlock poll) (s.toBlock poll))
    refine .inr ⟨_, _, reads, rfl, ?_⟩
    by_cases same : (List.foldl (Listener.readLog ethersId chain poll) s
        (history.getLogs (s.fromBlock poll) (s.toBlock poll))).lastProcessedBlock = s.lastProcessedBlock
    · exact .inl ⟨same, if_pos same⟩
    · obtain ⟨log, mem, accepted, found⟩ := reads.moved.resolve_left same
      refine .inr ⟨log, mem, accepted, found, ?_⟩
      rw [if_neg same, found]
      rfl

/-- A covered poll skips nothing. -/
lemma skipsNothing_pollChainEvents (inv : s.SkipsNothing ethersId history)
    (covered : s.isCovered ethersId history chain poll) :
    (s.pollChainEvents ethersId history chain poll).SkipsNothing ethersId history := by
  obtain ⟨started, beside, -⟩ := covered
  rcases pollChainEvents_cases ethersId history chain s poll with
    ⟨-, same⟩ | ⟨t, position, reads, same, moved⟩
  · rw [same]
    exact inv
  · rw [same]
    intro range eq log mem recognised above le
    obtain rfl := Option.mem_some.1 eq
    have queued : log ∈ s.queued → log ∈ t.queued := fun old => reads.queued ▸ List.mem_append_left _ old
    by_cases before : log.blockNumber ≤ s.lastProcessed poll
    · -- the block was passed earlier, or lies before the start of this poll
      refine queued ?_
      cases passed : s.passed with
      | none =>
        rw [passed] at above
        exact absurd before (Int.not_le.2 above)
      | some range =>
        rw [passed] at above
        by_cases reached : log.blockNumber ≤ range.2
        · exact inv range passed log mem recognised above reached
        · exact started range passed log mem recognised (Int.not_le.1 reached) before
    · rcases moved with ⟨-, rfl⟩ | ⟨log', mem', accepted', -, rfl⟩
      · exact absurd le before
      -- the cursor is on an accepted log of the range, which is not behind this one
      · have asked : log ∈ history.getLogs (s.fromBlock poll) (s.toBlock poll) :=
          mem_getLogs.2 ⟨mem, Int.not_le.1 before, le.trans (mem_getLogs.1 mem').2.2⟩
        by_cases accepted : poll.isAccepted ethersId chain log
        · rw [reads.queued]
          exact List.mem_append_right _ (List.mem_filter.2 ⟨asked, accepted⟩)
        · exact absurd (beside log asked recognised accepted log' mem' accepted') (Nat.not_lt.2 (Int.ofNat_le.1 le))

/-- A covered poll moves on. -/
lemma advances_of_covered (covered : s.isCovered ethersId history chain poll) :
    s.Advances ethersId history chain poll := by
  intro range unrejected
  obtain ⟨log, mem, accepted, above⟩ := covered.2.2 range unrejected
  rcases pollChainEvents_cases ethersId history chain s poll with
    ⟨empty, -⟩ | ⟨t, position, reads, same, moved⟩
  · exact absurd range (Int.not_le.2 empty)
  · rw [same]
    refine ⟨_, rfl, ?_⟩
    have below := reads.below log mem accepted
    rcases moved with ⟨stays, -⟩ | ⟨log', mem', -, -, rfl⟩
    -- an accepted log above the cursor moves it
    · rw [stays] at below
      exact absurd above (Int.not_lt.2 below)
    · exact (mem_getLogs.1 mem').2.1

/-- In a covered run the cursor passes no recognised log that the queue has not accepted, and every poll of a range that
is not empty moves it, unless the queue rejects a packet. -/
theorem listener_neither_stalls_nor_skips {lastProcessedBlock : Option ℤ} {trace : List Poll}
    (covered : Machine.Guarded (Listener.step ethersId history chain) (Listener.isCovered ethersId history chain)
      (Listener.initial lastProcessedBlock) trace) :
    Machine.Always (Listener.step ethersId history chain) (Listener.SkipsNothing ethersId history)
        (Listener.initial lastProcessedBlock) trace ∧
      Machine.Guarded (Listener.step ethersId history chain) (Listener.Advances ethersId history chain)
        (Listener.initial lastProcessedBlock) trace := by
  constructor
  · refine Machine.always_of_guarded (fun range eq log _ _ above le => ?_) (fun s poll t inv met taken => ?_) covered
    · obtain ⟨block, -, rfl⟩ := Option.map_eq_some_iff.1 eq
      exact absurd le (Int.not_le.2 above)
    · cases taken
      exact skipsNothing_pollChainEvents inv met
  · exact fun pre poll t le reached => advances_of_covered (covered pre poll t le reached)

def sampleChain : ChainConfig := ⟨1, "EVM"⟩

/-- A log of 5 tokens locked. -/
def sampleLog (blockNumber index : ℕ) (transactionHash : String) : Log where
  blockNumber := blockNumber
  index := index
  transactionHash := transactionHash
  topics := ["TokensLocked(address,address,uint256,uint256,bytes32)", "from", "recipient"]
  data := List.replicate 31 0 ++ [5] ++ List.replicate 31 0 ++ [1] ++ List.replicate 32 0

/-- Locks in the blocks 5 and 7. -/
def sampleHistory : History where
  logs := [sampleLog 5 0 "0x1", sampleLog 7 0 "0x2"]
  ordered := by decide
  grouped := by decide

/-- A poll at head 300 whose queue rejects the packets of some blocks. -/
def samplePoll (rejects : List ℕ) : Poll where
  currentBlock := 300
  getBlock := fun _ => some 1700000000
  enqueue := fun log => log.blockNumber ∉ rejects

/-- Both logs are accepted in one poll from block 4. -/
theorem listener_neither_stalls_nor_skips_sample :
    Machine.Always (Listener.step id sampleHistory sampleChain) (Listener.SkipsNothing id sampleHistory)
        (Listener.initial (some 4)) [samplePoll []] ∧
      Machine.Guarded (Listener.step id sampleHistory sampleChain) (Listener.Advances id sampleHistory sampleChain)
        (Listener.initial (some 4)) [samplePoll []] :=
  listener_neither_stalls_nor_skips (by decide +kernel)

/-- A rejected log of block 5 is passed by the accepted one of block 7, and a poll of the blocks behind 7 stays. -/
theorem listener_skips_and_stalls :
    ¬((Listener.initial (some 4)).pollChainEvents id sampleHistory sampleChain (samplePoll [5])).SkipsNothing id
        sampleHistory ∧
      ¬(Listener.initial (some 7)).Advances id sampleHistory sampleChain (samplePoll []) := by
  constructor
  · intro skips
    have passed : ((Listener.initial (some 4)).pollChainEvents id sampleHistory sampleChain (samplePoll [5])).passed =
        some (4, 7) := by decide +kernel
    have queued : ((Listener.initial (some 4)).pollChainEvents id sampleHistory sampleChain (samplePoll [5])).queued =
        [sampleLog 7 0 "0x2"] := by decide +kernel
    have mem := skips (4, 7) passed (sampleLog 5 0 "0x1") List.mem_cons_self (by decide +kernel) (by decide) (by decide)
    rw [queued] at mem
    exact absurd mem (by decide)
  · intro advances
    obtain ⟨range, eq, lt⟩ := advances (by decide) (by decide +kernel)
    have passed : ((Listener.initial (some 7)).pollChainEvents id sampleHistory sampleChain (samplePoll [])).passed =
        some (7, 7) := by decide +kernel
    rw [passed] at eq
    obtain rfl := Option.some.inj eq
    exact absurd lt (by decide)

end StellarFlow.Bridge
