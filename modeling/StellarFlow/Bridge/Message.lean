import StellarFlow.Bridge.Events
import StellarFlow.Lib.Framing

/-!
# What the validators sign

The message that the validators sign joins five fields of an event with colons. The recipient of the mint is not among
them, and a colon in a field reads like one between two fields. So two events whose mints differ have different messages
exactly where the texts between the colons differ.
-/

namespace StellarFlow.Bridge

/-- The texts between the colons of the signed fields. -/
def BridgeEvent.signedParts (rt : Runtime) (event : BridgeEvent) : List (List Char) :=
  (event.signedFields rt).flatMap fun field => field.toList.splitOn ':'

/-- No colon is in a signed field but the last one. -/
def BridgeEvent.IsPlain (rt : Runtime) (event : BridgeEvent) : Prop :=
  ∀ field ∈ (event.signedFields rt).dropLast, ':' ∉ field.toList

/-- The contract, which stands for the asset and its chain, the recipient and the amount. -/
def Mint.terms (mint : Mint) : String × String × ℤ := (mint.contract, mint.recipient, mint.amount)

/-- Both events are minted, to different terms. -/
def MintsDiffer (rt : Runtime) (event event' : BridgeEvent) : Prop :=
  ∃ mint mint', stageSorobanMintTransaction rt event = some mint ∧ stageSorobanMintTransaction rt event' = some mint' ∧
    mint.terms ≠ mint'.terms

variable {rt : Runtime} {event event' : BridgeEvent}

/-- Split at the colons, the message falls into its parts. -/
lemma BridgeEvent.splitOn_message (rt : Runtime) (event : BridgeEvent) :
    (event.message rt).toList.splitOn ':' = "BridgeEvent".toList :: event.signedParts rt := by
  rw [BridgeEvent.message, String.toList_intercalate]
  show ([':'].intercalate _).splitOn ':' = _
  rw [Framing.splitOn_intercalate ':' (by simp), List.map_cons, List.flatMap_cons, List.flatMap_map]
  rfl

/-- Two messages are the same where their parts are. -/
lemma BridgeEvent.message_eq_iff :
    event.message rt = event'.message rt ↔ event.signedParts rt = event'.signedParts rt := by
  constructor
  · intro same
    have parts := event.splitOn_message rt
    rw [same, event'.splitOn_message rt] at parts
    exact (List.cons.inj parts).2.symm
  · intro same
    refine String.toList_inj.1 (Framing.splitOn_injective ':' ?_)
    rw [event.splitOn_message, event'.splitOn_message, same]

/-- Only the destination chain of a plain event is split further. -/
lemma BridgeEvent.IsPlain.signedParts_eq (plain : event.IsPlain rt) :
    event.signedParts rt = event.eventType.toList :: event.transactionHash.toList :: event.fromAddress.toList ::
      (rt.amountText event.tokenAmount).toList :: (orText event.destinationChainId "stellar").toList.splitOn ':' := by
  simp only [BridgeEvent.IsPlain, BridgeEvent.signedFields, List.dropLast, List.forall_mem_cons] at plain
  obtain ⟨eventType, transactionHash, fromAddress, amount, -⟩ := plain
  simp only [BridgeEvent.signedParts, BridgeEvent.signedFields, List.flatMap_cons, List.flatMap_nil, List.append_nil]
  rw [List.splitOn_eq_singleton eventType, List.splitOn_eq_singleton transactionHash,
    List.splitOn_eq_singleton fromAddress, List.splitOn_eq_singleton amount]
  rfl

/-- Plain fields can be read off the message. -/
lemma BridgeEvent.IsPlain.signedParts_eq_iff (plain : event.IsPlain rt) (plain' : event'.IsPlain rt) :
    event.signedParts rt = event'.signedParts rt ↔ event.signedFields rt = event'.signedFields rt := by
  constructor
  · intro same
    rw [plain.signedParts_eq, plain'.signedParts_eq] at same
    obtain ⟨eventType, same⟩ := List.cons.inj same
    obtain ⟨transactionHash, same⟩ := List.cons.inj same
    obtain ⟨fromAddress, same⟩ := List.cons.inj same
    obtain ⟨amount, destination⟩ := List.cons.inj same
    rw [BridgeEvent.signedFields, BridgeEvent.signedFields, String.toList_inj.1 eventType,
      String.toList_inj.1 transactionHash, String.toList_inj.1 fromAddress, String.toList_inj.1 amount,
      String.toList_inj.1 (Framing.splitOn_injective ':' destination)]
  · intro same
    rw [BridgeEvent.signedParts, same, BridgeEvent.signedParts]

/-- Events that are minted to different terms have different messages exactly where the texts between the colons of
their signed fields differ; where only the last field may have colons, exactly where a signed field differs. -/
theorem messages_differ_iff (rt : Runtime) (event event' : BridgeEvent) : MintsDiffer rt event event' →
    (event.message rt ≠ event'.message rt ↔ event.signedParts rt ≠ event'.signedParts rt) ∧
    (event.IsPlain rt → event'.IsPlain rt →
      (event.message rt ≠ event'.message rt ↔ event.signedFields rt ≠ event'.signedFields rt)) := by
  intro _
  refine ⟨not_congr BridgeEvent.message_eq_iff, fun plain plain' => not_congr ?_⟩
  exact BridgeEvent.message_eq_iff.trans (plain.signedParts_eq_iff plain')

/-- A lock with the fields that `persistCollateralLockedEvent` sets. -/
def sampleLock (transactionHash fromAddress destinationAddress : String) : BridgeEvent :=
  ⟨1, "COLLATERAL_LOCK", transactionHash, 5, fromAddress, some "contract", some destinationAddress, .pending⟩

/-- The mint of such a lock. -/
def sampleMint (transactionHash destinationAddress : String) : Mint :=
  ⟨"contract", destinationAddress, 5, transactionHash, 1⟩

/-- Two locks of different transactions have different messages. -/
theorem messages_differ_iff_sample :
    MintsDiffer sampleRuntime (sampleLock "0x1" "from" "a") (sampleLock "0x2" "from" "b") ∧
    (sampleLock "0x1" "from" "a").message sampleRuntime ≠ (sampleLock "0x2" "from" "b").message sampleRuntime := by
  have differ : MintsDiffer sampleRuntime (sampleLock "0x1" "from" "a") (sampleLock "0x2" "from" "b") :=
    ⟨sampleMint "0x1" "a", sampleMint "0x2" "b", by decide +kernel, by decide +kernel, by decide⟩
  exact ⟨differ, (messages_differ_iff sampleRuntime _ _ differ).1.2 (by decide +kernel)⟩

/-- The message says nothing of the recipient; and a colon may belong to the transaction or to the sender. -/
theorem messages_coincide :
    (MintsDiffer sampleRuntime (sampleLock "0x1" "from" "a") (sampleLock "0x1" "from" "b") ∧
      (sampleLock "0x1" "from" "a").message sampleRuntime = (sampleLock "0x1" "from" "b").message sampleRuntime) ∧
    (MintsDiffer sampleRuntime (sampleLock "0x1" "0x2:from" "a") (sampleLock "0x1:0x2" "from" "b") ∧
      (sampleLock "0x1" "0x2:from" "a").message sampleRuntime =
        (sampleLock "0x1:0x2" "from" "b").message sampleRuntime) := by
  constructor
  · exact ⟨⟨sampleMint "0x1" "a", sampleMint "0x1" "b", by decide +kernel, by decide +kernel, by decide⟩,
      by decide +kernel⟩
  · exact ⟨⟨sampleMint "0x1" "a", sampleMint "0x1:0x2" "b", by decide +kernel, by decide +kernel, by decide⟩,
      by decide +kernel⟩

end StellarFlow.Bridge
