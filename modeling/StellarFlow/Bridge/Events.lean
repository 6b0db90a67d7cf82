import Mathlib.Algebra.Order.Ring.Rat
import StellarFlow.Lib.Dict

/-!
# Bridge events and mints

The rows of `BridgeEvent` and `BridgeOperation`, the calls of `mint` that `src/services/bridgeMintingService.ts` builds
from them, the message that the validators of `src/services/bridgeSignatureVerification.ts` sign, and what these use of
the libraries: `BigInt` of a decimal, the text of a decimal, and which texts are addresses and contracts.
-/

namespace StellarFlow.Bridge

/-- Library functions, and `SOROBAN_BRIDGE_CONTRACT_ID`. `bigInt` is `BigInt(amount.toString())`, which may throw. -/
structure Runtime where
  bigInt : ℚ → Option ℤ
  amountText : ℚ → String
  isAddress : String → Bool
  isContract : String → Bool
  sorobanBridgeContractId : Option String

inductive EventStatus where
  | pending
  | verified
  | staged
  | completed
  | failed
  deriving DecidableEq

structure BridgeEvent where
  chainId : ℕ
  eventType : String
  transactionHash : String
  tokenAmount : ℚ
  fromAddress : String
  destinationChainId : Option String
  destinationAddress : Option String
  status : EventStatus
  deriving DecidableEq

inductive QueueStatus where
  | queued
  | processing
  | completed
  | failed
  deriving DecidableEq

structure BridgeOperation where
  bridgeEventId : ℕ
  sorobanContract : Option String
  mintAmount : ℚ
  recipientAddress : String
  stellarTxHash : Option String
  queueStatus : QueueStatus
  priority : ℤ
  retryCount : ℕ
  queuedAt : ℤ

/-- A number of at most 18 decimals in a `Decimal(38, 18)` column; `none` where the database rejects it. -/
def decimalColumn (amount : ℚ) : Option ℚ := if |amount| < 10 ^ 20 then some amount else none

/-- The contract and the arguments of a call of `mint`. -/
structure Mint where
  contract : String
  recipient : String
  amount : ℤ
  transactionHash : String
  chainId : ℕ
  deriving DecidableEq

/-- `text || other`. -/
def orText (text : Option String) (other : String) : String :=
  match text with
  | some s => if s ≠ "" then s else other
  | none => other

/-- The fields of an event that the validators sign, in the order of the message. -/
def BridgeEvent.signedFields (rt : Runtime) (event : BridgeEvent) : List String :=
  [event.eventType, event.transactionHash, event.fromAddress, rt.amountText event.tokenAmount,
    orText event.destinationChainId "stellar"]

/-- The message of `verifyValidatorSignature`. -/
def BridgeEvent.message (rt : Runtime) (event : BridgeEvent) : String :=
  ":".intercalate ("BridgeEvent" :: event.signedFields rt)

/-- `new Contract(contract).call("mint", …)`; it throws for what is no contract, address or integer. -/
def mintCall (rt : Runtime) (contract recipient : String) (amount : ℚ) (event : BridgeEvent) : Option Mint :=
  if rt.isContract contract && rt.isAddress recipient then
    (rt.bigInt amount).map fun amount => ⟨contract, recipient, amount, event.transactionHash, event.chainId⟩
  else none

/-- The call that `stageSorobanMintTransaction` stages; `none` where it returns `null`. -/
def stageSorobanMintTransaction (rt : Runtime) (event : BridgeEvent) : Option Mint :=
  let contract := orText rt.sorobanBridgeContractId (event.destinationChainId.getD "")
  if contract = "" then none
  else mintCall rt contract (orText event.destinationAddress event.fromAddress) event.tokenAmount event

/-- The call that `submitStagedMintTransaction` builds from an operation and its event. -/
def BridgeOperation.mint (rt : Runtime) (operation : BridgeOperation) (event : BridgeEvent) : Option Mint :=
  operation.sorobanContract.bind fun contract =>
    mintCall rt contract operation.recipientAddress operation.mintAmount event

def sampleRuntime : Runtime where
  bigInt := fun amount => if amount.den = 1 then some amount.num else none
  amountText := fun amount => toString amount.num
  isAddress := fun _ => true
  isContract := fun _ => true
  sorobanBridgeContractId := none

def sampleBridgeEvents : Dict ℕ BridgeEvent where
  entries := [(1, ⟨1, "TOKEN_LOCK", "0x1", 5, "from", some "contract", some "recipient", .verified⟩)]
  nodup := by decide

end StellarFlow.Bridge
