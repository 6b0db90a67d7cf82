import Mathlib
import StellarFlow.Bridge.Ingestion
import StellarFlow.Bridge.MintQueue

/-!
# From the locked to the minted amount

The way of an amount through `src/services/bridgeEventListener.ts`, `src/services/bridgeMintingService.ts` and
`src/services/bridgeQueueService.ts`: the decimal column of the event, the text of a `Decimal`, `BigInt`, the decimal
column of the operation, and `BigInt` again for the argument of type `i128`. Fees, signatures and the answers of the
network are left out. The columns are the narrow point: an amount arrives unchanged, or it is not recorded.
-/

namespace StellarFlow.Bridge

/-- `toString` of a `Decimal` with these digits and at least 22 of them: an exponent, and no zeros at the end. -/
def exponentText (digits : List Char) : String :=
  match (digits.reverse.dropWhile (· = '0')).reverse with
  | [] => "0"
  | first :: rest =>
    String.ofList (first :: if rest = [] then [] else '.' :: rest) ++ "e+" ++ (digits.length - 1).repr

/-- `toString` of an integral `Decimal`; from 10²¹ on it has an exponent. -/
def decimalText (n : ℤ) : String :=
  if |n| < 10 ^ 21 then n.repr else (if n < 0 then "-" else "") ++ exponentText (Nat.toDigits 10 n.natAbs)

/-- `BigInt` of a decimal, which rejects exponents and points, and the range of `nativeToScVal` for `i128`. -/
def toI128 (amount : ℚ) : Option ℤ :=
  if amount.den = 1 then (decimalText amount.num).toInt?.filter fun n => -2 ^ 127 ≤ n ∧ n < 2 ^ 127 else none

/-- A runtime with `BigInt` and `toString` of decimals as they are. -/
def Runtime.withDecimals (rt : Runtime) : Runtime :=
  { rt with bigInt := toI128, amountText := fun amount => decimalText amount.num }

variable (rt : Runtime) (rows : List RecordedEvent) (eventData : BridgeEventData) (now : ℤ)

/-- The mint that is submitted for a packet whose event is verified: record, stage, enqueue, submit. -/
def mintOf : Option Mint := do
  let recorded ← createEvent rows eventData .verified
  let event ← recorded.getLast?
  let staged ← stageSorobanMintTransaction rt.withDecimals event.toBridgeEvent
  let operation ← BridgeOperationParams.create
    ⟨recorded.length, staged.contract, event.tokenAmount, staged.recipient, some 5⟩ now
  operation.mint rt.withDecimals event.toBridgeEvent

/-- The minted amount is the locked one, and below 2¹²⁷ nothing fails. -/
def MintsLocked : Prop :=
  (∀ mint, mintOf rt rows eventData now = some mint → mint.amount = eventData.tokenAmount) ∧
    (eventData.tokenAmount < 2 ^ 127 → (mintOf rt rows eventData now).isSome = true)

/-- What has nothing to do with the amount: the transaction is new, the log fits the columns, and the contract and the
recipient are ones. -/
def isMintable : Bool :=
  let contract := orText rt.sorobanBridgeContractId eventData.destinationChainId
  rows.all (fun row => row.transactionHash ≠ eventData.transactionHash) &&
    (eventData.logIndex < 2 ^ 31 && eventData.blockNumber < 2 ^ 63) && contract ≠ "" && rt.isContract contract &&
    rt.isAddress (orText (some eventData.destinationAddress) eventData.fromAddress)

variable {rt rows eventData now}

/-- Below 10^20 an amount fits in 128 bits. -/
lemma toI128_natCast {n : ℕ} (small : n < 10 ^ 20) : toI128 n = some (n : ℤ) := by
  have text : decimalText (n : ℤ) = (n : ℤ).repr := by
    rw [decimalText, if_pos]
    rw [abs_of_nonneg (Int.natCast_nonneg n)]
    have : (n : ℤ) < 10 ^ 20 := by exact_mod_cast small
    omega
  rw [toI128, if_pos (Rat.den_natCast n), Rat.num_natCast, text, Int.toInt?_repr]
  refine (Option.filter_some ..).trans (if_pos (decide_eq_true ⟨?_, ?_⟩))
  · omega
  · have : (n : ℤ) < 10 ^ 20 := by exact_mod_cast small
    omega

/-- The mint of an amount that fits its column. -/
lemma mintCall_withDecimals (small : eventData.tokenAmount < 10 ^ 20) (contract recipient : String)
    (event : BridgeEvent) :
    mintCall rt.withDecimals contract recipient eventData.tokenAmount event =
      if rt.isContract contract && rt.isAddress recipient then
        some ⟨contract, recipient, eventData.tokenAmount, event.transactionHash, event.chainId⟩
      else none := by
  have read : rt.withDecimals.bigInt eventData.tokenAmount = some (eventData.tokenAmount : ℤ) := toI128_natCast small
  rw [mintCall, read]
  rfl

/-- What is staged for a recorded event. -/
lemma stage_row (small : eventData.tokenAmount < 10 ^ 20) :
    stageSorobanMintTransaction rt.withDecimals (eventData.row eventData.tokenAmount .verified).toBridgeEvent =
      if orText rt.sorobanBridgeContractId eventData.destinationChainId = "" then none
      else if rt.isContract (orText rt.sorobanBridgeContractId eventData.destinationChainId) &&
          rt.isAddress (orText (some eventData.destinationAddress) eventData.fromAddress) then
        some ⟨orText rt.sorobanBridgeContractId eventData.destinationChainId,
          orText (some eventData.destinationAddress) eventData.fromAddress, eventData.tokenAmount,
          eventData.transactionHash, eventData.chainId⟩
      else none := if_congr Iff.rfl rfl (mintCall_withDecimals small _ _ _)

/-- What is submitted, if anything. -/
lemma mintOf_eq : mintOf rt rows eventData now =
    if eventData.tokenAmount < 10 ^ 20 ∧ isMintable rt rows eventData = true then
      some ⟨orText rt.sorobanBridgeContractId eventData.destinationChainId,
        orText (some eventData.destinationAddress) eventData.fromAddress, eventData.tokenAmount,
        eventData.transactionHash, eventData.chainId⟩
    else none := by
  rw [mintOf, isMintable]
  cases created : createEvent rows eventData .verified with
  | none =>
    rw [if_neg]
    · rfl
    · -- a new transaction whose columns fit is recorded
      rintro ⟨small, mintable⟩
      simp only [Bool.and_eq_true, List.all_eq_true, decide_eq_true_eq] at mintable
      obtain ⟨⟨⟨⟨new, columns⟩, -⟩, -⟩, -⟩ := mintable
      have fits : eventData.fits = true := by
        simp only [BridgeEventData.fits, Bool.and_eq_true, decide_eq_true_eq]
        exact ⟨⟨small, columns.1⟩, columns.2⟩
      rw [createEvent_eq_some.2 ⟨new, fits, rfl⟩] at created
      cases created
  | some recorded =>
    obtain ⟨new, fits, rfl⟩ := createEvent_eq_some.1 created
    simp only [BridgeEventData.fits, Bool.and_eq_true, decide_eq_true_eq] at fits
    obtain ⟨⟨small, index⟩, block⟩ := fits
    have fresh : (rows.all fun row => decide (row.transactionHash ≠ eventData.transactionHash)) = true :=
      List.all_eq_true.2 fun row mem => decide_eq_true (new row mem)
    have column : decimalColumn eventData.tokenAmount = some (eventData.tokenAmount : ℚ) := by
      rw [decimalColumn_natCast, if_pos small]
    have last : (rows ++ [eventData.row eventData.tokenAmount .verified]).getLast? =
        some (eventData.row eventData.tokenAmount .verified) := List.getLast?_concat
    rw [Option.bind_eq_bind, Option.bind_some, last, Option.bind_eq_bind, Option.bind_some, stage_row small,
      fresh]
    generalize orText rt.sorobanBridgeContractId eventData.destinationChainId = contract
    generalize orText (some eventData.destinationAddress) eventData.fromAddress = recipient
    by_cases named : contract = ""
    · rw [if_pos named, if_neg]
      · rfl
      · rintro ⟨-, mintable⟩
        simp [named] at mintable
    · rw [if_neg named]
      by_cases accepted : (rt.isContract contract && rt.isAddress recipient) = true
      · rw [if_pos accepted, if_pos]
        · -- the operation has the same amount, and the same call is built from it
          rw [Option.bind_eq_bind, Option.bind_some, BridgeOperationParams.create, BridgeEventData.row, column]
          exact (mintCall_withDecimals small _ _ _).trans (if_pos accepted)
        · refine ⟨small, ?_⟩
          rw [Bool.and_eq_true] at accepted
          simp only [Bool.and_eq_true, decide_eq_true_eq]
          exact ⟨⟨⟨⟨trivial, index, block⟩, named⟩, accepted.1⟩, accepted.2⟩
      · rw [if_neg accepted, if_neg]
        · rfl
        · rintro ⟨-, mintable⟩
          simp only [Bool.and_eq_true] at mintable accepted
          exact accepted ⟨mintable.1.2, mintable.2⟩

/-- The locked amount is minted if and only if it is too large for an `i128`, or fits the columns and nothing else
stands against the mint. -/
theorem mintsLocked_iff : MintsLocked rt rows eventData now ↔
    2 ^ 127 ≤ eventData.tokenAmount ∨ eventData.tokenAmount < 10 ^ 20 ∧ isMintable rt rows eventData = true := by
  rw [MintsLocked, mintOf_eq]
  constructor
  · rintro ⟨-, minted⟩
    by_contra neither
    rw [not_or] at neither
    have succeeds := minted (Nat.lt_of_not_le neither.1)
    rw [if_neg neither.2] at succeeds
    cases succeeds
  · intro condition
    refine ⟨fun mint eq => ?_, fun small => ?_⟩
    · split at eq
      · cases eq
        rfl
      · cases eq
    · rw [if_pos (condition.resolve_left (Nat.not_le.2 small))]
      rfl

/-- A lock of some tokens in block 5, with a Stellar address as its third topic. -/
def lockOf (tokenAmount : ℕ) : BridgeEventData where
  chainId := 1
  chainType := "EVM"
  eventType := "TOKEN_LOCK"
  transactionHash := "0x1"
  blockNumber := 5
  logIndex := 0
  tokenAmount := tokenAmount
  fromAddress := "from"
  toAddress := "GAAAAAAAAAAAAAAAAAAAAAAAAAAAAAAAAAAAAAAAAAAAAAAAAAAAAWHF"
  destinationChainId := "1"
  destinationAddress := "GAAAAAAAAAAAAAAAAAAAAAAAAAAAAAAAAAAAAAAAAAAAAAAAAAAAAWHF"
  eventTimestamp := 1700000000000

/-- An amount of 10²⁰ is below 2¹²⁷, and is not recorded; neither is any mint submitted for it. -/
theorem locked_not_minted : ¬MintsLocked sampleRuntime [] (lockOf (10 ^ 20)) 0 := by
  rintro ⟨-, minted⟩
  have fails : (createEvent [] (lockOf (10 ^ 20)) .verified).isNone = true := by decide +kernel
  have succeeds := minted (by decide)
  rw [mintOf, Option.isNone_iff_eq_none.1 fails] at succeeds
  cases succeeds

end StellarFlow.Bridge
