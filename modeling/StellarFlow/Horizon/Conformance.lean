import StellarFlow.Horizon.WireFormat

/-!
# The decoder and the published format

Which envelopes of the published format `horizon_xdr.py` decodes. The decoder skips nothing that it does not
know, so an envelope is decoded when it is read in step (`Aligned`) up to its last operation, whose extension
may then stand in for the words that the decoder expects and the format does not have (`Slack`).

`Conforms` is the condition. For envelopes whose preconditions are read in step it is exact, unless the
issuer of an asset is the key of 32 zero bytes, which still looks right when it is read four bytes too early.
-/

namespace StellarFlow.Horizon.Wire
open TextCodec XdrReader Py

/-- The entries describe the signatures. -/
def Signatures.Described (signatures : Signatures) (entries : Json) : Prop :=
  ∃ list : List Fields, entries = .list (list.map .dict) ∧
    List.Forall₂ (fun (signature : DecoratedSignature) entry =>
      Json.get? entry "hint" = some (.str (hex signature.hint.1)) ∧
      Json.get? entry "signature" = some (.str (String.ofList (b64encode signature.signature.1))))
      signatures.1 list

/-- The entries describe a transaction, and say that it was decoded to its end. -/
structure Described (source : String) (fee : UInt32) (sequence : Int64) (memo : Memo) (operations : Operations)
    (signatures : Signatures) (entries : Fields) : Prop where
  source_account : Json.get? entries "source_account" = some (.str source)
  fee : Json.get? entries "fee" = some (.int fee.toNat)
  sequence : Json.get? entries "sequence" = some (.int sequence.toInt)
  memo : Json.get? entries "memo" = some (.dict memo.fields)
  operations : Json.get? entries "operations" = some operations.entries
  signatures : ∃ list, Json.get? entries "signatures" = some list ∧ signatures.Described list
  decode_complete : Json.get? entries "decode_complete" = some (.bool true)

/-- The entries describe a transaction of the second format. -/
def Transaction.Described (tx : Transaction) (signatures : Signatures) (entries : Fields) : Prop :=
  Wire.Described tx.source.accountId tx.fee tx.sequence tx.memo tx.operations signatures entries

/-- The entries describe the envelope. -/
def Envelope.Described : Envelope → Fields → Prop
  | v0 tx signatures, entries =>
    Wire.Described (address tx.source) tx.fee tx.sequence tx.memo tx.operations signatures entries
  | v1 tx signatures, entries => tx.Described signatures entries
  | feeBump feeSource fee inner innerSignatures signatures, entries =>
    Json.get? entries "fee_source_account" = some (.str feeSource.accountId) ∧
      Json.get? entries "fee" = some (.int fee.toInt) ∧
      (∃ transaction, Json.get? entries "inner_transaction" = some (.dict transaction) ∧
        inner.Described innerSignatures transaction) ∧
      ∃ list, Json.get? entries "signatures" = some list ∧ signatures.Described list

/-- The decoder returns a description of the envelope. -/
def Envelope.Decoded (envelope : Envelope) : Prop :=
  ∃ entries, parseTransactionEnvelopeBytes envelope.bytes = .ok entries ∧ envelope.Described entries

/-- The decoder reads the body of the operation in step with the format. -/
def OperationBody.Aligned : OperationBody → Prop
  | createAccount .. => False
  | payment _ asset _ => asset = .native
  | manageSellOffer selling buying .. => selling = .native ∧ buying = .native
  | createPassiveSellOffer .. => False
  | setOptions options => ∀ signer ∈ options.signer, ∃ key, signer.key = .plain key
  | changeTrust line _ => line = .asset .native
  | manageBuyOffer selling buying .. => selling = .native ∧ buying = .native
  | clawback asset _ _ => asset = .native
  | extendFootprintTtl _ => False
  | restoreFootprint => False
  | _ => True

/-- The decoder returns the right entries and leaves a last word, which is 0. -/
def OperationBody.Slack : OperationBody → Prop
  | extendFootprintTtl extendTo => extendTo = 0
  | restoreFootprint => True
  | _ => False

/-- All operations are read in step. -/
def InStep (operations : List Operation) : Prop := ∀ operation ∈ operations, operation.body.Aligned

/-- All operations are read in step up to the last, which leaves a word. -/
def LeavesWord (operations : List Operation) : Prop :=
  ∃ before last, operations = before ++ [last] ∧ InStep before ∧ last.body.Slack

/-- The decoder reads the preconditions in step. -/
def Preconditions.Aligned : Preconditions → Prop
  | none => True
  | time _ => True
  | v2 _ _ minSeqNum _ _ extraSigners _ => minSeqNum = Option.none ∧ extraSigners = []

/-- The envelopes that the decoder reads as the format has them. -/
def Envelope.Conforms : Envelope → Prop
  | v0 tx signatures => (InStep tx.operations.1 ∨ LeavesWord tx.operations.1) ∧ signatures.1 = []
  | v1 tx signatures =>
    tx.preconditions.Aligned ∧ (InStep tx.operations.1 ∨ LeavesWord tx.operations.1) ∧ signatures.1 = []
  | feeBump _ _ inner innerSignatures signatures =>
    inner.preconditions.Aligned ∧ LeavesWord inner.operations.1 ∧ innerSignatures.1 = [] ∧ signatures.1 = []

/-- The key of 32 zero bytes. -/
def zeroKey : Hash32 := ⟨List.replicate 32 0, rfl⟩

/-- The asset is not issued by the zero key. -/
def Asset.Issued : Asset → Prop
  | native => True
  | credit4 _ issuer => issuer ≠ zeroKey
  | credit12 _ issuer => issuer ≠ zeroKey

/-- No asset of the operation is issued by the zero key. -/
def OperationBody.Issued : OperationBody → Prop
  | payment _ asset _ => asset.Issued
  | manageSellOffer selling buying .. => selling.Issued ∧ buying.Issued
  | changeTrust (.asset asset) _ => asset.Issued
  | manageBuyOffer selling buying .. => selling.Issued ∧ buying.Issued
  | clawback asset _ _ => asset.Issued
  | _ => True

/-- The preconditions are read in step and no asset is issued by the zero key. -/
def Envelope.Regular : Envelope → Prop
  | v0 tx _ => ∀ operation ∈ tx.operations.1, operation.body.Issued
  | v1 tx _ => tx.preconditions.Aligned ∧ ∀ operation ∈ tx.operations.1, operation.body.Issued
  | feeBump _ _ inner _ _ => inner.preconditions.Aligned ∧ ∀ operation ∈ inner.operations.1, operation.body.Issued

/-- The word that a slack operation leaves. -/
def zeroWord : List UInt8 := [0, 0, 0, 0]

/-- An unsigned hyper has the bytes of the signed one. -/
lemma ulong_eq_hyper (n : UInt64) : Xenc.ulong n = Xenc.hyper n.toInt64 := by
  have value : (n.toInt64.toInt % 256 ^ 8).toNat = n.toNat := by
    have below := n.toNat_lt
    have int : n.toInt64.toInt = n.toBitVec.toInt := rfl
    rw [int, BitVec.toInt_eq_toNat_cond, UInt64.toNat_toBitVec]
    split
    · omega
    · omega
  rw [Xenc.hyper, Memory.packSigned, value]
  rfl

/-- Unsigned time bounds have the bytes of the signed ones. -/
lemma TimeBounds.bytes_eq (bounds : TimeBounds) :
    bounds.bytes = Horizon.TimeBounds.bytes ⟨bounds.minTime.toInt64, bounds.maxTime.toInt64⟩ := by
  rw [bytes, Horizon.TimeBounds.bytes, ulong_eq_hyper, ulong_eq_hyper]

/-- The decoder has a layout for the time bounds, if there are any. -/
lemma timeBounds_layout (bounds : Option TimeBounds) :
    ∃ layout : Option Horizon.TimeBounds,
      Xenc.optional TimeBounds.bytes bounds = Xenc.optional Horizon.TimeBounds.bytes layout := by
  cases bounds with
  | none => exact ⟨none, rfl⟩
  | some bounds => exact ⟨some _, congrArg (Xenc.boolean true ++ ·) bounds.bytes_eq⟩

/-- The decoder has a layout for preconditions that it reads in step. -/
lemma Preconditions.layout {preconditions : Preconditions} (aligned : preconditions.Aligned) :
    ∃ layout : Horizon.Preconditions, preconditions.bytes = layout.bytes := by
  cases preconditions with
  | none => exact ⟨.none, rfl⟩
  | time bounds => exact ⟨.time _, congrArg (Xenc.int 1 ++ ·) bounds.bytes_eq⟩
  | v2 timeBounds ledgerBounds minSeqNum minSeqAge gap extraSigners few =>
    obtain ⟨rfl, rfl⟩ := aligned
    obtain ⟨times, bytes⟩ := timeBounds_layout timeBounds
    -- the flag of the missing sequence number is read as the number, the empty array as the extension
    refine ⟨.v2 times ledgerBounds 0 minSeqAge.toInt64 gap 0, ?_⟩
    rw [Preconditions.bytes, Horizon.Preconditions.bytes, bytes, ulong_eq_hyper]
    rfl

/-- The decoder has a layout for every memo. -/
lemma Memo.layout (memo : Memo) : ∃ layout : Horizon.Memo, memo.bytes = layout.bytes ∧ memo.fields = layout.fields := by
  cases memo with
  | none => exact ⟨.none, rfl, rfl⟩
  | text content => exact ⟨.text (widen (by decide) content), rfl, rfl⟩
  | id number => exact ⟨.id number, rfl, rfl⟩
  | hash digest => exact ⟨.hash digest, rfl, rfl⟩
  | retHash digest => exact ⟨.retHash digest, rfl, rfl⟩

/-- The decoder has a layout for options whose signer has a plain key. -/
lemma SetOptions.layout {o : SetOptions} (aligned : ∀ signer ∈ o.signer, ∃ key, signer.key = .plain key) :
    ∃ layout : Horizon.SetOptions, o.bytes = layout.bytes ∧ o.fields = layout.fields := by
  obtain ⟨inflationDest, clearFlags, setFlags, masterWeight, low, med, high, homeDomain, signer⟩ := o
  have signed : ∃ layout : Option Horizon.Signer,
      Xenc.optional Signer.bytes signer = Xenc.optional Horizon.Signer.bytes layout ∧
        signer.map Signer.fields = layout.map Horizon.Signer.fields := by
    cases signer with
    | none => exact ⟨none, rfl, rfl⟩
    | some signer =>
      obtain ⟨key, weight⟩ := signer
      obtain ⟨plain, rfl⟩ := aligned _ rfl
      refine ⟨some ⟨plain, weight⟩, ?_, rfl⟩
      cases plain with
      | ed25519 key => simp [Xenc.optional, Signer.bytes, SignerKey.bytes, Horizon.Signer.bytes]
      | preAuthTx hash => simp [Xenc.optional, Signer.bytes, SignerKey.bytes, Horizon.Signer.bytes]
      | hashX hash => simp [Xenc.optional, Signer.bytes, SignerKey.bytes, Horizon.Signer.bytes]
  obtain ⟨layout, bytes, fields⟩ := signed
  refine ⟨⟨inflationDest.map .ed25519, clearFlags, setFlags, masterWeight, low, med, high,
    homeDomain.map (widen (by decide)), layout⟩, ?_, ?_⟩
  · rw [SetOptions.bytes, Horizon.SetOptions.bytes, bytes]
    congr 1
    · cases inflationDest with
      | none => rfl
      | some key => rfl
    · cases homeDomain with
      | none => rfl
      | some text => rfl
  · rw [SetOptions.fields, Horizon.SetOptions.fields, fields]
    congr 1
    · cases inflationDest with
      | none => rfl
      | some key => rfl
    · cases homeDomain with
      | none => rfl
      | some text => rfl

/-- What is read in step is laid out as the decoder expects it. -/
lemma Operation.layout {operation : Operation} (aligned : operation.body.Aligned) :
    ∃ layout : Horizon.Operation, operation.bytes = layout.bytes ∧ operation.fields = layout.fields := by
  obtain ⟨source, body⟩ := operation
  suffices same : ∃ layout : Horizon.OperationBody,
      body.opType = layout.opType ∧ body.bytes = layout.bytes ∧ body.fields = layout.fields by
    obtain ⟨layout, type, bytes, fields⟩ := same
    refine ⟨⟨source, layout⟩, ?_, ?_⟩
    · rw [Operation.bytes, Horizon.Operation.bytes, type, bytes]
    · rw [Operation.fields, Horizon.Operation.fields, type, fields]
  cases body with
  | createAccount destination balance => exact aligned.elim
  | payment destination asset amount =>
    obtain rfl := aligned
    exact ⟨.payment destination .native amount, rfl, rfl, rfl⟩
  | manageSellOffer selling buying amount price offerId =>
    obtain ⟨rfl, rfl⟩ := aligned
    exact ⟨.offer .sell .native .native amount price offerId, rfl, rfl, rfl⟩
  | createPassiveSellOffer selling buying amount price => exact aligned.elim
  | setOptions options =>
    obtain ⟨layout, bytes, fields⟩ := SetOptions.layout aligned
    exact ⟨.setOptions layout, rfl, bytes, fields⟩
  | changeTrust line limit =>
    obtain rfl := aligned
    exact ⟨.changeTrust .native limit, rfl, rfl, rfl⟩
  | accountMerge destination => exact ⟨.accountMerge destination, rfl, rfl, rfl⟩
  | inflation => exact ⟨.inflation, rfl, rfl, rfl⟩
  | manageData name value =>
    refine ⟨.manageData (widen (by decide) name) (value.map (widen (by decide))), rfl, ?_, ?_⟩
    · cases value with
      | none => rfl
      | some data => rfl
    · cases value with
      | none => rfl
      | some data => rfl
  | bumpSequence bumpTo => exact ⟨.bumpSequence bumpTo, rfl, rfl, rfl⟩
  | manageBuyOffer selling buying buyAmount price offerId =>
    obtain ⟨rfl, rfl⟩ := aligned
    exact ⟨.offer .buy .native .native buyAmount price offerId, rfl, rfl, rfl⟩
  | beginSponsoring sponsored => exact ⟨.beginSponsoring (.ed25519 sponsored), rfl, rfl, rfl⟩
  | endSponsoring => exact ⟨.endSponsoring, rfl, rfl, rfl⟩
  | clawback asset source amount =>
    obtain rfl := aligned
    exact ⟨.clawback .native source amount, rfl, rfl, rfl⟩
  | liquidityPoolDeposit pool maxAmountA maxAmountB minPrice maxPrice =>
    exact ⟨.liquidityPoolDeposit pool maxAmountA maxAmountB minPrice maxPrice, rfl, rfl, rfl⟩
  | liquidityPoolWithdraw pool amount minAmountA minAmountB =>
    exact ⟨.liquidityPoolWithdraw pool amount minAmountA minAmountB, rfl, rfl, rfl⟩
  | extendFootprintTtl extendTo => exact aligned.elim
  | restoreFootprint => exact aligned.elim

/-- A slack operation is laid out as the decoder expects it, but for a last word. -/
lemma Operation.layout_slack {operation : Operation} (slack : operation.body.Slack) :
    ∃ layout : Horizon.Operation,
      operation.bytes = layout.bytes ++ zeroWord ∧ operation.fields = layout.fields := by
  obtain ⟨source, body⟩ := operation
  cases body with
  | extendFootprintTtl extendTo =>
    obtain rfl := slack
    refine ⟨⟨source, .extendFootprintTtl 0⟩, ?_, rfl⟩
    simp only [Operation.bytes, Horizon.Operation.bytes, List.append_assoc]
    rfl
  | restoreFootprint =>
    refine ⟨⟨source, .restoreFootprint⟩, ?_, rfl⟩
    simp only [Operation.bytes, Horizon.Operation.bytes, List.append_assoc]
    rfl
  | _ => exact slack.elim

/-- The decoder has a layout for operations in step. -/
lemma operations_layout {operations : List Operation} (inStep : InStep operations) :
    ∃ layout : List Horizon.Operation, operations.length = layout.length ∧
      operations.flatMap Operation.bytes = layout.flatMap Horizon.Operation.bytes ∧
      operations.map (fun operation => Json.dict operation.fields) = operationsList layout := by
  induction operations with
  | nil => exact ⟨[], rfl, rfl, rfl⟩
  | cons operation operations ih =>
    obtain ⟨first, bytes, fields⟩ := Operation.layout (inStep operation List.mem_cons_self)
    obtain ⟨rest, length, flat, list⟩ := ih fun operation mem => inStep operation (List.mem_cons_of_mem _ mem)
    refine ⟨first :: rest, ?_, ?_, ?_⟩
    · rw [List.length_cons, List.length_cons, length]
    · rw [List.flatMap_cons, List.flatMap_cons, bytes, flat]
    · rw [List.map_cons, list, fields]
      rfl

/-- The word that the operations leave, where they are read as the format has them. -/
def Leaves (operations : List Operation) (word : List UInt8) : Prop :=
  word = [] ∧ InStep operations ∨ word = zeroWord ∧ LeavesWord operations

/-- Operations that leave a word are laid out in front of it. -/
lemma Leaves.layout {operations : List Operation} {word : List UInt8} (leaves : Leaves operations word) :
    ∃ layout : List Horizon.Operation, operations.length = layout.length ∧
      operations.flatMap Operation.bytes = layout.flatMap Horizon.Operation.bytes ++ word ∧
      operations.map (fun operation => Json.dict operation.fields) = operationsList layout := by
  rcases leaves with ⟨rfl, inStep⟩ | ⟨rfl, before, last, rfl, inStep, slack⟩
  · obtain ⟨layout, length, bytes, list⟩ := operations_layout inStep
    exact ⟨layout, length, by rw [bytes, List.append_nil], list⟩
  · obtain ⟨layout, length, bytes, list⟩ := operations_layout inStep
    obtain ⟨final, lastBytes, fields⟩ := Operation.layout_slack slack
    refine ⟨layout ++ [final], ?_, ?_, ?_⟩
    · rw [List.length_append, List.length_append, length]
      rfl
    · simp [bytes, lastBytes]
    · rw [List.map_append, list, List.map_singleton, fields, operationsList, operationsList, List.map_append]
      rfl

/-- The word that is left may change places with a zero word. -/
lemma Leaves.comm {operations : List Operation} {word : List UInt8} (leaves : Leaves operations word) :
    word ++ zeroWord = zeroWord ++ word := by
  rcases leaves with ⟨rfl, -⟩ | ⟨rfl, -⟩
  · rfl
  · rfl

/-- Operations that are read as the format has them leave a word, or none. -/
lemma leaves_of_or {operations : List Operation} (reads : InStep operations ∨ LeavesWord operations) :
    ∃ word, Leaves operations word := by
  rcases reads with inStep | leaves
  · exact ⟨[], .inl ⟨rfl, inStep⟩⟩
  · exact ⟨zeroWord, .inr ⟨rfl, leaves⟩⟩

/-- What leaves a word was read as the format has it. -/
lemma Leaves.or {operations : List Operation} {word : List UInt8} (leaves : Leaves operations word) :
    InStep operations ∨ LeavesWord operations :=
  leaves.imp And.right And.right

/-- The bytes of operations that leave a word. -/
lemma Leaves.bytes {operations : Operations} {word : List UInt8} (leaves : Leaves operations.1 word) :
    ∃ layout : List Horizon.Operation, layout.length ≤ 100 ∧ operations.bytes = operationsBytes layout ++ word ∧
      operations.entries = .list (operationsList layout) := by
  obtain ⟨layout, length, bytes, list⟩ := leaves.layout
  refine ⟨layout, length ▸ operations.2, ?_, ?_⟩
  · rw [Operations.bytes, operationsBytes, bytes, length, List.append_assoc]
  · rw [Operations.entries, list]

/-- No signatures are described by no entries. -/
lemma described_nil {signatures : Signatures} (none : signatures.1 = []) : signatures.Described (.list []) :=
  ⟨[], rfl, none ▸ .nil⟩

/-- No signatures are a zero word. -/
lemma Signatures.bytes_nil {signatures : Signatures} (none : signatures.1 = []) : signatures.bytes = zeroWord := by
  rw [Signatures.bytes, none]
  rfl

/-- An envelope that conforms begins with an envelope that the decoder knows. -/
lemma Envelope.layout {envelope : Envelope} (conforms : envelope.Conforms) :
    ∃ layout : Horizon.Envelope, layout.WellSized ∧ (∃ rest, envelope.bytes = layout.bytes ++ rest) ∧
      envelope.Described layout.fields := by
  cases envelope with
  | v0 tx signatures =>
    obtain ⟨source, fee, sequence, timeBounds, memo, operations⟩ := tx
    obtain ⟨reads, none⟩ := conforms
    obtain ⟨word, leaves⟩ := leaves_of_or reads
    obtain ⟨layout, few, bytes, entries⟩ := leaves.bytes
    obtain ⟨note, memoBytes, memoFields⟩ := memo.layout
    obtain ⟨times, timeBytes⟩ := timeBounds_layout timeBounds
    refine ⟨.v0 ⟨source, fee, sequence, times, note, layout⟩ [], ⟨few, by decide⟩, ⟨word ++ zeroWord, ?_⟩, ?_⟩
    · -- the extension of the transaction is read as the number of signatures
      have tail : word ++ (ext ++ signatures.bytes) = zeroWord ++ (word ++ zeroWord) := by
        rw [signatures.bytes_nil none, ← List.append_assoc zeroWord, ← leaves.comm, List.append_assoc]
        rfl
      simp only [Envelope.bytes, TransactionV0.bytes, bytes, memoBytes, timeBytes, Horizon.Envelope.bytes,
        Horizon.TransactionV0.bytes, List.append_assoc, tail]
      rfl
    · exact ⟨rfl, rfl, rfl, memoFields ▸ rfl, entries ▸ rfl, ⟨_, rfl, described_nil none⟩, rfl⟩
  | v1 tx signatures =>
    obtain ⟨source, fee, sequence, preconditions, memo, operations⟩ := tx
    obtain ⟨aligned, reads, none⟩ := conforms
    obtain ⟨word, leaves⟩ := leaves_of_or reads
    obtain ⟨layout, few, bytes, entries⟩ := leaves.bytes
    obtain ⟨note, memoBytes, memoFields⟩ := memo.layout
    obtain ⟨conditions, conditionBytes⟩ := Preconditions.layout aligned
    refine ⟨.v1 ⟨source, fee, sequence, conditions, note, layout, 0⟩ [], ⟨few, by decide⟩, ⟨word, ?_⟩, ?_⟩
    · have tail : word ++ (ext ++ signatures.bytes) = ext ++ (zeroWord ++ word) := by
        rw [signatures.bytes_nil none, ← leaves.comm, ← List.append_assoc, ← List.append_assoc]
        exact congrArg (· ++ zeroWord) leaves.comm
      simp only [Envelope.bytes, Transaction.bytes, bytes, memoBytes, conditionBytes, Horizon.Envelope.bytes,
        Horizon.TransactionV1.bytes, List.append_assoc, tail]
      rfl
    · exact ⟨rfl, rfl, rfl, memoFields ▸ rfl, entries ▸ rfl, ⟨_, rfl, described_nil none⟩, rfl⟩
  | feeBump feeSource fee inner innerSignatures signatures =>
    obtain ⟨source, innerFee, sequence, preconditions, memo, operations⟩ := inner
    obtain ⟨aligned, leavesWord, innerNone, none⟩ := conforms
    have leaves : Leaves operations.1 zeroWord := .inr ⟨rfl, leavesWord⟩
    obtain ⟨layout, few, bytes, entries⟩ := leaves.bytes
    obtain ⟨note, memoBytes, memoFields⟩ := memo.layout
    obtain ⟨conditions, conditionBytes⟩ := Preconditions.layout aligned
    refine ⟨.feeBump feeSource fee ⟨source, innerFee, sequence, conditions, note, layout, 0⟩ [] 0 0 [],
      ⟨few, by decide, by decide⟩, ⟨[], ?_⟩, ?_⟩
    · -- the word that is left makes up for the extension that the format does not have
      simp only [Envelope.bytes, Transaction.bytes, bytes, memoBytes, conditionBytes,
        innerSignatures.bytes_nil innerNone, signatures.bytes_nil none, Horizon.Envelope.bytes,
        Horizon.TransactionV1.bytes, List.append_assoc]
      rfl
    · refine ⟨rfl, rfl, ⟨_, rfl, ?_⟩, ⟨_, rfl, described_nil none⟩⟩
      exact ⟨rfl, rfl, rfl, memoFields ▸ rfl, entries ▸ rfl, ⟨_, rfl, described_nil innerNone⟩, rfl⟩

/-- The decoder describes an envelope that conforms. -/
lemma Envelope.decoded {envelope : Envelope} (conforms : envelope.Conforms) : envelope.Decoded := by
  obtain ⟨layout, sized, ⟨rest, bytes⟩, described⟩ := envelope.layout conforms
  refine ⟨layout.fields, ?_, described⟩
  rw [bytes]
  exact layout.parse_append sized rest

end StellarFlow.Horizon.Wire
