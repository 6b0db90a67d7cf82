import StellarFlow.Horizon.Conformance

/-!
# What the decoder misreads

The converse of `Envelope.decoded`: where the decoder describes a regular envelope of the published format,
the envelope conforms. An operation that is not read in step shows it in its own entries, an operation after
a slack one shows it in its type, and signatures cannot be right because the decoder takes four bytes more
for each of them than the format has.
-/

namespace StellarFlow.Horizon.Wire
open TextCodec XdrReader Py

/-- The bytes that the address of a key writes in base 32. -/
def checked (key : Hash32) : List UInt8 :=
  (accountVersionByte :: key.1) ++ Memory.pack .little 2 (crc16Xmodem (accountVersionByte :: key.1))

/-- A checked key has five times seven bytes. -/
lemma length_checked (key : Hash32) : (checked key).length = 5 * 7 := by
  rw [checked, List.length_append, List.length_cons, key.2, Memory.length_pack]

/-- An address is the text of the checked key. -/
lemma address_eq (key : Hash32) : address key = String.ofList (b32encode (checked key)) := by
  have whole : (b32encode (checked key)).rdropWhile (· = '=') = b32encode (checked key) := by
    rw [List.rdropWhile_eq_self_iff]
    intro nonempty last
    have mem := List.getLast_mem nonempty
    rw [of_decide_eq_true last] at mem
    exact b32encode_no_padding 7 (length_checked key) mem
  exact congrArg String.ofList whole

/-- An address tells the key. -/
lemma address_inj {key other : Hash32} (same : address key = address other) : key = other := by
  rw [address_eq, address_eq, String.ofList_inj] at same
  have bytes := b32encode_groups 7 (length_checked key) (length_checked other) same
  have front := (List.append_inj bytes (by rw [List.length_cons, List.length_cons, key.2, other.2])).1
  exact Subtype.ext (List.cons.inj front).2

/-- No address is empty. -/
lemma address_ne_empty (key : Hash32) : address key ≠ "" := by
  intro empty
  rw [address_eq, show "" = String.ofList [] from rfl, String.ofList_inj] at empty
  have length := length_checked key
  match checked key, length, empty with
  | a :: b :: c :: d :: e :: rest, _, empty => exact List.cons_ne_nil _ _ empty

/-- The key that is read four bytes too early. -/
def early (key : Hash32) : Hash32 :=
  ⟨Xenc.int 0 ++ key.1.take 28, by
    rw [List.length_append, List.length_take, key.2]
    rfl⟩

/-- What the decoder takes for the key ends in the last bytes of it. -/
lemma accountId_eq (key : Hash32) : accountId key = (early key).1 ++ key.1.drop 28 := by
  rw [accountId, early, List.append_assoc, List.take_append_drop]

/-- Only the zero key is the same four bytes earlier. -/
lemma eq_zeroKey {key : Hash32} (same : early key = key) : key = zeroKey := by
  have bytes : zeroWord ++ key.1.take 28 = key.1 := congrArg Subtype.val same
  have zero : ∀ i, i < 32 → key.1[i]? = some 0 := by
    intro i
    induction i using Nat.strong_induction_on with
    | _ i ih =>
      intro lt
      rw [← bytes]
      by_cases front : i < 4
      · rw [List.getElem?_append_left front]
        match i, front with
        | 0, _ => rfl
        | 1, _ => rfl
        | 2, _ => rfl
        | 3, _ => rfl
      · rw [List.getElem?_append_right (Nat.le_of_not_lt front), List.getElem?_take]
        have before := ih (i - 4) (by omega) (by omega)
        rw [if_pos (by show i - 4 < 28; omega)]
        exact before
  refine Subtype.ext (List.ext_getElem? fun i => ?_)
  by_cases lt : i < 32
  · rw [zero i lt, zeroKey, List.getElem?_replicate, if_pos lt]
  · rw [List.getElem?_eq_none (by rw [key.2]; omega), List.getElem?_eq_none (by rw [zeroKey.2]; omega)]

/-- The decoder reads another issuer of every credit asset than the zero key has issued. -/
lemma Asset.misread {asset : Asset} {before after : List UInt8} {c : Cursor} (issued : asset.Issued)
    (read : decodeAsset ⟨before ++ (asset.bytes ++ after), before.length⟩ = (.ok asset.fields, c)) :
    asset = .native := by
  cases asset with
  | native => rfl
  | credit4 code issuer =>
    have bytes : (credit4 code issuer).bytes ++ after =
        (Horizon.Asset.credit4 code (early issuer)).bytes ++ (issuer.1.drop 28 ++ after) := by
      simp only [Asset.bytes, Horizon.Asset.bytes, accountId_eq, List.append_assoc]
    rw [bytes, (Horizon.Asset.credit4 code (early issuer)).reads.run] at read
    have fields := Except.ok.inj (Prod.mk.inj read).1
    simp only [Asset.fields, Asset.layout, Horizon.Asset.fields, Horizon.Asset.creditFields, List.cons.injEq,
      Prod.mk.injEq, Json.str.injEq, true_and, and_true] at fields
    exact absurd (eq_zeroKey (address_inj fields)) issued
  | credit12 code issuer =>
    have bytes : (credit12 code issuer).bytes ++ after =
        (Horizon.Asset.credit12 code (early issuer)).bytes ++ (issuer.1.drop 28 ++ after) := by
      simp only [Asset.bytes, Horizon.Asset.bytes, accountId_eq, List.append_assoc]
    rw [bytes, (Horizon.Asset.credit12 code (early issuer)).reads.run] at read
    have fields := Except.ok.inj (Prod.mk.inj read).1
    simp only [Asset.fields, Asset.layout, Horizon.Asset.fields, Horizon.Asset.creditFields, List.cons.injEq,
      Prod.mk.injEq, Json.str.injEq, true_and, and_true] at fields
    exact absurd (eq_zeroKey (address_inj fields)) issued

/-- The dictionary of an operation has the entries of its body and those that every operation has. -/
lemma get?_operationFields_or (opType : ℤ) (source : Option Fields) {body : Fields} (key : String)
    (nodup : (body.map Prod.fst).Nodup) :
    Json.get? (operationFields opType source body) key =
      (Json.get? body key).or (Json.get? (operationFields opType source []) key) := by
  cases source with
  | none =>
    rw [operationFields, Json.get?_update _ nodup]
    rfl
  | some account =>
    rw [operationFields, Json.get?_update _ nodup]
    rfl

/-- The entries of an operation's body stand in its dictionary. -/
lemma get?_operationFields (opType : ℤ) (source : Option Fields) {body : Fields} {key : String} {value : Json}
    (nodup : (body.map Prod.fst).Nodup) (found : Json.get? body key = some value) :
    Json.get? (operationFields opType source body) key = some value := by
  rw [get?_operationFields_or _ _ _ nodup, found, Option.some_or]

/-- The entries of an operation have its type. -/
lemma get?_type (opType : ℤ) (source : Option Fields) {body : Fields} (nodup : (body.map Prod.fst).Nodup)
    (missing : Json.get? body "type" = none) :
    Json.get? (operationFields opType source body) "type" = some (.int opType) := by
  rw [get?_operationFields_or _ _ _ nodup, missing, Option.none_or]
  cases source with
  | none => rfl
  | some account => rfl

/-- The entries of an operation have its source account, if it has one. -/
lemma get?_source (opType : ℤ) (source : Option Fields) {body : Fields} (nodup : (body.map Prod.fst).Nodup)
    (missing : Json.get? body "source_account" = none) :
    Json.get? (operationFields opType source body) "source_account" = source.map .dict := by
  rw [get?_operationFields_or _ _ _ nodup, missing, Option.none_or]
  cases source with
  | none => rfl
  | some account => rfl

/-- Equal dictionaries of operations have equal entries. -/
lemma entry_eq {opType : ℤ} {source : Option Fields} {body other : Fields} {value value' : Json} (key : String)
    (same : operationFields opType source body = operationFields opType source other)
    (nodup : (body.map Prod.fst).Nodup) (nodup' : (other.map Prod.fst).Nodup)
    (found : Json.get? body key = some value) (found' : Json.get? other key = some value') : value = value' := by
  have left := get?_operationFields opType source nodup found
  rw [same, get?_operationFields opType source nodup' found'] at left
  exact (Option.some.inj left).symm

section Bodies
variable {source : Option Fields} {body : Fields} {before after : List UInt8} {c : Cursor}

/-- A word 0 in the place of the destination is read as an empty text. -/
lemma createAccount_misread {destination : Hash32} {balance : Int64}
    (read : decodeOperationBody 0 ⟨before ++ (zeroWord ++ after), before.length⟩ = (.ok body, c)) :
    operationFields 0 source body ≠
      operationFields 0 source (OperationBody.createAccount destination balance).fields := by
  intro same
  have word : Xenc.varOpaque [] = zeroWord := rfl
  have text : Reads readString (Xenc.varOpaque []) (decodeUtf8 []) := reads_string (by decide)
  rw [word] at text
  have rest := (text.run_bind before _).symm.trans read
  obtain ⟨amount, d, -, returned⟩ := Parser.bind_eq_ok.1 rest
  cases returned
  have entry := entry_eq "destination" same (by simp) (by simp [OperationBody.fields]) rfl rfl
  exact address_ne_empty destination (Json.str.inj entry).symm

/-- The decoder of offers reads five entries. -/
lemma offer_entries (read : opManageSellOffer ⟨before ++ after, before.length⟩ = (.ok body, c)) :
    ∃ selling c₁, decodeAsset ⟨before ++ after, before.length⟩ = (.ok selling, c₁) ∧
    ∃ buying c₂, decodeAsset c₁ = (.ok buying, c₂) ∧ ∃ amount price offerId,
      body = [("selling", .dict selling), ("buying", .dict buying), ("amount", .int amount),
        ("price", .dict price), ("offer_id", .int offerId)] := by
  obtain ⟨selling, c₁, first, read⟩ := Parser.bind_eq_ok.1 read
  obtain ⟨buying, c₂, second, read⟩ := Parser.bind_eq_ok.1 read
  obtain ⟨amount, c₃, -, read⟩ := Parser.bind_eq_ok.1 read
  obtain ⟨price, c₄, -, read⟩ := Parser.bind_eq_ok.1 read
  obtain ⟨offerId, c₅, -, returned⟩ := Parser.bind_eq_ok.1 read
  cases returned
  exact ⟨selling, c₁, first, buying, c₂, second, amount, price, offerId, rfl⟩

/-- The two offers with an id are read right only between native assets. -/
lemma offer_misread {opType : ℤ} {selling buying : Asset} {amount : Int64} {price : Price} {offerId : Int64}
    (issued : selling.Issued ∧ buying.Issued)
    (read : opManageSellOffer ⟨before ++ (selling.bytes ++ (buying.bytes ++ after)), before.length⟩ = (.ok body, c))
    (same : operationFields opType source body =
      operationFields opType source (OperationBody.offerFields selling buying amount price offerId)) :
    selling = .native ∧ buying = .native := by
  obtain ⟨sold, c₁, first, bought, c₂, second, _, _, _, rfl⟩ := offer_entries read
  have entry := entry_eq "selling" same (by simp) (by simp [OperationBody.offerFields]) rfl rfl
  have entry' := entry_eq "buying" same (by simp) (by simp [OperationBody.offerFields]) rfl rfl
  cases entry
  cases entry'
  obtain rfl := Asset.misread issued.1 first
  have start := (Horizon.Asset.native.reads.run before (buying.bytes ++ after)).symm.trans first
  cases start
  exact ⟨rfl, Asset.misread issued.2 second⟩

/-- A passive offer, which has four entries, is never read right. -/
lemma passive_misread {selling buying : Asset} {amount : Int64} {price : Price}
    (read : opManageSellOffer ⟨before ++ after, before.length⟩ = (.ok body, c)) :
    operationFields 4 source body ≠
      operationFields 4 source (OperationBody.createPassiveSellOffer selling buying amount price).fields := by
  intro same
  obtain ⟨sold, c₁, -, bought, c₂, -, _, _, offerId, entries⟩ := offer_entries read
  have nodup : (body.map Prod.fst).Nodup := by
    rw [entries]
    simp
  have id : Json.get? body "offer_id" = some (.int offerId) := by
    rw [entries]
    rfl
  have found := get?_operationFields 4 source nodup id
  rw [same] at found
  cases source with
  | none => cases found
  | some account => cases found

/-- Read right, a payment is of the native asset. -/
lemma payment_misread {destination : MuxedAccount} {asset : Asset} {amount : Int64} (issued : asset.Issued)
    (read : decodeOperationBody 1
      ⟨before ++ ((OperationBody.payment destination asset amount).bytes ++ after), before.length⟩ = (.ok body, c))
    (same : operationFields 1 source body =
      operationFields 1 source (OperationBody.payment destination asset amount).fields) :
    asset = .native := by
  simp only [OperationBody.bytes, List.append_assoc] at read
  have rest := (destination.reads.run_bind before _).symm.trans read
  obtain ⟨fields, c₁, first, rest⟩ := Parser.bind_eq_ok.1 rest
  obtain ⟨value, c₂, -, returned⟩ := Parser.bind_eq_ok.1 rest
  cases returned
  have entry := entry_eq "asset" same (by simp) (by simp [OperationBody.fields]) rfl rfl
  cases entry
  exact Asset.misread issued first

/-- Read right, a clawback is of the native asset. -/
lemma clawback_misread {asset : Asset} {account : MuxedAccount} {amount : Int64} (issued : asset.Issued)
    (read : decodeOperationBody 19
      ⟨before ++ ((OperationBody.clawback asset account amount).bytes ++ after), before.length⟩ = (.ok body, c))
    (same : operationFields 19 source body =
      operationFields 19 source (OperationBody.clawback asset account amount).fields) :
    asset = .native := by
  simp only [OperationBody.bytes, List.append_assoc] at read
  obtain ⟨fields, c₁, first, rest⟩ := Parser.bind_eq_ok.1 read
  obtain ⟨holder, c₂, -, rest⟩ := Parser.bind_eq_ok.1 rest
  obtain ⟨value, c₃, -, returned⟩ := Parser.bind_eq_ok.1 rest
  cases returned
  have entry := entry_eq "asset" same (by simp) (by simp [OperationBody.fields]) rfl rfl
  cases entry
  exact Asset.misread issued first

/-- Read right, the line of a trust is the native asset. -/
lemma changeTrust_misread {line : ChangeTrustAsset} {limit : Int64}
    (issued : (OperationBody.changeTrust line limit).Issued)
    (read : decodeOperationBody 6
      ⟨before ++ ((OperationBody.changeTrust line limit).bytes ++ after), before.length⟩ = (.ok body, c))
    (same : operationFields 6 source body =
      operationFields 6 source (OperationBody.changeTrust line limit).fields) :
    line = .asset .native := by
  simp only [OperationBody.bytes, List.append_assoc] at read
  obtain ⟨fields, c₁, first, rest⟩ := Parser.bind_eq_ok.1 read
  obtain ⟨value, c₂, -, returned⟩ := Parser.bind_eq_ok.1 rest
  cases returned
  have entry := entry_eq "line" same (by simp) (by simp [OperationBody.fields]) rfl rfl
  cases line with
  | asset asset =>
    cases entry
    rw [Asset.misread issued first]
  | poolShare assetA assetB fee =>
    -- the parameters of the pool are read as its id
    simp only [ChangeTrustAsset.bytes, List.append_assoc] at first
    have pool := ((reads_int 3).run_bind before _).symm.trans first
    obtain ⟨id, c₃, -, returned⟩ := Parser.bind_eq_ok.1 pool
    cases returned
    simp [ChangeTrustAsset.fields] at entry

/-- Options that are read have a plain key for their signer. -/
lemma setOptions_misread {options : SetOptions}
    (read : decodeOperationBody 5 ⟨before ++ ((OperationBody.setOptions options).bytes ++ after), before.length⟩ =
      (.ok body, c)) :
    ∀ signer ∈ options.signer, ∃ key, signer.key = .plain key := by
  intro signer mem
  obtain ⟨key, weight⟩ := signer
  cases key with
  | plain key => exact ⟨key, rfl⟩
  | signedPayload key payload =>
    have flag : ∀ x : Option UInt32,
        Reads (readOptional readUint) (Xenc.optional Xenc.uint x) (x.map UInt32.toNat) :=
      fun x => reads_optional x fun value _ => reads_uint value
    have dest : Reads (readOptional decodeMuxedAccount) (Xenc.optional accountId options.inflationDest)
        (options.inflationDest.map fun key => (MuxedAccount.ed25519 key).fields) :=
      reads_optional _ fun key _ => (MuxedAccount.ed25519 key).reads
    have domain : Reads (readOptional readString)
        (Xenc.optional (fun text => Xenc.varOpaque text.1) options.homeDomain)
        (options.homeDomain.map fun text => decodeUtf8 text.1) :=
      reads_optional _ fun text _ => (widen (by decide) text).readsString
    have signed : Xenc.optional Signer.bytes options.signer =
        Xenc.boolean true ++ (Xenc.int 3 ++ (key.1 ++ (Xenc.varOpaque payload.1 ++ Xenc.uint weight))) := by
      rw [Option.mem_def.1 mem]
      simp only [Xenc.optional, Signer.bytes, SignerKey.bytes, List.append_assoc]
    simp only [OperationBody.bytes, SetOptions.bytes, signed, List.append_assoc] at read
    have rest := (dest.run_bind before _).symm.trans read
    have rest := ((flag options.clearFlags).run_bind _ _).symm.trans rest
    have rest := ((flag options.setFlags).run_bind _ _).symm.trans rest
    have rest := ((flag options.masterWeight).run_bind _ _).symm.trans rest
    have rest := ((flag options.lowThreshold).run_bind _ _).symm.trans rest
    have rest := ((flag options.medThreshold).run_bind _ _).symm.trans rest
    have rest := ((flag options.highThreshold).run_bind _ _).symm.trans rest
    have rest := (domain.run_bind _ _).symm.trans rest
    obtain ⟨last, c₁, optional, -⟩ := Parser.bind_eq_ok.1 rest
    have present := ((reads_bool true).run_bind _ _).symm.trans optional
    obtain ⟨fields, c₂, signer, -⟩ := Parser.bind_eq_ok.1 present
    have typed := ((reads_int 3).run_bind _ _).symm.trans signer
    obtain ⟨entries, c₃, raised, -⟩ := Parser.bind_eq_ok.1 typed
    cases raised

end Bodies

/-- Where an operation is read right, its body was read from where it starts. -/
lemma Operation.body_read {operation : Operation} {before after : List UInt8} {c : Cursor}
    (read : decodeOperation ⟨before ++ (operation.bytes ++ after), before.length⟩ = (.ok operation.fields, c)) :
    ∃ start entries, decodeOperationBody operation.body.opType.toInt
        ⟨start ++ (operation.body.bytes ++ after), start.length⟩ = (.ok entries, c) ∧
      operationFields operation.body.opType.toInt (operation.source.map MuxedAccount.fields) entries =
        operation.fields := by
  have account := reads_optional operation.source fun account _ => account.reads
  simp only [Operation.bytes, List.append_assoc] at read
  have rest := (account.run_bind before _).symm.trans read
  have rest := ((reads_int operation.body.opType).run_bind _ _).symm.trans rest
  obtain ⟨entries, d, body, returned⟩ := Parser.bind_eq_ok.1 rest
  obtain ⟨value, rfl⟩ := Prod.mk.inj returned
  exact ⟨_, entries, body, Except.ok.inj value⟩

/-- An operation whose entries are right is read in step, or leaves a word. -/
lemma Operation.misread {operation : Operation} {before after : List UInt8} {c : Cursor}
    (issued : operation.body.Issued)
    (read : decodeOperation ⟨before ++ (operation.bytes ++ after), before.length⟩ = (.ok operation.fields, c)) :
    operation.body.Aligned ∨ operation.body.Slack := by
  obtain ⟨start, entries, read, same⟩ := Operation.body_read read
  obtain ⟨source, body⟩ := operation
  cases body with
  | createAccount destination balance =>
    simp only [OperationBody.bytes, accountId, List.append_assoc] at read
    exact absurd same (createAccount_misread read)
  | payment destination asset amount => exact .inl (payment_misread issued read same)
  | manageSellOffer selling buying amount price offerId =>
    simp only [OperationBody.bytes, List.append_assoc] at read
    exact .inl (offer_misread issued read same)
  | createPassiveSellOffer selling buying amount price => exact absurd same (passive_misread read)
  | setOptions options => exact .inl (setOptions_misread read)
  | changeTrust line limit => exact .inl (changeTrust_misread issued read same)
  | manageBuyOffer selling buying buyAmount price offerId =>
    simp only [OperationBody.bytes, List.append_assoc] at read
    exact .inl (offer_misread issued read same)
  | clawback asset holder amount => exact .inl (clawback_misread issued read same)
  | extendFootprintTtl extendTo =>
    -- the extension is read as the number
    simp only [OperationBody.bytes, List.append_assoc] at read
    have rest := ((reads_uint 0).run_bind _ _).symm.trans read
    cases rest
    have entry := entry_eq "extend_to" same (by simp) (by simp [OperationBody.fields]) rfl rfl
    refine .inr (UInt32.toNat_inj.1 ?_)
    exact (Int.ofNat.inj (Json.int.inj entry)).symm
  | restoreFootprint => exact .inr trivial
  | accountMerge destination => exact .inl trivial
  | inflation => exact .inl trivial
  | manageData name value => exact .inl trivial
  | bumpSequence bumpTo => exact .inl trivial
  | beginSponsoring sponsored => exact .inl trivial
  | endSponsoring => exact .inl trivial
  | liquidityPoolDeposit pool maxAmountA maxAmountB minPrice maxPrice => exact .inl trivial
  | liquidityPoolWithdraw pool amount minAmountA minAmountB => exact .inl trivial

/-- The entries of a body are distinct, and neither its type nor its source is among them. -/
lemma OperationBody.keys (body : OperationBody) : (body.fields.map Prod.fst).Nodup ∧
    Json.get? body.fields "type" = none ∧ Json.get? body.fields "source_account" = none := by
  cases body with
  | setOptions options => simp [fields, SetOptions.fields, Json.get?_eq_none]
  | manageSellOffer selling buying amount price offerId => simp [fields, offerFields, Json.get?_eq_none]
  | manageBuyOffer selling buying buyAmount price offerId => simp [fields, offerFields, Json.get?_eq_none]
  | _ => simp [fields, Json.get?_eq_none]

/-- An operation that is read one word too early does not get its own entries. -/
lemma Operation.late {operation : Operation} {before after : List UInt8} {c : Cursor} :
    decodeOperation ⟨before ++ (zeroWord ++ (operation.bytes ++ after)), before.length⟩ ≠
      (.ok operation.fields, c) := by
  intro read
  obtain ⟨source, body⟩ := operation
  obtain ⟨nodup, noType, noSource⟩ := body.keys
  have none : Reads (readOptional decodeMuxedAccount) zeroWord Option.none :=
    (reads_bool false).last (.pure Option.none)
  have rest := (none.run_bind before _).symm.trans read
  cases source with
  | none =>
    -- the flag of the missing account is read as the type
    simp only [Operation.bytes, Xenc.optional] at rest
    rw [List.append_assoc (Xenc.boolean false), List.append_assoc (Xenc.int body.opType)] at rest
    have rest := ((reads_int 0).run_bind _ _).symm.trans rest
    obtain ⟨entries, d, read, returned⟩ := Parser.bind_eq_ok.1 rest
    have same : operationFields 0 Option.none entries = operationFields body.opType.toInt Option.none body.fields :=
      Except.ok.inj (Prod.mk.inj returned).1
    have found : Json.get? (operationFields 0 Option.none entries) "type" = some (.int 0) := by
      obtain ⟨text, d₁, -, later⟩ := Parser.bind_eq_ok.1 read
      obtain ⟨amount, d₂, -, stop⟩ := Parser.bind_eq_ok.1 later
      cases stop
      exact get?_type 0 Option.none (by simp) rfl
    rw [same, get?_type _ _ nodup noType] at found
    cases body with
    | createAccount destination balance =>
      have word : Xenc.int 0 = zeroWord := by decide
      rw [OperationBody.opType, word] at read
      exact createAccount_misread read same
    | _ =>
      have zero := Json.int.inj (Option.some.inj found)
      simp only [OperationBody.opType] at zero
      exact absurd zero (by decide)
  | some account =>
    simp only [Operation.bytes, Xenc.optional] at rest
    rw [List.append_assoc (Xenc.boolean true ++ _), List.append_assoc (Xenc.boolean true)] at rest
    have rest := ((reads_int 1).run_bind _ _).symm.trans rest
    obtain ⟨entries, d, read, returned⟩ := Parser.bind_eq_ok.1 rest
    have same : operationFields 1 Option.none entries =
        operationFields body.opType.toInt (some account.fields) body.fields :=
      Except.ok.inj (Prod.mk.inj returned).1
    have found : Json.get? (operationFields 1 Option.none entries) "source_account" = Option.none := by
      obtain ⟨destination, d₁, -, later⟩ := Parser.bind_eq_ok.1 read
      obtain ⟨asset, d₂, -, later⟩ := Parser.bind_eq_ok.1 later
      obtain ⟨amount, d₃, -, stop⟩ := Parser.bind_eq_ok.1 later
      cases stop
      exact get?_source 1 Option.none (by simp) rfl
    rw [same, get?_source _ _ nodup noSource] at found
    cases found

/-- What an attempt reads, its decoder reads. -/
lemma attempt_some {α : Type} {decoder : Decoder α} {value : α} {c d : Cursor}
    (read : attempt decoder c = (.ok (some value), d)) : decoder c = (.ok value, d) := by
  rcases result : decoder c with ⟨e | v, d'⟩
  · rw [attempt_error result] at read
    split at read
    · cases read
    · cases read
  · rw [attempt_ok result] at read
    cases read
    rfl

/-- The loop keeps the operations it has. -/
lemma decodeOperationsFrom_prefix {count index : ℕ} {operations list : List Json} {complete : Bool}
    {truncatedAt : Option ℕ} {c d : Cursor}
    (read : decodeOperationsFrom count index operations c = (.ok (list, complete, truncatedAt), d)) :
    operations <+: list := by
  induction count generalizing index operations c with
  | zero =>
    cases read
    exact List.prefix_rfl
  | succ count ih =>
    obtain ⟨operation, c₁, -, rest⟩ := Parser.bind_eq_ok.1 read
    cases operation with
    | none =>
      cases rest
      exact List.prefix_rfl
    | some fields => exact (List.prefix_append _ _).trans (ih rest)

/-- The first turn of a loop that returns the right operations. -/
lemma first_operation {operation : Operation} {operations : List Operation} {index : ℕ} {before : List Json}
    {truncatedAt : Option ℕ} {c d : Cursor}
    (read : decodeOperationsFrom (operation :: operations).length index before c =
      (.ok (before ++ (operation :: operations).map (fun o => Json.dict o.fields), true, truncatedAt), d)) :
    ∃ c₁, decodeOperation c = (.ok operation.fields, c₁) ∧
      decodeOperationsFrom operations.length (index + 1) (before ++ [Json.dict operation.fields]) c₁ =
        (.ok ((before ++ [Json.dict operation.fields]) ++ operations.map (fun o => Json.dict o.fields), true,
          truncatedAt), d) := by
  obtain ⟨first, c₁, read, rest⟩ := Parser.bind_eq_ok.1 read
  cases first with
  | none => exact Bool.noConfusion (Prod.mk.inj (Prod.mk.inj (Except.ok.inj (Prod.mk.inj rest).1)).2).1
  | some fields =>
    rw [List.map_cons, List.append_cons] at rest
    have front := decodeOperationsFrom_prefix rest
    rw [List.append_assoc, List.prefix_append_right_inj, List.singleton_append, List.cons_prefix_cons] at front
    cases front.1
    exact ⟨c₁, attempt_some read, rest⟩

/-- Operations whose entries are right are read in step, up to a word that the last one leaves. -/
lemma operations_misread {operations : List Operation} {index : ℕ} {list : List Json} {truncatedAt : Option ℕ}
    {before after : List UInt8} {c : Cursor} (issued : ∀ operation ∈ operations, operation.body.Issued)
    (read : decodeOperationsFrom operations.length index list
      ⟨before ++ (operations.flatMap Operation.bytes ++ after), before.length⟩ =
        (.ok (list ++ operations.map (fun o => .dict o.fields), true, truncatedAt), c)) :
    InStep operations ∨ LeavesWord operations := by
  induction operations generalizing index list before with
  | nil => exact .inl fun _ mem => absurd mem List.not_mem_nil
  | cons operation operations ih =>
    have later : ∀ o ∈ operations, o.body.Issued := fun o mem => issued o (List.mem_cons_of_mem _ mem)
    obtain ⟨c₁, first, rest⟩ := first_operation read
    rw [List.flatMap_cons, List.append_assoc] at first
    rcases Operation.misread (issued operation List.mem_cons_self) first with aligned | slack
    · obtain ⟨layout, bytes, fields⟩ := Operation.layout aligned
      rw [bytes, layout.reads.run] at first
      obtain ⟨-, rfl⟩ := Prod.mk.inj first
      rcases ih later rest with inStep | ⟨front, last, rfl, inStep, slack⟩
      · exact .inl (List.forall_mem_cons.2 ⟨aligned, inStep⟩)
      · exact .inr ⟨operation :: front, last, rfl, List.forall_mem_cons.2 ⟨aligned, inStep⟩, slack⟩
    · cases operations with
      | nil => exact .inr ⟨[], operation, rfl, fun _ mem => absurd mem List.not_mem_nil, slack⟩
      | cons next operations =>
        obtain ⟨layout, bytes, fields⟩ := Operation.layout_slack slack
        rw [bytes, List.append_assoc, layout.reads.run] at first
        obtain ⟨-, rfl⟩ := Prod.mk.inj first
        obtain ⟨c₂, second, -⟩ := first_operation rest
        rw [List.flatMap_cons, List.append_assoc next.bytes] at second
        exact absurd second Operation.late

/-- Taking bytes moves past them. -/
lemma take_ok {n : ℕ} {c d : Cursor} {bytes : List UInt8} (read : take n c = (.ok bytes, d)) :
    bytes.length = n ∧ d = ⟨c.data, c.pos + n⟩ ∧ c.pos + n ≤ c.data.length := by
  rw [take] at read
  split at read
  case isTrue short => cases read
  case isFalse room =>
    have fits := Nat.le_of_not_lt room
    cases read
    exact ⟨Memory.length_slice fits, rfl, fits⟩

/-- Reading a number moves past a word. -/
lemma readUint_ok {c d : Cursor} {n : ℕ} (read : readUint c = (.ok n, d)) :
    d = ⟨c.data, c.pos + 4⟩ ∧ c.pos + 4 ≤ c.data.length := by
  obtain ⟨bytes, d', first, returned⟩ := Parser.bind_eq_ok.1 read
  cases returned
  exact (take_ok first).2

/-- Reading a signed number moves past a word. -/
lemma readInt_ok {c d : Cursor} {n : ℤ} (read : readInt c = (.ok n, d)) :
    d = ⟨c.data, c.pos + 4⟩ ∧ c.pos + 4 ≤ c.data.length := by
  obtain ⟨bytes, d', first, returned⟩ := Parser.bind_eq_ok.1 read
  cases returned
  exact (take_ok first).2

/-- Reading bytes of variable length moves past them and their padding. -/
lemma readVarOpaque_ok {most : Option ℕ} {c d : Cursor} {bytes : List UInt8}
    (read : readVarOpaque most c = (.ok bytes, d)) :
    d = ⟨c.data, c.pos + 4 + bytes.length + padding bytes.length⟩ ∧ c.pos + 4 + bytes.length ≤ c.data.length := by
  obtain ⟨n, c₁, first, rest⟩ := Parser.bind_eq_ok.1 read
  obtain ⟨rfl, -⟩ := readUint_ok first
  split at rest
  · cases rest
  · split at rest
    · cases rest
    · obtain ⟨data, c₂, second, rest⟩ := Parser.bind_eq_ok.1 rest
      obtain ⟨rfl, rfl, fits⟩ := take_ok second
      cases rest
      exact ⟨rfl, fits⟩

/-- A signature that is read right takes four bytes more than the format has for it. -/
lemma decodeSignature_ok {c d : Cursor} {entry : Fields} {signature : DecoratedSignature}
    (read : decodeSignature c = (.ok (.dict entry), d))
    (found : Json.get? entry "signature" = some (.str (String.ofList (b64encode signature.signature.1)))) :
    d = ⟨c.data, c.pos + (signature.bytes.length + 4)⟩ ∧ d.pos ≤ d.data.length + 3 := by
  obtain ⟨hint, c₁, first, rest⟩ := Parser.bind_eq_ok.1 read
  obtain ⟨-, rfl, -⟩ := take_ok first
  obtain ⟨type, c₂, second, rest⟩ := Parser.bind_eq_ok.1 rest
  obtain ⟨rfl, -⟩ := readInt_ok second
  split at rest
  · obtain ⟨raw, c₃, third, returned⟩ := Parser.bind_eq_ok.1 rest
    obtain ⟨rfl, fits⟩ := readVarOpaque_ok third
    cases returned
    have text := Json.str.inj (Option.some.inj found)
    have length := length_eq_of_b64encode (String.ofList_inj.1 text)
    have wide : signature.bytes.length = 8 + raw.length + padding raw.length := by
      rw [DecoratedSignature.bytes, Xenc.varOpaque, ← length]
      simp only [List.length_append, signature.hint.2, Xenc.uint, Memory.length_pack, List.length_replicate, length]
      omega
    have pad : padding raw.length ≤ 3 := by
      rw [padding]
      omega
    refine ⟨?_, ?_⟩
    · have pos : c.pos + 4 + 4 + 4 + raw.length + padding raw.length =
          c.pos + (8 + raw.length + padding raw.length + 4) := by omega
      rw [wide, ← pos]
    · show c.pos + 4 + 4 + 4 + raw.length + padding raw.length ≤ c.data.length + 3
      have room : c.pos + 4 + 4 + 4 + raw.length ≤ c.data.length := fits
      omega
  · split at rest
    · obtain ⟨key, c₃, -, rest⟩ := Parser.bind_eq_ok.1 rest
      obtain ⟨payload, c₄, -, returned⟩ := Parser.bind_eq_ok.1 rest
      cases returned
      cases found
    · cases rest

/-- The two facts about signatures that are read right, over the whole array. -/
lemma signatures_ok {signatures : List DecoratedSignature} {entries : List Fields} {count : ℕ} {c d : Cursor}
    (read : Parser.times decodeSignature count c = (.ok (entries.map .dict), d))
    (described : List.Forall₂ (fun (signature : DecoratedSignature) entry =>
      Json.get? entry "hint" = some (.str (hex signature.hint.1)) ∧
      Json.get? entry "signature" = some (.str (String.ofList (b64encode signature.signature.1))))
      signatures entries) (room : c.pos ≤ c.data.length) :
    d = ⟨c.data, c.pos + ((signatures.flatMap DecoratedSignature.bytes).length + 4 * signatures.length)⟩ ∧
      d.pos ≤ d.data.length + 3 := by
  have start : c.pos ≤ c.data.length + 3 := by omega
  clear room
  induction described generalizing count c with
  | nil =>
    cases count with
    | zero =>
      cases read
      exact ⟨rfl, start⟩
    | succ count =>
      obtain ⟨x, c₁, -, rest⟩ := Parser.bind_eq_ok.1 read
      obtain ⟨xs, c₂, -, returned⟩ := Parser.bind_eq_ok.1 rest
      cases returned
  | @cons signature entry signatures entries head tail ih =>
    cases count with
    | zero => cases read
    | succ count =>
      obtain ⟨x, c₁, first, rest⟩ := Parser.bind_eq_ok.1 read
      obtain ⟨xs, c₂, later, returned⟩ := Parser.bind_eq_ok.1 rest
      obtain ⟨value, rfl⟩ := Prod.mk.inj returned
      obtain ⟨rfl, rfl⟩ := List.cons.inj (Except.ok.inj value)
      obtain ⟨rfl, bound⟩ := decodeSignature_ok first head.2
      obtain ⟨rfl, bound'⟩ := ih later bound
      refine ⟨?_, bound'⟩
      have pos : c.pos + (signature.bytes.length + 4) +
          ((signatures.flatMap DecoratedSignature.bytes).length + 4 * signatures.length) =
          c.pos + (((signature :: signatures).flatMap DecoratedSignature.bytes).length +
            4 * (signature :: signatures).length) := by
        rw [List.flatMap_cons, List.length_append, List.length_cons]
        omega
      rw [← pos]

/-- Signatures that are read right take four bytes more each than they have. -/
lemma Signatures.count {signatures : Signatures} {list : List Json} {c d : Cursor}
    (read : decodeSignatures c = (.ok list, d)) (described : signatures.Described (.list list)) :
    d = ⟨c.data, c.pos + (signatures.bytes.length + 4 * signatures.1.length)⟩ ∧ d.pos ≤ d.data.length + 3 := by
  obtain ⟨entries, same, each⟩ := described
  obtain ⟨n, c₁, first, rest⟩ := Parser.bind_eq_ok.1 read
  obtain ⟨rfl, room⟩ := readUint_ok first
  rw [Json.list.inj same] at rest
  obtain ⟨rfl, bound⟩ := signatures_ok rest each room
  refine ⟨?_, bound⟩
  have length : signatures.bytes.length = 4 + (signatures.1.flatMap DecoratedSignature.bytes).length := by
    rw [Signatures.bytes, List.length_append, Xenc.uint, Memory.length_pack]
  have pos : c.pos + 4 + ((signatures.1.flatMap DecoratedSignature.bytes).length + 4 * signatures.1.length) =
      c.pos + (signatures.bytes.length + 4 * signatures.1.length) := by omega
  rw [← pos]

/-- A word 0 is read as an array without signatures. -/
lemma reads_noSignatures : Reads decodeSignatures zeroWord [] :=
  (reads_uint 0).last (.pure [])

/-- No entries describe no signatures. -/
lemma Signatures.eq_nil {signatures : Signatures} (described : signatures.Described (.list [])) :
    signatures.1 = [] := by
  obtain ⟨entries, same, each⟩ := described
  rw [List.map_eq_nil_iff.1 (Json.list.inj same).symm] at each
  exact List.forall₂_nil_right_iff.1 each

/-- The operations that are described are read up to a word that they leave. -/
lemma Operations.misread {operations : Operations} {before after : List UInt8} {list : List Json}
    {truncatedAt : Option ℕ} {c : Cursor} (issued : ∀ operation ∈ operations.1, operation.body.Issued)
    (read : decodeOperations ⟨before ++ (operations.bytes ++ after), before.length⟩ =
      (.ok (list, true, truncatedAt), c)) (same : .list list = operations.entries) :
    ∃ word start, Leaves operations.1 word ∧ c = ⟨start ++ (word ++ after), start.length⟩ := by
  have few := operations.2
  have number : (UInt32.ofNat operations.1.length).toNat = operations.1.length :=
    UInt32.toNat_ofNat_of_lt (lt_of_le_of_lt few (by decide))
  have loop := read
  rw [Operations.bytes, List.append_assoc] at loop
  have loop := ((reads_uint _).run_bind _ _).symm.trans loop
  rw [number, if_neg (by omega), Json.list.inj same] at loop
  obtain ⟨word, leaves⟩ := leaves_of_or (operations_misread issued loop)
  obtain ⟨layout, few, bytes, -⟩ := leaves.bytes
  rw [bytes, List.append_assoc, (reads_operations few).run] at read
  obtain ⟨-, rfl⟩ := Prod.mk.inj read
  exact ⟨word, _, leaves, rfl⟩

/-- A transaction of the second format whose operations are described is read up to the word they leave. -/
lemma Transaction.misread {tx : Transaction} {before after : List UInt8} {entries : Fields} {c : Cursor}
    (aligned : tx.preconditions.Aligned) (issued : ∀ operation ∈ tx.operations.1, operation.body.Issued)
    (read : transactionV1 ⟨before ++ (tx.bytes ++ after), before.length⟩ = (.ok entries, c))
    (operations : Json.get? entries "operations" = some tx.operations.entries)
    (complete : Json.get? entries "decode_complete" = some (.bool true)) :
    ∃ word start, Leaves tx.operations.1 word ∧ c = ⟨start ++ (word ++ after), start.length⟩ := by
  obtain ⟨conditions, conditionBytes⟩ := Preconditions.layout aligned
  obtain ⟨note, memoBytes, -⟩ := tx.memo.layout
  simp only [Transaction.bytes, conditionBytes, memoBytes, List.append_assoc] at read
  have rest := (tx.source.reads.run_bind _ _).symm.trans read
  have rest := ((reads_uint tx.fee).run_bind _ _).symm.trans rest
  have rest := ((reads_hyper tx.sequence).run_bind _ _).symm.trans rest
  have rest := (conditions.reads.run_bind _ _).symm.trans rest
  have rest := (note.reads.run_bind _ _).symm.trans rest
  obtain ⟨⟨list, done, truncatedAt⟩, c₁, first, rest⟩ := Parser.bind_eq_ok.1 rest
  obtain ⟨extension, c₂, second, returned⟩ := Parser.bind_eq_ok.1 rest
  obtain ⟨value, rfl⟩ := Prod.mk.inj returned
  obtain rfl := Except.ok.inj value
  obtain rfl : done = true := Json.bool.inj (Option.some.inj complete)
  obtain ⟨word, start, leaves, rfl⟩ := Operations.misread issued first (Option.some.inj operations)
  -- the extension is the word that the operations leave, or their own
  have shift : word ++ (ext ++ after) = Xenc.int 0 ++ (word ++ after) := by
    rw [← List.append_assoc, ← List.append_assoc]
    exact congrArg (· ++ after) leaves.comm
  rw [shift, (reads_int 0).run] at second
  obtain ⟨-, rfl⟩ := Prod.mk.inj second
  exact ⟨word, _, leaves, rfl⟩

/-- A transaction of the first format whose operations are described is read up to the word they leave. -/
lemma TransactionV0.misread {tx : TransactionV0} {before after : List UInt8} {entries : Fields} {c : Cursor}
    (issued : ∀ operation ∈ tx.operations.1, operation.body.Issued)
    (read : transactionV0 ⟨before ++ (tx.bytes ++ after), before.length⟩ = (.ok entries, c))
    (operations : Json.get? entries "operations" = some tx.operations.entries)
    (complete : Json.get? entries "decode_complete" = some (.bool true)) :
    ∃ word start, Leaves tx.operations.1 word ∧ c = ⟨start ++ (word ++ (ext ++ after)), start.length⟩ := by
  obtain ⟨note, memoBytes, -⟩ := tx.memo.layout
  obtain ⟨times, timeBytes⟩ := timeBounds_layout tx.timeBounds
  have bounds := reads_optional times fun bounds _ => bounds.reads
  simp only [TransactionV0.bytes, timeBytes, memoBytes, List.append_assoc] at read
  have rest := ((reads_fixed tx.source).run_bind _ _).symm.trans read
  obtain ⟨account, c₁, lifted, rest⟩ := Parser.bind_eq_ok.1 rest
  obtain ⟨-, rfl⟩ := Prod.mk.inj lifted
  have rest := ((reads_uint tx.fee).run_bind _ _).symm.trans rest
  have rest := ((reads_hyper tx.sequence).run_bind _ _).symm.trans rest
  have rest := (bounds.run_bind _ _).symm.trans rest
  have rest := (note.reads.run_bind _ _).symm.trans rest
  obtain ⟨⟨list, done, truncatedAt⟩, c₂, first, returned⟩ := Parser.bind_eq_ok.1 rest
  obtain ⟨value, rfl⟩ := Prod.mk.inj returned
  obtain rfl := Except.ok.inj value
  obtain rfl : done = true := Json.bool.inj (Option.some.inj complete)
  exact Operations.misread issued first (Option.some.inj operations)

/-- Another entry leaves it complete. -/
lemma decodeComplete_set {tx : Fields} {key : String} {value : Json} (other : "decode_complete" ≠ key)
    (complete : Json.get? tx "decode_complete" = some (.bool true)) :
    decodeComplete (Json.set tx key value) = true := by
  rw [decodeComplete, Json.get?_set, if_neg other, complete]
  rfl

/-- An envelope that is decoded to its end is a transaction with its signatures. -/
lemma decodeEnvelope_ok {transaction : Decoder Fields} {name : String} {entries : Fields} {c d : Cursor}
    (read : decodeEnvelope transaction name c = (.ok entries, d))
    (complete : Json.get? entries "decode_complete" = some (.bool true)) :
    ∃ tx c₁ list, transaction c = (.ok tx, c₁) ∧ decodeSignatures c₁ = (.ok list, d) ∧
      entries = Json.set (Json.set tx "envelope_type" (.str name)) "signatures" (.list list) := by
  obtain ⟨tx, c₁, first, rest⟩ := Parser.bind_eq_ok.1 read
  split at rest
  · obtain ⟨signatures, c₂, second, rest⟩ := Parser.bind_eq_ok.1 rest
    cases signatures with
    | none =>
      cases rest
      rw [Json.get?_set, if_pos rfl] at complete
      cases complete
    | some list =>
      cases rest
      exact ⟨tx, c₁, list, first, attempt_some second, rfl⟩
  · rename_i incomplete
    cases rest
    rw [Json.get?_set, if_neg (by decide), Json.get?_set, if_neg (by decide)] at complete
    exact absurd (decodeComplete_set (by decide) complete) incomplete

/-- The inner transaction of a fee bump that is decoded to its end is followed by its signatures and a word. -/
lemma decodeInnerTransaction_ok {entries : Fields} {c d : Cursor}
    (read : decodeInnerTransaction c = (.ok entries, d))
    (complete : Json.get? entries "decode_complete" = some (.bool true)) :
    ∃ tx c₁ list c₂ n, transactionV1 c = (.ok tx, c₁) ∧ decodeSignatures c₁ = (.ok list, c₂) ∧
      readInt c₂ = (.ok n, d) ∧ entries = Json.set (Json.set (Json.set tx "envelope_type"
        (.str "ENVELOPE_TYPE_TX")) "signatures" (.list list)) "envelope_extension_point" (.int n) := by
  obtain ⟨tx, c₁, first, rest⟩ := Parser.bind_eq_ok.1 read
  split at rest
  · obtain ⟨signatures, c₂, second, rest⟩ := Parser.bind_eq_ok.1 rest
    cases signatures with
    | none =>
      cases rest
      rw [Json.get?_set, if_pos rfl] at complete
      cases complete
    | some list =>
      obtain ⟨extension, c₃, third, rest⟩ := Parser.bind_eq_ok.1 rest
      cases extension with
      | none =>
        cases rest
        rw [Json.get?_set, if_pos rfl] at complete
        cases complete
      | some n =>
        cases rest
        exact ⟨tx, c₁, list, c₂, n, first, attempt_some second, attempt_some third, rfl⟩
  · rename_i incomplete
    cases rest
    rw [Json.get?_set, if_neg (by decide), Json.get?_set, if_neg (by decide)] at complete
    exact absurd (decodeComplete_set (by decide) complete) incomplete

/-- Outer signatures that are returned follow a word. -/
lemma decodeOuterSignatures_ok {extension : Json} {list : List Json} {c d : Cursor}
    (read : decodeOuterSignatures c = (.ok (extension, .list list), d)) :
    ∃ n c₁, readInt c = (.ok n, c₁) ∧ decodeSignatures c₁ = (.ok list, d) := by
  obtain ⟨n, c₁, first, rest⟩ := Parser.bind_eq_ok.1 read
  cases n with
  | none => cases rest
  | some n =>
    obtain ⟨signatures, c₂, second, rest⟩ := Parser.bind_eq_ok.1 rest
    cases signatures with
    | none => cases rest
    | some list' =>
      cases rest
      exact ⟨n, c₁, attempt_some first, attempt_some second⟩

/-- What is parsed was decoded from the start. -/
lemma parse_ok {data : List UInt8} {entries : Fields} (parsed : parseTransactionEnvelopeBytes data = .ok entries) :
    ∃ d, decodeTransactionEnvelope ⟨data, 0⟩ = (.ok entries, d) := by
  rw [parseTransactionEnvelopeBytes] at parsed
  split at parsed
  · cases parsed
  · exact ⟨_, Prod.ext parsed rfl⟩

/-- The entries of a transaction stay when its type and its signatures are set. -/
lemma Described.unset {source : String} {fee : UInt32} {sequence : Int64} {memo : Memo} {operations : Operations}
    {signatures : Signatures} {tx : Fields} {name list : Json}
    (described : Described source fee sequence memo operations signatures
      (Json.set (Json.set tx "envelope_type" name) "signatures" list)) :
    Json.get? tx "operations" = some operations.entries ∧
      Json.get? tx "decode_complete" = some (.bool true) ∧ signatures.Described list := by
  obtain ⟨-, -, -, -, entries, ⟨found, signed, each⟩, complete⟩ := described
  rw [Json.get?_set, if_neg (by decide), Json.get?_set, if_neg (by decide)] at entries complete
  rw [Json.get?_set, if_pos rfl] at signed
  obtain rfl := Option.some.inj signed
  exact ⟨entries, complete, each⟩

/-- The extension point is no part of a description. -/
lemma Described.unset_extension {source : String} {fee : UInt32} {sequence : Int64} {memo : Memo}
    {operations : Operations} {signatures : Signatures} {tx : Fields} {value : Json}
    (described : Described source fee sequence memo operations signatures
      (Json.set tx "envelope_extension_point" value)) :
    Described source fee sequence memo operations signatures tx := by
  obtain ⟨source, fee, sequence, memo, entries, ⟨list, signed, each⟩, complete⟩ := described
  rw [Json.get?_set, if_neg (by decide)] at source fee sequence memo entries signed complete
  exact ⟨source, fee, sequence, memo, entries, ⟨list, signed, each⟩, complete⟩

/-- At the end of the bytes no signature can be read right. -/
lemma Signatures.none_at_end {signatures : Signatures} {start : List UInt8} {list : List Json} {d : Cursor}
    (read : decodeSignatures ⟨start ++ signatures.bytes, start.length⟩ = (.ok list, d))
    (described : signatures.Described (.list list)) : signatures.1 = [] := by
  obtain ⟨rfl, bound⟩ := Signatures.count read described
  have bound : start.length + (signatures.bytes.length + 4 * signatures.1.length) ≤
      (start ++ signatures.bytes).length + 3 := bound
  rw [List.length_append] at bound
  exact List.length_eq_zero_iff.1 (by omega)

/-- After a word that the operations have left, no signatures are read. -/
lemma Signatures.none_after_word {signatures : Signatures} {start after : List UInt8} {list : List Json} {d : Cursor}
    (read : decodeSignatures ⟨start ++ (zeroWord ++ after), start.length⟩ = (.ok list, d))
    (described : signatures.Described (.list list)) :
    signatures.1 = [] ∧ d = ⟨(start ++ zeroWord) ++ after, (start ++ zeroWord).length⟩ := by
  rw [reads_noSignatures.run] at read
  cases read
  exact ⟨Signatures.eq_nil described, rfl⟩

/-- A regular envelope that is described right conforms. -/
lemma Envelope.conforms {envelope : Envelope} (regular : envelope.Regular) (decoded : envelope.Decoded) :
    envelope.Conforms := by
  obtain ⟨entries, parsed, described⟩ := decoded
  obtain ⟨d, read⟩ := parse_ok parsed
  cases envelope with
  | v0 tx signatures =>
    have rest : decodeV0Envelope _ = _ := ((reads_int 0).run_bind [] _).symm.trans read
    obtain ⟨fields, c₁, list, first, second, rfl⟩ := decodeEnvelope_ok rest described.decode_complete
    obtain ⟨operations, complete, each⟩ := described.unset
    obtain ⟨word, start, leaves, rfl⟩ := TransactionV0.misread regular first operations complete
    have shift : word ++ (ext ++ signatures.bytes) = zeroWord ++ (word ++ signatures.bytes) := by
      rw [← List.append_assoc, ← List.append_assoc]
      exact congrArg (· ++ signatures.bytes) leaves.comm
    rw [shift] at second
    exact ⟨leaves.or, (Signatures.none_after_word second each).1⟩
  | v1 tx signatures =>
    have rest : decodeV1Envelope _ = _ := ((reads_int 2).run_bind [] _).symm.trans read
    obtain ⟨fields, c₁, list, first, second, rfl⟩ :=
      decodeEnvelope_ok rest (Described.decode_complete described)
    obtain ⟨operations, complete, each⟩ := Described.unset described
    obtain ⟨word, start, leaves, rfl⟩ := Transaction.misread regular.1 regular.2 first operations complete
    refine ⟨regular.1, leaves.or, ?_⟩
    rcases leaves with ⟨rfl, -⟩ | ⟨rfl, -⟩
    · exact Signatures.none_at_end second each
    · exact (Signatures.none_after_word second each).1
  | feeBump feeSource fee inner innerSignatures signatures =>
    obtain ⟨-, -, ⟨transaction, found, innerDescribed⟩, outer, outerFound, outerEach⟩ := described
    have rest : decodeFeeBumpEnvelope _ = _ := ((reads_int 5).run_bind [] _).symm.trans read
    have rest := (feeSource.reads.run_bind _ _).symm.trans rest
    have rest := ((reads_hyper fee).run_bind _ _).symm.trans rest
    have rest := ((reads_int 2).run_bind _ _).symm.trans rest
    obtain ⟨tx, c₁, first, rest⟩ := Parser.bind_eq_ok.1 rest
    obtain ⟨⟨extension, list⟩, c₂, second, returned⟩ := Parser.bind_eq_ok.1 rest
    obtain ⟨value, rfl⟩ := Prod.mk.inj returned
    obtain rfl := Except.ok.inj value
    obtain rfl : tx = transaction := Json.dict.inj (Option.some.inj found)
    obtain rfl : list = outer := Option.some.inj outerFound
    obtain ⟨tx, c₁, innerList, c₂, n, inner₁, inner₂, inner₃, rfl⟩ :=
      decodeInnerTransaction_ok first (Described.decode_complete innerDescribed)
    obtain ⟨operations, complete, innerEach⟩ := (Described.unset_extension innerDescribed).unset
    obtain ⟨word, start, leaves, rfl⟩ := Transaction.misread regular.1 regular.2 inner₁ operations complete
    have outerList : ∃ outerList, list = .list outerList := outerEach.imp' (List.map .dict) fun _ each => each.1
    obtain ⟨outerList, rfl⟩ := outerList
    obtain ⟨m, c₃, outer₁, outer₂⟩ := decodeOuterSignatures_ok second
    rcases leaves with ⟨rfl, -⟩ | ⟨rfl, leavesWord⟩
    · -- without the word that is left, the bytes end before the outer signatures
      obtain ⟨rfl, -⟩ := Signatures.count inner₂ innerEach
      obtain ⟨rfl, -⟩ := readInt_ok inner₃
      obtain ⟨rfl, -⟩ := readInt_ok outer₁
      obtain ⟨rfl, bound⟩ := Signatures.count outer₂ outerEach
      have bound : start.length + (innerSignatures.bytes.length + 4 * innerSignatures.1.length) + 4 + 4 +
          (signatures.bytes.length + 4 * signatures.1.length) ≤
          (start ++ (innerSignatures.bytes ++ (ext ++ signatures.bytes))).length + 3 := bound
      have word : ext.length = 4 := rfl
      rw [List.length_append, List.length_append, List.length_append] at bound
      omega
    · obtain ⟨innerNone, rfl⟩ := Signatures.none_after_word inner₂ innerEach
      rw [innerSignatures.bytes_nil innerNone] at inner₃
      have shift := ((reads_int 0).run _ (ext ++ signatures.bytes)).symm.trans inner₃
      obtain ⟨-, rfl⟩ := Prod.mk.inj shift
      have shift := ((reads_int 0).run _ signatures.bytes).symm.trans outer₁
      obtain ⟨-, rfl⟩ := Prod.mk.inj shift
      exact ⟨regular.1, leavesWord, innerNone, Signatures.none_at_end outer₂ outerEach⟩

/-- The decoder describes every envelope of the published format that conforms; among the regular envelopes,
these are all that it describes. -/
theorem wire_decoded (envelope : Envelope) :
    (envelope.Conforms → envelope.Decoded) ∧ (envelope.Regular → (envelope.Decoded ↔ envelope.Conforms)) :=
  ⟨Envelope.decoded, fun regular => ⟨Envelope.conforms regular, Envelope.decoded⟩⟩

/-- A transaction that raises the sequence number of its account. -/
def sampleTransaction : Transaction where
  source := .ed25519 ⟨List.replicate 32 0x22, rfl⟩
  fee := 100
  sequence := 4321
  preconditions := .none
  memo := .none
  operations := ⟨[⟨none, .bumpSequence 12345⟩], by decide⟩

/-- A transaction without signatures. -/
theorem wire_decoded_unsigned : (Envelope.v1 sampleTransaction ⟨[], by decide⟩).Conforms ∧
    (Envelope.v1 sampleTransaction ⟨[], by decide⟩).Decoded := by
  have conforms : (Envelope.v1 sampleTransaction ⟨[], by decide⟩).Conforms := by
    refine ⟨trivial, .inl fun operation mem => ?_, rfl⟩
    obtain rfl := List.mem_singleton.1 mem
    trivial
  exact ⟨conforms, (wire_decoded _).1 conforms⟩

/-- A signature of 64 bytes, read as the type of a signature, ends the decoding. -/
theorem wire_not_decoded_signed : ¬ (Envelope.v1 sampleTransaction ⟨[⟨⟨[1, 2, 3, 4], rfl⟩,
    ⟨List.replicate 64 0xbb, by decide⟩⟩], by decide⟩).Decoded := by
  rintro ⟨entries, parsed, described⟩
  have incomplete : (parseTransactionEnvelopeBytes (Envelope.v1 sampleTransaction ⟨[⟨⟨[1, 2, 3, 4], rfl⟩,
      ⟨List.replicate 64 0xbb, by decide⟩⟩], by decide⟩).bytes).toOption.map decodeComplete = some false := by
    decide +kernel
  rw [parsed] at incomplete
  have complete : decodeComplete entries = true := by
    rw [decodeComplete, Described.decode_complete described]
    rfl
  have same : decodeComplete entries = false := Option.some.inj incomplete
  rw [complete] at same
  exact Bool.noConfusion same

end StellarFlow.Horizon.Wire
