import Mathlib.Algebra.Order.Ring.Int
import StellarFlow.Lib.AesGcm
import StellarFlow.Lib.Base64Url
import StellarFlow.Lib.HexText
import StellarFlow.Lib.JavaScript
import StellarFlow.Lib.TextCodec

/-!
# Envelope encryption

Model of `KmsEnvelopeService` in `src/services/kmsEnvelopeService.ts`. AES-256-GCM and the KMS are parameters: `Crypto`
is Node's cipher and decipher on whole byte strings, and `KmsClient` what the KMS answers when it is asked to decrypt a
blob. A thrown error is a `Failure`.
-/

open Js

namespace StellarFlow.Kms

/-- `IV_LENGTH`. -/
def ivLength : ℕ := 12

/-- `TAG_LENGTH`. -/
def tagLength : ℕ := 16

/-- `DEK_LENGTH`. -/
def dekLength : ℕ := 32

/-- Node's cipher and decipher for AES-256-GCM. -/
abbrev Crypto := AesGcm.Cipher

/-- The answer to a `DecryptCommand` for a blob: an error, or a response with or without `Plaintext`. -/
abbrev KmsClient := List UInt8 → Except String (Option (List UInt8))

/-- The answer to a `GenerateDataKeyCommand`: an error, or a response with `Plaintext` and `CiphertextBlob`. -/
abbrev DataKeyAnswer := Except String (Option (List UInt8) × Option (List UInt8))

/-- A thrown error; a `KmsEnvelopeError` has a code. -/
structure Failure where
  message : String
  code : Option String
  deriving DecidableEq

structure EncryptedData where
  ciphertext : String
  encryptedDek : String
  dekVersion : ℕ
  deriving DecidableEq

structure DecryptedDek where
  plaintextDek : List UInt8
  encryptedDek : String

/-- `buffer.toString("base64")`. -/
def base64 (buffer : List UInt8) : String := String.ofList (TextCodec.b64encode buffer)

/-- `KmsEnvelopeService.decryptDataKey` on the answer to its command. -/
def decryptDataKey (answer : Except String (Option (List UInt8))) : Except Failure (List UInt8) :=
  let failed (message : String) : Except Failure (List UInt8) :=
    .error { message := s!"Failed to decrypt data key: {message}", code := some "DEK_DECRYPTION_FAILED" }
  match answer with
  | .error message => failed message
  | .ok none => failed "KMS returned empty plaintext"
  | .ok (some plaintextDek) =>
    if plaintextDek.length ≠ dekLength then
      failed s!"Expected {dekLength}-byte DEK, got {plaintextDek.length} bytes"
    else .ok plaintextDek

/-- `KmsEnvelopeService.generateDataKey` on the answer to its command. -/
def generateDataKey (answer : DataKeyAnswer) : Except Failure DecryptedDek :=
  let failed (message : String) : Except Failure DecryptedDek :=
    .error { message := s!"Failed to generate data key: {message}", code := some "DEK_GENERATION_FAILED" }
  match answer with
  | .error message => failed message
  | .ok (some plaintextDek, some encryptedDek) =>
    if plaintextDek.length ≠ dekLength then
      failed s!"Expected {dekLength}-byte DEK, got {plaintextDek.length} bytes"
    else .ok { plaintextDek, encryptedDek := base64 encryptedDek }
  | .ok _ => failed "KMS returned incomplete data key"

def invalidDekLength (length : ℕ) : Failure :=
  { message := s!"Invalid DEK length: expected {dekLength} bytes, got {length}", code := some "INVALID_DEK_LENGTH" }

variable (crypto : Crypto)

/-- `KmsEnvelopeService.encryptWithDek`; `iv` is what `crypto.randomBytes` returns or throws. -/
def encryptWithDek (plaintext : String) (plaintextDek : List UInt8) (iv : Except String (List UInt8)) :
    Except Failure String :=
  if plaintextDek.length ≠ dekLength then .error (invalidDekLength plaintextDek.length)
  else
    match iv with
    | .error message => .error { message, code := none }
    | .ok iv =>
      let (encrypted, tag) := crypto.encrypt plaintextDek iv (TextCodec.encodeUtf8 plaintext)
      .ok (String.ofList (HexText.hexOfBytes iv ++ HexText.hexOfBytes encrypted ++ HexText.hexOfBytes tag))

/-- `KmsEnvelopeService.decryptWithDek`. -/
def decryptWithDek (ciphertext : String) (plaintextDek : List UInt8) : Except Failure String :=
  if plaintextDek.length ≠ dekLength then .error (invalidDekLength plaintextDek.length)
  else
    let buffer := HexText.bufferOfHex ciphertext.toList
    let iv := subarray buffer 0 ivLength
    let tag := subarray buffer (buffer.length - tagLength) buffer.length
    let encryptedData := subarray buffer ivLength (buffer.length - tagLength)
    match crypto.decrypt plaintextDek iv encryptedData tag with
    | .ok decrypted => .ok (TextCodec.decodeUtf8 decrypted)
    | .error message => .error { message := s!"Decryption failed: {message}", code := some "DECRYPTION_FAILED" }

/-- `KmsEnvelopeService.encrypt`, which is also what `rotateEncryption` does with the decrypted text. -/
def encrypt (plaintext : String) (dekVersion : ℕ) (answer : DataKeyAnswer) (iv : Except String (List UInt8)) :
    Except Failure EncryptedData := do
  let dek ← generateDataKey answer
  let ciphertext ← encryptWithDek crypto plaintext dek.plaintextDek iv
  return { ciphertext, encryptedDek := dek.encryptedDek, dekVersion }

/-- `KmsEnvelopeService.decrypt` on the answer to its command. -/
def decryptOn (data : EncryptedData) (answer : Except String (Option (List UInt8))) : Except Failure String := do
  let plaintextDek ← decryptDataKey answer
  decryptWithDek crypto data.ciphertext plaintextDek

/-- The answer of the KMS when it is asked for the DEK of the data. -/
def dekAnswer (kms : KmsClient) (data : EncryptedData) : Except String (Option (List UInt8)) :=
  kms (Base64Url.decode data.encryptedDek)

/-- `KmsEnvelopeService.decrypt`. -/
def decrypt (kms : KmsClient) (data : EncryptedData) : Except Failure String :=
  decryptOn crypto data (dekAnswer kms data)

/-! ## The texts come back -/

/-- Node reads the digits of base 64 back and skips the padding. -/
lemma value_digit64 {n : ℕ} (lt : n < 64) : Base64Url.value (TextCodec.digit64 n) = some n := by
  have all : ∀ n : Fin 64, Base64Url.value (TextCodec.digit64 n) = some n.val := by decide +kernel
  exact all ⟨n, lt⟩

/-- The characters of the standard alphabet have the sextets for their values. -/
lemma filterMap_b64encode (buffer : List UInt8) :
    (TextCodec.b64encode buffer).filterMap Base64Url.value = Base64Url.sextets buffer := by
  have padding : Base64Url.value '=' = none := by decide +kernel
  induction buffer using Base64Url.sextets.induct with
  | case1 => rfl
  | case2 a =>
    have high := a.toNat_lt
    simp only [TextCodec.b64encode, Base64Url.sextets, List.filterMap_cons, List.filterMap_nil, padding,
      value_digit64 (show a.toNat / 4 < 64 by omega), value_digit64 (show a.toNat % 4 * 16 < 64 by omega)]
  | case3 a b =>
    have high := a.toNat_lt
    have high' := b.toNat_lt
    simp only [TextCodec.b64encode, Base64Url.sextets, List.filterMap_cons, List.filterMap_nil, padding,
      value_digit64 (show a.toNat / 4 < 64 by omega),
      value_digit64 (show a.toNat % 4 * 16 + b.toNat / 16 < 64 by omega),
      value_digit64 (show b.toNat % 16 * 4 < 64 by omega)]
  | case4 a b c rest ih =>
    have high := a.toNat_lt
    have high' := b.toNat_lt
    have high'' := c.toNat_lt
    simp only [TextCodec.b64encode, Base64Url.sextets, List.filterMap_cons, ih,
      value_digit64 (show a.toNat / 4 < 64 by omega),
      value_digit64 (show a.toNat % 4 * 16 + b.toNat / 16 < 64 by omega),
      value_digit64 (show b.toNat % 16 * 4 + c.toNat / 64 < 64 by omega),
      value_digit64 (show c.toNat % 64 < 64 by omega)]

/-- A buffer is read back from its text. -/
lemma decode_base64 (buffer : List UInt8) : Base64Url.decode (base64 buffer) = buffer := by
  rw [Base64Url.decode, base64, String.toList_ofList, filterMap_b64encode, Base64Url.bytes_sextets]

/-- The three parts of a ciphertext are found again, however long the middle one is. -/
lemma subarray_framing {iv tag : List UInt8} (data : List UInt8) (ivLen : iv.length = ivLength)
    (tagLen : tag.length = tagLength) :
    let buffer := iv ++ data ++ tag
    subarray buffer 0 ivLength = iv ∧ subarray buffer ivLength (buffer.length - tagLength) = data ∧
      subarray buffer (buffer.length - tagLength) buffer.length = tag := by
  intro buffer
  have length : buffer.length = ivLength + data.length + tagLength := by
    rw [List.length_append, List.length_append, ivLen, tagLen]
  refine ⟨?_, ?_, ?_⟩
  · have front : subarray ([] ++ iv ++ (data ++ tag)) 0 ivLength = iv := subarray_append rfl (by rw [ivLen]; simp)
    rwa [List.nil_append, ← List.append_assoc] at front
  · exact subarray_append (by rw [ivLen]) (by rw [ivLen]; omega)
  · have back : subarray (iv ++ data ++ tag ++ []) (buffer.length - tagLength) buffer.length = tag :=
      subarray_append (by rw [List.length_append]; omega) (by rw [List.length_append]; omega)
    rwa [List.append_nil] at back

variable {crypto}

/-- What was encrypted with a DEK is decrypted with it, whatever its length. -/
theorem decryptWithDek_encryptWithDek (lawful : crypto.Lawful) {plaintext ciphertext : String}
    {plaintextDek iv : List UInt8} (ivLen : iv.length = ivLength)
    (made : encryptWithDek crypto plaintext plaintextDek (.ok iv) = .ok ciphertext) :
    decryptWithDek crypto ciphertext plaintextDek = .ok plaintext := by
  rw [encryptWithDek] at made
  split at made
  · cases made
  · rename_i keyLen
    cases made
    have tagLen := lawful.tag_length plaintextDek iv (TextCodec.encodeUtf8 plaintext)
    have text (encrypted tag : List UInt8) :
        HexText.bufferOfHex
            (HexText.hexOfBytes iv ++ HexText.hexOfBytes encrypted ++ HexText.hexOfBytes tag) =
          iv ++ encrypted ++ tag := by
      rw [HexText.hexOfBytes, HexText.hexOfBytes, HexText.hexOfBytes, ← List.flatMap_append, ← List.flatMap_append]
      exact HexText.bufferOfHex_hexOfBytes _
    rw [decryptWithDek, if_neg keyLen]
    simp only [String.toList_ofList, text]
    obtain ⟨front, middle, back⟩ :=
      subarray_framing (crypto.encrypt plaintextDek iv (TextCodec.encodeUtf8 plaintext)).1 ivLen tagLen
    rw [front, middle, back, lawful.decrypt_encrypt _ _ _ (not_not.1 keyLen) ivLen]
    exact congrArg Except.ok (TextCodec.decodeUtf8_encodeUtf8 plaintext)

/-- The KMS decrypts the blob of a data key to its plaintext. -/
def KmsClient.Inverts (kms : KmsClient) (answer : DataKeyAnswer) : Prop :=
  match answer with
  | .ok (some plaintextDek, some encryptedDek) => kms encryptedDek = .ok (some plaintextDek)
  | _ => True

/-- A data key has its length, and comes with its ciphertext. -/
lemma generateDataKey_ok {answer : DataKeyAnswer} {dek : DecryptedDek} (made : generateDataKey answer = .ok dek) :
    ∃ plaintextDek encryptedDek, answer = .ok (some plaintextDek, some encryptedDek) ∧
      plaintextDek.length = dekLength ∧ dek = { plaintextDek, encryptedDek := base64 encryptedDek } := by
  unfold generateDataKey at made
  split at made
  · cases made
  · split at made
    · cases made
    · cases made
      exact ⟨_, _, rfl, not_not.1 ‹_›, rfl⟩
  · cases made

/-- What was encrypted under a data key is decrypted through the KMS. -/
theorem decrypt_encrypt (lawful : crypto.Lawful) {kms : KmsClient} {plaintext : String} {dekVersion : ℕ}
    {answer : DataKeyAnswer} {iv : Except String (List UInt8)} {data : EncryptedData} (inverts : kms.Inverts answer)
    (ivLen : ∀ bytes, iv = .ok bytes → bytes.length = ivLength)
    (made : encrypt crypto plaintext dekVersion answer iv = .ok data) : decrypt crypto kms data = .ok plaintext := by
  cases generated : generateDataKey answer with
  | error failure =>
    rw [encrypt, generated] at made
    cases made
  | ok dek =>
    obtain ⟨plaintextDek, encryptedDek, rfl, keyLen, rfl⟩ := generateDataKey_ok generated
    rw [encrypt, generated] at made
    cases cipher : encryptWithDek crypto plaintext plaintextDek iv with
    | error failure => simp [cipher, Bind.bind, Except.bind] at made
    | ok ciphertext =>
      simp only [cipher, Bind.bind, Except.bind, pure, Except.pure, Except.ok.injEq] at made
      subst made
      obtain ⟨bytes, rfl⟩ : ∃ bytes, iv = .ok bytes := by
        cases iv with
        | ok bytes => exact ⟨bytes, rfl⟩
        | error message => simp [encryptWithDek, keyLen] at cipher
      have answered : dekAnswer kms ⟨ciphertext, base64 encryptedDek, dekVersion⟩ = .ok (some plaintextDek) := by
        rw [dekAnswer, decode_base64]
        exact inverts
      rw [decrypt, decryptOn, answered, decryptDataKey]
      simp only [keyLen, ne_eq, not_true_eq_false, if_false]
      exact decryptWithDek_encryptWithDek lawful (ivLen bytes rfl) cipher

end StellarFlow.Kms
