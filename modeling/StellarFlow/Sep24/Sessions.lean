import Mathlib.Algebra.Order.Ring.Int
import StellarFlow.Lib.AesGcm
import StellarFlow.Lib.Base64Url
import StellarFlow.Lib.Json
import StellarFlow.Lib.Machine
import StellarFlow.Lib.TextCodec

/-!
# Submission of a session

Model of `RedisSep24SessionStore` and of `submit` and `getPayoutDetails` in `src/services/sep24Interactive.ts` for one
session. The calls run interleaved on any number of instances, one Redis command at a time, while the clock goes on; a
command may fail. `TTL` rounds to seconds, and a key is gone when its time has come. AES-256-GCM is a parameter, and
what `validatePayoutDetails` makes of a form is given.

The first submission sets a marker with the life that the session had, and then writes the session with that life once
more. So the marker is gone before the session, and a call that has opened the session before it was written can submit
again. One submission is accepted where no call sets the marker while another one that has set it goes on or has
succeeded.
-/

namespace StellarFlow.Sep24

inductive Sep24Status where
  | incomplete
  | pendingUserTransferStart
  deriving DecidableEq

inductive ErrorCode where
  | invalidToken
  | expiredToken
  | sessionNotFound
  | alreadySubmitted
  | validationError
  | callbackNotAllowed
  deriving DecidableEq

/-- The fields of a session that are written after it was created. -/
structure Sep24Session where
  status : Sep24Status
  sealedPayout : Option String
  deriving DecidableEq

structure PayoutDetails where
  fullName : String
  bankName : String
  accountNumber : String
  email : Option String
  amount : Option String
  deriving DecidableEq

/-- The properties in the order in which `validatePayoutDetails` sets them. -/
def PayoutDetails.fields (details : PayoutDetails) : List (String × String) :=
  [("fullName", details.fullName), ("bankName", details.bankName), ("accountNumber", details.accountNumber)] ++
    (details.email.map fun email => ("email", email)).toList ++
      (details.amount.map fun amount => ("amount", amount)).toList

/-- A text. -/
def textOf : Js.Value → Option String
  | .string s => some s
  | _ => none

/-- The details that are read from a value. -/
def PayoutDetails.ofValue (value : Js.Value) : Option PayoutDetails := do
  let fullName ← textOf (value.property "fullName")
  let bankName ← textOf (value.property "bankName")
  let accountNumber ← textOf (value.property "accountNumber")
  return { fullName, bankName, accountNumber
           email := textOf (value.property "email"), amount := textOf (value.property "amount") }

/-- What `crypto.randomBytes(12)` returns. -/
abbrev Nonce := { iv : List UInt8 // iv.length = AesGcm.ivLength }

/-- The cipher and the `sealKey` of 32 bytes. -/
structure Sealing where
  cipher : AesGcm.Cipher
  sealKey : List UInt8
  lawful : cipher.Lawful
  length : sealKey.length = AesGcm.keyLength

/-- `seal`. -/
def Sealing.sealPayout (sealing : Sealing) (iv : Nonce) (details : PayoutDetails) : String :=
  let (ciphertext, tag) := sealing.cipher.encrypt sealing.sealKey iv.1
    (TextCodec.encodeUtf8 (Json.stringify details.fields))
  Base64Url.encode (iv.1 ++ tag ++ ciphertext)

/-- `unseal`; `none` where it throws. -/
def Sealing.unsealPayout (sealing : Sealing) (sealedPayout : String) : Option PayoutDetails :=
  let raw := Base64Url.decode sealedPayout
  let iv := Js.subarray raw 0 12
  let tag := Js.subarray raw 12 28
  match sealing.cipher.decrypt sealing.sealKey iv (Js.subarray raw 28 raw.length) tag with
  | .ok plaintext => (Json.parse (TextCodec.decodeUtf8 plaintext)).bind PayoutDetails.ofValue
  | .error _ => none

/-- Where a call of `submit` stands: what it awaits next, or its answer. The form is what `resolveCallback` and
`validatePayoutDetails` make of it. -/
inductive Call where
  | opening (form : Except ErrorCode PayoutDetails)
  | measuring (details : PayoutDetails) (sealedPayout : String)
  | claiming (details : PayoutDetails) (sealedPayout : String) (ttl : ℕ)
  | loading (details : PayoutDetails) (sealedPayout : String) (ttl : ℕ)
  | storing (details : PayoutDetails) (sealedPayout : String) (ttl : ℕ) (session : Sep24Session)
  | succeeded (details : PayoutDetails)
  | failed (error : Option ErrorCode)
  deriving DecidableEq

/-- Redis, with the time in milliseconds at which each of the two keys expires, and the calls. -/
structure Store where
  clock : ℕ
  session : Option (Sep24Session × ℕ)
  done : Option ℕ
  calls : List Call

inductive Move where
  | tick (ms : ℕ)
  | submit (form : Except ErrorCode PayoutDetails)
  | openSession (i : ℕ) (nonce : Nonce)
  | ttl (i : ℕ)
  | claim (i : ℕ)
  | load (i : ℕ)
  | store (i : ℕ)
  | error (i : ℕ) (code : Option ErrorCode)

/-- `GET` of the session. -/
def Store.get (s : Store) : Option Sep24Session := (s.session.filter fun entry => s.clock < entry.2).map Prod.fst

/-- `TTL` of the session; -2 for a key that is gone. -/
def Store.ttl (s : Store) : ℤ :=
  match s.session with
  | some (_, expiresAt) => if s.clock < expiresAt then ((expiresAt - s.clock + 500) / 1000 : ℕ) else -2
  | none => -2

/-- The marker is there. -/
def Store.isDone (s : Store) : Bool := s.done.any fun expiresAt => s.clock < expiresAt

def Store.advance (s : Store) (i : ℕ) (call : Call) : Store := { s with calls := s.calls.set i call }

variable (sealing : Sealing)

/-- One move. -/
def Store.step (s : Store) : Move → Option Store
  | .tick ms => some { s with clock := s.clock + ms }
  | .submit form => some { s with calls := s.calls ++ [.opening form] }
  | .openSession i nonce =>
    match s.calls[i]? with
    | some (.opening form) =>
      match s.get with
      | none => some (s.advance i (.failed (some .sessionNotFound)))
      | some session =>
        if session.sealedPayout.isSome then some (s.advance i (.failed (some .alreadySubmitted)))
        else
          match form with
          | .error code => some (s.advance i (.failed (some code)))
          | .ok details => some (s.advance i (.measuring details (sealing.sealPayout nonce details)))
    | _ => none
  | .ttl i =>
    match s.calls[i]? with
    | some (.measuring details sealedPayout) =>
      if s.ttl ≤ 0 then some (s.advance i (.failed (some .alreadySubmitted)))
      else some (s.advance i (.claiming details sealedPayout s.ttl.toNat))
    | _ => none
  | .claim i =>
    match s.calls[i]? with
    | some (.claiming details sealedPayout ttl) =>
      if s.isDone then some (s.advance i (.failed (some .alreadySubmitted)))
      else some { s.advance i (.loading details sealedPayout ttl) with done := some (s.clock + ttl * 1000) }
    | _ => none
  | .load i =>
    match s.calls[i]? with
    | some (.loading details sealedPayout ttl) =>
      match s.get with
      | none => some (s.advance i (.failed (some .alreadySubmitted)))
      | some session => some (s.advance i (.storing details sealedPayout ttl session))
    | _ => none
  | .store i =>
    match s.calls[i]? with
    | some (.storing details sealedPayout ttl session) =>
      let updated := { session with status := .pendingUserTransferStart, sealedPayout := some sealedPayout }
      some { s.advance i (.succeeded details) with session := some (updated, s.clock + ttl * 1000) }
    | _ => none
  | .error i code => (s.calls[i]?).map fun _ => s.advance i (.failed code)

/-- The session that `initiate` saves. -/
def Store.initial (sessionTtlSeconds : ℕ) : Store :=
  ⟨0, some (⟨.incomplete, none⟩, sessionTtlSeconds * 1000), none, []⟩

/-- `getPayoutDetails`. -/
def Store.getPayoutDetails (s : Store) : Option PayoutDetails :=
  s.get.bind fun session => session.sealedPayout.bind sealing.unsealPayout

def Call.isSucceeded : Call → Bool
  | .succeeded _ => true
  | _ => false

/-- One submission at most was accepted, and while the session exists its details are what is read. -/
def SubmittedOnce (s : Store) : Prop :=
  s.calls.countP Call.isSucceeded ≤ 1 ∧
    ∀ details, .succeeded details ∈ s.calls → s.get.isSome = true → s.getPayoutDetails sealing = some details

/-- The call has set the marker, and goes on or has succeeded. -/
def Call.claimed : Call → Option Unit
  | .loading _ _ _ => some ()
  | .storing _ _ _ _ => some ()
  | .succeeded _ => some ()
  | _ => none

/-- No call sets the marker while another call that has set it goes on or has succeeded. -/
def Store.isExclusive (s : Store) : Move → Bool
  | .claim i =>
    match s.calls[i]? with
    | some (.claiming _ _ _) => s.isDone || s.calls.filterMap Call.claimed = []
    | _ => true
  | _ => true

/-- What a call is going to store is its own details. -/
def Call.IsSealed : Call → Prop
  | .measuring details sealedPayout => sealing.unsealPayout sealedPayout = some details
  | .claiming details sealedPayout _ => sealing.unsealPayout sealedPayout = some details
  | .loading details sealedPayout _ => sealing.unsealPayout sealedPayout = some details
  | .storing details sealedPayout _ _ => sealing.unsealPayout sealedPayout = some details
  | _ => True

/-- One call at most has claimed, the session holds the details of one that has succeeded, and the calls have sealed
theirs. -/
structure Exclusive (s : Store) : Prop where
  one : (s.calls.filterMap Call.claimed).Nodup
  holds : ∀ details, .succeeded details ∈ s.calls → ∀ entry ∈ s.session,
    entry.1.sealedPayout.bind sealing.unsealPayout = some details
  own : ∀ call ∈ s.calls, call.IsSealed sealing

variable {sealing} {s s' : Store} {m : Move} {i : ℕ} {call call' : Call}

/-- The properties are read back. -/
lemma ofValue_fields (details : PayoutDetails) :
    PayoutDetails.ofValue (.object (details.fields.map fun f => (f.1, .string f.2))) = some details := by
  obtain ⟨fullName, bankName, accountNumber, email, amount⟩ := details
  cases email <;> cases amount <;> rfl

/-- The fields of the details have different names. -/
lemma nodup_fields (details : PayoutDetails) : (details.fields.map Prod.fst).Nodup := by
  obtain ⟨fullName, bankName, accountNumber, email, amount⟩ := details
  cases email <;> cases amount <;> simp [PayoutDetails.fields]

/-- The three parts of what is sealed are found again. -/
lemma subarray_framing {iv tag : List UInt8} (ciphertext : List UInt8) (ivLen : iv.length = AesGcm.ivLength)
    (tagLen : tag.length = AesGcm.tagLength) :
    let raw := iv ++ tag ++ ciphertext
    Js.subarray raw 0 12 = iv ∧ Js.subarray raw 12 28 = tag ∧ Js.subarray raw 28 raw.length = ciphertext := by
  intro raw
  refine ⟨?_, ?_, ?_⟩
  · have front := @Js.subarray_append [] iv (tag ++ ciphertext) 0 12 rfl (by rw [ivLen]; rfl)
    rwa [List.nil_append, ← List.append_assoc] at front
  · exact Js.subarray_append (by rw [ivLen]; rfl) (by rw [ivLen, tagLen]; rfl)
  · have back := @Js.subarray_append (iv ++ tag) ciphertext [] 28 raw.length
      (by rw [List.length_append, ivLen, tagLen]; rfl) (by rw [List.length_append]; rfl)
    rwa [List.append_nil] at back

/-- What was sealed with any nonce is unsealed. -/
lemma Sealing.unseal_seal (sealing : Sealing) (nonce : Nonce) (details : PayoutDetails) :
    sealing.unsealPayout (sealing.sealPayout nonce details) = some details := by
  obtain ⟨iv, ivLen⟩ := nonce
  have tagLen := sealing.lawful.tag_length sealing.sealKey iv (TextCodec.encodeUtf8 (Json.stringify details.fields))
  have decrypted := sealing.lawful.decrypt_encrypt sealing.sealKey iv
    (TextCodec.encodeUtf8 (Json.stringify details.fields)) sealing.length ivLen
  obtain ⟨front, middle, back⟩ := subarray_framing
    (sealing.cipher.encrypt sealing.sealKey iv (TextCodec.encodeUtf8 (Json.stringify details.fields))).1 ivLen tagLen
  rw [sealPayout, unsealPayout, Base64Url.decode_encode_bytes]
  dsimp only
  rw [front, middle, back, decrypted]
  dsimp only
  rw [TextCodec.decodeUtf8_encodeUtf8, Json.parse_stringify (nodup_fields details), Option.bind_some, ofValue_fields]

/-- What is read was stored, with some expiry. -/
lemma eq_of_get {session : Sep24Session} (found : s.get = some session) :
    ∃ expiresAt, s.session = some (session, expiresAt) := by
  obtain ⟨entry, kept, rfl⟩ := Option.map_eq_some_iff.1 found
  exact ⟨entry.2, (Option.filter_eq_some_iff.1 kept).1⟩

/-- A call goes on, without having claimed or succeeded anew. -/
lemma Exclusive.advance (inv : Exclusive sealing s) (found : s.calls[i]? = some call)
    (claims : call'.claimed = none ∨ call'.claimed = call.claimed) (open_ : call'.isSucceeded = false)
    (own : call'.IsSealed sealing) : Exclusive sealing (s.advance i call') := by
  refine ⟨Machine.nodup_held_set found inv.one fun r holds => ?_, fun details mem => ?_,
    fun _ mem => Machine.forall_set found inv.own (fun _ => own) mem⟩
  · rcases claims with none | same
    · rw [none] at holds
      cases holds
    · exact .inl (same ▸ holds)
  · rcases List.mem_or_eq_of_mem_set mem with old | rfl
    · exact inv.holds details old
    · cases open_

/-- A call fails. -/
lemma Exclusive.fail (inv : Exclusive sealing s) (found : s.calls[i]? = some call) (code : Option ErrorCode) :
    Exclusive sealing (s.advance i (.failed code)) := inv.advance found (.inl rfl) rfl trivial

/-- The marker is set while no other call has claimed. -/
lemma Exclusive.claim (inv : Exclusive sealing s) {details : PayoutDetails} {sealedPayout : String} {ttl : ℕ}
    {done : Option ℕ}
    (found : s.calls[i]? = some (.claiming details sealedPayout ttl)) (free : s.calls.filterMap Call.claimed = []) :
    Exclusive sealing { s.advance i (.loading details sealedPayout ttl) with done := done } := by
  have own : sealing.unsealPayout sealedPayout = some details := inv.own _ (List.mem_of_getElem? found)
  have loading : Call.IsSealed sealing (.loading details sealedPayout ttl) := own
  refine ⟨Machine.nodup_held_set found inv.one fun r _ => .inr ?_, fun details mem => ?_,
    fun _ mem => Machine.forall_set found inv.own (fun _ => loading) mem⟩
  · rw [free]
    exact List.not_mem_nil
  · rcases List.mem_or_eq_of_mem_set mem with old | same
    · exact inv.holds details old
    · cases same

/-- The session is written by the one call that has claimed, so no other has succeeded. -/
lemma Exclusive.store (inv : Exclusive sealing s) {details : PayoutDetails} {sealedPayout : String} {ttl : ℕ}
    {session updated : Sep24Session} {expiresAt : ℕ}
    (found : s.calls[i]? = some (.storing details sealedPayout ttl session))
    (written : updated.sealedPayout = some sealedPayout) :
    Exclusive sealing { s.advance i (.succeeded details) with session := some (updated, expiresAt) } := by
  have own : Call.IsSealed sealing (.succeeded details) := trivial
  refine ⟨Machine.nodup_held_set found inv.one fun r holds => .inl holds, fun details' mem entry eq => ?_,
    fun _ mem => Machine.forall_set found inv.own (fun _ => own) mem⟩
  obtain rfl := Option.some.inj eq
  have unsealed : sealing.unsealPayout sealedPayout = some details := inv.own _ (List.mem_of_getElem? found)
  rcases Machine.mem_set_of_held found inv.one rfl mem with same | ⟨-, other⟩
  · cases same
    rw [written]
    exact unsealed
  · exact absurd rfl other

/-- A call opens the session and seals its details. -/
lemma exclusive_openSession {nonce : Nonce} (inv : Exclusive sealing s)
    (taken : s.step sealing (.openSession i nonce) = some s') : Exclusive sealing s' := by
  rw [Store.step] at taken
  split at taken
  case h_1 form found =>
    split at taken
    case h_1 =>
      cases taken
      exact inv.fail found _
    case h_2 session _ =>
      split at taken
      case isTrue =>
        cases taken
        exact inv.fail found _
      case isFalse =>
        cases form with
        | error code =>
          cases taken
          exact inv.fail found _
        | ok details =>
          cases taken
          exact inv.advance found (.inl rfl) rfl (sealing.unseal_seal nonce details)
  case h_2 => cases taken

/-- A step of calls that do not overlap keeps them apart. -/
lemma exclusive_step (inv : Exclusive sealing s) (exclusive : s.isExclusive m = true)
    (taken : s.step sealing m = some s') : Exclusive sealing s' := by
  cases m with
  | tick ms =>
    cases taken
    exact ⟨inv.one, inv.holds, inv.own⟩
  | submit form =>
    cases taken
    refine ⟨?_, fun details mem => ?_, Machine.forall_snoc inv.own trivial⟩
    · rw [Machine.held_snoc rfl]
      exact inv.one
    · rcases List.mem_append.1 mem with old | last
      · exact inv.holds details old
      · cases List.mem_singleton.1 last
  | openSession i nonce => exact exclusive_openSession inv taken
  | ttl i =>
    rw [Store.step] at taken
    split at taken
    case h_1 details sealedPayout found =>
      have own : sealing.unsealPayout sealedPayout = some details := inv.own _ (List.mem_of_getElem? found)
      split at taken
      case isTrue =>
        cases taken
        exact inv.fail found _
      case isFalse =>
        cases taken
        exact inv.advance found (.inl rfl) rfl own
    case h_2 => cases taken
  | claim i =>
    rw [Store.isExclusive] at exclusive
    rw [Store.step] at taken
    split at taken
    case h_1 details sealedPayout ttl found =>
      rw [found] at exclusive
      split at taken
      case isTrue =>
        cases taken
        exact inv.fail found _
      case isFalse absent =>
        cases taken
        -- without the marker the guard leaves no call that has claimed
        rcases Bool.or_eq_true_iff.1 exclusive with present | free
        · exact absurd present absent
        · exact inv.claim found (of_decide_eq_true free)
    case h_2 => cases taken
  | load i =>
    rw [Store.step] at taken
    split at taken
    case h_1 details sealedPayout ttl found =>
      have own : sealing.unsealPayout sealedPayout = some details := inv.own _ (List.mem_of_getElem? found)
      split at taken
      case h_1 =>
        cases taken
        exact inv.fail found _
      case h_2 session _ =>
        cases taken
        exact inv.advance found (.inr rfl) rfl own
    case h_2 => cases taken
  | store i =>
    rw [Store.step] at taken
    split at taken
    case h_1 details sealedPayout ttl session found =>
      cases taken
      exact inv.store found rfl
    case h_2 => cases taken
  | error i code =>
    obtain ⟨call, found, rfl⟩ := Option.map_eq_some_iff.1 taken
    exact inv.fail found _

/-- One call at most has succeeded, as each one that has succeeded has claimed. -/
lemma countP_isSucceeded_le (one : (s.calls.filterMap Call.claimed).Nodup) : s.calls.countP Call.isSucceeded ≤ 1 := by
  have le : ∀ calls : List Call, calls.countP Call.isSucceeded ≤ (calls.filterMap Call.claimed).length := by
    intro calls
    induction calls with
    | nil => exact le_rfl
    | cons call calls ih =>
      rw [List.countP_cons, List.filterMap_cons]
      cases call with
      | succeeded details => exact Nat.succ_le_succ ih
      | loading => exact Nat.le_succ_of_le ih
      | storing => exact Nat.le_succ_of_le ih
      | opening => exact ih
      | measuring => exact ih
      | claiming => exact ih
      | failed => exact ih
  refine (le s.calls).trans ?_
  generalize s.calls.filterMap Call.claimed = claims at one
  match claims, one with
  | [], _ => exact Nat.zero_le 1
  | [_], _ => exact le_rfl
  | _ :: _ :: _, one => exact absurd List.mem_cons_self (List.nodup_cons.1 one).1

/-- In a run where no call sets the marker while another one that has set it goes on or has succeeded, one submission at
most is accepted, and its details are what is read as long as the session exists. -/
theorem session_submitted_once {sessionTtlSeconds : ℕ} {trace : List Move}
    (exclusive : Machine.Guarded (Store.step sealing) (fun s m => s.isExclusive m = true)
      (Store.initial sessionTtlSeconds) trace) :
    Machine.Always (Store.step sealing) (SubmittedOnce sealing) (Store.initial sessionTtlSeconds) trace := by
  have init : Exclusive sealing (Store.initial sessionTtlSeconds) :=
    ⟨List.nodup_nil, fun details mem => absurd mem List.not_mem_nil, fun call mem => absurd mem List.not_mem_nil⟩
  have inv := Machine.always_of_guarded init (fun s m s' inv met taken => exclusive_step inv met taken) exclusive
  intro pre s le reached
  have inv := inv pre s le reached
  refine ⟨countP_isSucceeded_le inv.one, fun details mem exists_ => ?_⟩
  obtain ⟨session, found⟩ := Option.isSome_iff_exists.1 exists_
  obtain ⟨expiresAt, eq⟩ := eq_of_get found
  rw [Store.getPayoutDetails, found]
  exact inv.holds details mem (session, expiresAt) eq

def annsDetails : PayoutDetails := ⟨"Ann Lee", "Old Bank", "1234", none, some "10"⟩

def bobsDetails : PayoutDetails := ⟨"Bob Roe", "New Bank", "5678", some "b@x.org", none⟩

/-- The key that `hkdfSync` derives from the secret `secret`. -/
def sampleKey : List UInt8 :=
  [0x83, 0x80, 0x4f, 0x66, 0x02, 0xa0, 0x01, 0x1f, 0xce, 0x4a, 0xa1, 0x7b, 0x05, 0xc8, 0x05, 0xb7, 0x0b, 0x20,
  0x49, 0x0e, 0x65, 0x67, 0xe7, 0xad, 0xbd, 0x48, 0xbc, 0xb6, 0xed, 0x95, 0x8f, 0x0d]

/-- What AES-256-GCM makes of the details under this key. -/
def annsSeal : AesGcm.Seal where
  key := sampleKey
  iv := List.replicate 12 1
  text := TextCodec.encodeUtf8 (Json.stringify annsDetails.fields)
  data :=
    [0x9d, 0x1d, 0x6d, 0xcb, 0x89, 0xd3, 0x68, 0x4c, 0x74, 0xc1, 0x29, 0x58, 0x2a, 0x51, 0x8a, 0x70, 0x3f, 0x92,
    0x77, 0x06, 0xc4, 0xc7, 0xf2, 0x06, 0x69, 0x80, 0x21, 0xd1, 0xb5, 0x6e, 0x12, 0x3a, 0x42, 0x4a, 0x94, 0xa6,
    0xe4, 0xe2, 0x48, 0x46, 0xa5, 0x24, 0x09, 0x64, 0xd6, 0x78, 0x38, 0xe8, 0x2a, 0x9b, 0xcc, 0xa4, 0xf8, 0x97,
    0x04, 0xf9, 0xe2, 0xd3, 0xdc, 0xf4, 0x69, 0x99, 0x2a, 0xfa, 0x71, 0x39, 0x0f, 0x71, 0x8b, 0x07, 0xd5, 0xcd,
    0x31, 0x29, 0xbb, 0xa3, 0x50, 0xcf, 0xe5, 0x58, 0x13]
  tag := [0x2b, 0xd8, 0x52, 0x83, 0xe3, 0x34, 0x0d, 0x42, 0x56, 0x43, 0x3c, 0xf0, 0x81, 0xc0, 0x5e, 0x70]

def bobsSeal : AesGcm.Seal where
  key := sampleKey
  iv := List.replicate 12 2
  text := TextCodec.encodeUtf8 (Json.stringify bobsDetails.fields)
  data :=
    [0x97, 0xd6, 0xbf, 0x84, 0x72, 0xc0, 0x57, 0xe6, 0x47, 0x6c, 0xa7, 0xce, 0x4a, 0x3b, 0x28, 0xdf, 0x83, 0xe9,
    0xc5, 0x0e, 0x4c, 0xca, 0xd6, 0x39, 0xc5, 0x8d, 0x4a, 0xa5, 0x0f, 0xf7, 0x3d, 0xfe, 0xf7, 0xcf, 0x08, 0x6a,
    0x32, 0xb0, 0x68, 0x5e, 0xc4, 0x9a, 0x4a, 0x49, 0x68, 0x2c, 0x77, 0xe9, 0x19, 0x5e, 0xb8, 0xb1, 0x59, 0x38,
    0x54, 0x70, 0x66, 0x0e, 0x65, 0x5c, 0x57, 0xba, 0xf8, 0x77, 0xac, 0xba, 0x89, 0x3d, 0x56, 0x18, 0xbd, 0xf9,
    0xa7, 0xf4, 0x60, 0xee, 0x74, 0xd0, 0x73, 0x92, 0x18, 0x01, 0x13, 0x7f, 0x1f]
  tag := [0x70, 0x97, 0x91, 0x9c, 0x86, 0xf9, 0x65, 0xce, 0x9d, 0x7c, 0x8e, 0xbd, 0x05, 0x74, 0x6f, 0xb1]

def sampleSealing : Sealing where
  cipher := .ofTable [annsSeal, bobsSeal]
  sealKey := sampleKey
  lawful := AesGcm.lawful_ofTable (by decide +kernel)
  length := rfl

/-- Two calls open a session of an hour; the first one submits, a tenth of a second after it has set the marker. -/
def sampleSubmission : List Move :=
  [.submit (.ok annsDetails), .submit (.ok bobsDetails), .openSession 0 ⟨List.replicate 12 1, rfl⟩,
    .openSession 1 ⟨List.replicate 12 2, rfl⟩, .ttl 0, .claim 0, .tick 100, .load 0, .store 0]

/-- The second one finds the marker. -/
theorem session_submitted_once_sample : ∃ s, Machine.exec (Store.step sampleSealing) (Store.initial 3600)
      (sampleSubmission ++ [.ttl 1, .claim 1]) = some s ∧
    s.getPayoutDetails sampleSealing = some annsDetails ∧ SubmittedOnce sampleSealing s := by
  have run : (Machine.exec (Store.step sampleSealing) (Store.initial 3600)
      (sampleSubmission ++ [.ttl 1, .claim 1])).map (fun s => (s.calls.head?, s.get.isSome)) =
        some (some (.succeeded annsDetails), true) := by decide +kernel
  obtain ⟨s, reached, last⟩ := Option.map_eq_some_iff.1 run
  obtain ⟨first, exists_⟩ := Prod.mk.inj last
  have once : SubmittedOnce sampleSealing s :=
    session_submitted_once (by decide +kernel) _ s (List.prefix_refl _) reached
  exact ⟨s, reached, once.2 annsDetails (List.mem_of_mem_head? first) exists_, once⟩

/-- The second one goes on when the marker is gone, a tenth of a second before the session. -/
theorem session_submitted_twice : ∃ s, Machine.exec (Store.step sampleSealing) (Store.initial 3600)
      (sampleSubmission ++ [.tick 3599300, .ttl 1, .tick 600, .claim 1, .load 1, .store 1]) = some s ∧
    ¬SubmittedOnce sampleSealing s := by
  have run : (Machine.exec (Store.step sampleSealing) (Store.initial 3600)
      (sampleSubmission ++ [.tick 3599300, .ttl 1, .tick 600, .claim 1, .load 1, .store 1])).map (fun s =>
        s.calls.countP Call.isSucceeded) = some 2 := by decide +kernel
  obtain ⟨s, reached, two⟩ := Option.map_eq_some_iff.1 run
  refine ⟨s, reached, fun once => ?_⟩
  have one := once.1
  rw [two] at one
  exact absurd one (by decide)

end StellarFlow.Sep24
