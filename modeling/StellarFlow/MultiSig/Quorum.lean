import StellarFlow.MultiSig.Requests

/-!
# Genuine signatures

No signature is verified: `collectSignature` stores what its caller sends, and `requestRemoteSignature` what the remote
server answers. `signMultiSigPrice` stores a signature of the local signer, under the empty key until the service has
read its public key. Where all of these are genuine, an approved price has a quorum of them.
-/

namespace StellarFlow.MultiSig

/-- The signature that a call stores is one over the message, by the key it is stored under. -/
def Method.Genuine (verify : String → String → String → Bool) (cfg : Settings) (localKey message : String)
    (answer : Signature) : Method → Prop
  | .collectSignature signature signerPublicKey _ => verify signerPublicKey message signature = true
  | .signMultiSigPrice => localKey = cfg.publicKey
  | .requestRemoteSignature => answer.signature ≠ "" → answer.signerPublicKey ≠ "" →
      verify answer.signerPublicKey message answer.signature = true

def Request.Genuine (verify : String → String → String → Bool) (cfg : Settings) (localKey : String) (r : Request) :
    Move → Prop
  | .store i answer => ∀ c ∈ r.session.calls[i]?, c.method.Genuine verify cfg localKey (r.message cfg) answer
  | _ => True

/-- Payloads and answers hold genuine signatures, and the public key is read before the local signer signs. -/
def Genuine (verify : String → String → String → Bool) (cfg : Settings) (s : Service) : Event → Prop
  | .on id move => ∀ r ∈ s.requests[id]?, r.Genuine verify cfg s.localSignerPublicKey move
  | _ => True

instance decidableMethodGenuine (verify : String → String → String → Bool) (cfg : Settings)
    (localKey message : String) (answer : Signature) :
    (method : Method) → Decidable (method.Genuine verify cfg localKey message answer)
  | .collectSignature signature signerPublicKey _ =>
    inferInstanceAs (Decidable (verify signerPublicKey message signature = true))
  | .signMultiSigPrice => inferInstanceAs (Decidable (localKey = cfg.publicKey))
  | .requestRemoteSignature => inferInstanceAs (Decidable (answer.signature ≠ "" → answer.signerPublicKey ≠ "" →
      verify answer.signerPublicKey message answer.signature = true))

instance decidableRequestGenuine (verify : String → String → String → Bool) (cfg : Settings) (localKey : String)
    (r : Request) : (m : Move) → Decidable (r.Genuine verify cfg localKey m)
  | .store i answer => inferInstanceAs (Decidable (∀ c ∈ r.session.calls[i]?,
      c.method.Genuine verify cfg localKey (r.message cfg) answer))
  | .call _ => isTrue trivial
  | .read _ _ => isTrue trivial
  | .expire _ => isTrue trivial
  | .increment _ => isTrue trivial
  | .approve _ => isTrue trivial
  | .load _ => isTrue trivial
  | .submit _ _ => isTrue trivial
  | .record _ _ => isTrue trivial
  | .fails _ => isTrue trivial

instance decidableGenuine (verify : String → String → String → Bool) (cfg : Settings) (s : Service) :
    (e : Event) → Decidable (Genuine verify cfg s e)
  | .on id move => inferInstanceAs (Decidable (∀ r ∈ s.requests[id]?,
      r.Genuine verify cfg s.localSignerPublicKey move))
  | .wait _ => isTrue trivial
  | .initializeSigner => isTrue trivial
  | .createMultiSigRequest _ _ _ _ _ => isTrue trivial
  | .cleanupExpiredRequests _ => isTrue trivial

/-- A quorum of stored signatures, by distinct keys, which are all genuine. -/
structure Request.HasQuorum (verify : String → String → String → Bool) (cfg : Settings) (r : Request)
    (quorum : List Signature) : Prop where
  stored : quorum.Sublist r.session.signatures
  enough : r.session.price.requiredSignatures ≤ quorum.length
  distinct : (quorum.map Signature.signerPublicKey).Nodup
  genuine : ∀ sig ∈ quorum, verify sig.signerPublicKey (r.message cfg) sig.signature = true

/-- All stored signatures are genuine. -/
structure Request.Signed (verify : String → String → String → Bool) (cfg : Settings) (r : Request) : Prop where
  counted : r.session.Counted
  genuine : ∀ sig ∈ r.session.signatures, verify sig.signerPublicKey (r.message cfg) sig.signature = true

variable {verify : String → String → String → Bool} {cfg : Settings} {r : Request} {clock : ℤ} {m : Move}
  {session : Session} {signer : Signer}

/-- A new request has no signatures. -/
lemma Request.signed_new (id : ℕ) (currency : String) (rate : ℚ) (source memoId : String) (now : ℤ) :
    (cfg.request id currency rate source memoId now).Signed verify cfg where
  counted := Session.counted_initial _ rfl rfl
  genuine := fun _ mem => absurd mem List.not_mem_nil

/-- Expiry changes none. -/
lemma Request.Signed.expireBefore (inv : r.Signed verify cfg) (now : ℤ) : (r.expireBefore now).Signed verify cfg := by
  rw [Request.expireBefore]
  split
  · exact ⟨inv.counted.expired, inv.genuine⟩
  · exact inv

/-- The message stays the same. -/
lemma Request.message_moved (step : Session.Step signer r.session m session) :
    (r.moved clock m session).message cfg = r.message cfg := by
  have fixed := step.fixed
  show createSignatureMessage session.price.currency (cfg.rateText session.price.rate) r.source = _
  rw [fixed.currency, fixed.rate]
  rfl

/-- The signature that a call stores, by the condition. -/
lemma Request.Genuine.signature (signs : ∀ message, verify cfg.publicKey message (cfg.sign message) = true)
    {i : ℕ} {answer sig : Signature} {method : Method} {price : MultiSigPrice}
    (genuine : r.Genuine verify cfg signer.publicKey (.store i answer))
    (possible : r.possible cfg clock (.store i answer) = true)
    (found : r.session.calls[i]? = some ⟨method, .read price⟩) (own : method.signature signer answer = some sig) :
    verify sig.signerPublicKey (r.message cfg) sig.signature = true := by
  have met := genuine _ found
  cases method with
  | collectSignature signature key name =>
    cases own
    exact met
  | signMultiSigPrice =>
    cases own
    rw [Request.possible, found] at possible
    have signed : answer.signature = cfg.sign (r.message cfg) := of_decide_eq_true possible
    have key : signer.publicKey = cfg.publicKey := met
    show verify signer.publicKey (r.message cfg) answer.signature = true
    rw [signed, key]
    exact signs _
  | requestRemoteSignature =>
    rw [Method.signature] at own
    split at own
    case isTrue both =>
      cases own
      rw [Bool.and_eq_true] at both
      exact met (of_decide_eq_true both.1) (of_decide_eq_true both.2)
    case isFalse => cases own

/-- A move with a genuine signature keeps them genuine. -/
lemma Request.Signed.moved (signs : ∀ message, verify cfg.publicKey message (cfg.sign message) = true)
    (inv : r.Signed verify cfg) (met : r.Genuine verify cfg signer.publicKey m)
    (possible : r.possible cfg clock m = true) (step : Session.Step signer r.session m session) :
    (r.moved clock m session).Signed verify cfg := by
  refine ⟨inv.counted.step step, ?_⟩
  rw [Request.message_moved step]
  cases step with
  | store found own new =>
    intro sig mem
    rcases List.mem_append.1 mem with old | last
    · exact inv.genuine sig old
    · rw [List.mem_singleton.1 last]
      exact met.signature signs possible found own
  | call => exact inv.genuine
  | read => exact inv.genuine
  | expire => exact inv.genuine
  | storeNothing => exact inv.genuine
  | storeRepeated => exact inv.genuine
  | increment => exact inv.genuine
  | approve => exact inv.genuine
  | load => exact inv.genuine
  | submit => exact inv.genuine
  | record => exact inv.genuine
  | fails => exact inv.genuine

variable {s s' : Service} {e : Event}

/-- A step with a genuine signature keeps all signatures genuine. -/
lemma signed_step (signs : ∀ message, verify cfg.publicKey message (cfg.sign message) = true)
    (all : ∀ r ∈ s.requests, r.Signed verify cfg) (met : Genuine verify cfg s e) (taken : s.step cfg e = some s') :
    ∀ r ∈ s'.requests, r.Signed verify cfg := by
  refine Service.forall_step (P := Request.Signed verify cfg) (Q := fun _ _ => True)
    (R := fun signer _ r m => r.Genuine verify cfg signer.publicKey m) Request.signed_new
    (fun now _ inv _ => inv.expireBefore now)
    (fun _ _ _ _ _ inv met possible step => inv.moved signs met possible step) all ?_ taken
  cases e with
  | wait => trivial
  | initializeSigner => trivial
  | createMultiSigRequest => trivial
  | cleanupExpiredRequests now => exact fun _ _ => trivial
  | on id move => exact met

/-- In a run in which all signatures that are handed in are genuine, every approved price has a quorum. -/
theorem approved_has_quorum (signs : ∀ message, verify cfg.publicKey message (cfg.sign message) = true) {start : ℤ}
    {trace : List Event}
    (genuine : Machine.Guarded (Service.step cfg) (Genuine verify cfg) (Service.initial start) trace) :
    Machine.Always (Service.step cfg)
      (fun s => ∀ r ∈ s.requests, r.status = .approved → ∃ quorum, r.HasQuorum verify cfg quorum)
      (Service.initial start) trace := by
  have init : ∀ r ∈ (Service.initial start).requests, r.Signed verify cfg := fun _ mem => absurd mem List.not_mem_nil
  have inv := Machine.always_of_guarded init (fun _ _ _ all met taken => signed_step signs all met taken) genuine
  intro pre s le reached r mem approved
  have signed := inv pre s le reached r mem
  have met : r.session.price.requiredSignatures ≤ r.session.price.collectedSignatures :=
    signed.counted.approved approved
  have enough : r.session.price.requiredSignatures ≤ r.session.signatures.length :=
    met.trans ((Nat.le_add_right _ _).trans signed.counted.stored)
  exact ⟨r.session.signatures, List.Sublist.refl _, enough, signed.counted.distinct, signed.genuine⟩

/-- A signature is the key and the message. -/
def sampleVerify (key message signature : String) : Bool := signature = s!"{key}:{message}"

/-- A price with one signature of the local signer and one that is handed in. -/
def sampleCollection (signature : String) : List Event :=
  [.initializeSigner, .createMultiSigRequest "NGN" 1500 "source" "memo" 0, .on 0 (.call .signMultiSigPrice),
    .on 0 (.read 0 1), .on 0 (.store 0 ⟨"", "", "local:SF-PRICE-NGN-1500-source"⟩), .on 0 (.increment 0),
    .on 0 (.call (.collectSignature signature "a" none)), .on 0 (.read 1 2), .on 0 (.store 1 ⟨"", "", ""⟩),
    .on 0 (.increment 1), .on 0 (.approve 1)]

/-- The own signature is genuine. -/
lemma sampleVerify_sign (message : String) :
    sampleVerify sampleSettings.publicKey message (sampleSettings.sign message) = true := decide_eq_true rfl

/-- The own signature, and one that is collected. -/
theorem approved_has_quorum_sample : ∃ s,
    Machine.exec (Service.step sampleSettings) (Service.initial 0)
      (sampleCollection "a:SF-PRICE-NGN-1500-source") = some s ∧
    s.requests.map Request.status = [.approved] ∧
    ∀ r ∈ s.requests, r.status = .approved → ∃ quorum, r.HasQuorum sampleVerify sampleSettings quorum := by
  have run : (Machine.exec (Service.step sampleSettings) (Service.initial 0)
      (sampleCollection "a:SF-PRICE-NGN-1500-source")).map (fun s => s.requests.map Request.status) =
        some [.approved] := by decide +kernel
  have genuine : Machine.Guarded (Service.step sampleSettings) (Genuine sampleVerify sampleSettings)
      (Service.initial 0) (sampleCollection "a:SF-PRICE-NGN-1500-source") := by decide +kernel
  obtain ⟨s, reached, statuses⟩ := Option.map_eq_some_iff.1 run
  exact ⟨s, reached, statuses, approved_has_quorum sampleVerify_sign genuine _ s (List.prefix_refl _) reached⟩

/-- A forged signature approves a price. -/
theorem approved_without_quorum : ∃ s r,
    Machine.exec (Service.step sampleSettings) (Service.initial 0) (sampleCollection "forged") = some s ∧
    r ∈ s.requests ∧ r.status = .approved ∧ ¬ ∃ quorum, r.HasQuorum sampleVerify sampleSettings quorum := by
  have run : (Machine.exec (Service.step sampleSettings) (Service.initial 0) (sampleCollection "forged")).map
      (fun s => s.requests.map fun r => (r.status, r.session.price.requiredSignatures,
        (r.session.signatures.filter fun sig =>
          sampleVerify sig.signerPublicKey (r.message sampleSettings) sig.signature).length)) =
        some [(.approved, 2, 1)] := by decide +kernel
  obtain ⟨s, reached, rows⟩ := Option.map_eq_some_iff.1 run
  obtain ⟨r, requests, row⟩ := List.map_eq_singleton_iff.1 rows
  obtain ⟨approved, row⟩ := Prod.mk.inj row
  obtain ⟨required, genuine⟩ := Prod.mk.inj row
  refine ⟨s, r, reached, requests ▸ List.mem_singleton_self r, approved, ?_⟩
  rintro ⟨quorum, has⟩
  have few := (has.stored.filter fun sig =>
    sampleVerify sig.signerPublicKey (r.message sampleSettings) sig.signature).length_le
  rw [List.filter_eq_self.2 has.genuine, genuine] at few
  have enough := has.enough
  rw [required] at enough
  omega

end StellarFlow.MultiSig
