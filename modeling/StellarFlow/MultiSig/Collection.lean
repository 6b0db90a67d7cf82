import Mathlib.Algebra.Order.Ring.Rat
import StellarFlow.Lib.Machine

/-!
# Collecting signatures for a price

Model of `collectSignature`, `signMultiSigPrice` and `requestRemoteSignature` in `src/services/multiSigService.ts` on
one `MultiSigPrice`. The calls run interleaved, one statement or remote answer at a time, and may throw at each. The
calls of `submitMultiSignedPriceUpdate` are kept.

The threshold is tested against the counter after the increment, or against the row read at first when the signer has
signed before. Only the increment that reaches the required number is the first to meet it, so a price is broadcast
once as long as `collectSignature` adds no signature beyond that number, and no repeated one after it.
-/

namespace StellarFlow.MultiSig

/-- A row of `MultiSigSignature`. -/
structure Signature where
  signerPublicKey : String
  signerName : String
  signature : String

inductive Status where
  | pending
  | approved
  | rejected
  | expired
  deriving DecidableEq

/-- The row of `MultiSigPrice`. -/
structure MultiSigPrice where
  id : ℕ
  currency : String
  rate : ℚ
  status : Status
  requiredSignatures : ℕ
  collectedSignatures : ℕ
  memoId : Option String
  stellarTxHash : Option String
  submittedAt : Option ℤ
  expiresAt : ℤ

inductive Method where
  | collectSignature (signature signerPublicKey : String) (signerName : Option String)
  | signMultiSigPrice
  | requestRemoteSignature

/-- What a call does next, with the row it works on: read the price, mark it as expired, store the signature, count it,
approve the price, load the signatures, broadcast, or record the broadcast. -/
inductive Phase where
  | started
  | expiring
  | read (price : MultiSigPrice)
  | stored
  | approving (price : MultiSigPrice)
  | approved (price : MultiSigPrice)
  | loaded (price : MultiSigPrice) (signatures : List Signature)
  | submitted (memoId txHash : String)
  | finished

structure Call where
  method : Method
  phase : Phase

/-- The arguments of `submitMultiSignedPriceUpdate`. -/
structure Broadcast where
  currency : String
  rate : ℚ
  memoId : String
  signatures : List (String × String)

/-- The price with its signatures, the calls, and the broadcasts so far. -/
structure Session where
  price : MultiSigPrice
  signatures : List Signature
  calls : List Call
  broadcasts : List Broadcast

/-- `localSignerPublicKey` and `signerName` of the service. -/
structure Signer where
  publicKey : String
  name : String

/-- One statement of a call, or the answer it waits for. -/
inductive Move where
  | call (method : Method)
  | read (i : ℕ) (now : ℤ)
  | expire (i : ℕ)
  | store (i : ℕ) (answer : Signature)
  | increment (i : ℕ)
  | approve (i : ℕ)
  | load (i : ℕ)
  | submit (i : ℕ) (txHash : Option String)
  | record (i : ℕ) (now : ℤ)
  | fails (i : ℕ)

/-- `text || default`. -/
def orDefault (text : Option String) (default : String) : String :=
  match text with
  | some s => if s ≠ "" then s else default
  | none => default

/-- `collectSignature` refuses an empty signature or key. -/
def Method.accepted : Method → Bool
  | .collectSignature signature signerPublicKey _ => signature ≠ "" && signerPublicKey ≠ ""
  | _ => true

/-- The signature that a call stores: the one it was given, the one of the local signer, or the one in the answer of
the remote server, if there is one. -/
def Method.signature (signer : Signer) (answer : Signature) : Method → Option Signature
  | .collectSignature signature signerPublicKey signerName =>
    some ⟨signerPublicKey, orDefault signerName "external-signer", signature⟩
  | .signMultiSigPrice => some ⟨signer.publicKey, signer.name, answer.signature⟩
  | .requestRemoteSignature =>
    if answer.signature ≠ "" && answer.signerPublicKey ≠ "" then
      some { answer with signerName := orDefault (some answer.signerName) "remote-signer" }
    else none

/-- `findUnique` and the checks after it; `requestRemoteSignature` makes none. -/
def Method.afterRead (price : MultiSigPrice) (now : ℤ) : Method → Phase
  | .requestRemoteSignature => .read price
  | _ =>
    if price.status ≠ .pending then .finished
    else if now > price.expiresAt then .expiring
    else .read price

/-- The threshold test on a row. -/
def thresholdPhase (price : MultiSigPrice) : Phase :=
  if price.collectedSignatures ≥ price.requiredSignatures then .approving price else .finished

/-- After a signature that was stored before: only `collectSignature` tests the threshold, on the row it read. -/
def Method.afterRepeated (price : MultiSigPrice) : Method → Phase
  | .collectSignature _ _ _ => thresholdPhase price
  | _ => .finished

/-- After `approveMultiSigPrice` only `collectSignature` goes on. -/
def Method.afterApproval (price : MultiSigPrice) : Method → Phase
  | .collectSignature _ _ _ => .approved price
  | _ => .finished

/-- `collectedSignatures: { increment: 1 }`. -/
def MultiSigPrice.increment (price : MultiSigPrice) : MultiSigPrice :=
  { price with collectedSignatures := price.collectedSignatures + 1 }

/-- The price is written and the call goes on. -/
def Session.advance (s : Session) (i : ℕ) (method : Method) (phase : Phase) (price : MultiSigPrice) : Session :=
  { s with price, calls := s.calls.set i ⟨method, phase⟩ }

/-- One move. -/
def Session.step (signer : Signer) (s : Session) : Move → Option Session
  | .call method =>
    some { s with calls := s.calls ++ [⟨method, if method.accepted then .started else .finished⟩] }
  | .read i now =>
    match s.calls[i]? with
    | some ⟨method, .started⟩ => some (s.advance i method (method.afterRead s.price now) s.price)
    | _ => none
  | .expire i =>
    match s.calls[i]? with
    | some ⟨method, .expiring⟩ => some (s.advance i method .finished { s.price with status := .expired })
    | _ => none
  | .store i answer =>
    match s.calls[i]? with
    | some ⟨method, .read price⟩ =>
      match method.signature signer answer with
      | none => some (s.advance i method .finished s.price)
      | some signature =>
        if signature.signerPublicKey ∈ s.signatures.map Signature.signerPublicKey then
          some (s.advance i method (method.afterRepeated price) s.price)
        else some { s.advance i method .stored s.price with signatures := s.signatures ++ [signature] }
    | _ => none
  | .increment i =>
    match s.calls[i]? with
    | some ⟨method, .stored⟩ =>
      some (s.advance i method (thresholdPhase s.price.increment) s.price.increment)
    | _ => none
  | .approve i =>
    match s.calls[i]? with
    | some ⟨method, .approving price⟩ =>
      some (s.advance i method (method.afterApproval price) { s.price with status := .approved })
    | _ => none
  | .load i =>
    match s.calls[i]? with
    | some ⟨method, .approved price⟩ => some (s.advance i method (.loaded price s.signatures) s.price)
    | _ => none
  | .submit i txHash =>
    match s.calls[i]? with
    | some ⟨method, .loaded price signatures⟩ =>
      let memoId := orDefault price.memoId s!"MS-{price.id}"
      let signatureList := signatures.map fun sig => (sig.signerPublicKey, sig.signature)
      let phase := txHash.elim .finished (.submitted memoId)
      some { s.advance i method phase s.price with
        broadcasts := s.broadcasts ++ [⟨price.currency, price.rate, memoId, signatureList⟩] }
    | _ => none
  | .record i now =>
    match s.calls[i]? with
    | some ⟨method, .submitted memoId txHash⟩ =>
      some (s.advance i method .finished
        { s.price with memoId := some memoId, stellarTxHash := some txHash, submittedAt := some now })
    | _ => none
  | .fails i =>
    match s.calls[i]? with
    | some ⟨method, _⟩ => some (s.advance i method .finished s.price)
    | none => none

/-- A price without calls. -/
def Session.initial (price : MultiSigPrice) (signatures : List Signature) : Session := ⟨price, signatures, [], []⟩

variable {signer : Signer} {s s' : Session} {m : Move} {i : ℕ} {c : Call}

/-- The moves of a session, case by case. -/
inductive Session.Step (signer : Signer) (s : Session) : Move → Session → Prop where
  | call (method : Method) : Step signer s (.call method)
      { s with calls := s.calls ++ [⟨method, if method.accepted then .started else .finished⟩] }
  | read {i : ℕ} {now : ℤ} {method : Method} (found : s.calls[i]? = some ⟨method, .started⟩) :
      Step signer s (.read i now) (s.advance i method (method.afterRead s.price now) s.price)
  | expire {i : ℕ} {method : Method} (found : s.calls[i]? = some ⟨method, .expiring⟩) :
      Step signer s (.expire i) (s.advance i method .finished { s.price with status := .expired })
  | storeNothing {i : ℕ} {answer : Signature} {method : Method} {price : MultiSigPrice}
      (found : s.calls[i]? = some ⟨method, .read price⟩) (none : method.signature signer answer = none) :
      Step signer s (.store i answer) (s.advance i method .finished s.price)
  | storeRepeated {i : ℕ} {answer signature : Signature} {method : Method} {price : MultiSigPrice}
      (found : s.calls[i]? = some ⟨method, .read price⟩) (own : method.signature signer answer = some signature)
      (repeated : signature.signerPublicKey ∈ s.signatures.map Signature.signerPublicKey) :
      Step signer s (.store i answer) (s.advance i method (method.afterRepeated price) s.price)
  | store {i : ℕ} {answer signature : Signature} {method : Method} {price : MultiSigPrice}
      (found : s.calls[i]? = some ⟨method, .read price⟩) (own : method.signature signer answer = some signature)
      (new : signature.signerPublicKey ∉ s.signatures.map Signature.signerPublicKey) :
      Step signer s (.store i answer)
        { s.advance i method .stored s.price with signatures := s.signatures ++ [signature] }
  | increment {i : ℕ} {method : Method} (found : s.calls[i]? = some ⟨method, .stored⟩) :
      Step signer s (.increment i) (s.advance i method (thresholdPhase s.price.increment) s.price.increment)
  | approve {i : ℕ} {method : Method} {price : MultiSigPrice} (found : s.calls[i]? = some ⟨method, .approving price⟩) :
      Step signer s (.approve i) (s.advance i method (method.afterApproval price) { s.price with status := .approved })
  | load {i : ℕ} {method : Method} {price : MultiSigPrice} (found : s.calls[i]? = some ⟨method, .approved price⟩) :
      Step signer s (.load i) (s.advance i method (.loaded price s.signatures) s.price)
  | submit {i : ℕ} {txHash : Option String} {method : Method} {price : MultiSigPrice} {signatures : List Signature}
      (found : s.calls[i]? = some ⟨method, .loaded price signatures⟩) (memoId : String) (broadcast : Broadcast) :
      Step signer s (.submit i txHash)
        { s.advance i method (txHash.elim .finished (.submitted memoId)) s.price with
          broadcasts := s.broadcasts ++ [broadcast] }
  | record {i : ℕ} {now : ℤ} {method : Method} {memoId txHash : String}
      (found : s.calls[i]? = some ⟨method, .submitted memoId txHash⟩) :
      Step signer s (.record i now) (s.advance i method .finished
        { s.price with memoId := some memoId, stellarTxHash := some txHash, submittedAt := some now })
  | fails {i : ℕ} {method : Method} {phase : Phase} (found : s.calls[i]? = some ⟨method, phase⟩) :
      Step signer s (.fails i) (s.advance i method .finished s.price)

/-- Each step of the model is one of those named. -/
lemma Session.step_cases (taken : s.step signer m = some s') : Session.Step signer s m s' := by
  cases m with
  | call method =>
    cases taken
    exact .call method
  | read i now =>
    rw [Session.step] at taken
    split at taken
    case h_1 method found =>
      cases taken
      exact .read found
    case h_2 => cases taken
  | expire i =>
    rw [Session.step] at taken
    split at taken
    case h_1 method found =>
      cases taken
      exact .expire found
    case h_2 => cases taken
  | store i answer =>
    rw [Session.step] at taken
    split at taken
    case h_1 method price found =>
      split at taken
      case h_1 none =>
        cases taken
        exact .storeNothing found none
      case h_2 signature own =>
        split at taken
        case isTrue repeated =>
          cases taken
          exact .storeRepeated found own repeated
        case isFalse new =>
          cases taken
          exact .store found own new
    case h_2 => cases taken
  | increment i =>
    rw [Session.step] at taken
    split at taken
    case h_1 method found =>
      cases taken
      exact .increment found
    case h_2 => cases taken
  | approve i =>
    rw [Session.step] at taken
    split at taken
    case h_1 method price found =>
      cases taken
      exact .approve found
    case h_2 => cases taken
  | load i =>
    rw [Session.step] at taken
    split at taken
    case h_1 method price found =>
      cases taken
      exact .load found
    case h_2 => cases taken
  | submit i txHash =>
    rw [Session.step] at taken
    split at taken
    case h_1 method price signatures found =>
      cases taken
      exact .submit found _ _
    case h_2 => cases taken
  | record i now =>
    rw [Session.step] at taken
    split at taken
    case h_1 method memoId txHash found =>
      cases taken
      exact .record found
    case h_2 => cases taken
  | fails i =>
    rw [Session.step] at taken
    split at taken
    case h_1 method phase found =>
      cases taken
      exact .fails found
    case h_2 => cases taken

def Method.collects : Method → Bool
  | .collectSignature _ _ _ => true
  | _ => false

/-- The signer of a call of `collectSignature` that is about to store its signature, and the row that it read. -/
def Call.collecting : Call → Option (String × MultiSigPrice)
  | ⟨.collectSignature _ signerPublicKey _, .read price⟩ => some (signerPublicKey, price)
  | _ => none

/-- `collectSignature` counts a signature only below the required number, and finds one that was stored before only
with a row that it read below this number. -/
def BelowThreshold (s : Session) : Move → Prop
  | .increment i =>
    s.calls[i]?.any (·.method.collects) = true → s.price.collectedSignatures < s.price.requiredSignatures
  | .store i _ => ∀ c ∈ s.calls[i]?.bind Call.collecting, c.1 ∈ s.signatures.map Signature.signerPublicKey →
      c.2.collectedSignatures < c.2.requiredSignatures
  | _ => True

instance decidableBelowThreshold (s : Session) : (m : Move) → Decidable (BelowThreshold s m)
  | .increment i => inferInstanceAs (Decidable (s.calls[i]?.any (·.method.collects) = true →
      s.price.collectedSignatures < s.price.requiredSignatures))
  | .store i _ => inferInstanceAs (Decidable (∀ c ∈ s.calls[i]?.bind Call.collecting,
      c.1 ∈ s.signatures.map Signature.signerPublicKey → c.2.collectedSignatures < c.2.requiredSignatures))
  | .call _ => isTrue trivial
  | .read _ _ => isTrue trivial
  | .expire _ => isTrue trivial
  | .approve _ => isTrue trivial
  | .load _ => isTrue trivial
  | .submit _ _ => isTrue trivial
  | .record _ _ => isTrue trivial
  | .fails _ => isTrue trivial

/-- The call is on its way to a broadcast. -/
def Call.armed (c : Call) : Bool :=
  match c.phase with
  | .approving _ => c.method.collects
  | .approved _ => true
  | .loaded _ _ => true
  | _ => false

/-- The broadcasts, made and to come, are none below the threshold and one at most from it on. -/
def Bounded (s : Session) : Prop :=
  s.broadcasts.length + s.calls.countP Call.armed ≤
    if s.price.requiredSignatures ≤ s.price.collectedSignatures then 1 else 0

/-- A call that goes on without a new claim to a broadcast. -/
lemma Bounded.go_on (inv : Bounded s) (found : s.calls[i]? = some c) (c' : Call) (calls : s'.calls = s.calls.set i c')
    (required : s'.price.requiredSignatures = s.price.requiredSignatures)
    (collected : s.price.collectedSignatures ≤ s'.price.collectedSignatures)
    (less : s'.broadcasts.length + (if c'.armed then 1 else 0) ≤ s.broadcasts.length + if c.armed then 1 else 0) :
    Bounded s' := by
  have count := Machine.countP_set Call.armed c' found
  rw [Bounded] at inv ⊢
  rw [calls, required]
  have grows : (if s.price.requiredSignatures ≤ s.price.collectedSignatures then 1 else 0) ≤
      if s.price.requiredSignatures ≤ s'.price.collectedSignatures then 1 else 0 := by
    split
    case isTrue met => rw [if_pos (met.trans collected)]
    case isFalse => exact Nat.zero_le _
  omega

/-- A call that writes nothing which the bound depends on. -/
lemma Bounded.advance (inv : Bounded s) (found : s.calls[i]? = some c) (method : Method) (phase : Phase)
    (price : MultiSigPrice) (required : price.requiredSignatures = s.price.requiredSignatures)
    (collected : s.price.collectedSignatures ≤ price.collectedSignatures)
    (less : Call.armed ⟨method, phase⟩ = true → c.armed = true) : Bounded (s.advance i method phase price) := by
  refine inv.go_on found ⟨method, phase⟩ rfl required collected (Nat.add_le_add_left ?_ _)
  split
  case isTrue armed => rw [if_pos (less armed)]
  case isFalse => exact Nat.zero_le _

/-- At the threshold a call that collects is on its way. -/
lemma armed_threshold {method : Method} {price : MultiSigPrice} :
    Call.armed ⟨method, thresholdPhase price⟩ = true ↔
      method.collects = true ∧ price.requiredSignatures ≤ price.collectedSignatures := by
  rw [thresholdPhase]
  split
  case isTrue met => exact ⟨fun armed => ⟨armed, met⟩, fun both => both.1⟩
  case isFalse below => exact ⟨(nomatch ·), fun both => absurd both.2 below⟩

/-- After the read a call has ended, expires the price, or goes on with the row. -/
lemma Method.afterRead_cases (method : Method) (price : MultiSigPrice) (now : ℤ) :
    method.afterRead price now = .finished ∨ method.afterRead price now = .expiring ∨
      method.afterRead price now = .read price := by
  rw [Method.afterRead.eq_def]
  split
  · exact .inr (.inr rfl)
  · split
    · exact .inl rfl
    · split
      · exact .inr (.inl rfl)
      · exact .inr (.inr rfl)

/-- After its read it is not yet. -/
lemma armed_afterRead (method : Method) (price : MultiSigPrice) (now : ℤ) :
    Call.armed ⟨method, method.afterRead price now⟩ = false := by
  rcases method.afterRead_cases price now with phase | phase | phase
  · rw [phase]
    rfl
  · rw [phase]
    rfl
  · rw [phase]
    rfl

/-- Counting a signature below the threshold leads to a broadcast only when there was none. -/
lemma bounded_increment (inv : Bounded s) {method : Method} (found : s.calls[i]? = some ⟨method, .stored⟩)
    (below : method.collects = true → s.price.collectedSignatures < s.price.requiredSignatures) :
    Bounded (s.advance i method (thresholdPhase s.price.increment) s.price.increment) := by
  by_cases armed : Call.armed ⟨method, thresholdPhase s.price.increment⟩ = true
  · obtain ⟨collects, met⟩ := armed_threshold.1 armed
    have count := Machine.countP_set Call.armed ⟨method, thresholdPhase s.price.increment⟩ found
    rw [if_pos armed] at count
    rw [Bounded, if_neg (not_le.2 (below collects))] at inv
    show s.broadcasts.length + (s.calls.set i _).countP Call.armed ≤
      if s.price.increment.requiredSignatures ≤ s.price.increment.collectedSignatures then 1 else 0
    rw [if_pos met]
    omega
  · exact inv.advance found method _ _ rfl (Nat.le_succ _) fun yes => absurd yes armed

/-- A new call keeps the bound. -/
lemma bounded_call (inv : Bounded s) (method : Method) :
    Bounded { s with calls := s.calls ++ [⟨method, if method.accepted then .started else .finished⟩] } := by
  have new : Call.armed ⟨method, if method.accepted then .started else .finished⟩ = false := by
    cases method.accepted with
    | true => rfl
    | false => rfl
  rw [Bounded] at inv ⊢
  show s.broadcasts.length + (s.calls ++ [_]).countP Call.armed ≤ _
  rw [List.countP_append, List.countP_singleton, new]
  exact inv

/-- A signer that has signed before gets no broadcast out of a row that was read below the threshold. -/
lemma not_armed_afterRepeated {method : Method} {price : MultiSigPrice} {answer signature : Signature}
    (own : method.signature signer answer = some signature)
    (below : ∀ c ∈ Call.collecting ⟨method, .read price⟩, c.1 = signature.signerPublicKey →
      c.2.collectedSignatures < c.2.requiredSignatures) :
    ¬ Call.armed ⟨method, method.afterRepeated price⟩ = true := by
  intro armed
  cases method with
  | collectSignature text key name =>
    cases own
    exact absurd (armed_threshold.1 armed).2 (not_le.2 (below (key, price) rfl rfl))
  | signMultiSigPrice => cases armed
  | requestRemoteSignature => cases armed

/-- What is on its way after the approval was before it. -/
lemma armed_of_afterApproval {method : Method} {price : MultiSigPrice}
    (armed : Call.armed ⟨method, method.afterApproval price⟩ = true) :
    Call.armed ⟨method, .approving price⟩ = true := by
  cases method with
  | collectSignature => rfl
  | signMultiSigPrice => cases armed
  | requestRemoteSignature => cases armed

/-- A broadcast uses up the claim of its call, whatever the answer is. -/
lemma bounded_submit (inv : Bounded s) {method : Method} {price : MultiSigPrice} {signatures : List Signature}
    (found : s.calls[i]? = some ⟨method, .loaded price signatures⟩) (txHash : Option String) (memoId : String)
    (broadcast : Broadcast) :
    Bounded { s.advance i method (txHash.elim .finished (.submitted memoId)) s.price with
      broadcasts := s.broadcasts ++ [broadcast] } := by
  have spent : Call.armed ⟨method, txHash.elim .finished (.submitted memoId)⟩ = false := by
    cases txHash with
    | none => rfl
    | some hash => rfl
  refine inv.go_on found ⟨method, _⟩ rfl rfl le_rfl ?_
  rw [List.length_append, spent]
  exact le_rfl

/-- A step below the threshold keeps the bound. -/
lemma bounded_step (inv : Bounded s) (below : BelowThreshold s m) (taken : s.step signer m = some s') : Bounded s' := by
  cases Session.step_cases taken with
  | call method => exact bounded_call inv method
  | read found =>
    refine inv.advance found _ _ _ rfl le_rfl fun armed => ?_
    rw [armed_afterRead] at armed
    cases armed
  | expire found => exact inv.advance found _ _ _ rfl le_rfl (nomatch ·)
  | storeNothing found => exact inv.advance found _ _ _ rfl le_rfl (nomatch ·)
  | storeRepeated found own repeated =>
    rw [BelowThreshold, found] at below
    have idle := not_armed_afterRepeated own fun c reading same => below c reading (same ▸ repeated)
    exact inv.advance found _ _ _ rfl le_rfl fun armed => absurd armed idle
  | store found => exact inv.go_on found ⟨_, .stored⟩ rfl rfl le_rfl le_rfl
  | increment found =>
    apply bounded_increment inv found
    intro collects
    apply below
    rw [found]
    exact collects
  | approve found => exact inv.advance found _ _ _ rfl le_rfl armed_of_afterApproval
  | load found => exact inv.advance found _ _ _ rfl le_rfl fun _ => rfl
  | submit found memoId broadcast => exact bounded_submit inv found _ memoId broadcast
  | record found => exact inv.advance found _ _ _ rfl le_rfl (nomatch ·)
  | fails found => exact inv.advance found _ _ _ rfl le_rfl (nomatch ·)

/-- In a run in which `collectSignature` stays below the threshold, the price is broadcast once at most. -/
theorem broadcast_once {price : MultiSigPrice} {signatures : List Signature} {trace : List Move}
    (below : Machine.Guarded (Session.step signer) BelowThreshold (Session.initial price signatures) trace) :
    Machine.Always (Session.step signer) (fun s => s.broadcasts.length ≤ 1) (Session.initial price signatures)
      trace := by
  have init : Bounded (Session.initial price signatures) := Nat.zero_le _
  have inv := Machine.always_of_guarded init (fun _ _ _ inv met taken => bounded_step inv met taken) below
  intro pre t le reached
  have bound := inv pre t le reached
  rw [Bounded] at bound
  split at bound
  case isTrue => omega
  case isFalse => omega

/-- A price that needs two signatures. -/
def samplePrice : MultiSigPrice := ⟨1, "NGN", 1500, .pending, 2, 0, none, none, none, 100⟩

def sampleSession : Session := Session.initial samplePrice []

def sampleSigner : Signer := ⟨"local", "oracle-server"⟩

/-- The calls of three signers. -/
def sampleCalls : List Move :=
  [.call (.collectSignature "x" "a" none), .call (.collectSignature "y" "b" none),
    .call (.collectSignature "z" "c" none)]

/-- Two signatures, and a third that comes too late. -/
theorem broadcast_once_sample :
    Machine.Always (Session.step sampleSigner) (fun s => s.broadcasts.length ≤ 1) sampleSession
      (sampleCalls ++ [.read 0 1, .store 0 ⟨"", "", ""⟩, .increment 0, .read 1 2, .store 1 ⟨"", "", ""⟩, .increment 1,
        .approve 1, .load 1, .submit 1 (some "tx"), .record 1 3, .read 2 4]) :=
  broadcast_once (by decide +kernel)

/-- All three signers read the price before it is approved; the second and the third meet the threshold. -/
theorem broadcast_twice :
    (Machine.exec (Session.step sampleSigner) sampleSession
      (sampleCalls ++ [.read 0 1, .read 1 1, .read 2 1, .store 0 ⟨"", "", ""⟩, .increment 0, .store 1 ⟨"", "", ""⟩,
        .increment 1, .store 2 ⟨"", "", ""⟩, .increment 2, .approve 1, .load 1, .submit 1 (some "tx"), .approve 2,
        .load 2, .submit 2 (some "ty")])).map (·.broadcasts.length) = some 2 := by
  decide +kernel

end StellarFlow.MultiSig
