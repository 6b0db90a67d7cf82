import Mathlib.Data.List.Nodup
import StellarFlow.MultiSig.Collection

/-!
# Requests for signatures

Model of `MultiSigService` in `src/services/multiSigService.ts` over all its prices: `createMultiSigRequest`,
`cleanupExpiredRequests` and the calls of the three functions that add signatures, interleaved at their database
statements. The moves on one price are those of `Session`. Beside each price stand its `source`, the time at which
each call stored its signature, and these times for the signatures in the order in which they were counted.

What every session keeps is `Session.Counted`: the counter is never ahead of the stored signatures, whose keys are
distinct, and a price is approved, or about to be, only when the counter has reached the required number.
-/

namespace StellarFlow.MultiSig

/-- `REQUIRED_SIGNATURES`, the signer with its key and name, and `toString` of a rate. -/
structure Settings where
  requiredSignatures : ℕ
  positive : 0 < requiredSignatures
  publicKey : String
  signerName : String
  sign : String → String
  rateText : ℚ → String

/-- `SIGNATURE_EXPIRY_MS`. -/
def signatureExpiryMs : ℤ := 60 * 60 * 1000

def createSignatureMessage (currency rate source : String) : String := s!"SF-PRICE-{currency}-{rate}-{source}"

structure Request where
  source : String
  session : Session
  storedAt : ℕ → ℤ
  counted : List ℤ

/-- The clock, `localSignerPublicKey`, and the prices by their id. -/
structure Service where
  clock : ℤ
  localSignerPublicKey : String
  requests : List Request

inductive Event where
  | wait (ms : ℕ)
  | initializeSigner
  | createMultiSigRequest (currency : String) (rate : ℚ) (source memoId : String) (now : ℤ)
  | cleanupExpiredRequests (now : ℤ)
  | on (id : ℕ) (move : Move)

def Request.status (r : Request) : Status := r.session.price.status

/-- The row that `createMultiSigRequest` creates. -/
def Settings.request (cfg : Settings) (id : ℕ) (currency : String) (rate : ℚ) (source memoId : String) (now : ℤ) :
    Request where
  source := source
  session := Session.initial
    { id, currency, rate
      status := .pending
      requiredSignatures := cfg.requiredSignatures
      collectedSignatures := 0
      memoId := some memoId
      stellarTxHash := none
      submittedAt := none
      expiresAt := now + signatureExpiryMs } []
  storedAt := fun _ => 0
  counted := []

/-- The message that a signature of the price is for. -/
def Request.message (cfg : Settings) (r : Request) : String :=
  createSignatureMessage r.session.price.currency (cfg.rateText r.session.price.rate) r.source

/-- The row matches the WHERE of `cleanupExpiredRequests`. -/
def Request.overdue (now : ℤ) (r : Request) : Bool :=
  r.session.price.status = .pending && r.session.price.expiresAt < now

/-- The UPDATE of `cleanupExpiredRequests` on one row. -/
def Request.expireBefore (now : ℤ) (r : Request) : Request :=
  if r.overdue now then
    { r with session := { r.session with price := { r.session.price with status := .expired } } }
  else r

/-- A call reads the clock after the row, and `signMultiSigPrice` stores what the signer signs. -/
def Request.possible (cfg : Settings) (clock : ℤ) (r : Request) : Move → Bool
  | .read _ now => clock ≤ now
  | .store i answer =>
    match r.session.calls[i]? with
    | some ⟨.signMultiSigPrice, _⟩ => answer.signature = cfg.sign (r.message cfg)
    | _ => true
  | _ => true

/-- The request after a move of its session. -/
def Request.moved (clock : ℤ) (r : Request) (move : Move) (session : Session) : Request where
  source := r.source
  session := session
  storedAt :=
    match move with
    | .store i _ =>
      if r.session.signatures.length < session.signatures.length then Function.update r.storedAt i clock
      else r.storedAt
    | _ => r.storedAt
  counted :=
    match move with
    | .increment i => r.counted ++ [r.storedAt i]
    | _ => r.counted

/-- The signer, as far as the service knows it. -/
def Service.signer (cfg : Settings) (s : Service) : Signer := ⟨s.localSignerPublicKey, cfg.signerName⟩

/-- One move of the service; the clock of a statement is read before it. -/
def Service.step (cfg : Settings) (s : Service) : Event → Option Service
  | .wait ms => some { s with clock := s.clock + ms }
  | .initializeSigner => some { s with localSignerPublicKey := cfg.publicKey }
  | .createMultiSigRequest currency rate source memoId now =>
    if now ≤ s.clock then
      some { s with requests := s.requests ++ [cfg.request s.requests.length currency rate source memoId now] }
    else none
  | .cleanupExpiredRequests now =>
    if now ≤ s.clock then some { s with requests := s.requests.map (Request.expireBefore now) } else none
  | .on id move =>
    match s.requests[id]? with
    | none => none
    | some r =>
      if r.possible cfg s.clock move then
        (r.session.step (s.signer cfg) move).map fun session =>
          { s with requests := s.requests.set id (r.moved s.clock move session) }
      else none

/-- A service without prices, whose signer is not read yet. -/
def Service.initial (clock : ℤ) : Service := ⟨clock, "", []⟩

variable {cfg : Settings} {s s' : Service} {e : Event}

/-- The moves of the service, case by case. -/
inductive Service.Step (cfg : Settings) (s : Service) : Event → Service → Prop where
  | wait (ms : ℕ) : Step cfg s (.wait ms) { s with clock := s.clock + ms }
  | initializeSigner : Step cfg s .initializeSigner { s with localSignerPublicKey := cfg.publicKey }
  | create {currency : String} {rate : ℚ} {source memoId : String} {now : ℤ} (past : now ≤ s.clock) :
      Step cfg s (.createMultiSigRequest currency rate source memoId now)
        { s with requests := s.requests ++ [cfg.request s.requests.length currency rate source memoId now] }
  | cleanup {now : ℤ} (past : now ≤ s.clock) : Step cfg s (.cleanupExpiredRequests now)
      { s with requests := s.requests.map (Request.expireBefore now) }
  | on {id : ℕ} {move : Move} {r : Request} {session : Session} (found : s.requests[id]? = some r)
      (possible : r.possible cfg s.clock move = true) (moved : Session.Step (s.signer cfg) r.session move session) :
      Step cfg s (.on id move) { s with requests := s.requests.set id (r.moved s.clock move session) }

/-- Each step of the model is one of those named. -/
lemma Service.step_cases (taken : s.step cfg e = some s') : Service.Step cfg s e s' := by
  cases e with
  | wait ms =>
    cases taken
    exact .wait ms
  | initializeSigner =>
    cases taken
    exact .initializeSigner
  | createMultiSigRequest currency rate source memoId now =>
    rw [Service.step] at taken
    split at taken
    case isTrue past =>
      cases taken
      exact .create past
    case isFalse => cases taken
  | cleanupExpiredRequests now =>
    rw [Service.step] at taken
    split at taken
    case isTrue past =>
      cases taken
      exact .cleanup past
    case isFalse => cases taken
  | on id move =>
    rw [Service.step] at taken
    split at taken
    case h_1 => cases taken
    case h_2 r found =>
      split at taken
      case isTrue possible =>
        obtain ⟨session, moved, rfl⟩ := Option.map_eq_some_iff.1 taken
        exact .on found possible (Session.step_cases moved)
      case isFalse => cases taken

/-- A property of requests that new ones have, and that the clean-up and the moves of a session keep where the
condition is met, is kept by the service. -/
lemma Service.forall_step {P : Request → Prop} {Q : ℤ → Request → Prop} {R : Signer → ℤ → Request → Move → Prop}
    (new : ∀ id currency rate source memoId now, P (cfg.request id currency rate source memoId now))
    (cleanup : ∀ now r, P r → Q now r → P (r.expireBefore now))
    (moved : ∀ clock signer r move session, P r → R signer clock r move → r.possible cfg clock move = true →
      Session.Step signer r.session move session → P (r.moved clock move session))
    (all : ∀ r ∈ s.requests, P r) (met : match e with
      | .cleanupExpiredRequests now => ∀ r ∈ s.requests, Q now r
      | .on id move => ∀ r ∈ s.requests[id]?, R (s.signer cfg) s.clock r move
      | _ => True) (taken : s.step cfg e = some s') : ∀ r ∈ s'.requests, P r := by
  cases Service.step_cases taken with
  | wait ms => exact all
  | initializeSigner => exact all
  | create past => exact Machine.forall_snoc all (new ..)
  | cleanup past =>
    intro r mem
    obtain ⟨old, was, rfl⟩ := List.mem_map.1 mem
    exact cleanup _ old (all old was) (met old was)
  | @on id move r session found possible step =>
    intro u mem
    refine Machine.forall_set found all (fun keeps => ?_) mem
    exact moved _ _ r move session keeps (met r found) possible step

section Sessions
variable {signer : Signer} {s s' : Session} {m : Move} {i : ℕ} {c c' : Call}

def Call.isStored (c : Call) : Bool :=
  match c.phase with
  | .stored => true
  | _ => false

def Call.isApproving (c : Call) : Bool :=
  match c.phase with
  | .approving _ => true
  | _ => false

/-- The row that a call has read and still tests. -/
def Call.row (c : Call) : Option MultiSigPrice :=
  match c.phase with
  | .read price => some price
  | _ => none

/-- What a move leaves as it is. -/
structure MultiSigPrice.Fixed (before after : MultiSigPrice) : Prop where
  currency : after.currency = before.currency
  rate : after.rate = before.rate
  requiredSignatures : after.requiredSignatures = before.requiredSignatures
  expiresAt : after.expiresAt = before.expiresAt
  collectedSignatures : before.collectedSignatures ≤ after.collectedSignatures

/-- A step keeps what was asked for, and takes no signature back. -/
lemma Session.Step.fixed (step : Session.Step signer s m s') : s.price.Fixed s'.price := by
  cases step with
  | increment found => exact ⟨rfl, rfl, rfl, rfl, Nat.le_succ _⟩
  | call => exact ⟨rfl, rfl, rfl, rfl, le_rfl⟩
  | read => exact ⟨rfl, rfl, rfl, rfl, le_rfl⟩
  | expire => exact ⟨rfl, rfl, rfl, rfl, le_rfl⟩
  | storeNothing => exact ⟨rfl, rfl, rfl, rfl, le_rfl⟩
  | storeRepeated => exact ⟨rfl, rfl, rfl, rfl, le_rfl⟩
  | store => exact ⟨rfl, rfl, rfl, rfl, le_rfl⟩
  | approve => exact ⟨rfl, rfl, rfl, rfl, le_rfl⟩
  | load => exact ⟨rfl, rfl, rfl, rfl, le_rfl⟩
  | submit => exact ⟨rfl, rfl, rfl, rfl, le_rfl⟩
  | record => exact ⟨rfl, rfl, rfl, rfl, le_rfl⟩
  | fails => exact ⟨rfl, rfl, rfl, rfl, le_rfl⟩

/-- The row of a call is not ahead of the database. -/
def MultiSigPrice.Behind (row price : MultiSigPrice) : Prop :=
  row.requiredSignatures = price.requiredSignatures ∧ row.collectedSignatures ≤ price.collectedSignatures

def MultiSigPrice.Met (price : MultiSigPrice) : Prop := price.requiredSignatures ≤ price.collectedSignatures

/-- Every counted signature is stored, and none twice; calls approve, and prices are approved, at the threshold. -/
structure Session.Counted (s : Session) : Prop where
  stored : s.price.collectedSignatures + s.calls.countP Call.isStored ≤ s.signatures.length
  distinct : (s.signatures.map Signature.signerPublicKey).Nodup
  rows : ∀ c ∈ s.calls, ∀ row ∈ c.row, row.Behind s.price
  approving : ∀ c ∈ s.calls, c.isApproving = true → s.price.Met
  approved : s.price.status = .approved → s.price.Met

/-- A new session has counted nothing. -/
lemma Session.counted_initial (price : MultiSigPrice) (new : price.collectedSignatures = 0)
    (pending : price.status = .pending) : (Session.initial price []).Counted := by
  refine ⟨le_of_eq new, List.nodup_nil, fun _ mem => absurd mem List.not_mem_nil,
    fun _ mem => absurd mem List.not_mem_nil, fun approved => ?_⟩
  change price.status = .approved at approved
  rw [pending] at approved
  cases approved

/-- Expiry counts nothing. -/
lemma Session.Counted.expired (inv : s.Counted) :
    Session.Counted { s with price := { s.price with status := .expired } } :=
  ⟨inv.stored, inv.distinct, inv.rows, inv.approving, (nomatch ·)⟩

/-- A threshold that is met stays so. -/
lemma MultiSigPrice.Met.mono {before after : MultiSigPrice} (met : before.Met) (fixed : before.Fixed after) :
    after.Met := by
  rw [MultiSigPrice.Met, fixed.requiredSignatures]
  exact le_trans met fixed.collectedSignatures

/-- A row that is behind stays so. -/
lemma MultiSigPrice.Behind.mono {row before after : MultiSigPrice} (behind : row.Behind before)
    (fixed : before.Fixed after) : row.Behind after :=
  ⟨behind.1.trans fixed.requiredSignatures.symm, behind.2.trans fixed.collectedSignatures⟩

/-- A call goes on. -/
lemma Session.Counted.go_on (inv : s.Counted) (found : s.calls[i]? = some c) (calls : s'.calls = s.calls.set i c')
    (fixed : s.price.Fixed s'.price) (distinct : (s'.signatures.map Signature.signerPublicKey).Nodup)
    (stored : s'.price.collectedSignatures + s.signatures.length + (if c'.isStored then 1 else 0) ≤
      s.price.collectedSignatures + s'.signatures.length + if c.isStored then 1 else 0)
    (row : ∀ row ∈ c'.row, row.Behind s'.price) (approving : c'.isApproving = true → s'.price.Met)
    (approved : s'.price.status = .approved → s.price.status = .approved ∨ s'.price.Met) : s'.Counted := by
  refine ⟨?_, distinct, ?_, ?_, ?_⟩
  · have count := Machine.countP_set Call.isStored c' found
    have before := inv.stored
    rw [calls]
    omega
  · intro u mem
    rw [calls] at mem
    refine Machine.forall_set found (P := fun u => ∀ row ∈ u.row, row.Behind s'.price) ?_ (fun _ => row) mem
    exact fun u mem row read => (inv.rows u mem row read).mono fixed
  · intro u mem
    rw [calls] at mem
    refine Machine.forall_set found (P := fun u => u.isApproving = true → s'.price.Met) ?_ (fun _ => approving) mem
    exact fun u mem is => (inv.approving u mem is).mono fixed
  · intro now
    rcases approved now with was | met
    · exact (inv.approved was).mono fixed
    · exact met

/-- A call goes on and writes no signature, no counter and no approval. -/
lemma Session.Counted.advance (inv : s.Counted) (found : s.calls[i]? = some c) {method : Method} {phase : Phase}
    {price : MultiSigPrice} (fixed : s.price.Fixed price)
    (collected : price.collectedSignatures = s.price.collectedSignatures)
    (stored : Call.isStored ⟨method, phase⟩ = false) (row : ∀ row ∈ Call.row ⟨method, phase⟩, row.Behind price)
    (approving : Call.isApproving ⟨method, phase⟩ = true → price.Met)
    (approved : price.status = .approved → s.price.status = .approved ∨ price.Met) :
    (s.advance i method phase price).Counted := by
  refine inv.go_on found rfl fixed inv.distinct ?_ row approving approved
  show price.collectedSignatures + s.signatures.length + (if Call.isStored ⟨method, phase⟩ then 1 else 0) ≤ _
  rw [stored, collected]
  exact Nat.le_add_right _ _

/-- The threshold test ends a call, or the call approves the price and the row meets the threshold. -/
lemma thresholdPhase_cases (price : MultiSigPrice) :
    thresholdPhase price = .finished ∨ thresholdPhase price = .approving price ∧ price.Met := by
  rw [thresholdPhase]
  split
  case isTrue met => exact .inr ⟨rfl, met⟩
  case isFalse => exact .inl rfl

/-- A repeated signature is followed by nothing, or by the approval at the threshold. -/
lemma Method.afterRepeated_cases (method : Method) (price : MultiSigPrice) :
    method.afterRepeated price = .finished ∨
      method.afterRepeated price = .approving price ∧ method.collects = true ∧ price.Met := by
  cases method with
  | collectSignature text key name =>
    rcases thresholdPhase_cases price with ends | ⟨approves, met⟩
    · exact .inl ends
    · exact .inr ⟨approves, rfl, met⟩
  | signMultiSigPrice => exact .inl rfl
  | requestRemoteSignature => exact .inl rfl

/-- An approval is followed by nothing, or by the broadcast. -/
lemma Method.afterApproval_cases (method : Method) (price : MultiSigPrice) :
    method.afterApproval price = .finished ∨ method.afterApproval price = .approved price := by
  cases method with
  | collectSignature text key name => exact .inr rfl
  | signMultiSigPrice => exact .inl rfl
  | requestRemoteSignature => exact .inl rfl

/-- A call ends, or goes on in a phase in which it has no row, stores nothing and approves nothing. -/
lemma Session.Counted.rest (inv : s.Counted) (found : s.calls[i]? = some c) {method : Method} {phase : Phase}
    {price : MultiSigPrice} (fixed : s.price.Fixed price)
    (collected : price.collectedSignatures = s.price.collectedSignatures)
    (stored : Call.isStored ⟨method, phase⟩ = false) (row : Call.row ⟨method, phase⟩ = none)
    (approving : Call.isApproving ⟨method, phase⟩ = false)
    (approved : price.status = .approved → s.price.status = .approved ∨ price.Met) :
    (s.advance i method phase price).Counted := by
  refine inv.advance found fixed collected stored ?_ ?_ approved
  · rw [row]
    exact fun _ none => nomatch none
  · rw [approving]
    exact (nomatch ·)

/-- A new call has stored nothing, has no row and approves nothing. -/
lemma Method.starts (method : Method) :
    Call.isStored ⟨method, if method.accepted then .started else .finished⟩ = false ∧
      Call.row ⟨method, if method.accepted then .started else .finished⟩ = none ∧
      Call.isApproving ⟨method, if method.accepted then .started else .finished⟩ = false := by
  cases method.accepted with
  | true => exact ⟨rfl, rfl, rfl⟩
  | false => exact ⟨rfl, rfl, rfl⟩

/-- Each step counts what is stored only. -/
lemma Session.Counted.step (inv : s.Counted) (step : Session.Step signer s m s') : s'.Counted := by
  have fixed := step.fixed
  cases step with
  | call method =>
    have new := Method.starts method
    refine ⟨?_, inv.distinct, Machine.forall_snoc inv.rows fun row read => ?_,
      Machine.forall_snoc inv.approving fun is => ?_, inv.approved⟩
    · show _ + (s.calls ++ [_]).countP Call.isStored ≤ _
      rw [List.countP_append, List.countP_singleton, new.1]
      exact inv.stored
    · rw [new.2.1] at read
      cases read
    · rw [new.2.2] at is
      cases is
  | @read i now method found =>
    rcases method.afterRead_cases s.price now with phase | phase | phase
    · rw [phase]
      exact inv.rest found fixed rfl rfl rfl rfl .inl
    · rw [phase]
      exact inv.rest found fixed rfl rfl rfl rfl .inl
    · rw [phase]
      refine inv.advance found fixed rfl rfl ?_ (nomatch ·) .inl
      intro row read
      cases read
      exact ⟨rfl, le_rfl⟩
  | expire found => exact inv.rest found fixed rfl rfl rfl rfl (nomatch ·)
  | storeNothing found => exact inv.rest found fixed rfl rfl rfl rfl .inl
  | @storeRepeated i answer signature method price found own repeated =>
    rcases method.afterRepeated_cases price with phase | ⟨phase, -, met⟩
    · rw [phase]
      exact inv.rest found fixed rfl rfl rfl rfl .inl
    · rw [phase]
      have behind := inv.rows _ (List.mem_of_getElem? found) price rfl
      refine inv.advance found fixed rfl rfl (fun _ none => nomatch none) (fun _ => ?_) .inl
      rw [MultiSigPrice.Met, ← behind.1]
      exact le_trans met behind.2
  | @store i answer signature method price found own new =>
    refine inv.go_on found rfl fixed ?_ ?_ (fun _ none => nomatch none) (nomatch ·) .inl
    · show ((s.signatures ++ [signature]).map Signature.signerPublicKey).Nodup
      rw [List.map_append, List.nodup_append]
      refine ⟨inv.distinct, List.nodup_singleton _, ?_⟩
      rintro key old _ last rfl
      exact new (List.mem_singleton.1 last ▸ old)
    · show _ + _ + 1 ≤ _ + (s.signatures ++ [signature]).length + 0
      rw [List.length_append, List.length_singleton]
      exact le_rfl
  | @increment i method found =>
    rcases thresholdPhase_cases s.price.increment with phase | ⟨phase, met⟩
    · rw [phase]
      refine inv.go_on found rfl fixed inv.distinct ?_ (fun _ none => nomatch none) (nomatch ·) .inl
      exact Nat.le_of_eq (Nat.add_right_comm _ 1 _)
    · rw [phase]
      refine inv.go_on found rfl fixed inv.distinct ?_ (fun _ none => nomatch none) (fun _ => met) .inl
      exact Nat.le_of_eq (Nat.add_right_comm _ 1 _)
  | @approve i method price found =>
    have met := inv.approving _ (List.mem_of_getElem? found) rfl
    rcases method.afterApproval_cases price with phase | phase
    · rw [phase]
      exact inv.rest found fixed rfl rfl rfl rfl fun _ => .inr met
    · rw [phase]
      exact inv.rest found fixed rfl rfl rfl rfl fun _ => .inr met
  | load found => exact inv.rest found fixed rfl rfl rfl rfl .inl
  | @submit i txHash method price signatures found memoId broadcast =>
    have counted : (s.advance i method (txHash.elim .finished (.submitted memoId)) s.price).Counted := by
      cases txHash with
      | none => exact inv.rest found fixed rfl rfl rfl rfl .inl
      | some hash => exact inv.rest found fixed rfl rfl rfl rfl .inl
    exact ⟨counted.stored, counted.distinct, counted.rows, counted.approving, counted.approved⟩
  | record found => exact inv.rest found fixed rfl rfl rfl rfl .inl
  | fails found => exact inv.rest found fixed rfl rfl rfl rfl .inl

end Sessions

/-- Two signatures are required; the local signer has the key `local`. -/
def sampleSettings : Settings where
  requiredSignatures := 2
  positive := Nat.two_pos
  publicKey := "local"
  signerName := "oracle-server"
  sign := fun message => s!"local:{message}"
  rateText := fun _ => "1500"

end StellarFlow.MultiSig
