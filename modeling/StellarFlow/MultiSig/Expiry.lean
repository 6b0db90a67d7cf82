import StellarFlow.MultiSig.Requests

/-!
# Expired prices

`collectSignature` and `signMultiSigPrice` test the status and the expiry of the row that they read, and
`requestRemoteSignature` tests neither. None of them tests again before it stores a signature, and the approval at the
threshold is an UPDATE without a condition. So an expired price can be approved.

It is not where each signature is stored before the expiry, no call finds the threshold met while the price is
expired, and no price expires while a call is about to approve it.
-/

namespace StellarFlow.MultiSig

/-- A call of `collectSignature` whose row meets the threshold. -/
def Call.hasMet (c : Call) : Bool :=
  c.method.collects && c.row.any fun row => row.requiredSignatures ≤ row.collectedSignatures

def Request.quiet (r : Request) : Bool := r.session.calls.all fun c => !c.isApproving

/-- The condition on a move of a session. -/
def Request.InTime (signer : Signer) (clock : ℤ) (r : Request) : Move → Prop
  | .store i answer => ∀ c ∈ r.session.calls[i]?, ∀ signature ∈ c.method.signature signer answer,
      if signature.signerPublicKey ∈ r.session.signatures.map Signature.signerPublicKey then
        c.hasMet = true → r.status ≠ .expired
      else clock ≤ r.session.price.expiresAt
  | .increment _ =>
      r.session.price.requiredSignatures ≤ r.session.price.collectedSignatures + 1 → r.status ≠ .expired
  | .expire _ => r.quiet = true
  | _ => True

/-- A signature is stored in time, the threshold is found met only while the price is not expired, and no price
expires between that and its approval. -/
def InTime (cfg : Settings) (s : Service) : Event → Prop
  | .on id move => ∀ r ∈ s.requests[id]?, r.InTime (s.signer cfg) s.clock move
  | .cleanupExpiredRequests now => ∀ r ∈ s.requests, r.overdue now = true → r.quiet = true
  | _ => True

instance decidableRequestInTime (signer : Signer) (clock : ℤ) (r : Request) :
    (m : Move) → Decidable (r.InTime signer clock m)
  | .store i answer => inferInstanceAs (Decidable (∀ c ∈ r.session.calls[i]?,
      ∀ signature ∈ c.method.signature signer answer,
        if signature.signerPublicKey ∈ r.session.signatures.map Signature.signerPublicKey then
          c.hasMet = true → r.status ≠ .expired
        else clock ≤ r.session.price.expiresAt))
  | .increment _ => inferInstanceAs (Decidable
      (r.session.price.requiredSignatures ≤ r.session.price.collectedSignatures + 1 → r.status ≠ .expired))
  | .expire _ => inferInstanceAs (Decidable (r.quiet = true))
  | .call _ => isTrue trivial
  | .read _ _ => isTrue trivial
  | .approve _ => isTrue trivial
  | .load _ => isTrue trivial
  | .submit _ _ => isTrue trivial
  | .record _ _ => isTrue trivial
  | .fails _ => isTrue trivial

instance decidableInTime (cfg : Settings) (s : Service) : (e : Event) → Decidable (InTime cfg s e)
  | .on id move => inferInstanceAs (Decidable (∀ r ∈ s.requests[id]?, r.InTime (s.signer cfg) s.clock move))
  | .cleanupExpiredRequests now =>
    inferInstanceAs (Decidable (∀ r ∈ s.requests, r.overdue now = true → r.quiet = true))
  | .wait _ => isTrue trivial
  | .initializeSigner => isTrue trivial
  | .createMultiSigRequest _ _ _ _ _ => isTrue trivial

/-- The signatures that are counted, or stored and about to be, were stored in time, and no call is about to approve
an expired price. -/
structure Request.Timely (r : Request) : Prop where
  counted : r.session.Counted
  length : r.counted.length = r.session.price.collectedSignatures
  times : ∀ t ∈ r.counted, t ≤ r.session.price.expiresAt
  stored : ∀ i c, r.session.calls[i]? = some c → c.isStored = true → r.storedAt i ≤ r.session.price.expiresAt
  approving : ∀ c ∈ r.session.calls, c.isApproving = true → r.status ≠ .expired
  positive : 0 < r.session.price.requiredSignatures

variable {cfg : Settings} {r : Request} {signer : Signer} {clock : ℤ} {m : Move} {session : Session}

/-- A new request is timely. -/
lemma Request.timely_new (id : ℕ) (currency : String) (rate : ℚ) (source memoId : String) (now : ℤ) :
    (cfg.request id currency rate source memoId now).Timely where
  counted := Session.counted_initial _ rfl rfl
  length := rfl
  times := fun _ mem => absurd mem List.not_mem_nil
  stored := fun i c found => by cases found
  approving := fun _ mem => absurd mem List.not_mem_nil
  positive := cfg.positive

/-- A request is quiet where no call is about to approve it. -/
lemma Request.quiet_iff : r.quiet = true ↔ ∀ c ∈ r.session.calls, c.isApproving = false := by
  rw [Request.quiet, List.all_eq_true]
  refine forall₂_congr fun c _ => ?_
  rw [Bool.not_eq_true']

/-- A quiet request may expire. -/
lemma Request.Timely.expireBefore (inv : r.Timely) {now : ℤ} (met : r.overdue now = true → r.quiet = true) :
    (r.expireBefore now).Timely := by
  rw [Request.expireBefore]
  split
  case isTrue due =>
    have quiet := Request.quiet_iff.1 (met due)
    refine ⟨inv.counted.expired, inv.length, inv.times, inv.stored, ?_, inv.positive⟩
    intro c mem is
    rw [quiet c mem] at is
    cases is
  case isFalse => exact inv

/-- A call goes on. -/
lemma Request.Timely.go_on (inv : r.Timely) (step : Session.Step signer r.session m session) {i : ℕ} {c c' : Call}
    (found : r.session.calls[i]? = some c) (calls : session.calls = r.session.calls.set i c')
    (expired : session.price.status = .expired → r.status = .expired ∨ r.quiet = true)
    (approving : c'.isApproving = true → session.price.status ≠ .expired)
    (length : (r.moved clock m session).counted.length = session.price.collectedSignatures)
    (times : ∀ t ∈ (r.moved clock m session).counted, t ≤ r.session.price.expiresAt)
    (stored : c'.isStored = true → (r.moved clock m session).storedAt i ≤ r.session.price.expiresAt)
    (others : ∀ j, j ≠ i → (r.moved clock m session).storedAt j = r.storedAt j) :
    (r.moved clock m session).Timely := by
  have fixed := step.fixed
  refine ⟨inv.counted.step step, length, ?_, ?_, ?_, ?_⟩
  · intro t mem
    exact fixed.expiresAt ▸ times t mem
  · intro j u at' is
    change session.calls[j]? = some u at at'
    change _ ≤ session.price.expiresAt
    rw [fixed.expiresAt]
    rw [calls] at at'
    by_cases same : j = i
    · subst same
      rw [List.getElem?_set_self (List.getElem?_eq_some_iff.1 found).1] at at'
      cases at'
      exact stored is
    · rw [List.getElem?_set_ne (Ne.symm same)] at at'
      rw [others j same]
      exact inv.stored j u at' is
  · intro u mem
    change u ∈ session.calls at mem
    rw [calls] at mem
    refine Machine.forall_set found (P := fun u => u.isApproving = true → session.price.status ≠ .expired) ?_
      (fun _ => approving) mem
    intro u mem is now
    rcases expired now with was | quiet
    · exact inv.approving u mem is was
    · rw [Request.quiet_iff.1 quiet u mem] at is
      cases is
  · exact fixed.requiredSignatures ▸ inv.positive

/-- A call goes on that neither stores nor counts a signature. -/
lemma Request.Timely.rest (inv : r.Timely) (step : Session.Step signer r.session m session) {i : ℕ} {c c' : Call}
    (found : r.session.calls[i]? = some c) (calls : session.calls = r.session.calls.set i c')
    (expired : session.price.status = .expired → r.status = .expired ∨ r.quiet = true)
    (approving : c'.isApproving = true → session.price.status ≠ .expired)
    (collected : session.price.collectedSignatures = r.session.price.collectedSignatures)
    (stored : c'.isStored = false) (storedAt : (r.moved clock m session).storedAt = r.storedAt)
    (counted : (r.moved clock m session).counted = r.counted) : (r.moved clock m session).Timely := by
  refine inv.go_on step found calls expired approving ?_ ?_ ?_ ?_
  · rw [counted, collected]
    exact inv.length
  · rw [counted]
    exact inv.times
  · rw [stored]
    exact (nomatch ·)
  · exact fun j _ => congrFun storedAt j

/-- A call goes on, and it does not approve. -/
lemma Request.Timely.ends (inv : r.Timely) (step : Session.Step signer r.session m session) {i : ℕ} {c c' : Call}
    (found : r.session.calls[i]? = some c) (calls : session.calls = r.session.calls.set i c')
    (status : session.price.status = r.status) (approving : c'.isApproving = false)
    (collected : session.price.collectedSignatures = r.session.price.collectedSignatures)
    (stored : c'.isStored = false) (storedAt : (r.moved clock m session).storedAt = r.storedAt)
    (counted : (r.moved clock m session).counted = r.counted) : (r.moved clock m session).Timely := by
  refine inv.rest step found calls (fun now => .inl (status ▸ now)) ?_ collected stored storedAt counted
  rw [approving]
  exact (nomatch ·)

/-- A store that adds no signature. -/
lemma Request.moved_storedAt {i : ℕ} {answer : Signature} (same : session.signatures = r.session.signatures) :
    (r.moved clock (.store i answer) session).storedAt = r.storedAt := by
  show (if r.session.signatures.length < session.signatures.length then _ else _) = _
  rw [same]
  exact if_neg (lt_irrefl _)

/-- A call is made. -/
lemma Request.Timely.call (inv : r.Timely) {method : Method}
    (step : Session.Step signer r.session (.call method) session) (calls : session =
      { r.session with calls := r.session.calls ++ [⟨method, if method.accepted then .started else .finished⟩] }) :
    (r.moved clock (.call method) session).Timely := by
  subst calls
  have new := Method.starts method
  refine ⟨inv.counted.step step, inv.length, inv.times, ?_, ?_, inv.positive⟩
  · intro i c found is
    rcases lt_or_ge i r.session.calls.length with lt | ge
    · exact inv.stored i c ((List.getElem?_append_left lt).symm.trans found) is
    · change (r.session.calls ++ [_])[i]? = some c at found
      rw [List.getElem?_append_right ge] at found
      rw [List.mem_singleton.1 (List.mem_of_getElem? found), new.1] at is
      cases is
  · intro c mem is
    rcases List.mem_append.1 mem with old | last
    · exact inv.approving c old is
    · rw [List.mem_singleton.1 last, new.2.2] at is
      cases is

/-- A call finds that its signer has signed before. -/
lemma Request.Timely.repeated (inv : r.Timely) {i : ℕ} {answer signature : Signature} {method : Method}
    {price : MultiSigPrice} (found : r.session.calls[i]? = some ⟨method, .read price⟩)
    (own : method.signature signer answer = some signature)
    (repeated : signature.signerPublicKey ∈ r.session.signatures.map Signature.signerPublicKey)
    (met : r.InTime signer clock (.store i answer)) :
    Request.Timely (r.moved clock (.store i answer)
      (r.session.advance i method (method.afterRepeated price) r.session.price)) := by
  have step := Session.Step.storeRepeated found own repeated
  have storedAt : (r.moved clock (.store i answer)
      (r.session.advance i method (method.afterRepeated price) r.session.price)).storedAt = r.storedAt :=
    Request.moved_storedAt rfl
  rcases method.afterRepeated_cases price with phase | ⟨phase, collects, enough⟩
  · rw [phase] at step storedAt ⊢
    exact inv.ends step found rfl rfl rfl rfl rfl storedAt rfl
  · have test := met ⟨method, .read price⟩ found signature own
    rw [if_pos repeated] at test
    have hasMet : Call.hasMet ⟨method, .read price⟩ = true := by
      rw [Call.hasMet, Bool.and_eq_true]
      exact ⟨collects, decide_eq_true enough⟩
    rw [phase] at step storedAt ⊢
    exact inv.rest step found rfl .inl (fun _ => test hasMet) rfl rfl storedAt rfl

/-- A signature is stored in time. -/
lemma Request.Timely.store (inv : r.Timely) {i : ℕ} {answer signature : Signature} {method : Method}
    {price : MultiSigPrice} (found : r.session.calls[i]? = some ⟨method, .read price⟩)
    (own : method.signature signer answer = some signature)
    (new : signature.signerPublicKey ∉ r.session.signatures.map Signature.signerPublicKey)
    (met : r.InTime signer clock (.store i answer)) :
    Request.Timely (r.moved clock (.store i answer)
      { r.session.advance i method .stored r.session.price with
        signatures := r.session.signatures ++ [signature] }) := by
  have test := met ⟨method, .read price⟩ found signature own
  rw [if_neg new] at test
  have longer : r.session.signatures.length < (r.session.signatures ++ [signature]).length := by
    rw [List.length_append]
    exact Nat.lt_succ_self _
  have storedAt : (r.moved clock (.store i answer) { r.session.advance i method .stored r.session.price with
      signatures := r.session.signatures ++ [signature] }).storedAt = Function.update r.storedAt i clock :=
    if_pos longer
  refine inv.go_on (.store found own new) found rfl .inl (nomatch ·) inv.length inv.times ?_ ?_
  · intro _
    rw [storedAt, Function.update_self]
    exact test
  · intro j other
    rw [storedAt, Function.update_of_ne other]

/-- A signature is counted in time. -/
lemma Request.Timely.increment (inv : r.Timely) {i : ℕ} {method : Method}
    (found : r.session.calls[i]? = some ⟨method, .stored⟩) (met : r.InTime signer clock (.increment i)) :
    Request.Timely (r.moved clock (.increment i)
      (r.session.advance i method (thresholdPhase r.session.price.increment) r.session.price.increment)) := by
  have times : ∀ t ∈ r.counted ++ [r.storedAt i], t ≤ r.session.price.expiresAt := by
    intro t mem
    rcases List.mem_append.1 mem with old | last
    · exact inv.times t old
    · rw [List.mem_singleton.1 last]
      exact inv.stored i _ found rfl
  have length : (r.counted ++ [r.storedAt i]).length = r.session.price.collectedSignatures + 1 := by
    rw [List.length_append, List.length_singleton, inv.length]
  have step : Session.Step signer r.session (.increment i) _ := .increment found
  rcases thresholdPhase_cases r.session.price.increment with phase | ⟨phase, enough⟩
  · rw [phase] at step ⊢
    exact inv.go_on step found rfl .inl (nomatch ·) length times (nomatch ·) fun _ _ => rfl
  · rw [phase] at step ⊢
    exact inv.go_on step found rfl .inl (fun _ => met enough) length times (nomatch ·) fun _ _ => rfl

/-- A move in time keeps a request timely. -/
lemma Request.Timely.moved (inv : r.Timely) (met : r.InTime signer clock m)
    (step : Session.Step signer r.session m session) : (r.moved clock m session).Timely := by
  have taken := step
  cases step with
  | call method => exact inv.call taken rfl
  | @read i now method found =>
    rcases method.afterRead_cases r.session.price now with phase | phase | phase
    · rw [phase] at taken ⊢
      exact inv.ends taken found rfl rfl rfl rfl rfl rfl rfl
    · rw [phase] at taken ⊢
      exact inv.ends taken found rfl rfl rfl rfl rfl rfl rfl
    · rw [phase] at taken ⊢
      exact inv.ends taken found rfl rfl rfl rfl rfl rfl rfl
  | expire found => exact inv.rest taken found rfl (fun _ => .inr met) (nomatch ·) rfl rfl rfl rfl
  | storeNothing found =>
    exact inv.ends taken found rfl rfl rfl rfl rfl (Request.moved_storedAt rfl) rfl
  | storeRepeated found own repeated => exact inv.repeated found own repeated met
  | store found own new => exact inv.store found own new met
  | increment found => exact inv.increment found met
  | @approve i method price found =>
    rcases method.afterApproval_cases price with phase | phase
    · rw [phase] at taken ⊢
      exact inv.rest taken found rfl (nomatch ·) (nomatch ·) rfl rfl rfl rfl
    · rw [phase] at taken ⊢
      exact inv.rest taken found rfl (nomatch ·) (nomatch ·) rfl rfl rfl rfl
  | load found => exact inv.ends taken found rfl rfl rfl rfl rfl rfl rfl
  | @submit i txHash method price signatures found memoId broadcast =>
    cases txHash with
    | none => exact inv.ends taken found rfl rfl rfl rfl rfl rfl rfl
    | some hash => exact inv.ends taken found rfl rfl rfl rfl rfl rfl rfl
  | record found => exact inv.ends taken found rfl rfl rfl rfl rfl rfl rfl
  | fails found => exact inv.ends taken found rfl rfl rfl rfl rfl rfl rfl

variable {s s' : Service} {e : Event}

/-- A step in time keeps all requests timely. -/
lemma timely_step (all : ∀ r ∈ s.requests, r.Timely) (met : InTime cfg s e) (taken : s.step cfg e = some s') :
    ∀ r ∈ s'.requests, r.Timely := by
  refine Service.forall_step (P := Request.Timely) (Q := fun now r => r.overdue now = true → r.quiet = true)
    (R := fun signer clock r m => r.InTime signer clock m) Request.timely_new
    (fun _ _ inv quiet => inv.expireBefore quiet) (fun _ _ _ _ _ inv met _ step => inv.moved met step) all ?_ taken
  cases e with
  | wait => trivial
  | initializeSigner => trivial
  | createMultiSigRequest => trivial
  | cleanupExpiredRequests now => exact met
  | on id move => exact met

/-- No move of a session takes an expired price out of this status, unless it is about to be approved. -/
lemma Request.Timely.stays_expired (inv : r.Timely) (expired : r.status = .expired)
    (step : Session.Step signer r.session m session) : session.price.status = .expired := by
  cases step with
  | approve found => exact absurd expired (inv.approving _ (List.mem_of_getElem? found) rfl)
  | expire => rfl
  | call => exact expired
  | read => exact expired
  | storeNothing => exact expired
  | storeRepeated => exact expired
  | store => exact expired
  | increment => exact expired
  | load => exact expired
  | submit => exact expired
  | record => exact expired
  | fails => exact expired

/-- The price with the id has expired. -/
def Service.Expired (id : ℕ) (s : Service) : Prop := ∃ r, s.requests[id]? = some r ∧ r.status = .expired

/-- What has expired stays so. -/
lemma expired_step {id : ℕ} (all : ∀ r ∈ s.requests, r.Timely) (expired : s.Expired id)
    (taken : s.step cfg e = some s') : s'.Expired id := by
  obtain ⟨r, found, status⟩ := expired
  cases Service.step_cases taken with
  | wait ms => exact ⟨r, found, status⟩
  | initializeSigner => exact ⟨r, found, status⟩
  | create past =>
    have lt := (List.getElem?_eq_some_iff.1 found).1
    exact ⟨r, (List.getElem?_append_left lt).trans found, status⟩
  | @cleanup now past =>
    have kept : r.expireBefore now = r := by
      rw [Request.expireBefore, Request.overdue]
      change r.session.price.status = .expired at status
      rw [status]
      rfl
    refine ⟨r, ?_, status⟩
    show (s.requests.map _)[id]? = _
    rw [List.getElem?_map, found, Option.map_some, kept]
  | @on id' move r' session found' possible step =>
    by_cases same : id' = id
    · subst same
      obtain rfl : r' = r := Option.some.inj (found'.symm.trans found)
      have lt := (List.getElem?_eq_some_iff.1 found).1
      exact ⟨_, List.getElem?_set_self lt, (all r' (List.mem_of_getElem? found)).stays_expired status step⟩
    · exact ⟨r, (List.getElem?_set_ne same).trans found, status⟩

/-- In a run that is in time, an expired price stays expired, and an approved price has reached the required number of
signatures with one that was stored in time. -/
theorem expired_stays_expired {clock : ℤ} {before after : List Event}
    (first : Machine.exec (Service.step cfg) (Service.initial clock) before = some s)
    (run : Machine.exec (Service.step cfg) s after = some s')
    (inTime : Machine.Guarded (Service.step cfg) (InTime cfg) (Service.initial clock) (before ++ after)) :
    (∀ (id : ℕ) (r : Request), s.requests[id]? = some r → r.status = .expired →
      ∃ r' : Request, s'.requests[id]? = some r' ∧ r'.status = .expired) ∧
    ∀ r ∈ s'.requests, r.status = .approved → ∃ t,
      r.counted[r.session.price.requiredSignatures - 1]? = some t ∧ t ≤ r.session.price.expiresAt := by
  have init : ∀ r ∈ (Service.initial clock).requests, r.Timely := fun _ mem => absurd mem List.not_mem_nil
  have timely := Machine.always_of_guarded init (fun _ _ _ all met taken => timely_step all met taken) inTime
  have middle := timely before s (List.prefix_append _ _) first
  -- the second part of the run starts in a state that the invariant holds of
  have rest := Machine.guarded_of_append first inTime
  constructor
  · intro id r found status
    have kept := Machine.always_of_guarded (I := fun s => (∀ r ∈ s.requests, r.Timely) ∧ s.Expired id)
      ⟨middle, r, found, status⟩
      (fun _ _ _ inv met taken => ⟨timely_step inv.1 met taken, expired_step inv.1 inv.2 taken⟩) rest
    exact (kept after s' (List.prefix_refl _) run).2
  · intro r mem approved
    have whole : Machine.exec (Service.step cfg) (Service.initial clock) (before ++ after) = some s' := by
      rw [Machine.exec_append, first]
      exact run
    have inv := timely (before ++ after) s' (List.prefix_refl _) whole r mem
    have met := inv.counted.approved approved
    have lt : r.session.price.requiredSignatures - 1 < r.counted.length := by
      rw [inv.length]
      exact lt_of_lt_of_le (Nat.sub_lt inv.positive Nat.one_pos) met
    exact ⟨_, List.getElem?_eq_getElem lt, inv.times _ (List.getElem_mem lt)⟩

/-- A price is requested, and expires after its hour. -/
def sampleExpiry : List Event :=
  [.createMultiSigRequest "NGN" 1500 "source" "memo" 0, .wait 3600001, .cleanupExpiredRequests 3600001]

/-- The signatures of two remote servers for the price with the id. -/
def sampleSignatures (id : ℕ) : List Event :=
  [.on id (.call .requestRemoteSignature), .on id (.read 0 3600001), .on id (.store 0 ⟨"a", "", "x"⟩),
    .on id (.increment 0), .on id (.call .requestRemoteSignature), .on id (.read 1 3600001),
    .on id (.store 1 ⟨"b", "", "y"⟩), .on id (.increment 1), .on id (.approve 1)]

/-- After a price has expired, the next one is approved in its hour. -/
theorem expired_stays_expired_sample : ∃ s s',
    Machine.exec (Service.step sampleSettings) (Service.initial 0) sampleExpiry = some s ∧
    Machine.exec (Service.step sampleSettings) s
      (.createMultiSigRequest "KES" 10 "source" "memo" 3600001 :: sampleSignatures 1) = some s' ∧
    s'.requests.map Request.status = [.expired, .approved] ∧
    (∃ r, s'.requests[0]? = some r ∧ r.status = .expired) ∧
    ∀ r ∈ s'.requests, r.status = .approved → ∃ t,
      r.counted[r.session.price.requiredSignatures - 1]? = some t ∧ t ≤ r.session.price.expiresAt := by
  have both : ((Machine.exec (Service.step sampleSettings) (Service.initial 0) sampleExpiry).bind fun s =>
      (Machine.exec (Service.step sampleSettings) s
        (.createMultiSigRequest "KES" 10 "source" "memo" 3600001 :: sampleSignatures 1)).map fun s' =>
          (s.requests.map Request.status, s'.requests.map Request.status)) =
      some ([.expired], [.expired, .approved]) := by decide +kernel
  have inTime : Machine.Guarded (Service.step sampleSettings) (InTime sampleSettings) (Service.initial 0)
      (sampleExpiry ++ .createMultiSigRequest "KES" 10 "source" "memo" 3600001 :: sampleSignatures 1) := by
    decide +kernel
  obtain ⟨s, first, rest⟩ := Option.bind_eq_some_iff.1 both
  obtain ⟨s', run, statuses⟩ := Option.map_eq_some_iff.1 rest
  obtain ⟨before, after⟩ := Prod.mk.inj statuses
  obtain ⟨stays, approved⟩ := expired_stays_expired first run inTime
  obtain ⟨r, requests⟩ := List.map_eq_singleton_iff.1 before
  exact ⟨s, s', first, run, after, stays 0 r (requests.1 ▸ rfl) requests.2, approved⟩

/-- Two answers of remote servers approve a price that has expired. -/
theorem expired_becomes_approved :
    (Machine.exec (Service.step sampleSettings) (Service.initial 0) sampleExpiry).map
      (fun s => s.requests.map Request.status) = some [.expired] ∧
    (Machine.exec (Service.step sampleSettings) (Service.initial 0) (sampleExpiry ++ sampleSignatures 0)).map
      (fun s => s.requests.map Request.status) = some [.approved] := by
  constructor
  · decide +kernel
  · decide +kernel

end StellarFlow.MultiSig
