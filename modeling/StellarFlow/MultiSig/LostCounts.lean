import StellarFlow.MultiSig.Requests

/-!
# Signatures that are stored and not counted

`collectSignature` and `signMultiSigPrice` in `src/services/multiSigService.ts` store a signature in one statement and
count it in another, and a retry takes a row that is there (`P2002`) for a counted one. So a call that fails between
the two leaves the counter behind for good: no later call makes up for it.

`Session.Step.balance` is the account of one move and `exec_balance` that of a run. Without calls in progress the
counter is behind the signatures by the number of calls that failed between the two statements.
-/

namespace StellarFlow.MultiSig
variable {signer : Signer} {s s' : Session} {m : Move} {i : ℕ} {c c' : Call}

/-- The call fails after its signature is stored and before it is counted. -/
def Session.losesCount (s : Session) : Move → Bool
  | .fails i => s.calls[i]?.any Call.isStored
  | _ => false

/-- The number of signatures of a run that are stored and never counted. -/
def lostCounts (signer : Signer) (s : Session) : List Move → ℕ
  | [] => 0
  | m :: trace =>
    (if s.losesCount m then 1 else 0) + ((s.step signer m).elim 0 fun s' => lostCounts signer s' trace)

/-- A call that has counted has no stored signature left to count. -/
lemma isStored_thresholdPhase (method : Method) (price : MultiSigPrice) :
    Call.isStored ⟨method, thresholdPhase price⟩ = false := by
  rcases thresholdPhase_cases price with phase | ⟨phase, -⟩
  · rw [phase]
    rfl
  · rw [phase]
    rfl

/-- A call that has read the price has no stored signature to count. -/
lemma isStored_afterRead (method : Method) (price : MultiSigPrice) (now : ℤ) :
    Call.isStored ⟨method, method.afterRead price now⟩ = false := by
  rcases method.afterRead_cases price now with phase | phase | phase
  · rw [phase]
    rfl
  · rw [phase]
    rfl
  · rw [phase]
    rfl

/-- A call that found its signature there has none to count. -/
lemma isStored_afterRepeated (method : Method) (price : MultiSigPrice) :
    Call.isStored ⟨method, method.afterRepeated price⟩ = false := by
  rcases method.afterRepeated_cases price with phase | ⟨phase, -⟩
  · rw [phase]
    rfl
  · rw [phase]
    rfl

/-- A call that has approved has no stored signature left to count. -/
lemma isStored_afterApproval (method : Method) (price : MultiSigPrice) :
    Call.isStored ⟨method, method.afterApproval price⟩ = false := by
  rcases method.afterApproval_cases price with phase | phase
  · rw [phase]
    rfl
  · rw [phase]
    rfl

/-- What is counted or lost on the one side, what is stored on the other. -/
def Balanced (s s' : Session) (lost : ℕ) : Prop :=
  s'.price.collectedSignatures + s'.calls.countP Call.isStored + lost + s.signatures.length =
    s.price.collectedSignatures + s.calls.countP Call.isStored + s'.signatures.length

/-- A call goes on: the account is that of its own phase. -/
lemma balanced_set {lost : ℕ} (found : s.calls[i]? = some c) (calls : s'.calls = s.calls.set i c')
    (account : s'.price.collectedSignatures + (if c'.isStored then 1 else 0) + lost + s.signatures.length =
      s.price.collectedSignatures + (if c.isStored then 1 else 0) + s'.signatures.length) : Balanced s s' lost := by
  have count := Machine.countP_set Call.isStored c' found
  rw [Balanced, calls]
  omega

/-- A call that has stored nothing goes on and stores nothing. -/
lemma balanced_advance (found : s.calls[i]? = some c) (was : c.isStored = false) {method : Method} {phase : Phase}
    {price : MultiSigPrice} (now : Call.isStored ⟨method, phase⟩ = false)
    (collected : price.collectedSignatures = s.price.collectedSignatures) :
    Balanced s (s.advance i method phase price) 0 := by
  refine balanced_set found rfl ?_
  rw [was, now]
  exact congrArg (· + 0 + 0 + s.signatures.length) collected

/-- The account of one move. -/
lemma Session.Step.balance (step : Session.Step signer s m s') :
    Balanced s s' (if s.losesCount m then 1 else 0) := by
  cases step with
  | call method =>
    show _ + (s.calls ++ [_]).countP Call.isStored + 0 + _ = _
    rw [List.countP_append, List.countP_singleton, (Method.starts method).1]
    rfl
  | read found => exact balanced_advance found rfl (isStored_afterRead ..) rfl
  | expire found => exact balanced_advance found rfl rfl rfl
  | storeNothing found => exact balanced_advance found rfl rfl rfl
  | storeRepeated found => exact balanced_advance found rfl (isStored_afterRepeated ..) rfl
  | @store i answer signature method price found own new =>
    refine balanced_set found rfl ?_
    show s.price.collectedSignatures + 1 + 0 + s.signatures.length = _ + 0 + (s.signatures ++ [signature]).length
    rw [List.length_append, List.length_singleton]
    omega
  | @increment i method found =>
    refine balanced_set found rfl ?_
    rw [isStored_thresholdPhase]
    rfl
  | approve found => exact balanced_advance found rfl (isStored_afterApproval ..) rfl
  | load found => exact balanced_advance found rfl rfl rfl
  | @submit i txHash method price signatures found memoId broadcast =>
    refine balanced_advance found rfl ?_ rfl
    cases txHash with
    | none => rfl
    | some hash => rfl
  | record found => exact balanced_advance found rfl rfl rfl
  | @fails i method phase found =>
    refine balanced_set found rfl ?_
    have lost : s.losesCount (.fails i) = Call.isStored ⟨method, phase⟩ := by
      rw [Session.losesCount, found]
      rfl
    rw [lost]
    rfl

/-- The account of a run, by induction on it. -/
theorem exec_balance {trace : List Move} (run : Machine.exec (Session.step signer) s trace = some s') :
    Balanced s s' (lostCounts signer s trace) := by
  induction trace generalizing s with
  | nil =>
    cases run
    rfl
  | cons m trace ih =>
    obtain ⟨u, first, rest⟩ := Option.bind_eq_some_iff.1 ((Machine.exec_cons s m trace).symm.trans run)
    have head := (Session.step_cases first).balance
    have tail := ih rest
    rw [lostCounts, first]
    rw [Balanced] at head tail ⊢
    rw [Option.elim_some]
    omega

/-- No count is lost where no step loses one. -/
lemma lostCounts_eq_zero {trace : List Move} (run : Machine.exec (Session.step signer) s trace = some s') :
    lostCounts signer s trace = 0 ↔
      Machine.Guarded (Session.step signer) (fun s m => s.losesCount m = false) s trace := by
  induction trace generalizing s with
  | nil => exact ⟨fun _ => Machine.guarded_nil, fun _ => rfl⟩
  | cons m trace ih =>
    obtain ⟨u, first, rest⟩ := Option.bind_eq_some_iff.1 ((Machine.exec_cons s m trace).symm.trans run)
    rw [Machine.guarded_cons, lostCounts, first, Option.elim_some, Nat.add_eq_zero_iff, ih rest]
    refine and_congr ?_ ⟨fun guarded t same => ?_, fun guarded => guarded u rfl⟩
    · cases s.losesCount m with
      | false => exact ⟨fun _ => rfl, fun _ => rfl⟩
      | true => exact ⟨(nomatch ·), (nomatch ·)⟩
    · cases same
      exact guarded

def Call.isFinished (c : Call) : Bool :=
  match c.phase with
  | .finished => true
  | _ => false

/-- No call is in progress. -/
def Session.Idle (s : Session) : Prop := ∀ c ∈ s.calls, c.isFinished = true

/-- In an idle session no signature is left to count. -/
lemma Session.Idle.countP (idle : s.Idle) : s.calls.countP Call.isStored = 0 := by
  refine List.countP_eq_zero.2 fun c mem stored => ?_
  obtain ⟨method, phase⟩ := c
  have finished := idle _ mem
  cases phase with
  | stored => cases finished
  | finished => cases stored
  | started => cases stored
  | expiring => cases stored
  | read => cases stored
  | approving => cases stored
  | approved => cases stored
  | loaded => cases stored
  | submitted => cases stored

/-- Without calls in progress the counter is behind by the counts that are lost. -/
lemma collected_add_lost {price : MultiSigPrice} {signatures : List Signature} {trace : List Move}
    (counted : price.collectedSignatures = signatures.length) (idle : s.Idle)
    (run : Machine.exec (Session.step signer) (.initial price signatures) trace = some s) :
    s.price.collectedSignatures + lostCounts signer (.initial price signatures) trace = s.signatures.length := by
  have balance := exec_balance run
  rw [Balanced, idle.countP] at balance
  change _ + signatures.length = price.collectedSignatures + 0 + _ at balance
  omega

/-- A price whose counts are lost stays below a threshold that every signer has to count for. -/
theorem collected_lt_of_lost {price : MultiSigPrice} {signatures : List Signature} {trace : List Move}
    (counted : price.collectedSignatures = signatures.length) (idle : s.Idle)
    (run : Machine.exec (Session.step signer) (.initial price signatures) trace = some s)
    (lost : 0 < lostCounts signer (.initial price signatures) trace)
    (signers : s.signatures.length ≤ s.price.requiredSignatures) :
    s.price.collectedSignatures < s.price.requiredSignatures := by
  have account := collected_add_lost counted idle run
  omega

/-- The counter is the number of stored signatures whenever no call is in progress, exactly when no call has failed
between storing its signature and counting it. -/
theorem collected_eq_stored_iff {price : MultiSigPrice} {signatures : List Signature} {trace : List Move}
    (counted : price.collectedSignatures = signatures.length)
    (run : Machine.exec (Session.step signer) (.initial price signatures) trace = some s) (idle : s.Idle) :
    s.price.collectedSignatures = s.signatures.length ↔
      Machine.Guarded (Session.step signer) (fun s m => s.losesCount m = false) (.initial price signatures) trace := by
  rw [← lostCounts_eq_zero run, ← collected_add_lost counted idle run]
  exact left_eq_add

/-- The first signer of `samplePrice` signs. -/
def sampleSigning : List Move :=
  [.call (.collectSignature "a" "A" none), .read 0 1, .store 0 ⟨"", "", ""⟩, .increment 0]

/-- Two signatures that are both counted. -/
theorem collected_eq_stored_sample : ∃ s,
    Machine.exec (Session.step sampleSigner) (.initial samplePrice []) sampleSigning = some s ∧ s.Idle ∧
    (s.price.collectedSignatures = s.signatures.length ↔
      Machine.Guarded (Session.step sampleSigner) (fun s m => s.losesCount m = false) (.initial samplePrice [])
        sampleSigning) := by
  have run : ((Machine.exec (Session.step sampleSigner) (.initial samplePrice []) sampleSigning).map fun s =>
      s.calls.map Call.isFinished) = some [true] := by decide +kernel
  obtain ⟨s, reached, finished⟩ := Option.map_eq_some_iff.1 run
  have idle : s.Idle := fun c mem => List.eq_of_mem_singleton (finished ▸ List.mem_map_of_mem mem)
  exact ⟨s, reached, idle, collected_eq_stored_iff rfl reached idle⟩

/-- Both signers sign; the first one fails before it is counted, and its second attempt finds the signature stored. -/
def sampleRetry : List Move :=
  [.call (.collectSignature "a" "A" none), .read 0 1, .store 0 ⟨"", "", ""⟩, .fails 0,
    .call (.collectSignature "a" "A" none), .read 1 2, .store 1 ⟨"", "", ""⟩,
    .call (.collectSignature "b" "B" none), .read 2 3, .store 2 ⟨"", "", ""⟩, .increment 2]

/-- A call fails before it counts, and its retry finds the signature there. -/
theorem collected_ne_stored_retry : ∃ s,
    Machine.exec (Session.step sampleSigner) (.initial samplePrice []) sampleRetry = some s ∧ s.Idle ∧
    s.price.collectedSignatures = 1 ∧ s.signatures.length = 2 ∧ s.price.requiredSignatures = 2 := by
  have run : ((Machine.exec (Session.step sampleSigner) (.initial samplePrice []) sampleRetry).map fun s =>
      (s.calls.all Call.isFinished, s.price.collectedSignatures, s.signatures.length, s.price.requiredSignatures)) =
      some (true, 1, 2, 2) := by decide +kernel
  obtain ⟨s, reached, seen⟩ := Option.map_eq_some_iff.1 run
  simp only [Prod.mk.injEq] at seen
  obtain ⟨finished, collected, stored, required⟩ := seen
  exact ⟨s, reached, fun c mem => List.all_eq_true.1 finished c mem, collected, stored, required⟩

end StellarFlow.MultiSig
