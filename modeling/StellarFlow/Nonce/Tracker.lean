import Mathlib.Data.List.Sort
import Mathlib.Algebra.Order.Ring.Rat
import StellarFlow.Lib.Dict
import StellarFlow.Lib.Python

/-!
# The nonce tracker and its recovery engine

Model of `NonceTracker`, `NonceGapDetector` and `NonceRecoveryEngine` in `src/network/nonce_tracker.py`.
The tracker caches one counter for each account and keeps the nonces that were issued and neither
confirmed nor failed, with the clock reading at which they were issued. An account without an entry in
`_pending` behaves as one with an empty entry. Clock readings and the ledger's answers are arguments;
log lines are left out.
-/

namespace StellarFlow.Nonce

/-- `NonceTracker`: the cached counters, and for each account `{nonce: issued_at}`. -/
structure NonceTracker where
  nonces : String → Option ℤ
  pending : String → Dict ℤ ℚ

namespace NonceTracker

/-- `NonceTracker.create_standalone`. -/
def createStandalone : NonceTracker where
  nonces := fun _ => none
  pending := fun _ => .empty

/-- `NonceTracker._mark_pending`. -/
def markPending (t : NonceTracker) (address : String) (nonce : ℤ) (now : ℚ) : NonceTracker :=
  { t with pending := Function.update t.pending address ((t.pending address).set nonce now) }

/-- The counter stored for an account and the nonce marked as pending. -/
def issue (t : NonceTracker) (address : String) (nonce : ℤ) (now : ℚ) : NonceTracker :=
  { t with nonces := Function.update t.nonces address (some nonce) }.markPending address nonce now

/-- `NonceTracker.get_next_nonce`. -/
def getNextNonce (t : NonceTracker) (address : String) (seed : Option ℤ) (now : ℚ) :
    Except PyError ℤ × NonceTracker :=
  match t.nonces address, seed with
  | none, none =>
    -- the exception handler drops the cached counter
    (.error (.valueError s!"No cached nonce for '{address}' and no seed supplied."),
      { t with nonces := Function.update t.nonces address none })
  | none, some seed => (.ok seed, t.issue address seed now)
  | some cached, _ =>
    let nextNonce := cached + 1
    (.ok nextNonce, t.issue address nextNonce now)

/-- The nonce is no longer pending. -/
def resolve (t : NonceTracker) (address : String) (nonce : ℤ) : NonceTracker :=
  { t with pending := Function.update t.pending address ((t.pending address).pop nonce) }

/-- `NonceTracker.confirm`. -/
def confirm (t : NonceTracker) (address : String) (nonce : ℤ) : NonceTracker :=
  t.resolve address nonce

/-- `NonceTracker.fail`. -/
def fail (t : NonceTracker) (address : String) (nonce : ℤ) : NonceTracker :=
  t.resolve address nonce

/-- `NonceTracker.get_stale`. -/
def getStale (t : NonceTracker) (address : String) (timeoutSeconds now : ℚ) : List ℤ :=
  ((t.pending address).keysWhere fun issuedAt => timeoutSeconds < now - issuedAt).insertionSort (· ≤ ·)

/-- `NonceTracker.sync_nonce`. -/
def syncNonce (t : NonceTracker) (address : String) (nonce : ℤ) : NonceTracker where
  nonces := Function.update t.nonces address (some nonce)
  pending := Function.update t.pending address .empty

/-- `NonceTracker.get_nonce`. -/
def getNonce (t : NonceTracker) (address : String) : Option ℤ :=
  t.nonces address

/-- `NonceTracker.get_pending_nonces`. -/
def getPendingNonces (t : NonceTracker) (address : String) : List ℤ :=
  (t.pending address).keys.insertionSort (· ≤ ·)

/-- What `get_next_nonce` does: it raises and changes nothing for the account, or it issues the seed of
an account without a counter, or the number after the counter. -/
lemma getNextNonce_cases (t : NonceTracker) (address : String) (seed : Option ℤ) (now : ℚ) :
    (∃ error, t.getNextNonce address seed now = (.error error, t)) ∨
    ∃ nonce, t.getNextNonce address seed now = (.ok nonce, t.issue address nonce now) ∧
        (t.nonces address = none ∨ t.nonces address = some (nonce - 1)) := by
  cases cached : t.nonces address with
  | none =>
    cases seed with
    | none =>
      left
      simp only [getNextNonce, cached]
      rw [← cached, Function.update_eq_self]
      exact ⟨_, rfl⟩
    | some seed =>
      right
      exact ⟨seed, by simp only [getNextNonce, cached], .inl rfl⟩
  | some cached' =>
    right
    exact ⟨cached' + 1, by simp only [getNextNonce, cached], .inr (by simp)⟩

section Fields
variable (t : NonceTracker) (address : String) (nonce : ℤ) (now : ℚ)

/-- An issued nonce is the last one of its account. -/
@[simp] lemma issue_nonces : (t.issue address nonce now).nonces address = some nonce := by
  simp [issue, markPending]

/-- An issued nonce is pending. -/
@[simp] lemma issue_pending :
    (t.issue address nonce now).pending address = (t.pending address).set nonce now := by
  simp [issue, markPending]

/-- What was pending is so after another nonce is issued. -/
lemma mem_issue_pending {n : ℤ} :
    n ∈ ((t.issue address nonce now).pending address).keys ↔
      n = nonce ∨ n ∈ (t.pending address).keys := by
  rw [issue_pending, Dict.mem_keys_set]

/-- A resolved nonce is popped. -/
@[simp] lemma resolve_pending :
    (t.resolve address nonce).pending address = (t.pending address).pop nonce := by
  simp [resolve]

/-- After one is resolved the other nonces are pending. -/
lemma mem_resolve_pending {n : ℤ} :
    n ∈ ((t.resolve address nonce).pending address).keys ↔
      n ≠ nonce ∧ n ∈ (t.pending address).keys := by
  rw [resolve_pending, Dict.mem_keys_pop]

/-- A synchronised nonce is the last one of its account. -/
@[simp] lemma syncNonce_nonces : (t.syncNonce address nonce).nonces address = some nonce := by
  simp [syncNonce]

/-- After a synchronisation nothing is pending. -/
@[simp] lemma syncNonce_pending : ((t.syncNonce address nonce).pending address).keys = [] := by
  simp [syncNonce]

/-- The pending nonces are the keys. -/
@[simp] lemma mem_getPendingNonces {n : ℤ} :
    n ∈ t.getPendingNonces address ↔ n ∈ (t.pending address).keys :=
  List.mem_insertionSort _

/-- Stale nonces are pending. -/
lemma mem_pending_of_mem_getStale {n : ℤ} {timeoutSeconds : ℚ}
    (stale : n ∈ t.getStale address timeoutSeconds now) : n ∈ (t.pending address).keys := by
  rw [getStale, List.mem_insertionSort] at stale
  exact Dict.mem_keys_of_mem_keysWhere stale

variable {t address nonce now} {other : String}

/-- Issuing does not change the last nonce of another account. -/
lemma issue_nonces_of_ne (ne : other ≠ address) :
    (t.issue address nonce now).nonces other = t.nonces other := by
  simp [issue, markPending, ne]

/-- Issuing does not change what is pending for another account. -/
lemma issue_pending_of_ne (ne : other ≠ address) :
    (t.issue address nonce now).pending other = t.pending other := by
  simp [issue, markPending, ne]

/-- Resolving does not either. -/
lemma resolve_pending_of_ne (ne : other ≠ address) :
    (t.resolve address nonce).pending other = t.pending other := by
  simp [resolve, ne]

end Fields

end NonceTracker

/-- `DEFAULT_GAP_DETECTION_TIMEOUT_SECONDS`. -/
def defaultGapDetectionTimeoutSeconds : ℚ := 15

/-- `GapReport`. -/
structure GapReport where
  address : String
  staleNonces : List ℤ
  pendingNonces : List ℤ
  currentNonce : Option ℤ

/-- `GapReport.has_gaps`. -/
def GapReport.hasGaps (r : GapReport) : Bool :=
  match r.currentNonce with
  | none => false
  | some current => r.staleNonces.any fun nonce => nonce < current

/-- `NonceGapDetector.detect_gaps`. -/
def detectGaps (t : NonceTracker) (address : String) (timeoutSeconds now : ℚ) : GapReport where
  address := address
  staleNonces := t.getStale address timeoutSeconds now
  pendingNonces := t.getPendingNonces address
  currentNonce := t.getNonce address

/-- `ReconciliationResult`. -/
structure ReconciliationResult where
  address : String
  gapsDetected : List ℤ
  ledgerSequence : Option ℤ
  synced : Bool
  previousSequence : Option ℤ
  deriving DecidableEq

/-- `NonceRecoveryEngine`; the constructor rejects a negative timeout. -/
structure NonceRecoveryEngine where
  gapTimeoutSeconds : ℚ
  nonneg : 0 ≤ gapTimeoutSeconds

namespace NonceRecoveryEngine

/-- `NonceRecoveryEngine.__init__`. -/
def init (gapTimeoutSeconds : ℚ) : Except PyError NonceRecoveryEngine :=
  if h : gapTimeoutSeconds < 0 then .error (.valueError "gap_timeout_seconds must be >= 0")
  else .ok { gapTimeoutSeconds, nonneg := not_lt.mp h }

/-- The engine with the default timeout. -/
def default : NonceRecoveryEngine where
  gapTimeoutSeconds := defaultGapDetectionTimeoutSeconds
  nonneg := by decide

/-- `NonceRecoveryEngine.reconcile`; `ledgerQuery` is the ledger's answer, `none` when the query raises
or returns nothing. -/
def reconcile (engine : NonceRecoveryEngine) (t : NonceTracker) (address : String) (now : ℚ)
    (ledgerQuery : Option ℤ) : ReconciliationResult × NonceTracker :=
  let previous := t.getNonce address
  let report := detectGaps t address engine.gapTimeoutSeconds now
  if !report.hasGaps then
    ({ address, gapsDetected := [], ledgerSequence := none, synced := false,
       previousSequence := previous }, t)
  else
    let result (synced : Bool) : ReconciliationResult :=
      { address, gapsDetected := report.staleNonces, ledgerSequence := ledgerQuery, synced,
        previousSequence := previous }
    match ledgerQuery with
    | none => (result false, t)
    | some ledgerSeq =>
      -- `max` of the stale nonces, of which there is one when there are gaps
      if report.staleNonces.max?.any (ledgerSeq ≤ ·) then (result false, t)
      else (result true, t.syncNonce address ledgerSeq)

/-- The ledger's answer is adopted: there are gaps, and it is above every stale nonce. -/
def Adopts (engine : NonceRecoveryEngine) (t : NonceTracker) (address : String) (now : ℚ)
    (ledgerSeq : ℤ) : Prop :=
  let report := detectGaps t address engine.gapTimeoutSeconds now
  report.hasGaps ∧ ∀ n ∈ report.staleNonces, n < ledgerSeq

instance (engine : NonceRecoveryEngine) (t : NonceTracker) (address : String) (now : ℚ)
    (ledgerSeq : ℤ) : Decidable (engine.Adopts t address now ledgerSeq) :=
  inferInstanceAs (Decidable (_ ∧ ∀ n ∈ _, n < ledgerSeq))

/-- What `reconcile` does to the tracker: nothing, or it adopts the ledger's answer. -/
lemma reconcile_cases (engine : NonceRecoveryEngine) (t : NonceTracker) (address : String) (now : ℚ)
    (ledgerQuery : Option ℤ) :
    (engine.reconcile t address now ledgerQuery).2 = t ∨
    ∃ ledgerSeq, ledgerQuery = some ledgerSeq ∧ engine.Adopts t address now ledgerSeq ∧
      (engine.reconcile t address now ledgerQuery).2 = t.syncNonce address ledgerSeq := by
  simp only [reconcile]
  split
  · exact .inl rfl
  · rename_i gaps
    cases ledgerQuery with
    | none => exact .inl rfl
    | some ledgerSeq =>
      dsimp only
      split
      · exact .inl rfl
      · rename_i above
        refine .inr ⟨ledgerSeq, rfl, ⟨by simpa using gaps, fun n mem => ?_⟩, rfl⟩
        cases max : (detectGaps t address engine.gapTimeoutSeconds now).staleNonces.max? with
        | none =>
          rw [List.max?_eq_none_iff] at max
          rw [max] at mem
          cases mem
        | some m =>
          rw [max] at above
          have le : n ≤ m := (List.max?_eq_some_iff.mp max).2 n mem
          exact lt_of_le_of_lt le (by simpa using above)

end NonceRecoveryEngine

end StellarFlow.Nonce
