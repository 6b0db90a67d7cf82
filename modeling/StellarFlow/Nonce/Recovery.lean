import Mathlib.Data.Finset.Basic
import StellarFlow.Lib.Machine
import StellarFlow.Nonce.Tracker

/-!
# Reconciliation and the sequences it re-opens

Runs of one account's `get_next_nonce`, `confirm`, `fail` and `reconcile`. A reconciliation compares the
ledger's answer with the stale nonces only and then drops the whole pending bookkeeping, so a pending
nonce that is not stale and lies above the answer is handed out a second time while it is still live.
No nonce is re-opened in the runs whose reconciliations adopt an answer that no pending nonce exceeds
(`reopened_nil_of_syncAbovePending`).
-/

namespace StellarFlow.Nonce
open Machine

/-- A call in a run on one account, with the clock reading and the ledger's answer it sees. -/
inductive RecoveryCall where
  | getNextNonce (seed : Option ℤ) (now : ℚ)
  | confirm (nonce : ℤ)
  | fail (nonce : ℤ)
  | reconcile (now : ℚ) (ledgerQuery : Option ℤ)

/-- The tracker, with three records of the run: the nonces issued and neither confirmed nor failed
since, those of them that some reconciliation made meanwhile left out of its `gaps_detected`, and the
ones among these that `get_next_nonce` returned again. -/
structure RecoveryRun where
  tracker : NonceTracker
  live : Finset ℤ
  unreported : Finset ℤ
  reopened : List ℤ

namespace RecoveryRun

/-- A fresh tracker. -/
def start : RecoveryRun where
  tracker := .createStandalone
  live := ∅
  unreported := ∅
  reopened := []

/-- The records after `get_next_nonce` has returned a nonce. -/
def returned (s : RecoveryRun) (nonce : ℤ) : RecoveryRun :=
  { s with
    live := insert nonce s.live
    reopened := if nonce ∈ s.unreported then nonce :: s.reopened else s.reopened }

/-- The records after a nonce was confirmed or failed. -/
def resolved (s : RecoveryRun) (nonce : ℤ) : RecoveryRun :=
  { s with live := s.live.erase nonce, unreported := s.unreported.erase nonce }

/-- The records after a reconciliation. -/
def reconciled (s : RecoveryRun) (result : ReconciliationResult) : RecoveryRun :=
  { s with unreported := s.unreported ∪ (s.live \ result.gapsDetected.toFinset) }

/-- One call on the account. -/
def step (engine : NonceRecoveryEngine) (address : String) (s : RecoveryRun) :
    RecoveryCall → Option RecoveryRun
  | .getNextNonce seed now =>
    match s.tracker.getNextNonce address seed now with
    | (.error _, tracker) => some { s with tracker }
    | (.ok nonce, tracker) => some ({ s with tracker }.returned nonce)
  | .confirm nonce => some ({ s with tracker := s.tracker.confirm address nonce }.resolved nonce)
  | .fail nonce => some ({ s with tracker := s.tracker.fail address nonce }.resolved nonce)
  | .reconcile now ledgerQuery =>
    let (result, tracker) := engine.reconcile s.tracker address now ledgerQuery
    some ({ s with tracker }.reconciled result)

end RecoveryRun

/-- The condition on a step of a run: a reconciliation that adopts the ledger's answer finds no pending
nonce above it. -/
def SyncAbovePending (engine : NonceRecoveryEngine) (address : String) (s : RecoveryRun) :
    RecoveryCall → Prop
  | .reconcile now (some ledgerSeq) => engine.Adopts s.tracker address now ledgerSeq →
      ∀ n ∈ s.tracker.getPendingNonces address, n ≤ ledgerSeq
  | _ => True

instance (engine : NonceRecoveryEngine) (address : String) (s : RecoveryRun) :
    (call : RecoveryCall) → Decidable (SyncAbovePending engine address s call)
  | .reconcile now (some ledgerSeq) =>
    inferInstanceAs (Decidable (engine.Adopts s.tracker address now ledgerSeq →
      ∀ n ∈ s.tracker.getPendingNonces address, n ≤ ledgerSeq))
  | .reconcile _ none => isTrue trivial
  | .getNextNonce _ _ => isTrue trivial
  | .confirm _ => isTrue trivial
  | .fail _ => isTrue trivial

/-- The invariant of the good runs. A live nonce that is not pending was dropped by a reconciliation,
and everything pending now was issued after that. -/
structure Counted (address : String) (s : RecoveryRun) : Prop where
  unseeded : s.tracker.nonces address = none → s.live = ∅
  below : ∀ counter, s.tracker.nonces address = some counter → ∀ n ∈ s.live, n ≤ counter
  pending : ∀ n ∈ (s.tracker.pending address).keys, n ∈ s.live
  dropped : ∀ n ∈ s.live, n ∉ (s.tracker.pending address).keys →
    ∀ p ∈ (s.tracker.pending address).keys, n < p
  unreported : s.unreported ⊆ s.live
  reopened : s.reopened = []

namespace Counted
variable {address : String} {s : RecoveryRun}

/-- At the start nothing was issued. -/
lemma start (address : String) : Counted address .start := by
  constructor
  · exact fun _ => rfl
  · intro counter seeded
    cases seeded
  · intro n mem
    cases mem
  · intro n mem
    exact absurd mem (Finset.notMem_empty n)
  · exact Finset.Subset.refl _
  · rfl

/-- The nonce issued next is above every live one. -/
lemma lt_next (inv : Counted address s) {nonce : ℤ}
    (next : s.tracker.nonces address = none ∨ s.tracker.nonces address = some (nonce - 1)) :
    ∀ n ∈ s.live, n < nonce := by
  intro n mem
  obtain unseeded | seeded := next
  · rw [inv.unseeded unseeded] at mem
    exact absurd mem (Finset.notMem_empty n)
  · have := inv.below _ seeded n mem
    omega

/-- A nonce is issued and returned. -/
lemma returned (inv : Counted address s) {nonce : ℤ} (now : ℚ)
    (next : s.tracker.nonces address = none ∨ s.tracker.nonces address = some (nonce - 1)) :
    Counted address ({ s with tracker := s.tracker.issue address nonce now }.returned nonce) := by
  have above := inv.lt_next next
  constructor
  · simp [RecoveryRun.returned]
  · intro counter cached n mem
    obtain rfl : nonce = counter := by simpa [RecoveryRun.returned] using cached
    rcases Finset.mem_insert.mp mem with rfl | mem
    · exact le_rfl
    · exact (above n mem).le
  · intro n mem
    rcases (NonceTracker.mem_issue_pending ..).mp mem with rfl | mem
    · exact Finset.mem_insert_self _ _
    · exact Finset.mem_insert_of_mem (inv.pending n mem)
  · intro n mem free p pending
    have ne : n ≠ nonce := fun eq => free ((NonceTracker.mem_issue_pending ..).mpr (.inl eq))
    have old : n ∈ s.live := Finset.mem_of_mem_insert_of_ne mem ne
    rcases (NonceTracker.mem_issue_pending ..).mp pending with rfl | pending
    · exact above n old
    · exact inv.dropped n old (fun mem => free ((NonceTracker.mem_issue_pending ..).mpr (.inr mem)))
        p pending
  · exact inv.unreported.trans (Finset.subset_insert _ _)
  · have fresh : nonce ∉ s.unreported := fun mem => lt_irrefl _ (above nonce (inv.unreported mem))
    exact (if_neg fresh).trans inv.reopened

/-- A nonce is resolved. -/
lemma resolved (inv : Counted address s) (nonce : ℤ) :
    Counted address ({ s with tracker := s.tracker.resolve address nonce }.resolved nonce) := by
  constructor
  · intro unseeded
    exact Finset.subset_empty.mp ((Finset.erase_subset _ _).trans_eq (inv.unseeded unseeded))
  · intro counter cached n mem
    exact inv.below counter cached n (Finset.mem_of_mem_erase mem)
  · intro n mem
    obtain ⟨ne, mem⟩ := (NonceTracker.mem_resolve_pending ..).mp mem
    exact Finset.mem_erase.mpr ⟨ne, inv.pending n mem⟩
  · intro n mem free p pending
    obtain ⟨ne, live⟩ := Finset.mem_erase.mp mem
    refine inv.dropped n live (fun mem => ?_) p ((NonceTracker.mem_resolve_pending ..).mp pending).2
    exact free ((NonceTracker.mem_resolve_pending ..).mpr ⟨ne, mem⟩)
  · exact Finset.erase_subset_erase _ inv.unreported
  · exact inv.reopened

/-- A reconciliation is done. -/
lemma reconciled (inv : Counted address s) (result : ReconciliationResult) :
    Counted address (s.reconciled result) where
  unseeded := inv.unseeded
  below := inv.below
  pending := inv.pending
  dropped := inv.dropped
  unreported := Finset.union_subset inv.unreported Finset.sdiff_subset
  reopened := inv.reopened

/-- Adopting an answer that no pending nonce exceeds: the dropped nonces lie below the stale ones, and
these below the answer. -/
lemma synced (inv : Counted address s) {engine : NonceRecoveryEngine} {now : ℚ} {ledgerSeq : ℤ}
    (adopts : engine.Adopts s.tracker address now ledgerSeq)
    (above : ∀ n ∈ s.tracker.getPendingNonces address, n ≤ ledgerSeq) :
    Counted address { s with tracker := s.tracker.syncNonce address ledgerSeq } := by
  obtain ⟨gaps, stale⟩ := adopts
  constructor
  · simp
  · intro counter cached n mem
    obtain rfl : ledgerSeq = counter := by simpa using cached
    by_cases pending : n ∈ (s.tracker.pending address).keys
    · exact above n ((NonceTracker.mem_getPendingNonces ..).mpr pending)
    · -- `n` was dropped by an earlier reconciliation, so it lies below any stale nonce
      obtain ⟨p, isStale⟩ : ∃ p, p ∈ s.tracker.getStale address engine.gapTimeoutSeconds now := by
        rw [GapReport.hasGaps] at gaps
        split at gaps
        · cases gaps
        · obtain ⟨p, mem, -⟩ := List.any_eq_true.mp gaps
          exact ⟨p, mem⟩
      have lt := inv.dropped n mem pending p (s.tracker.mem_pending_of_mem_getStale _ _ isStale)
      exact (lt.trans (stale p isStale)).le
  · simp
  · simp
  · exact inv.unreported
  · exact inv.reopened

/-- Each call keeps the invariant. -/
lemma step (engine : NonceRecoveryEngine) (s : RecoveryRun) (call : RecoveryCall) (t : RecoveryRun)
    (inv : Counted address s) (met : SyncAbovePending engine address s call)
    (stepped : s.step engine address call = some t) : Counted address t := by
  cases call with
  | getNextNonce seed now =>
    rw [RecoveryRun.step] at stepped
    obtain ⟨error, raised⟩ | ⟨nonce, issued, next⟩ := s.tracker.getNextNonce_cases address seed now
    · rw [raised] at stepped
      cases stepped
      exact inv
    · rw [issued] at stepped
      cases stepped
      exact inv.returned now next
  | confirm nonce =>
    cases stepped
    exact inv.resolved nonce
  | fail nonce =>
    cases stepped
    exact inv.resolved nonce
  | reconcile now ledgerQuery =>
    simp only [RecoveryRun.step, Option.some.injEq] at stepped
    subst stepped
    obtain same | ⟨ledgerSeq, rfl, adopts, synced⟩ :=
      engine.reconcile_cases s.tracker address now ledgerQuery
    · rw [same]
      exact inv.reconciled _
    · rw [synced]
      exact (inv.synced adopts (met adopts)).reconciled _

end Counted

/-- In a run whose reconciliations adopt only answers that no pending nonce exceeds, `get_next_nonce`
never returns a live nonce that an earlier reconciliation left out of its gaps. -/
theorem reopened_nil_of_syncAbovePending (engine : NonceRecoveryEngine) (address : String)
    (trace : List RecoveryCall)
    (guarded : Guarded (RecoveryRun.step engine address) (SyncAbovePending engine address)
      RecoveryRun.start trace) :
    Always (RecoveryRun.step engine address) (fun t => t.reopened = []) RecoveryRun.start trace := by
  have inv := always_of_guarded (Counted.start address) (Counted.step engine) guarded
  intro pre t le run
  exact (inv pre t le run).reopened

/-- Nonces 1 to 3 are issued, 1 is stale and the ledger answers 3: the next nonce is new. -/
theorem reopened_nil_of_syncAbovePending_ledger_ahead :
    (exec (RecoveryRun.step .default "GACC") RecoveryRun.start
        [.getNextNonce (some 1) 0, .getNextNonce none 20, .getNextNonce none 20,
          .reconcile 20 (some 3), .getNextNonce none 21]).map
        (fun s => (s.tracker.getNonce "GACC", s.unreported)) = some (some 4, {2, 3}) ∧
      Always (RecoveryRun.step .default "GACC") (fun t => t.reopened = []) RecoveryRun.start
        [.getNextNonce (some 1) 0, .getNextNonce none 20, .getNextNonce none 20,
          .reconcile 20 (some 3), .getNextNonce none 21] :=
  ⟨by decide +kernel, reopened_nil_of_syncAbovePending .default "GACC" _ (by decide +kernel)⟩

/-- Nonces 1 to 4 are issued, only 1 is stale and the ledger answers 2: the reconciliation reports 1 as a
gap and drops the rest, and the next nonce is 3, which is still in flight. -/
theorem reconcile_reopens_nonce_in_flight :
    (exec (RecoveryRun.step .default "GACC") RecoveryRun.start
        [.getNextNonce (some 1) 0, .getNextNonce none 20, .getNextNonce none 20,
          .getNextNonce none 20]).map (fun s =>
        (s.live, (NonceRecoveryEngine.default.reconcile s.tracker "GACC" 20 (some 2)).1.gapsDetected)) =
        some ({1, 2, 3, 4}, [1]) ∧
      ¬ Always (RecoveryRun.step .default "GACC") (fun t => t.reopened = []) RecoveryRun.start
        [.getNextNonce (some 1) 0, .getNextNonce none 20, .getNextNonce none 20,
          .getNextNonce none 20, .reconcile 20 (some 2), .getNextNonce none 21] := by
  refine ⟨by decide +kernel, fun always => ?_⟩
  have reopened : (exec (RecoveryRun.step .default "GACC") RecoveryRun.start
      [.getNextNonce (some 1) 0, .getNextNonce none 20, .getNextNonce none 20,
        .getNextNonce none 20, .reconcile 20 (some 2), .getNextNonce none 21]).map
      RecoveryRun.reopened = some [3] := by decide +kernel
  obtain ⟨s, run, eq⟩ := Option.map_eq_some_iff.mp reopened
  have nil : s.reopened = [] := always _ s (List.prefix_refl _) run
  rw [eq] at nil
  cases nil

end StellarFlow.Nonce
