import StellarFlow.Lib.Machine
import StellarFlow.Relayer.NonceManager

/-!
# In-flight accounting around a resync

Workers that follow the usage protocol of `app/services/nonce_manager.py` on one account: acquire a
sequence, submit, and then release it as a success, or resync with Horizon and release it as a failure.
Each method of the manager runs under its lock and is one step.

A resync moves the counter back, so a worker from before it may hold the same number as one from after
it. The slots are kept by number, and the late release of the first worker removes the slot of the
second. `accounted_iff_soleHolder`: the bookkeeping is right throughout exactly the runs in which this
does not happen.
-/

namespace StellarFlow.Relayer
open Machine

/-- Where a worker stands in the protocol. A sequence it holds comes with the number of resyncs that
were completed before it was acquired. -/
inductive Worker where
  | idle
  | submitting (sequence : ℤ) (epoch : ℕ)
  | resynced (sequence : ℤ) (epoch : ℕ)

/-- The sequence a worker has acquired and not yet released. -/
def Worker.held : Worker → Option (ℤ × ℕ)
  | .idle => none
  | .submitting sequence epoch => some (sequence, epoch)
  | .resynced sequence epoch => some (sequence, epoch)

/-- A step of a worker; `horizon` are the answers its resync gets. -/
inductive WorkerStep (W : Type) where
  | acquire (w : W) (seed : Option ℤ) (now : ℚ)
  | releaseSuccess (w : W)
  | resync (w : W) (horizon : ℕ → Except String ℤ)
  | releaseFailure (w : W)

/-- The manager, its workers, and the number of completed resyncs. -/
structure WorkersRun (W : Type) where
  manager : NonceManager
  worker : W → Worker
  epoch : ℕ

namespace WorkersRun
variable {W : Type} [DecidableEq W]

/-- A new manager and idle workers. -/
def start (manager : NonceManager) : WorkersRun W where
  manager := { manager with pending := .empty }
  worker := fun _ => .idle
  epoch := 0

/-- The sequence a worker holds, with the epoch it is from. -/
def held (s : WorkersRun W) (w : W) : Option (ℤ × ℕ) := (s.worker w).held

/-- One step of the protocol. A resync that raises leaves the worker with its sequence. -/
def step (s : WorkersRun W) : WorkerStep W → Option (WorkersRun W)
  | .acquire w seed now =>
    match s.worker w with
    | .idle =>
      match s.manager.acquire seed now with
      | (.error _, manager) => some { s with manager }
      | (.ok sequence, manager) =>
        some { s with manager, worker := Function.update s.worker w (.submitting sequence s.epoch) }
    | _ => none
  | .releaseSuccess w =>
    match s.worker w with
    | .submitting sequence _ =>
      some { s with
        manager := s.manager.confirm sequence
        worker := Function.update s.worker w .idle }
    | _ => none
  | .resync w horizon =>
    match s.worker w with
    | .submitting sequence epoch =>
      match s.manager.resyncFromHorizon horizon with
      | (.error _, manager) => some { s with manager }
      | (.ok _, manager) =>
        some { manager, worker := Function.update s.worker w (.resynced sequence epoch),
               epoch := s.epoch + 1 }
    | _ => none
  | .releaseFailure w =>
    match s.worker w with
    | .resynced sequence _ =>
      some { s with
        manager := s.manager.fail sequence
        worker := Function.update s.worker w .idle }
    | _ => none

/-- Every sequence acquired after the last resync and not yet released is reported as pending. -/
def Accounted (s : WorkersRun W) : Prop :=
  ∀ w sequence, s.held w = some (sequence, s.epoch) → sequence ∈ s.manager.getPendingSequences

/-- No other worker holds the number of this one, acquired after the last resync. -/
def SoleHolder (s : WorkersRun W) (w : W) : Prop :=
  ∀ sequence epoch, s.held w = some (sequence, epoch) →
    ∀ w', w' ≠ w → s.held w' ≠ some (sequence, s.epoch)

/-- The condition on a step of a run: a worker that releases its number is the only holder of it since
the last resync. -/
def ReleasesOwn (s : WorkersRun W) : WorkerStep W → Prop
  | .acquire _ _ _ => True
  | .releaseSuccess w => s.SoleHolder w
  | .resync _ _ => True
  | .releaseFailure w => s.SoleHolder w

/-- The invariant of every run: the numbers acquired since the last resync are distinct, because the
counter only grows in between. -/
structure Fresh (s : WorkersRun W) : Prop where
  past : ∀ w sequence epoch, s.held w = some (sequence, epoch) → epoch ≤ s.epoch
  counted : ∀ w sequence, s.held w = some (sequence, s.epoch) →
    ∃ counter, s.manager.key = some counter ∧ sequence ≤ counter
  distinct : ∀ w w' sequence, s.held w = some (sequence, s.epoch) →
    s.held w' = some (sequence, s.epoch) → w = w'

/-- What a step does: nothing, an acquisition, a resync, or a release. -/
lemma step_cases {s t : WorkersRun W} {l : WorkerStep W} (stepped : s.step l = some t) :
    (t = s ∧ s.ReleasesOwn l) ∨
    (∃ w sequence now, s.ReleasesOwn l ∧
      (s.manager.key = some (sequence - 1) ∨ s.manager.key = none) ∧
      t = { s with
        manager := s.manager.handedOut sequence now
        worker := Function.update s.worker w (.submitting sequence s.epoch) }) ∨
    (∃ w sequence epoch ledgerSequence, s.ReleasesOwn l ∧ s.held w = some (sequence, epoch) ∧
      t = { manager := s.manager.adopt ledgerSequence
            worker := Function.update s.worker w (.resynced sequence epoch)
            epoch := s.epoch + 1 }) ∨
    (∃ w sequence epoch, (s.ReleasesOwn l ↔ s.SoleHolder w) ∧ s.held w = some (sequence, epoch) ∧
      t = { s with
        manager := s.manager.drop sequence
        worker := Function.update s.worker w .idle }) := by
  cases l with
  | acquire w seed now =>
    simp only [step] at stepped
    split at stepped
    · obtain ⟨error, -, raised⟩ | ⟨sequence, acquired, next⟩ := s.manager.acquire_cases seed now
      · rw [raised] at stepped
        cases stepped
        exact .inl ⟨rfl, trivial⟩
      · rw [acquired] at stepped
        cases stepped
        exact .inr (.inl ⟨w, sequence, now, trivial, next.imp_right And.left, rfl⟩)
    · cases stepped
  | releaseSuccess w =>
    simp only [step] at stepped
    split at stepped
    · rename_i sequence epoch submitting
      cases stepped
      exact .inr (.inr (.inr ⟨w, sequence, epoch, Iff.rfl, by rw [held, submitting, Worker.held], rfl⟩))
    · cases stepped
  | resync w horizon =>
    simp only [step] at stepped
    split at stepped
    · rename_i sequence epoch submitting
      obtain ⟨error, raised⟩ | ⟨ledgerSequence, adopted⟩ := s.manager.resyncFromHorizon_cases horizon
      · rw [raised] at stepped
        cases stepped
        exact .inl ⟨rfl, trivial⟩
      · rw [adopted] at stepped
        cases stepped
        exact .inr (.inr (.inl ⟨w, sequence, epoch, ledgerSequence, trivial,
          by rw [held, submitting, Worker.held], rfl⟩))
    · cases stepped
  | releaseFailure w =>
    simp only [step] at stepped
    split at stepped
    · rename_i sequence epoch resynced
      cases stepped
      exact .inr (.inr (.inr ⟨w, sequence, epoch, Iff.rfl, by rw [held, resynced, Worker.held], rfl⟩))
    · cases stepped

/-- A worker holds what its new state does, and the others what they held. -/
lemma held_update (s : WorkersRun W) (manager : NonceManager) (epoch : ℕ) (state : Worker) (w w' : W) :
    held { manager, worker := Function.update s.worker w state, epoch } w' =
      if w' = w then state.held else s.held w' := by
  by_cases eq : w' = w
  · subst eq
    simp [held]
  · simp [held, eq]

omit [DecidableEq W] in
/-- At the start nothing is held. -/
lemma fresh_start (manager : NonceManager) : Fresh (start manager : WorkersRun W) where
  past := fun _ _ _ held => nomatch held
  counted := fun _ _ held => nomatch held
  distinct := fun _ _ _ held _ => nomatch held

omit [DecidableEq W] in
/-- The number handed out next is above those acquired since the last resync. -/
lemma Fresh.lt_next {s : WorkersRun W} (fresh : Fresh s) {sequence : ℤ}
    (next : s.manager.key = some (sequence - 1) ∨ s.manager.key = none) {w : W} {n : ℤ}
    (held : s.held w = some (n, s.epoch)) : n < sequence := by
  obtain ⟨counter, key, le⟩ := fresh.counted w n held
  obtain present | absent := next
  · obtain rfl := Option.some.inj (key.symm.trans present)
    omega
  · rw [key] at absent
    cases absent

/-- A sequence that is handed out is new. -/
lemma fresh_acquired {s : WorkersRun W} (fresh : Fresh s) {sequence : ℤ} (now : ℚ)
    (next : s.manager.key = some (sequence - 1) ∨ s.manager.key = none) (w : W) :
    Fresh { s with
      manager := s.manager.handedOut sequence now
      worker := Function.update s.worker w (.submitting sequence s.epoch) } := by
  constructor
  · intro w' n epoch held
    rw [held_update] at held
    split at held
    · cases held
      exact le_rfl
    · exact fresh.past w' n epoch held
  · intro w' n held
    refine ⟨sequence, rfl, ?_⟩
    rw [held_update] at held
    split at held
    · cases held
      exact le_rfl
    · exact (fresh.lt_next next held).le
  · intro w₁ w₂ n first second
    rw [held_update] at first second
    split at first
    · rename_i eq₁
      split at second
      · rename_i eq₂
        exact eq₁.trans eq₂.symm
      · cases first
        exact absurd (fresh.lt_next next second) (lt_irrefl _)
    · split at second
      · cases second
        exact absurd (fresh.lt_next next first) (lt_irrefl _)
      · exact fresh.distinct w₁ w₂ n first second

/-- After a resync every sequence that is held is from before it. -/
lemma past_resynced {s : WorkersRun W} (fresh : Fresh s) {w : W} {sequence : ℤ} {epoch : ℕ}
    (held : s.held w = some (sequence, epoch)) (manager : NonceManager) (w' : W) (n : ℤ) (e : ℕ)
    (after : WorkersRun.held { manager, worker := Function.update s.worker w (.resynced sequence epoch),
                               epoch := s.epoch + 1 } w' = some (n, e)) : e ≤ s.epoch := by
  rw [held_update] at after
  split at after
  · cases after
    exact fresh.past w _ _ held
  · exact fresh.past w' n e after

/-- Each step keeps the sequences in flight below the next one. -/
lemma fresh_step (s : WorkersRun W) (l : WorkerStep W) (t : WorkersRun W) (fresh : Fresh s)
    (stepped : s.step l = some t) : Fresh t := by
  obtain ⟨rfl, -⟩ | ⟨w, sequence, now, -, next, rfl⟩ |
    ⟨w, sequence, epoch, ledgerSequence, -, held, rfl⟩ | ⟨w, sequence, epoch, -, held, rfl⟩ :=
    step_cases stepped
  · exact fresh
  · exact fresh_acquired fresh now next w
  · -- nothing has been acquired since the resync
    have past := past_resynced fresh held (s.manager.adopt ledgerSequence)
    constructor
    · intro w' n e after
      exact (past w' n e after).trans (Nat.le_succ _)
    · intro w' n after
      exact absurd (past w' n _ after) (Nat.not_succ_le_self _)
    · intro w' _ n after _
      exact absurd (past w' n _ after) (Nat.not_succ_le_self _)
  · have kept : ∀ w' n e, WorkersRun.held { s with
        manager := s.manager.drop sequence
        worker := Function.update s.worker w .idle } w' = some (n, e) → s.held w' = some (n, e) := by
      intro w' n e after
      rw [held_update] at after
      split at after
      · cases after
      · exact after
    constructor
    · exact fun w' n e after => fresh.past w' n e (kept w' n e after)
    · exact fun w' n after => fresh.counted w' n (kept w' n _ after)
    · exact fun w₁ w₂ n first second => fresh.distinct w₁ w₂ n (kept w₁ n _ first) (kept w₂ n _ second)

/-- A release keeps the account just where its sequence is the holder's own. -/
lemma accounted_release_iff {s : WorkersRun W} (accounted : Accounted s) {w : W} {sequence : ℤ}
    {epoch : ℕ} (held : s.held w = some (sequence, epoch)) :
    Accounted { s with
      manager := s.manager.drop sequence
      worker := Function.update s.worker w .idle } ↔ s.SoleHolder w := by
  have pending : ∀ n, n ∈ (s.manager.drop sequence).getPendingSequences ↔
      n ≠ sequence ∧ n ∈ s.manager.getPendingSequences := by
    intro n
    simp only [NonceManager.mem_getPendingSequences, NonceManager.drop, Dict.mem_keys_pop]
  -- the release removes the number, whoever holds it
  constructor
  · intro after sequence' epoch' held' w' ne other
    obtain ⟨rfl, -⟩ := Prod.mk.inj (Option.some.inj (held.symm.trans held'))
    have still := after w' sequence (by rw [held_update, if_neg ne]; exact other)
    exact ((pending sequence).mp still).1 rfl
  · intro sole w' n after
    rw [held_update] at after
    split at after
    · cases after
    · rename_i ne
      refine (pending n).mpr ⟨?_, accounted w' n after⟩
      rintro rfl
      exact sole n epoch held w' ne after

/-- A step keeps the accounts right exactly when it meets the condition. -/
lemma accounted_step_iff (s : WorkersRun W) (l : WorkerStep W) (t : WorkersRun W) (fresh : Fresh s)
    (accounted : Accounted s) (stepped : s.step l = some t) : Accounted t ↔ s.ReleasesOwn l := by
  obtain ⟨rfl, met⟩ | ⟨w, sequence, now, met, next, rfl⟩ |
    ⟨w, sequence, epoch, ledgerSequence, met, held, rfl⟩ | ⟨w, sequence, epoch, met, held, rfl⟩ :=
    step_cases stepped
  · exact ⟨fun _ => met, fun _ => accounted⟩
  · refine ⟨fun _ => met, fun _ w' n after => ?_⟩
    simp only [NonceManager.mem_getPendingSequences, NonceManager.handedOut, Dict.mem_keys_set]
    rw [held_update] at after
    split at after
    · cases after
      exact .inl rfl
    · exact .inr (s.manager.mem_getPendingSequences.mp (accounted w' n after))
  · refine ⟨fun _ => met, fun _ w' n after => ?_⟩
    exact absurd (past_resynced fresh held _ w' n _ after) (Nat.not_succ_le_self _)
  · rw [met]
    exact accounted_release_iff accounted held

end WorkersRun

/-- Every sequence acquired after the last resync is reported as pending until its worker releases it,
throughout exactly those runs in which no worker releases a number that another has acquired since. -/
theorem accounted_iff_soleHolder {W : Type} [DecidableEq W] (manager : NonceManager)
    (trace : List (WorkerStep W)) (s : WorkersRun W)
    (run : exec WorkersRun.step (WorkersRun.start manager) trace = some s) :
    Always WorkersRun.step WorkersRun.Accounted (WorkersRun.start manager) trace ↔
      Guarded WorkersRun.step WorkersRun.ReleasesOwn (WorkersRun.start manager) trace :=
  always_iff_guarded (WorkersRun.fresh_start manager) (fun _ _ held => nomatch held)
    (fun s l t fresh _ => WorkersRun.fresh_step s l t fresh) WorkersRun.accounted_step_iff run

/-- The failed worker releases 101 before another one acquires it again. -/
theorem accounted_iff_soleHolder_released_in_time :
    (exec WorkersRun.step (WorkersRun.start ⟨"GREL", by decide, 30, none, .empty⟩)
        [.acquire 0 (some 100) 0, .resync 0 (fun _ => .ok 100), .releaseFailure 0,
          .acquire 1 none 1]).map
        (fun s => (s.epoch, s.held 1, s.manager.getPendingSequences)) =
        some (1, some (101, 1), [101]) ∧
      (Always WorkersRun.step WorkersRun.Accounted
          (WorkersRun.start ⟨"GREL", by decide, 30, none, .empty⟩)
          [.acquire 0 (some 100) 0, .resync 0 (fun _ => .ok 100), .releaseFailure 0,
            .acquire 1 none 1] ↔
        Guarded WorkersRun.step WorkersRun.ReleasesOwn
          (WorkersRun.start ⟨"GREL", by decide, 30, none, .empty⟩)
          [.acquire 0 (some 100) 0, .resync 0 (fun _ => .ok 100), .releaseFailure 0,
            .acquire 1 none 1]) :=
  ⟨by decide +kernel, accounted_iff_soleHolder _ _ _ rfl⟩

/-- Worker 0 gets 101 and resyncs to 100, worker 1 gets 101 as well, and then worker 0 releases its number:
nothing is pending although worker 1 is still submitting. -/
theorem late_release_drops_slot_in_flight :
    (exec WorkersRun.step (WorkersRun.start ⟨"GREL", by decide, 30, none, .empty⟩)
        [.acquire 0 (some 100) 0, .resync 0 (fun _ => .ok 100), .acquire 1 none 1,
          .releaseFailure 0]).map
        (fun s => (s.epoch, s.held 1, s.manager.getPendingSequences)) = some (1, some (101, 1), []) ∧
      ¬ Always WorkersRun.step WorkersRun.Accounted
        (WorkersRun.start ⟨"GREL", by decide, 30, none, .empty⟩)
        [.acquire 0 (some 100) 0, .resync 0 (fun _ => .ok 100), .acquire 1 none 1,
          .releaseFailure 0] := by
  refine ⟨by decide +kernel, fun always => ?_⟩
  have pending := always _ _ (List.prefix_refl _) rfl 1 101 rfl
  revert pending
  decide +kernel

end StellarFlow.Relayer
