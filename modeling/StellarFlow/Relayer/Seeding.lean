import Mathlib.Data.Finset.Insert
import Mathlib.Data.Int.Basic
import StellarFlow.Lib.Machine
import StellarFlow.Relayer.NonceManager

/-!
# Seeding the counter across processes

The processes of `app/services/nonce_manager.py` that share one account's Redis key. The manager's lock
is local to a process, so the `EXISTS`, `SET NX` and `INCR` of one process interleave with the commands
of the others, and each command is a step. An `invalidate` is a `DEL` and a resync a `SET`, made by a
process that is not inside `acquire`.

A `DEL` that falls after the `EXISTS` or the `SET NX` of another process lets its `INCR` start from
nothing, and `acquire` returns 1. `above_written_iff_incrOnWritten`: the sequences of a run come from a
value written to the key exactly when no `INCR` meets an absent key, unless a value below one was ever
written.
-/

namespace StellarFlow.Relayer
open Machine

/-- Where a process stands in `acquire`. -/
inductive Pc where
  | idle
  | seeding (seed : ℤ)
  | counting
  deriving DecidableEq

/-- A Redis command of a process. -/
inductive Command (P : Type) where
  | existsKey (p : P) (seed : Option ℤ)
  | setNx (p : P)
  | incr (p : P)
  | del (p : P)
  | set (p : P) (ledgerSequence : ℤ)

/-- The key and the processes, with two records of the run: the values written to the key, and the
sequences returned by `acquire`, each with the values written before its `INCR`. -/
structure SharedRun (P : Type) where
  key : RedisKey
  pc : P → Pc
  written : Finset ℤ
  returned : List (ℤ × Finset ℤ)

namespace SharedRun
variable {P : Type} [DecidableEq P]

/-- No key and no process in `acquire`. -/
def start : SharedRun P where
  key := none
  pc := fun _ => .idle
  written := ∅
  returned := []

/-- One Redis command. An `acquire` that finds no key and has no seed raises. -/
def step (s : SharedRun P) : Command P → Option (SharedRun P)
  | .existsKey p seed =>
    match s.pc p with
    | .idle =>
      if s.key.present then some { s with pc := Function.update s.pc p .counting }
      else match seed with
        | none => some s
        | some seed => some { s with pc := Function.update s.pc p (.seeding seed) }
    | _ => none
  | .setNx p =>
    match s.pc p with
    | .seeding seed =>
      some { s with
        key := s.key.setNx seed
        pc := Function.update s.pc p .counting
        written := if s.key.present then s.written else insert seed s.written }
    | _ => none
  | .incr p =>
    match s.pc p with
    | .counting =>
      some { s with
        key := some s.key.incr
        pc := Function.update s.pc p .idle
        returned := (s.key.incr, s.written) :: s.returned }
    | _ => none
  | .del p =>
    match s.pc p with
    | .idle => some { s with key := s.key.del }
    | _ => none
  | .set p ledgerSequence =>
    match s.pc p with
    | .idle =>
      some { s with key := s.key.set ledgerSequence, written := insert ledgerSequence s.written }
    | _ => none

/-- The commands of one process without interference are `NonceManager.acquire`. -/
lemma exec_acquire (s : SharedRun P) (p : P) (idle : s.pc p = .idle) (m : NonceManager)
    (shared : m.key = s.key) (seed : Option ℤ) (now : ℚ) :
    ∃ trace t, exec step s trace = some t ∧ t.key = (m.acquire seed now).2.key ∧
      t.returned.map Prod.fst =
        match (m.acquire seed now).1 with
        | .ok sequence => sequence :: s.returned.map Prod.fst
        | .error _ => s.returned.map Prod.fst := by
  by_cases present : s.key.present
  · refine ⟨[.existsKey p seed, .incr p], ?_⟩
    simp [exec, step, idle, present, NonceManager.acquire, NonceManager.allocate, shared]
  · cases seed with
    | none =>
      refine ⟨[.existsKey p none], s, by simp [exec, step, idle, present], ?_, ?_⟩
      · simp [NonceManager.acquire, shared, present]
      · simp [NonceManager.acquire, shared, present]
    | some seed =>
      refine ⟨[.existsKey p (some seed), .setNx p, .incr p], ?_⟩
      simp [exec, step, idle, present, NonceManager.acquire, NonceManager.allocate, shared]

/-- Every returned sequence is above a value written to the key before its `INCR`. -/
def AboveWritten (s : SharedRun P) : Prop :=
  ∀ r ∈ s.returned, ∃ v ∈ r.2, v < r.1

/-- The condition on a step of a run: an `INCR` finds the key, or a value below one has been written. -/
def IncrOnWritten (s : SharedRun P) : Command P → Prop
  | .incr _ => s.key.present ∨ ∃ v ∈ s.written, v ≤ 0
  | _ => True

/-- The invariant of the good runs: the counter has not fallen below everything written to it. -/
def Counts (s : SharedRun P) : Prop :=
  ∀ counter, s.key = some counter → ∃ v ∈ s.written, v ≤ counter

omit [DecidableEq P] in
/-- The number an `INCR` returns is above a written value exactly when it meets the condition. -/
lemma incr_above_iff {s : SharedRun P} (counts : Counts s) (p : P) :
    (∃ v ∈ s.written, v < s.key.incr) ↔ IncrOnWritten s (.incr p) := by
  cases key : s.key with
  | none =>
    -- `INCR` of an absent key yields 1
    simp [IncrOnWritten, key, RedisKey.incr, RedisKey.present, Int.lt_iff_add_one_le]
  | some counter =>
    refine ⟨fun _ => .inl (by simp [key, RedisKey.present]), fun _ => ?_⟩
    obtain ⟨v, mem, le⟩ := counts counter key
    exact ⟨v, mem, Int.lt_add_one_iff.mpr le⟩

/-- What a command does to the key and to the records. -/
lemma step_cases {s t : SharedRun P} {c : Command P} (stepped : s.step c = some t) :
    (t.key = s.key ∧ t.written = s.written ∧ t.returned = s.returned ∧ IncrOnWritten s c) ∨
    (t.key = none ∧ t.written = s.written ∧ t.returned = s.returned ∧ IncrOnWritten s c) ∨
    (∃ v, t.key = some v ∧ t.written = insert v s.written ∧ t.returned = s.returned ∧
      IncrOnWritten s c) ∨
    (∃ p, c = .incr p ∧ t.key = some s.key.incr ∧ t.written = s.written ∧
      t.returned = (s.key.incr, s.written) :: s.returned) := by
  cases c with
  | existsKey p seed =>
    simp only [step] at stepped
    left
    split at stepped
    · split at stepped
      · cases stepped
        exact ⟨rfl, rfl, rfl, trivial⟩
      · split at stepped
        · cases stepped
          exact ⟨rfl, rfl, rfl, trivial⟩
        · cases stepped
          exact ⟨rfl, rfl, rfl, trivial⟩
    · cases stepped
  | setNx p =>
    simp only [step] at stepped
    split at stepped
    · rename_i seed seeding
      cases stepped
      cases key : s.key with
      | some counter => exact .inl ⟨rfl, rfl, rfl, trivial⟩
      | none => exact .inr (.inr (.inl ⟨seed, rfl, rfl, rfl, trivial⟩))
    · cases stepped
  | incr p =>
    simp only [step] at stepped
    split at stepped
    · cases stepped
      exact .inr (.inr (.inr ⟨p, rfl, rfl, rfl, rfl⟩))
    · cases stepped
  | del p =>
    simp only [step] at stepped
    split at stepped
    · cases stepped
      exact .inr (.inl ⟨rfl, rfl, rfl, trivial⟩)
    · cases stepped
  | set p ledgerSequence =>
    simp only [step] at stepped
    split at stepped
    · cases stepped
      exact .inr (.inr (.inl ⟨ledgerSequence, rfl, rfl, rfl, trivial⟩))
    · cases stepped

omit [DecidableEq P] in
/-- At the start nothing was counted. -/
lemma counts_start : Counts (start : SharedRun P) := by
  intro counter key
  cases key

/-- A step that counts on a key that was written keeps the count. -/
lemma counts_step (s : SharedRun P) (c : Command P) (t : SharedRun P) (counts : Counts s)
    (met : IncrOnWritten s c) (stepped : s.step c = some t) : Counts t := by
  intro counter key'
  obtain ⟨key, written, -, -⟩ | ⟨key, -, -, -⟩ | ⟨v, key, written, -, -⟩ | ⟨p, rfl, key, written, -⟩ :=
    step_cases stepped
  · rw [written]
    exact counts counter (key.symm.trans key')
  · rw [key] at key'
    cases key'
  · obtain rfl := Option.some.inj (key.symm.trans key')
    rw [written]
    exact ⟨v, Finset.mem_insert_self _ _, le_rfl⟩
  · obtain rfl := Option.some.inj (key.symm.trans key')
    obtain ⟨v, mem, lt⟩ := (incr_above_iff counts p).mpr met
    rw [written]
    exact ⟨v, mem, lt.le⟩

/-- A command keeps the sequences above the written values exactly when it meets the condition. -/
lemma aboveWritten_step_iff (s : SharedRun P) (c : Command P) (t : SharedRun P) (counts : Counts s)
    (above : AboveWritten s) (stepped : s.step c = some t) : AboveWritten t ↔ IncrOnWritten s c := by
  obtain ⟨-, -, returned, met⟩ | ⟨-, -, returned, met⟩ | ⟨v, -, -, returned, met⟩ |
    ⟨p, rfl, -, -, returned⟩ := step_cases stepped
  · rw [AboveWritten, returned]
    exact ⟨fun _ => met, fun _ => above⟩
  · rw [AboveWritten, returned]
    exact ⟨fun _ => met, fun _ => above⟩
  · rw [AboveWritten, returned]
    exact ⟨fun _ => met, fun _ => above⟩
  · rw [AboveWritten, returned, ← incr_above_iff counts p, List.forall_mem_cons]
    exact ⟨And.left, fun new => ⟨new, above⟩⟩

end SharedRun

/-- Every sequence returned by `acquire` is above a seed or ledger value written to the key before its
`INCR`, throughout exactly those runs in which each `INCR` finds the key or comes after a value below one
was written. -/
theorem above_written_iff_incrOnWritten {P : Type} [DecidableEq P] (trace : List (Command P))
    (s : SharedRun P) (run : exec SharedRun.step SharedRun.start trace = some s) :
    Always SharedRun.step SharedRun.AboveWritten SharedRun.start trace ↔
      Guarded SharedRun.step SharedRun.IncrOnWritten SharedRun.start trace :=
  always_iff_guarded SharedRun.counts_start
    (fun _ mem => absurd mem List.not_mem_nil)
    SharedRun.counts_step SharedRun.aboveWritten_step_iff run

/-- A key deleted before a process looks for it is seeded again. -/
theorem above_written_iff_incrOnWritten_deleted_before :
    (exec SharedRun.step SharedRun.start
        [.existsKey 0 (some 100), .setNx 0, .incr 0, .del 1, .existsKey 0 (some 250), .setNx 0,
          .incr 0]).map (fun s => s.returned.map Prod.fst) = some [251, 101] ∧
      (Always SharedRun.step SharedRun.AboveWritten SharedRun.start
          [.existsKey 0 (some 100), .setNx 0, .incr 0, .del 1, .existsKey 0 (some 250), .setNx 0, .incr 0] ↔
        Guarded SharedRun.step SharedRun.IncrOnWritten SharedRun.start
          [.existsKey 0 (some 100), .setNx 0, .incr 0, .del 1, .existsKey 0 (some 250), .setNx 0,
            .incr 0]) :=
  ⟨by decide, above_written_iff_incrOnWritten _ _ rfl⟩

/-- Process 1 deletes the key after process 0 has seen it: process 0 gets the sequence 1, and the only
value ever written is 100. -/
theorem del_before_incr_returns_one :
    (exec SharedRun.step SharedRun.start
        [.existsKey 0 (some 100), .setNx 0, .incr 0, .existsKey 0 (some 101), .del 1, .incr 0]).map
        SharedRun.returned = some [(1, {100}), (101, {100})] ∧
      ¬ Always SharedRun.step SharedRun.AboveWritten SharedRun.start
        [.existsKey 0 (some 100), .setNx 0, .incr 0, .existsKey 0 (some 101), .del 1, .incr 0] := by
  refine ⟨by decide, fun always => ?_⟩
  have above := always _ _ (List.prefix_refl _) rfl (1, {100}) (by decide)
  revert above
  decide

end StellarFlow.Relayer
