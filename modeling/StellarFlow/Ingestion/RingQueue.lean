import Mathlib.Data.List.Infix
import StellarFlow.Lib.Machine
import StellarFlow.Ingestion.SharedRing

/-!
# The ring buffer as a queue

Runs of `write` and `read` calls on a new `SharedMemoryRingBuffer`. The ring is a bounded FIFO queue of
payloads in exactly the runs in which every write that fits the free space also has room for its length
prefix before the end of the data area (`fifo_iff_prefixFits`).
-/

namespace StellarFlow.Ingestion
open Machine Memory SharedRing

/-- A call of the writer or of the reader. -/
inductive RingCall where
  | write (data : List UInt8)
  | read

/-- What can go wrong in a call: it raises; `write` returns `False` although the payload fits, or `True`
although it does not; `read` returns `None` although payloads are outstanding. -/
inductive Fault where
  | raised
  | misjudged
  | missed
  deriving DecidableEq

/-- The ring, with the payloads whose write returned `True` and the payloads returned by `read`, both in
order, and the faults so far. -/
structure RingRun where
  ring : SharedRing
  written : List (List UInt8)
  received : List (List UInt8)
  faults : List Fault

namespace RingRun

def start (ring : SharedRing) : RingRun where
  ring := ring
  written := []
  received := []
  faults := []

/-- The payloads written and not yet received. -/
def outstanding (s : RingRun) : List (List UInt8) := s.written.drop s.received.length

/-- The free space: what the outstanding frames leave of the capacity, less the byte that tells a full
ring from an empty one. -/
def free (s : RingRun) : ℤ := (s.ring.capacity : ℤ) - 1 - used s.outstanding

/-- One call. -/
def step (s : RingRun) : RingCall → Option RingRun
  | .write data =>
    match s.ring.write data with
    | .error _ => some { s with faults := .raised :: s.faults }
    | .ok (accepted, ring) =>
      some { s with
        ring := ring
        written := if accepted then s.written ++ [data] else s.written
        faults := if accepted = decide ((4 + data.length : ℤ) ≤ s.free) then s.faults
          else .misjudged :: s.faults }
  | .read =>
    match s.ring.read with
    | .error _ => some { s with faults := .raised :: s.faults }
    | .ok (none, ring) =>
      some { s with
        ring := ring
        faults := if s.outstanding = [] then s.faults else .missed :: s.faults }
    | .ok (some payload, ring) => some { s with ring := ring, received := s.received ++ [payload] }

/-- No call has failed, and the payloads received are the first ones written. -/
def Fifo (s : RingRun) : Prop :=
  s.faults = [] ∧ s.received <+: s.written

/-- The condition on a step of a run: a write that fits the available space has four bytes for its
length prefix before the end of the data area. -/
def PrefixFits (s : RingRun) : RingCall → Prop
  | .write data =>
    ((data.length + 4 : ℕ) : ℤ) ≤ s.ring.availableSpace s.ring.writePos s.ring.readPos →
      s.ring.writePos + 4 ≤ s.ring.capacity
  | .read => True

/-- The invariant of the good runs: the ring holds the payloads written and not yet received. -/
def Queued (s : RingRun) : Prop :=
  ∃ queue, s.written = s.received ++ queue ∧ Holds s.ring queue

/-- What was written and not received is the queue. -/
lemma outstanding_eq {s : RingRun} {queue : List (List UInt8)} (written : s.written = s.received ++ queue) :
    s.outstanding = queue := by
  rw [outstanding, written, List.drop_left]

/-- What a call does: a write that does not fit, a write whose length prefix does not fit, a write, a
read of the empty ring, or a read. -/
lemma step_cases {s t : RingRun} {call : RingCall} {queue : List (List UInt8)}
    (written : s.written = s.received ++ queue) (holds : Holds s.ring queue)
    (stepped : s.step call = some t) :
    (t = s ∧ s.PrefixFits call) ∨
    (t = { s with faults := .raised :: s.faults } ∧ ¬ s.PrefixFits call) ∨
    (∃ data ring', Holds ring' (queue ++ [data]) ∧ s.PrefixFits call ∧
      t = { s with ring := ring', written := s.written ++ [data] }) ∨
    (∃ data rest ring', queue = data :: rest ∧ Holds ring' rest ∧ s.PrefixFits call ∧
      t = { s with ring := ring', received := s.received ++ [data] }) := by
  have free : s.free = (s.ring.capacity : ℤ) - 1 - used queue := by
    rw [RingRun.free, outstanding_eq written]
  cases call with
  | write data =>
    simp only [step] at stepped
    have space := holds.availableSpace_eq
    by_cases fits : used queue + (data.length + 4) + 1 ≤ s.ring.capacity
    · by_cases prefixFits : s.ring.writePos + 4 ≤ s.ring.capacity
      · obtain ⟨ring', wrote, holds', -⟩ := holds.write_ok fits prefixFits
        rw [wrote] at stepped
        have judged : true = decide ((4 + data.length : ℤ) ≤ s.free) := by
          rw [eq_comm, decide_eq_true_eq, free]
          omega
        simp only [if_true, if_pos judged, Option.some.injEq] at stepped
        exact .inr (.inr (.inl ⟨data, ring', holds', fun _ => prefixFits, stepped.symm⟩))
      · -- `struct.pack_into` raises although the frame fits the free space
        rw [holds.write_raises fits (by omega)] at stepped
        simp only [Option.some.injEq] at stepped
        refine .inr (.inl ⟨stepped.symm, fun met => prefixFits (met ?_)⟩)
        rw [space]
        omega
    · rw [holds.write_full (by omega)] at stepped
      have judged : false = decide ((4 + data.length : ℤ) ≤ s.free) := by
        rw [eq_comm, decide_eq_false_iff_not, free]
        omega
      simp only [Bool.false_eq_true, if_false, if_pos judged, Option.some.injEq] at stepped
      refine .inl ⟨stepped.symm, fun le => ?_⟩
      rw [space] at le
      omega
  | read =>
    simp only [step] at stepped
    cases queue with
    | nil =>
      rw [holds.read_empty] at stepped
      simp only [outstanding_eq written, if_true, Option.some.injEq] at stepped
      exact .inl ⟨stepped.symm, trivial⟩
    | cons data rest =>
      obtain ⟨ring', received, holds', -⟩ := holds.read_cons
      rw [received] at stepped
      simp only [Option.some.injEq] at stepped
      exact .inr (.inr (.inr ⟨data, rest, ring', rfl, holds', trivial, stepped.symm⟩))

/-- A call whose prefix fits keeps the queue. -/
lemma queued_step (s : RingRun) (call : RingCall) (t : RingRun) (queued : Queued s)
    (met : s.PrefixFits call) (stepped : s.step call = some t) : Queued t := by
  obtain ⟨queue, written, holds⟩ := queued
  obtain ⟨rfl, -⟩ | ⟨-, fails⟩ | ⟨data, ring', holds', -, rfl⟩ | ⟨data, rest, ring', rfl, holds', -, rfl⟩ :=
    step_cases written holds stepped
  · exact ⟨queue, written, holds⟩
  · exact absurd met fails
  · exact ⟨queue ++ [data], by simp [written], holds'⟩
  · exact ⟨rest, by simp [written], holds'⟩

/-- A call keeps the ring a queue exactly when it meets the condition. -/
lemma fifo_step_iff (s : RingRun) (call : RingCall) (t : RingRun) (queued : Queued s) (fifo : Fifo s)
    (stepped : s.step call = some t) : Fifo t ↔ s.PrefixFits call := by
  obtain ⟨queue, written, holds⟩ := queued
  obtain ⟨faults, received⟩ := fifo
  obtain ⟨rfl, met⟩ | ⟨rfl, fails⟩ | ⟨data, ring', -, met, rfl⟩ | ⟨data, rest, ring', rfl, -, met, rfl⟩ :=
    step_cases written holds stepped
  · exact ⟨fun _ => met, fun _ => ⟨faults, received⟩⟩
  · exact ⟨fun after => (nomatch after.1), fun met => absurd met fails⟩
  · exact ⟨fun _ => met, fun _ => ⟨faults, received.trans (List.prefix_append _ _)⟩⟩
  · refine ⟨fun _ => met, fun _ => ⟨faults, rest, ?_⟩⟩
    simp [written]

end RingRun

/-- A new ring of positive size is a FIFO queue of payloads throughout exactly those runs in which every
write that fits has room for its length prefix: no call raises, `write` returns `False` exactly when the
payload and its prefix exceed the free space, and the payloads read are the first payloads written. -/
theorem fifo_iff_prefixFits (order : ByteOrder) (size : ℕ) (pos : 1 ≤ size) (ring : SharedRing)
    (created : SharedRing.init order size = .ok ring) (trace : List RingCall) (s : RingRun)
    (run : exec RingRun.step (RingRun.start ring) trace = some s) :
    Always RingRun.step RingRun.Fifo (RingRun.start ring) trace ↔
      Guarded RingRun.step RingRun.PrefixFits (RingRun.start ring) trace :=
  always_iff_guarded (I := RingRun.Queued) ⟨[], rfl, init_holds pos created⟩ ⟨rfl, List.nil_prefix⟩
    RingRun.queued_step RingRun.fifo_step_iff run

/-- In a ring of 16 bytes the second payload starts at position 10 and wraps. -/
theorem fifo_iff_prefixFits_wrapping_payload :
    ∃ ring, SharedRing.init .little 16 = .ok ring ∧
      (exec RingRun.step (RingRun.start ring)
          [.write [1, 2, 3, 4, 5, 6], .read, .write [7, 8, 9, 10, 11], .read]).map
        (fun s => (s.received, s.ring.writePos)) =
        some ([[1, 2, 3, 4, 5, 6], [7, 8, 9, 10, 11]], 3) ∧
      (Always RingRun.step RingRun.Fifo (RingRun.start ring)
          [.write [1, 2, 3, 4, 5, 6], .read, .write [7, 8, 9, 10, 11], .read] ↔
        Guarded RingRun.step RingRun.PrefixFits (RingRun.start ring)
          [.write [1, 2, 3, 4, 5, 6], .read, .write [7, 8, 9, 10, 11], .read]) :=
  ⟨_, rfl, by decide +kernel, fifo_iff_prefixFits .little 16 (by decide) _ rfl _ _ rfl⟩

/-- In a ring of 10 bytes, after a payload of four bytes has been written and read, the write of a single
byte raises, although nine bytes are free. -/
theorem write_raises_near_end :
    ∃ ring, SharedRing.init .little 10 = .ok ring ∧
      (exec RingRun.step (RingRun.start ring)
          [.write [97, 98, 99, 100], .read, .write [120]]).map
        (fun s => (s.faults, s.received, s.free)) = some ([.raised], [[97, 98, 99, 100]], 9) ∧
      ¬ Always RingRun.step RingRun.Fifo (RingRun.start ring)
        [.write [97, 98, 99, 100], .read, .write [120]] := by
  refine ⟨_, rfl, by decide +kernel, fun always => ?_⟩
  have faults := (always _ _ (List.prefix_refl _) rfl).1
  revert faults
  decide +kernel

end StellarFlow.Ingestion
