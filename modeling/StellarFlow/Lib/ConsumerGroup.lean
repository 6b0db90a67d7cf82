import Mathlib.Data.List.Basic
import Mathlib.Data.List.Nodup

/-!
# A stream with a consumer group

A stream of Redis is a list of entries that only grows. A consumer group is handed the entries in their order, each
once, and an entry that was handed out is pending until it is acknowledged; another consumer may claim it meanwhile.

`readGroup`, `autoClaim` and `ack` are the commands XREADGROUP, XAUTOCLAIM and XACK. Only `ack` takes an entry from the
pending ones (`mem_pendingIds_ack`).
-/

namespace ConsumerGroup
variable {ι φ : Type}

structure Entry (ι φ : Type) where
  id : ι
  fields : φ

/-- An entry that was handed out: to whom, when last, and how often. -/
structure Pending (ι : Type) where
  id : ι
  consumer : String
  deliveredAt : ℕ
  deliveries : ℕ

/-- The entries, of which the first `delivered` were handed out, and the pending ones. -/
structure Log (ι φ : Type) where
  entries : List (Entry ι φ)
  delivered : ℕ
  pending : List (Pending ι)
  nodup : (entries.map (·.id)).Nodup
  bound : delivered ≤ entries.length

namespace Log

/-- No entries. -/
def empty : Log ι φ where
  entries := []
  delivered := 0
  pending := []
  nodup := List.nodup_nil
  bound := Nat.le_refl 0

/-- The entries that were handed out. -/
def handedOut (s : Log ι φ) : List (Entry ι φ) := s.entries.take s.delivered

def pendingIds (s : Log ι φ) : List ι := s.pending.map (·.id)

/-- XADD with a new id. -/
def add (s : Log ι φ) (entry : Entry ι φ) (fresh : entry.id ∉ s.entries.map (·.id)) : Log ι φ where
  entries := s.entries ++ [entry]
  delivered := s.delivered
  pending := s.pending
  nodup := by
    rw [List.map_append]
    refine List.nodup_append.2 ⟨s.nodup, List.nodup_singleton _, ?_⟩
    rintro id old _ new rfl
    exact fresh ((List.mem_singleton.1 new : id = entry.id) ▸ old)
  bound := by
    have bound := s.bound
    rw [List.length_append]
    omega

/-- The entries that come next, `count` at most; 0 is no limit. -/
def unread (s : Log ι φ) (count : ℕ) : List (Entry ι φ) :=
  if count = 0 then s.entries.drop s.delivered else (s.entries.drop s.delivered).take count

/-- No more is unread than there is. -/
lemma unread_length (s : Log ι φ) (count : ℕ) :
    (s.unread count).length ≤ s.entries.length - s.delivered := by
  rw [unread]
  split
  · exact Nat.le_of_eq List.length_drop
  · rw [List.length_take, List.length_drop]
    exact Nat.min_le_right _ _

/-- XREADGROUP for new entries. -/
def readGroup (s : Log ι φ) (consumer : String) (count now : ℕ) : Log ι φ where
  entries := s.entries
  delivered := s.delivered + (s.unread count).length
  pending := s.pending ++ (s.unread count).map fun entry => ⟨entry.id, consumer, now, 1⟩
  nodup := s.nodup
  bound := by
    have length := s.unread_length count
    have bound := s.bound
    omega

/-- Looks at `scans` pending entries at most and claims `count` of them at most, those that have been idle for
`minIdle`. -/
def claim (consumer : String) (minIdle now : ℕ) : ℕ → ℕ → List (Pending ι) → List (Pending ι) × List ι
  | 0, _, pending => (pending, [])
  | _, 0, pending => (pending, [])
  | _, _, [] => ([], [])
  | scans + 1, count + 1, p :: pending =>
    if p.deliveredAt + minIdle ≤ now then
      let (rest, ids) := claim consumer minIdle now scans count pending
      ({ p with consumer, deliveredAt := now, deliveries := p.deliveries + 1 } :: rest, p.id :: ids)
    else
      let (rest, ids) := claim consumer minIdle now scans (count + 1) pending
      (p :: rest, ids)

variable {s : Log ι φ} {entry : Entry ι φ} {id x : ι} {consumer : String} {minIdle count now : ℕ}

/-- An id has one entry. -/
lemma eq_of_id {entry' : Entry ι φ} (mem : entry ∈ s.entries) (mem' : entry' ∈ s.entries)
    (same : entry.id = entry'.id) : entry = entry' :=
  List.inj_on_of_nodup_map s.nodup mem mem' same

/-- What is unread is in the log. -/
lemma mem_of_unread (mem : entry ∈ s.unread count) : entry ∈ s.entries := by
  rw [unread] at mem
  split at mem
  · exact List.mem_of_mem_drop mem
  · exact List.mem_of_mem_drop (List.mem_of_mem_take mem)

/-- A claim changes no id. -/
lemma ids_claim (scans count : ℕ) (pending : List (Pending ι)) :
    (claim consumer minIdle now scans count pending).1.map (·.id) = pending.map (·.id) := by
  induction pending generalizing scans count with
  | nil => cases scans <;> cases count <;> rfl
  | cons p pending ih =>
    cases scans with
    | zero => rfl
    | succ scans =>
      cases count with
      | zero => rfl
      | succ count =>
        rw [claim]
        split
        · exact congrArg (p.id :: ·) (ih scans count)
        · exact congrArg (p.id :: ·) (ih scans (count + 1))

/-- A new entry is not pending. -/
@[simp] lemma pendingIds_add (fresh : entry.id ∉ s.entries.map (·.id)) :
    (s.add entry fresh).pendingIds = s.pendingIds := rfl

/-- What is read becomes pending. -/
lemma pendingIds_readGroup :
    (s.readGroup consumer count now).pendingIds = s.pendingIds ++ (s.unread count).map (·.id) := by
  rw [pendingIds, readGroup, List.map_append, List.map_map]
  rfl

/-- What is read was handed out. -/
lemma handedOut_readGroup :
    (s.readGroup consumer count now).handedOut = s.handedOut ++ s.unread count := by
  show s.entries.take (s.delivered + (s.unread count).length) = _
  rw [List.take_add]
  congr 1
  rw [unread]
  split
  · rw [List.take_length]
  · rw [List.take_eq_take_iff, List.length_take]
    omega

/-- A new entry was not handed out. -/
@[simp] lemma handedOut_add (fresh : entry.id ∉ s.entries.map (·.id)) :
    (s.add entry fresh).handedOut = s.handedOut :=
  List.take_append_of_le_length s.bound

/-! ## Claims and acknowledgements -/

variable [DecidableEq ι]

/-- XAUTOCLAIM from the start: the stream, and the entries that were claimed. -/
def autoClaim (s : Log ι φ) (consumer : String) (minIdle count now : ℕ) : Log ι φ × List (Entry ι φ) :=
  let (pending, ids) := claim consumer minIdle now (count * 10) count s.pending
  ({ s with pending }, ids.filterMap fun id => s.entries.find? (·.id = id))

/-- How often a pending entry was handed out, as XPENDING says. -/
def deliveries? (s : Log ι φ) (id : ι) : Option ℕ := (s.pending.find? (·.id = id)).map (·.deliveries)

/-- XACK. -/
def ack (s : Log ι φ) (id : ι) : Log ι φ := { s with pending := s.pending.filter (·.id ≠ id) }

/-- A claim leaves pending what was pending. -/
@[simp] lemma pendingIds_autoClaim :
    (s.autoClaim consumer minIdle count now).1.pendingIds = s.pendingIds :=
  ids_claim _ _ _

/-- What is claimed is in the log. -/
lemma mem_of_autoClaim (mem : entry ∈ (s.autoClaim consumer minIdle count now).2) : entry ∈ s.entries := by
  obtain ⟨id, -, found⟩ := List.mem_filterMap.1 mem
  exact List.mem_of_find?_eq_some found

/-- An acknowledged entry is not pending any more. -/
lemma mem_pendingIds_ack : x ∈ (s.ack id).pendingIds ↔ x ≠ id ∧ x ∈ s.pendingIds := by
  simp only [pendingIds, ack, List.mem_map, List.mem_filter, decide_eq_true_eq]
  constructor
  · rintro ⟨p, ⟨mem, other⟩, rfl⟩
    exact ⟨other, p, mem, rfl⟩
  · rintro ⟨other, p, mem, rfl⟩
    exact ⟨p, ⟨mem, other⟩, rfl⟩

end Log
end ConsumerGroup
