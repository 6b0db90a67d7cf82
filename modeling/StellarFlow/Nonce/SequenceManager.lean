import Mathlib.Data.List.Range
import StellarFlow.Lib.Dict

/-!
# The sequence cache of the Stellar accounts

Model of `SequenceManager` in `src/services/sequence-manager.ts`. The calls for one account exclude each other and
write the cache in their last statement, so a run is a list of calls; what the ledger would answer to a call is part of
it (`none` when `loadAccount` throws).

`TransactionBuilder` takes the sequence after the one of its `Account`. A cache miss hands out the ledger's sequence
itself, so the transactions go on where the ledger stands; `syncSequence` stores it as handed out, so the transactions
after it leave out the next one.
-/

namespace StellarFlow.Nonce

/-- `currentSequences`. -/
structure SequenceManager where
  currentSequences : Dict String ℤ

/-- A call, with the ledger's answer to `loadAccount`. -/
inductive SequenceCall where
  | getNextSequence (address : String) (ledger : Option ℤ)
  | syncSequence (address : String) (ledger : Option ℤ)
  | invalidate (address : Option String)

namespace SequenceManager

/-- `getNextSequence`; `none` when it throws. -/
def getNextSequence (m : SequenceManager) (address : String) (ledger : Option ℤ) : Option ℤ × SequenceManager :=
  match m.currentSequences.get? address with
  | none =>
    match ledger with
    | none => (none, ⟨m.currentSequences.pop address⟩)
    | some ledgerSequence => (some ledgerSequence, ⟨m.currentSequences.set address ledgerSequence⟩)
  | some cachedSequence => (some (cachedSequence + 1), ⟨m.currentSequences.set address (cachedSequence + 1)⟩)

/-- `syncSequence`; `none` when it throws. -/
def syncSequence (m : SequenceManager) (address : String) (ledger : Option ℤ) : Option ℤ × SequenceManager :=
  match ledger with
  | none => (none, m)
  | some ledgerSequence => (some ledgerSequence, ⟨m.currentSequences.set address ledgerSequence⟩)

/-- `invalidate`; an empty address is none. -/
def invalidate (m : SequenceManager) (address : Option String) : SequenceManager :=
  match address with
  | some address => if address ≠ "" then ⟨m.currentSequences.pop address⟩ else ⟨.empty⟩
  | none => ⟨.empty⟩

/-- One call. -/
def step (m : SequenceManager) : SequenceCall → SequenceManager
  | .getNextSequence address ledger => (m.getNextSequence address ledger).2
  | .syncSequence address ledger => (m.syncSequence address ledger).2
  | .invalidate address => m.invalidate address

/-- What a call of `getNextSequence` for the account returns. -/
def handedOut (m : SequenceManager) (address : String) : SequenceCall → List ℤ
  | .getNextSequence a ledger => if a = address then (m.getNextSequence a ledger).1.toList else []
  | _ => []

/-- The sequences that the calls of `getNextSequence` for the account return. -/
def sequences (address : String) (m : SequenceManager) : List SequenceCall → List ℤ
  | [] => []
  | call :: rest => m.handedOut address call ++ sequences address (m.step call) rest

end SequenceManager

/-- `build` of a `TransactionBuilder` on an `Account` with this sequence. -/
def transactionSequence (accountSequence : ℤ) : ℤ := accountSequence + 1

/-- The call is one of `getNextSequence` for the account. -/
def SequenceCall.takes (address : String) : SequenceCall → Bool
  | .getNextSequence a _ => a = address
  | _ => false

/-- The call is one of `getNextSequence`, or leaves the account alone. -/
def SequenceCall.Leaves (address : String) : SequenceCall → Prop
  | .getNextSequence _ _ => True
  | .syncSequence a _ => a ≠ address
  | .invalidate a => ∃ other, a = some other ∧ other ≠ "" ∧ other ≠ address

/-- How the cache gets the ledger's sequence. -/
inductive Seeding where
  | cacheMiss
  | syncSequence
  deriving DecidableEq

/-- The call that reads the sequence `ledger`. -/
def Seeding.call (address : String) (ledger : ℤ) : Seeding → SequenceCall
  | .cacheMiss => .getNextSequence address (some ledger)
  | .syncSequence => .syncSequence address (some ledger)

/-- A miss needs an account without a sequence. -/
def Seeding.Possible (m : SequenceManager) (address : String) : Seeding → Prop
  | .cacheMiss => m.currentSequences.get? address = none
  | .syncSequence => True

/-- The sequences of the transactions for the account, from the reading of the ledger on. -/
def Seeding.transactions (seeding : Seeding) (m : SequenceManager) (address : String) (ledger : ℤ)
    (rest : List SequenceCall) : List ℤ :=
  (m.sequences address (seeding.call address ledger :: rest)).map transactionSequence

variable {m : SequenceManager} {address : String} {call : SequenceCall} {rest : List SequenceCall} {cached ledger : ℤ}
  {seeding : Seeding}

/-- A call that leaves the account alone keeps its sequence, and one for the account counts on. -/
lemma step_cached (hit : m.currentSequences.get? address = some cached) (leaves : call.Leaves address) :
    (m.handedOut address call = if call.takes address then [cached + 1] else []) ∧
      (m.step call).currentSequences.get? address = some (if call.takes address then cached + 1 else cached) := by
  cases call with
  | getNextSequence a answer =>
    by_cases same : a = address
    · subst same
      rw [SequenceManager.handedOut, SequenceManager.step, SequenceManager.getNextSequence.eq_def, hit,
        SequenceCall.takes, decide_eq_true rfl, if_pos rfl, if_pos rfl, if_pos rfl]
      exact ⟨rfl, (Dict.get?_set ..).trans (if_pos rfl)⟩
    · rw [SequenceManager.handedOut, SequenceManager.step, SequenceCall.takes, decide_eq_false same, if_neg same]
      refine ⟨rfl, ?_⟩
      rw [SequenceManager.getNextSequence.eq_def]
      split
      · split
        · exact (Dict.get?_pop ..).trans ((if_neg (Ne.symm same)).trans hit)
        · exact (Dict.get?_set ..).trans ((if_neg (Ne.symm same)).trans hit)
      · exact (Dict.get?_set ..).trans ((if_neg (Ne.symm same)).trans hit)
  | syncSequence a answer =>
    refine ⟨rfl, ?_⟩
    cases answer with
    | none => exact hit
    | some sequence => exact (Dict.get?_set ..).trans ((if_neg (Ne.symm leaves)).trans hit)
  | invalidate a =>
    obtain ⟨other, rfl, nonempty, ne⟩ := leaves
    refine ⟨rfl, ?_⟩
    rw [SequenceManager.step, SequenceManager.invalidate, if_pos nonempty]
    exact (Dict.get?_pop ..).trans ((if_neg (Ne.symm ne)).trans hit)

/-- From a cached sequence on the account's calls count up, by induction on them. -/
lemma sequences_cached (hit : m.currentSequences.get? address = some cached)
    (leaves : ∀ call ∈ rest, call.Leaves address) :
    m.sequences address rest = (List.range (rest.countP (·.takes address))).map fun k : ℕ => cached + 1 + (k : ℤ) := by
  induction rest generalizing m cached with
  | nil => rfl
  | cons call rest ih =>
    obtain ⟨handed, next⟩ := step_cached hit (leaves call (List.mem_cons_self ..))
    rw [SequenceManager.sequences, handed, ih next fun c mem => leaves c (List.mem_cons_of_mem _ mem), List.countP_cons]
    by_cases takes : call.takes address = true
    · rw [if_pos takes, if_pos takes, if_pos takes, List.range_succ_eq_map, List.map_cons, List.map_map]
      refine congrArg₂ List.cons (by simp) (List.map_congr_left fun k _ => ?_)
      show cached + 1 + 1 + (k : ℤ) = cached + 1 + ((k + 1 : ℕ) : ℤ)
      omega
    · rw [if_neg takes, if_neg takes, if_neg takes]
      rfl

/-- The calls for the account, with the one that misses the cache. -/
def Seeding.calls (address : String) (rest : List SequenceCall) : Seeding → ℕ
  | .cacheMiss => rest.countP (·.takes address) + 1
  | .syncSequence => rest.countP (·.takes address)

/-- The sequences that are left out before the first transaction. -/
def Seeding.skipped : Seeding → ℕ
  | .cacheMiss => 0
  | .syncSequence => 1

/-- The transactions follow each other, after what is left out. -/
theorem transactions_eq (possible : seeding.Possible m address) (leaves : ∀ call ∈ rest, call.Leaves address) :
    seeding.transactions m address ledger rest =
      (List.range (seeding.calls address rest)).map fun k : ℕ => ledger + seeding.skipped + ((k : ℤ) + 1) := by
  cases seeding with
  | cacheMiss =>
    have stored : (m.step (.getNextSequence address (some ledger))).currentSequences.get? address = some ledger := by
      have missing : m.currentSequences.get? address = none := possible
      rw [SequenceManager.step, SequenceManager.getNextSequence.eq_def, missing]
      exact (Dict.get?_set ..).trans (if_pos rfl)
    have handed : m.handedOut address (.getNextSequence address (some ledger)) = [ledger] := by
      rw [SequenceManager.handedOut, if_pos rfl, SequenceManager.getNextSequence.eq_def,
        show m.currentSequences.get? address = none from possible]
      rfl
    rw [Seeding.transactions, Seeding.call, SequenceManager.sequences, handed, sequences_cached stored leaves,
      Seeding.calls, List.range_succ_eq_map, List.singleton_append]
    simp only [List.map_cons, List.map_map]
    refine congrArg₂ List.cons ?_ (List.map_congr_left fun k _ => ?_)
    · show ledger + 1 = ledger + ((0 : ℕ) : ℤ) + (((0 : ℕ) : ℤ) + 1)
      omega
    · show ledger + 1 + (k : ℤ) + 1 = ledger + ((0 : ℕ) : ℤ) + (((k + 1 : ℕ) : ℤ) + 1)
      omega
  | syncSequence =>
    have stored : (m.step (.syncSequence address (some ledger))).currentSequences.get? address = some ledger :=
      (Dict.get?_set ..).trans (if_pos rfl)
    rw [Seeding.transactions, Seeding.call, SequenceManager.sequences, sequences_cached stored leaves]
    refine List.map_map.trans (List.map_congr_left fun k _ => ?_)
    show ledger + 1 + (k : ℤ) + 1 = ledger + ((1 : ℕ) : ℤ) + ((k : ℤ) + 1)
    omega

/-- The `k`-th transaction after the ledger was read has the `k`-th sequence after the ledger's exactly when the cache
was filled by a miss; after `syncSequence` it has the one after that. -/
theorem transaction_sequence_iff (possible : seeding.Possible m address)
    (leaves : ∀ call ∈ rest, call.Leaves address) {k : ℕ} (first : 1 ≤ k) (le : k ≤ seeding.calls address rest) :
    (seeding.transactions m address ledger rest)[k - 1]? = some (ledger + k) ↔ seeding = .cacheMiss := by
  have at_k : (seeding.transactions m address ledger rest)[k - 1]? = some (ledger + seeding.skipped + k) := by
    rw [transactions_eq possible leaves, List.getElem?_map, List.getElem?_range (by omega), Option.map_some]
    refine congrArg some ?_
    omega
  rw [at_k, Option.some.injEq]
  cases seeding with
  | cacheMiss =>
    refine iff_of_true ?_ rfl
    show ledger + ((0 : ℕ) : ℤ) + (k : ℤ) = ledger + k
    omega
  | syncSequence =>
    refine iff_of_false ?_ (nomatch ·)
    show ledger + ((1 : ℕ) : ℤ) + (k : ℤ) ≠ ledger + k
    omega

/-- Two calls after the one that misses. -/
def repeatedCalls : List SequenceCall := [.getNextSequence "G" none, .getNextSequence "G" none]

/-- The third transaction of an account at 41. -/
theorem transaction_sequence_sample :
    (Seeding.cacheMiss.transactions ⟨.empty⟩ "G" 41 repeatedCalls)[3 - 1]? = some (41 + ((3 : ℕ) : ℤ)) := by
  have leaves : ∀ call ∈ repeatedCalls, call.Leaves "G" := by
    intro call mem
    rcases List.mem_cons.1 mem with rfl | mem
    · trivial
    · obtain rfl := List.mem_singleton.1 mem
      trivial
  have miss : Seeding.cacheMiss.Possible ⟨.empty⟩ "G" := rfl
  have three : 3 ≤ Seeding.cacheMiss.calls "G" repeatedCalls := by decide
  exact (transaction_sequence_iff miss leaves (by decide) three).2 rfl

/-- After a sync at 41 the first transaction has 43, and 42 is left out. -/
theorem transaction_sequence_after_sync :
    Seeding.syncSequence.transactions ⟨.empty⟩ "G" 41 repeatedCalls = [43, 44] ∧
    (Seeding.syncSequence.transactions ⟨.empty⟩ "G" 41 repeatedCalls)[1 - 1]? ≠ some (41 + ((1 : ℕ) : ℤ)) := by
  decide

end StellarFlow.Nonce
