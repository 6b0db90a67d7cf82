import Mathlib.Algebra.Group.Nat.Defs
import Mathlib.Logic.Function.Basic
import StellarFlow.Lib.Machine

/-!
# Relayer submissions

Model of `LedgerTracker` in `contracts/src/models.rs`, with additions modulo 2 ^ 32 as in a release build. A run
is a list of calls at ledgers that do not go back; its state has a log of the submissions that were accepted
or rejected. A relayer whose last ledger is one of the last three that a `u32` has is never rejected again, so
the runs that keep the distance are those in which such a relayer makes no further submission.
-/

namespace StellarFlow.Contracts
variable {Address : Type}

/-- `MIN_BLOCK_GAP`. -/
def minBlockGap : UInt32 := 3

/-- How a call can panic. -/
inductive Panic where
  | unauthorized
  | gapTooSmall

/-- What the contract leaves behind: the persistent entry `ledger_tracker` and the events. -/
structure Env (Address : Type) where
  ledgerTracker : Option (Address → Option UInt32)
  events : List (Address × UInt32 × List UInt8)

/-- A call of `submit`, with the ledger in which it is made and whether the relayer has authorized it. -/
structure Call (Address : Type) where
  relayer : Address
  payloadHash : List UInt8
  sequence : UInt32
  authorized : Bool

/-- A submission that was accepted or rejected. -/
structure Submission (Address : Type) where
  relayer : Address
  ledger : UInt32
  accepted : Bool

/-- The contract, the ledger of the last call and the submissions so far. -/
structure Chain (Address : Type) where
  env : Env Address
  ledger : UInt32
  log : List (Submission Address)

/-- The submission is accepted at least three ledgers after every one of its relayer that was accepted before,
and rejected only less than three ledgers after one of them. -/
def Submission.Right (before : List (Submission Address)) (s : Submission Address) : Prop :=
  (s.accepted = true → ∀ a ∈ before, a.accepted = true → a.relayer = s.relayer →
    a.ledger.toNat + 3 ≤ s.ledger.toNat) ∧
  (s.accepted = false → ∃ a ∈ before, a.accepted = true ∧ a.relayer = s.relayer ∧
    s.ledger.toNat < a.ledger.toNat + 3)

/-- Every submission of the log is right. -/
def KeepsDistance (s : Chain Address) : Prop :=
  ∀ before submission after, s.log = before ++ submission :: after → submission.Right before

namespace LedgerTracker

/-- The stored map, or an empty one. -/
def tracker (env : Env Address) : Address → Option UInt32 := env.ledgerTracker.getD fun _ => none

/-- `last_submission`. -/
def lastSubmission (env : Env Address) (relayer : Address) : Option UInt32 := tracker env relayer

variable [DecidableEq Address]

/-- `submit`; a panic leaves the environment as it is. -/
def submit (env : Env Address) (call : Call Address) : Except Panic (Option UInt32 × Env Address) :=
  if ¬ call.authorized then .error .unauthorized
  else
    let last := tracker env call.relayer
    if last.any fun lastSeq => call.sequence < lastSeq + minBlockGap then .error .gapTooSmall
    else .ok (last,
      { ledgerTracker := some (Function.update (tracker env) call.relayer (some call.sequence))
        events := env.events ++ [(call.relayer, call.sequence, call.payloadHash)] })

end LedgerTracker

namespace Chain

/-- Before the first call. -/
def initial : Chain Address where
  env := ⟨none, []⟩
  ledger := 0
  log := []

/-- One call; ledgers do not go back. -/
def step [DecidableEq Address] (s : Chain Address) (call : Call Address) : Option (Chain Address) :=
  if call.sequence < s.ledger then none
  else match LedgerTracker.submit s.env call with
    | .ok (_, env) => some ⟨env, call.sequence, s.log ++ [⟨call.relayer, call.sequence, true⟩]⟩
    | .error .gapTooSmall => some ⟨s.env, call.sequence, s.log ++ [⟨call.relayer, call.sequence, false⟩]⟩
    | .error .unauthorized => some ⟨s.env, call.sequence, s.log⟩

end Chain

/-- The call is no submission of a relayer whose last ledger is one of the last three. -/
def BeforeEnd (s : Chain Address) (call : Call Address) : Prop :=
  call.authorized = true → ∀ last ∈ LedgerTracker.lastSubmission s.env call.relayer, last.toNat < 2 ^ 32 - 3

instance (s : Chain Address) (call : Call Address) : Decidable (BeforeEnd s call) :=
  decidable_of_iff (call.authorized = true →
      (LedgerTracker.lastSubmission s.env call.relayer).all (fun last => last.toNat < 2 ^ 32 - 3) = true) <| by
    simp only [BeforeEnd, Option.all_eq_true, decide_eq_true_eq, Option.mem_def]

/-- The tracker has the last ledger at which each relayer was accepted. -/
structure Chain.Inv (s : Chain Address) : Prop where
  reached : ∀ a ∈ s.log, a.ledger ≤ s.ledger
  new : ∀ relayer, LedgerTracker.tracker s.env relayer = none →
    ∀ a ∈ s.log, a.accepted = true → a.relayer ≠ relayer
  recorded : ∀ relayer last, LedgerTracker.tracker s.env relayer = some last → ⟨relayer, last, true⟩ ∈ s.log
  latest : ∀ relayer last, LedgerTracker.tracker s.env relayer = some last →
    ∀ a ∈ s.log, a.accepted = true → a.relayer = relayer → a.ledger ≤ last

/-- One more submission has to keep its own distance. -/
lemma keepsDistance_append {s t : Chain Address} {submission : Submission Address}
    (log : t.log = s.log ++ [submission]) :
    KeepsDistance t ↔ KeepsDistance s ∧ submission.Right s.log := by
  constructor
  · intro all
    refine ⟨fun before r after split => ?_, all s.log submission [] log⟩
    refine all before r (after ++ [submission]) ?_
    rw [log, split, List.append_assoc, List.cons_append]
  · rintro ⟨all, last⟩ before r after split
    rw [log] at split
    rcases List.eq_nil_or_concat after with rfl | ⟨front, final, rfl⟩
    · obtain ⟨rfl, same⟩ := List.append_inj' split rfl
      cases same
      exact last
    · rw [List.concat_eq_append, ← List.cons_append, ← List.append_assoc] at split
      exact all before r front (List.append_inj' split rfl).1

/-- The invariant holds before the first call. -/
lemma Chain.initial_inv : (Chain.initial : Chain Address).Inv where
  reached := fun _ mem => absurd mem List.not_mem_nil
  new := fun _ _ _ mem => absurd mem List.not_mem_nil
  recorded := fun _ _ found => nomatch found
  latest := fun _ _ found => nomatch found

/-- A submission that is not accepted leaves the tracker right. -/
lemma Chain.Inv.skip {s : Chain Address} (inv : s.Inv) {ledger : UInt32} (forward : s.ledger ≤ ledger)
    {more : List (Submission Address)} (rejected : ∀ a ∈ more, a.accepted = false ∧ a.ledger = ledger) :
    Chain.Inv ⟨s.env, ledger, s.log ++ more⟩ := by
  have old : ∀ a ∈ s.log ++ more, a.accepted = true → a ∈ s.log := by
    intro a mem accepted
    rcases List.mem_append.1 mem with mem | mem
    · exact mem
    · rw [(rejected a mem).1] at accepted
      cases accepted
  refine ⟨fun a mem => ?_, fun relayer missing a mem accepted => ?_, fun relayer last found => ?_,
    fun relayer last found a mem accepted => ?_⟩
  · rcases List.mem_append.1 mem with mem | mem
    · exact UInt32.le_trans (inv.reached a mem) forward
    · exact (rejected a mem).2 ▸ UInt32.le_refl _
  · exact inv.new relayer missing a (old a mem accepted) accepted
  · exact List.mem_append_left _ (inv.recorded relayer last found)
  · exact inv.latest relayer last found a (old a mem accepted) accepted

variable [DecidableEq Address]

/-- The three ways in which a call can go. -/
inductive Chain.Moves (s : Chain Address) (call : Call Address) : Chain Address → Prop where
  | unauthorized (forbidden : call.authorized = false) : Moves s call ⟨s.env, call.sequence, s.log⟩
  | rejected (allowed : call.authorized = true) {last : UInt32}
      (found : LedgerTracker.tracker s.env call.relayer = some last) (early : call.sequence < last + minBlockGap) :
      Moves s call ⟨s.env, call.sequence, s.log ++ [⟨call.relayer, call.sequence, false⟩]⟩
  | accepted (allowed : call.authorized = true)
      (late : ∀ last, LedgerTracker.tracker s.env call.relayer = some last → ¬ call.sequence < last + minBlockGap)
      {env : Env Address} (stored : LedgerTracker.tracker env =
        Function.update (LedgerTracker.tracker s.env) call.relayer (some call.sequence)) :
      Moves s call ⟨env, call.sequence, s.log ++ [⟨call.relayer, call.sequence, true⟩]⟩

/-- A step moves the ledger on and does what its call asks. -/
lemma Chain.step_moves {s t : Chain Address} {call : Call Address} (taken : Chain.step s call = some t) :
    s.ledger ≤ call.sequence ∧ s.Moves call t := by
  rw [Chain.step] at taken
  split at taken
  case isTrue back => cases taken
  case isFalse forward =>
    refine ⟨UInt32.not_lt.1 forward, ?_⟩
    rw [LedgerTracker.submit] at taken
    by_cases allowed : call.authorized = true
    · rw [if_neg (not_not_intro allowed)] at taken
      cases found : LedgerTracker.tracker s.env call.relayer with
      | none =>
        simp only [found, Option.any_none, Bool.false_eq_true, if_false, Option.some.injEq] at taken
        subst taken
        exact .accepted allowed (by simp [found]) rfl
      | some last =>
        by_cases early : call.sequence < last + minBlockGap
        · simp only [found, Option.any_some, early, decide_true, if_true, Option.some.injEq] at taken
          subst taken
          exact .rejected allowed found early
        · simp only [found, Option.any_some, early, decide_false, Bool.false_eq_true, if_false,
            Option.some.injEq] at taken
          subst taken
          refine .accepted allowed ?_ rfl
          rintro last' found'
          rw [found] at found'
          cases found'
          exact early
    · rw [if_pos allowed] at taken
      cases taken
      exact .unauthorized (Bool.eq_false_iff.2 allowed)

/-- An accepted submission is the latest of its relayer. -/
lemma Chain.Inv.accept {s : Chain Address} (inv : s.Inv) {relayer : Address} {ledger : UInt32}
    (forward : s.ledger ≤ ledger) {env : Env Address}
    (stored : LedgerTracker.tracker env = Function.update (LedgerTracker.tracker s.env) relayer (some ledger)) :
    Chain.Inv ⟨env, ledger, s.log ++ [⟨relayer, ledger, true⟩]⟩ := by
  have reached : ∀ a ∈ s.log ++ [⟨relayer, ledger, true⟩], a.ledger ≤ ledger := by
    intro a mem
    rcases List.mem_append.1 mem with mem | mem
    · exact UInt32.le_trans (inv.reached a mem) forward
    · rw [List.mem_singleton.1 mem]
      exact UInt32.le_refl _
  refine ⟨reached, fun other missing a mem accepted same => ?_, fun other last found => ?_,
    fun other last found a mem accepted same => ?_⟩
  · by_cases here : other = relayer
    · rw [stored, here, Function.update_self] at missing
      cases missing
    · rw [stored, Function.update_of_ne here] at missing
      rcases List.mem_append.1 mem with mem | mem
      · exact inv.new other missing a mem accepted same
      · rw [List.mem_singleton.1 mem] at same
        exact here same.symm
  · by_cases here : other = relayer
    · rw [stored, here, Function.update_self] at found
      cases found
      rw [here]
      exact List.mem_append_right _ (List.mem_singleton_self _)
    · rw [stored, Function.update_of_ne here] at found
      exact List.mem_append_left _ (inv.recorded other last found)
  · by_cases here : other = relayer
    · rw [stored, here, Function.update_self] at found
      cases found
      exact reached a mem
    · rw [stored, Function.update_of_ne here] at found
      rcases List.mem_append.1 mem with mem | mem
      · exact inv.latest other last found a mem accepted same
      · rw [List.mem_singleton.1 mem] at same
        exact absurd same.symm here

/-- A step keeps the invariant. -/
lemma Chain.step_inv {s t : Chain Address} {call : Call Address} (inv : s.Inv)
    (taken : Chain.step s call = some t) : t.Inv := by
  obtain ⟨forward, moves⟩ := Chain.step_moves taken
  cases moves with
  | unauthorized forbidden =>
    rw [← List.append_nil s.log]
    exact inv.skip forward fun _ mem => absurd mem List.not_mem_nil
  | rejected allowed found early =>
    refine inv.skip forward fun a mem => ?_
    rw [List.mem_singleton.1 mem]
    exact ⟨rfl, rfl⟩
  | accepted allowed late stored => exact inv.accept forward stored

/-- The sum that the contract compares with, unless it leaves the range. -/
lemma toNat_add_gap {last : UInt32} (room : last.toNat < 2 ^ 32 - 3) :
    (last + minBlockGap).toNat = last.toNat + 3 := by
  rw [UInt32.toNat_add, minBlockGap, Nat.mod_eq_of_lt]
  · rfl
  · show last.toNat + 3 < 2 ^ 32
    omega

/-- In the last three ledgers the sum is less than three. -/
lemma toNat_add_gap_wraps {last : UInt32} (full : 2 ^ 32 - 3 ≤ last.toNat) :
    (last + minBlockGap).toNat + 2 ^ 32 = last.toNat + 3 := by
  have below := last.toNat_lt
  have sum : (last + minBlockGap).toNat = (last.toNat + 3) % 2 ^ 32 := UInt32.toNat_add last minBlockGap
  omega

/-- A call keeps the distance exactly when it comes before the end of the range. -/
lemma Chain.step_distance {s t : Chain Address} {call : Call Address} (inv : s.Inv) (kept : KeepsDistance s)
    (taken : Chain.step s call = some t) : KeepsDistance t ↔ BeforeEnd s call := by
  obtain ⟨forward, moves⟩ := Chain.step_moves taken
  have current := call.sequence.toNat_lt
  cases moves with
  | unauthorized forbidden =>
    refine ⟨fun _ allowed => ?_, fun _ => kept⟩
    rw [forbidden] at allowed
    cases allowed
  | @rejected allowed last found early =>
    have reached : last.toNat ≤ call.sequence.toNat :=
      UInt32.le_iff_toNat_le.1 (UInt32.le_trans (inv.reached _ (inv.recorded _ _ found)) forward)
    have sum := UInt32.lt_iff_toNat_lt.1 early
    have room : last.toNat < 2 ^ 32 - 3 := by
      by_contra full
      have wraps := toNat_add_gap_wraps (Nat.le_of_not_lt full)
      omega
    rw [toNat_add_gap room] at sum
    refine ⟨fun _ _ last' found' => ?_, fun _ => (keepsDistance_append rfl).2 ⟨kept, ?_⟩⟩
    · have same : some last' = some last := found'.symm.trans found
      cases same
      exact room
    · exact ⟨(nomatch ·), fun _ => ⟨_, inv.recorded _ _ found, rfl, rfl, sum⟩⟩
  | accepted allowed late stored =>
    rw [keepsDistance_append rfl]
    constructor
    · rintro ⟨-, right⟩ - last found
      have distance := right.1 rfl _ (inv.recorded _ _ found) rfl rfl
      have reached : last.toNat + 3 ≤ call.sequence.toNat := distance
      omega
    · intro before
      refine ⟨kept, fun _ a mem accepted same => ?_, (nomatch ·)⟩
      cases found : LedgerTracker.tracker s.env call.relayer with
      | none => exact absurd same (inv.new _ found a mem accepted)
      | some last =>
        have le := UInt32.le_iff_toNat_le.1 (inv.latest _ _ found a mem accepted same)
        have sum := UInt32.le_iff_toNat_le.1 (UInt32.not_lt.1 (late last found))
        rw [toNat_add_gap (before allowed last found)] at sum
        show a.ledger.toNat + 3 ≤ call.sequence.toNat
        omega

/-- The runs in which every submission is right are those in which no relayer submits again after one of the
last three ledgers. -/
theorem submissions_keep_distance {calls : List (Call Address)} {s : Chain Address}
    (run : Machine.exec Chain.step Chain.initial calls = some s) :
    Machine.Always Chain.step KeepsDistance Chain.initial calls ↔
      Machine.Guarded Chain.step BeforeEnd Chain.initial calls :=
  Machine.always_iff_guarded Chain.initial_inv (fun before submission after split => by simp [Chain.initial] at split)
    (fun _ _ _ inv _ taken => Chain.step_inv inv taken) (fun _ _ _ inv kept taken => Chain.step_distance inv kept taken)
    run

/-- Two relayers, one of which comes too early once. -/
def sampleCalls : List (Call ℕ) :=
  [⟨0, [], 100, true⟩, ⟨0, [], 101, true⟩, ⟨1, [], 102, true⟩, ⟨0, [], 103, true⟩]

/-- Submissions of one address that are far enough apart. -/
theorem submissions_keep_distance_sample :
    Machine.Always Chain.step KeepsDistance Chain.initial sampleCalls :=
  (submissions_keep_distance (Option.eq_some_of_isSome (by decide +kernel))).2 (by decide +kernel)

/-- Two submissions in the last ledger of the range are both accepted. -/
theorem submissions_at_end_accepted : ¬ Machine.Always Chain.step KeepsDistance Chain.initial
    [(⟨0, [], 4294967295, true⟩ : Call ℕ), ⟨0, [], 4294967295, true⟩] := by
  intro always
  obtain ⟨s, run, log⟩ : ∃ s : Chain ℕ, Machine.exec Chain.step Chain.initial
      [⟨0, [], 4294967295, true⟩, ⟨0, [], 4294967295, true⟩] = some s ∧
      s.log = [⟨0, 4294967295, true⟩] ++ ⟨0, 4294967295, true⟩ :: [] := ⟨_, rfl, rfl⟩
  have right := always _ s List.prefix_rfl run _ _ _ log
  exact absurd (right.1 rfl _ (List.mem_singleton_self _) rfl rfl) (by decide)

end StellarFlow.Contracts
