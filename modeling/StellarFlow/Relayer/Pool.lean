import Mathlib.Data.List.MinMax
import StellarFlow.Lib.Machine
import StellarFlow.Relayer.NonceManager

/-!
# The relayer pool and its load distribution

Model of `RelayerPool` in `app/services/nonce_manager.py`. `acquire_account` takes a snapshot of the
in-flight counts under the pool lock, releases the lock, and only then acquires from the least loaded
account of the snapshot, so other callers may come in between: a call is two steps.

The counts stay within one of each other in every run in which the account a caller has chosen is still
a least loaded one when its slot is taken (`balanced_of_leastLoaded`).
-/

namespace StellarFlow.Relayer
open Machine

/-- `_AccountLoad`. -/
structure AccountLoad where
  address : String
  inFlight : ℕ
  deriving DecidableEq

/-- `RelayerPool`: the managers by address. -/
structure RelayerPool where
  managers : Dict String NonceManager

namespace RelayerPool

/-- The managers added for a list of addresses. -/
def addManagers (staleTimeout : ℚ) (keys : String → RedisKey) :
    List String → Dict String NonceManager → Except PyError (Dict String NonceManager)
  | [], managers => .ok managers
  | address :: rest, managers => do
    let manager ← NonceManager.init address staleTimeout (keys address)
    addManagers staleTimeout keys rest (managers.set address manager)

/-- `RelayerPool.__init__`, with the values of the accounts' Redis keys. -/
def init (accounts : List String) (staleTimeout : ℚ) (keys : String → RedisKey) :
    Except PyError RelayerPool :=
  if accounts = [] then .error (.valueError "RelayerPool requires at least one account address.")
  else do
    let managers ← addManagers staleTimeout keys accounts .empty
    return { managers }

variable (pool : RelayerPool)

/-- The snapshot of `acquire_account`. -/
def loads : List AccountLoad :=
  pool.managers.entries.map fun e => { address := e.1, inFlight := e.2.inFlightCount }

/-- `NonceManager.acquire` on an account of the pool, with its seed from the seed map. -/
def acquireOn (address : String) (seedMap : Dict String ℤ) (now : ℚ) : Except PyError ℤ × RelayerPool :=
  match pool.managers.get? address with
  | none => (.error (.exception "KeyError" (Py.repr address)), pool)
  | some manager =>
    let (result, manager) := manager.acquire (seedMap.get? address) now
    (result, { pool with managers := pool.managers.set address manager })

/-- The fallback loop of `acquire_account`: the other accounts in ascending load order. -/
def acquireFallback (chosenAddress : String) (seedMap : Dict String ℤ) (now : ℚ) :
    RelayerPool → List AccountLoad → Except PyError (String × ℤ) × RelayerPool
  | pool, [] =>
    (.error (.exception "NonceExhaustedError" ("No relayer account has a seeded Redis counter. " ++
      "Call resync_all() or pass seed_map to acquire_account().")), pool)
  | pool, fallback :: rest =>
    if fallback.address = chosenAddress then acquireFallback chosenAddress seedMap now pool rest
    else match pool.acquireOn fallback.address seedMap now with
      | (.ok sequence, pool) => (.ok (fallback.address, sequence), pool)
      -- the account has no counter and no seed
      | (.error (.valueError _), pool) => acquireFallback chosenAddress seedMap now pool rest
      | (.error e, pool) => (.error e, pool)

/-- `acquire_account` after its snapshot. -/
def acquireFrom (loads : List AccountLoad) (seedMap : Dict String ℤ) (now : ℚ) :
    Except PyError (String × ℤ) × RelayerPool :=
  match loads.argmin AccountLoad.inFlight with
  | none => (.error (.valueError "min() arg is an empty sequence"), pool)
  | some chosen =>
    match pool.acquireOn chosen.address seedMap now with
    | (.ok sequence, pool) => (.ok (chosen.address, sequence), pool)
    | (.error (.valueError _), pool) =>
      acquireFallback chosen.address seedMap now pool
        (loads.insertionSort fun a b => a.inFlight ≤ b.inFlight)
    | (.error e, pool) => (.error e, pool)

/-- `RelayerPool.acquire_account`. -/
def acquireAccount (seedMap : Dict String ℤ) (now : ℚ) : Except PyError (String × ℤ) × RelayerPool :=
  pool.acquireFrom pool.loads seedMap now

/-- The in-flight counts of any two accounts differ by at most one. -/
def Balanced : Prop :=
  ∀ x ∈ pool.managers.entries, ∀ y ∈ pool.managers.entries,
    x.2.inFlightCount ≤ y.2.inFlightCount + 1

/-- The account is a least loaded one. -/
def Least (address : String) : Prop :=
  ∀ x ∈ pool.managers.entries, x.1 = address →
    ∀ y ∈ pool.managers.entries, x.2.inFlightCount ≤ y.2.inFlightCount

instance : Decidable pool.Balanced := inferInstanceAs (Decidable (∀ x ∈ _, ∀ y ∈ _, _))

instance (address : String) : Decidable (pool.Least address) :=
  inferInstanceAs (Decidable (∀ x ∈ pool.managers.entries, x.1 = address → ∀ y ∈ _, _))

/-- Every counter exists and has reached the sequences in flight. -/
def Ready : Prop :=
  ∀ x ∈ pool.managers.entries, ∃ counter, x.2.key = some counter ∧
    ∀ n ∈ x.2.pending.keys, n ≤ counter

variable {pool}

/-- Acquiring from an account of a ready pool takes one slot of it. -/
lemma Ready.acquireOn (ready : pool.Ready) {address : String} {manager : NonceManager}
    (found : pool.managers.get? address = some manager) (seedMap : Dict String ℤ) (now : ℚ) :
    ∃ sequence, pool.acquireOn address seedMap now =
        (.ok sequence, { pool with managers := pool.managers.set address (manager.handedOut sequence now) }) ∧
      (∀ n ∈ manager.pending.keys, n < sequence) := by
  obtain ⟨counter, key, below⟩ := ready _ (Dict.get?_eq_some found)
  obtain ⟨error, absent, -⟩ | ⟨sequence, acquired, next⟩ :=
    manager.acquire_cases (seedMap.get? address) now
  · rw [key] at absent
    cases absent
  · refine ⟨sequence, ?_, fun n mem => ?_⟩
    · simp only [RelayerPool.acquireOn, found, acquired]
    · obtain present | ⟨absent, -⟩ := next
      · have le := below n mem
        obtain rfl := Option.some.inj (key.symm.trans present)
        omega
      · rw [key] at absent
        cases absent

/-- What `acquire_account` does to a ready pool after the snapshot: nothing, or it takes one slot of the
account it has chosen. -/
lemma Ready.acquireFrom_cases (ready : pool.Ready) (loads : List AccountLoad) (seedMap : Dict String ℤ)
    (now : ℚ) :
    (pool.acquireFrom loads seedMap now).2 = pool ∨
    ∃ chosen manager sequence, loads.argmin AccountLoad.inFlight = some chosen ∧
      (chosen.address, manager) ∈ pool.managers.entries ∧ (∀ n ∈ manager.pending.keys, n < sequence) ∧
      (pool.acquireFrom loads seedMap now).2.managers =
        pool.managers.set chosen.address (manager.handedOut sequence now) := by
  cases choice : loads.argmin AccountLoad.inFlight with
  | none => exact .inl (by simp only [acquireFrom, choice])
  | some chosen =>
    cases found : pool.managers.get? chosen.address with
    | none => exact .inl (by simp only [acquireFrom, choice, RelayerPool.acquireOn, found])
    | some manager =>
      obtain ⟨sequence, acquired, above⟩ := ready.acquireOn found seedMap now
      refine .inr ⟨chosen, manager, sequence, rfl, Dict.get?_eq_some found, above, ?_⟩
      simp only [acquireFrom, choice, acquired]

/-- A sequence that is handed out is in flight. -/
lemma inFlightCount_handedOut {manager : NonceManager} {sequence : ℤ} {now : ℚ}
    (above : ∀ n ∈ manager.pending.keys, n < sequence) :
    (manager.handedOut sequence now).inFlightCount = manager.inFlightCount + 1 := by
  have new : sequence ∉ manager.pending.keys := fun mem => lt_irrefl _ (above sequence mem)
  exact Dict.length_keys_set_of_not_mem new

section Taken
variable {address : String} {manager : NonceManager} {sequence : ℤ} {now : ℚ} {after : RelayerPool}
  (managers : after.managers = pool.managers.set address (manager.handedOut sequence now))
  (above : ∀ n ∈ manager.pending.keys, n < sequence)
include managers above

/-- An account that was taken leaves the pool ready. -/
lemma Ready.taken (ready : pool.Ready) : after.Ready := by
  intro x mem
  rw [managers] at mem
  rcases Dict.mem_entries_set mem with rfl | ⟨mem, -⟩
  · refine ⟨sequence, rfl, fun n pending => ?_⟩
    rcases Dict.mem_keys_set.mp pending with rfl | pending
    · exact le_rfl
    · exact (above n pending).le
  · exact ready x mem

/-- Taking a slot of a least loaded account keeps the pool balanced. -/
lemma Balanced.taken (balanced : pool.Balanced) (member : (address, manager) ∈ pool.managers.entries)
    (least : pool.Least address) : after.Balanced := by
  have count : (manager.handedOut sequence now).inFlightCount = manager.inFlightCount + 1 :=
    inFlightCount_handedOut above
  have lowest : ∀ y ∈ pool.managers.entries, manager.inFlightCount ≤ y.2.inFlightCount :=
    least _ member rfl
  intro x memx y memy
  rw [managers] at memx memy
  rcases Dict.mem_entries_set memx with rfl | ⟨memx, -⟩
  · rcases Dict.mem_entries_set memy with rfl | ⟨memy, -⟩
    · exact Nat.le_succ _
    · have := lowest y memy
      show (manager.handedOut sequence now).inFlightCount ≤ _
      omega
  · rcases Dict.mem_entries_set memy with rfl | ⟨memy, -⟩
    · -- the other account was at most one above the chosen one, and the gap has shrunk
      have : x.2.inFlightCount ≤ manager.inFlightCount + 1 := balanced x memx _ member
      show _ ≤ (manager.handedOut sequence now).inFlightCount + 1
      omega
    · exact balanced x memx y memy

end Taken

/-- New managers have nothing pending. -/
lemma addManagers_new {staleTimeout : ℚ} {keys : String → RedisKey} {accounts : List String}
    {managers result : Dict String NonceManager} (seeded : ∀ a ∈ accounts, (keys a).present)
    (new : ∀ x ∈ managers.entries, x.2.key.present ∧ x.2.pending = .empty)
    (added : addManagers staleTimeout keys accounts managers = .ok result) :
    ∀ x ∈ result.entries, x.2.key.present ∧ x.2.pending = .empty := by
  induction accounts generalizing managers with
  | nil =>
    cases added
    exact new
  | cons address rest ih =>
    rw [addManagers, Py.bind_eq_ok] at added
    obtain ⟨manager, created, added⟩ := added
    refine ih (fun a mem => seeded a (List.mem_cons_of_mem _ mem)) ?_ added
    intro x mem
    rcases Dict.mem_entries_set mem with rfl | ⟨mem, -⟩
    · rw [NonceManager.init] at created
      split at created
      · cases created
      · cases created
        exact ⟨seeded address List.mem_cons_self, rfl⟩
    · exact new x mem

/-- A new pool over existing counters is ready, and nothing is in flight. -/
lemma init_spec {accounts : List String} {staleTimeout : ℚ} {keys : String → RedisKey}
    (seeded : ∀ a ∈ accounts, (keys a).present)
    (created : init accounts staleTimeout keys = .ok pool) : pool.Ready ∧ pool.Balanced := by
  rw [init] at created
  split at created
  · cases created
  · rw [Py.bind_eq_ok] at created
    obtain ⟨managers, added, created⟩ := created
    cases created
    have new := addManagers_new seeded (fun x mem => absurd mem List.not_mem_nil) added
    constructor
    · intro x mem
      obtain ⟨present, empty⟩ := new x mem
      obtain ⟨counter, key⟩ := Option.isSome_iff_exists.mp present
      exact ⟨counter, key, by simp [empty]⟩
    · intro x memx y _
      simp [NonceManager.inFlightCount, (new x memx).2]

end RelayerPool

/-- A step of a caller of `acquire_account`. -/
inductive CallerStep (C : Type) where
  | snapshot (c : C)
  | acquire (c : C) (seedMap : Dict String ℤ) (now : ℚ)

/-- The pool and the snapshots of the calls in progress. -/
structure CallersRun (C : Type) where
  pool : RelayerPool
  snapshot : C → Option (List AccountLoad)

namespace CallersRun
variable {C : Type} [DecidableEq C]

def start (pool : RelayerPool) : CallersRun C where
  pool := pool
  snapshot := fun _ => none

/-- One step of a call; the second one ends it. -/
def step (s : CallersRun C) : CallerStep C → Option (CallersRun C)
  | .snapshot c =>
    match s.snapshot c with
    | none => some { s with snapshot := Function.update s.snapshot c (some s.pool.loads) }
    | some _ => none
  | .acquire c seedMap now =>
    match s.snapshot c with
    | none => none
    | some loads =>
      let (_, pool) := s.pool.acquireFrom loads seedMap now
      some { pool, snapshot := Function.update s.snapshot c none }

/-- A call that nothing interrupts is `acquire_account`. -/
lemma exec_acquireAccount (s : CallersRun C) (c : C) (idle : s.snapshot c = none)
    (seedMap : Dict String ℤ) (now : ℚ) :
    exec step s [.snapshot c, .acquire c seedMap now] =
      some { s with pool := (s.pool.acquireAccount seedMap now).2 } := by
  have ended : Function.update (Function.update s.snapshot c (some s.pool.loads)) c none = s.snapshot := by
    rw [Function.update_idem, ← idle, Function.update_eq_self]
  simp [exec, step, idle, ended, RelayerPool.acquireAccount]

/-- No call is in progress. -/
def Quiet (s : CallersRun C) : Prop :=
  ∀ c, s.snapshot c = none

/-- The condition on a step of a run: the account chosen from the snapshot is still a least loaded one. -/
def LeastLoaded (s : CallersRun C) : CallerStep C → Prop
  | .snapshot _ => True
  | .acquire c _ _ => ∀ chosen ∈ (s.snapshot c).bind (List.argmin AccountLoad.inFlight),
      s.pool.Least chosen.address

instance (s : CallersRun C) : (l : CallerStep C) → Decidable (s.LeastLoaded l)
  | .snapshot _ => isTrue trivial
  | .acquire c _ _ => inferInstanceAs (Decidable (∀ chosen ∈ (s.snapshot c).bind _, _))

/-- A step that meets the condition keeps the pool ready and balanced. -/
lemma balanced_step (s : CallersRun C) (l : CallerStep C) (t : CallersRun C)
    (inv : s.pool.Ready ∧ s.pool.Balanced) (met : s.LeastLoaded l) (stepped : s.step l = some t) :
    t.pool.Ready ∧ t.pool.Balanced := by
  obtain ⟨ready, balanced⟩ := inv
  cases l with
  | snapshot c =>
    simp only [step] at stepped
    split at stepped
    · cases stepped
      exact ⟨ready, balanced⟩
    · cases stepped
  | acquire c seedMap now =>
    simp only [step] at stepped
    split at stepped
    · cases stepped
    · rename_i loads taken
      simp only [Option.some.injEq] at stepped
      subst stepped
      obtain same | ⟨chosen, manager, sequence, choice, member, above, managers⟩ :=
        ready.acquireFrom_cases loads seedMap now
      · rw [same]
        exact ⟨ready, balanced⟩
      · exact ⟨ready.taken managers above,
          balanced.taken managers above member (met chosen (by simpa [taken] using choice))⟩

end CallersRun

/-- In every run of concurrent `acquire_account` calls on a new pool whose counters exist, if each slot is
taken from an account that is a least loaded one at that moment, then the in-flight counts of any two
accounts differ by at most one whenever no call is in progress. -/
theorem balanced_of_leastLoaded {C : Type} [DecidableEq C] (accounts : List String) (staleTimeout : ℚ)
    (keys : String → RedisKey) (pool : RelayerPool)
    (created : RelayerPool.init accounts staleTimeout keys = .ok pool)
    (seeded : ∀ a ∈ accounts, (keys a).present) (trace : List (CallerStep C))
    (guarded : Guarded CallersRun.step CallersRun.LeastLoaded (CallersRun.start pool) trace) :
    Always CallersRun.step (fun t => t.Quiet → t.pool.Balanced) (CallersRun.start pool) trace := by
  have inv := always_of_guarded (I := fun t : CallersRun C => t.pool.Ready ∧ t.pool.Balanced)
    (RelayerPool.init_spec seeded created) CallersRun.balanced_step guarded
  intro pre t le run _
  exact (inv pre t le run).2

/-- Two callers one after the other: the second one sees the slot of the first. -/
theorem balanced_of_leastLoaded_one_after_the_other :
    ∃ pool, RelayerPool.init ["GA", "GB"] 30 (fun _ => some 100) = .ok pool ∧
      (exec CallersRun.step (CallersRun.start pool)
          [.snapshot 0, .acquire 0 .empty 0, .snapshot 1, .acquire 1 .empty 0]).map
        (fun s => s.pool.loads) = some [⟨"GA", 1⟩, ⟨"GB", 1⟩] ∧
      Always CallersRun.step (fun t => t.Quiet → t.pool.Balanced) (CallersRun.start pool)
        [.snapshot 0, .acquire 0 .empty 0, .snapshot 1, .acquire 1 .empty 0] :=
  ⟨_, rfl, by decide +kernel,
    balanced_of_leastLoaded ["GA", "GB"] 30 (fun _ => some 100) _ rfl (fun _ _ => rfl) _
      (by decide +kernel)⟩

/-- Two callers that both take their snapshot before either acquires: both slots come from the first
account, and the counts are two and zero with no call in progress. -/
theorem concurrent_callers_choose_same_account :
    ∃ pool, RelayerPool.init ["GA", "GB"] 30 (fun _ => some 100) = .ok pool ∧
      (exec CallersRun.step (CallersRun.start pool)
          [.snapshot false, .snapshot true, .acquire false .empty 0, .acquire true .empty 0]).map
        (fun s => s.pool.loads) = some [⟨"GA", 2⟩, ⟨"GB", 0⟩] ∧
      ¬ Always CallersRun.step (fun t => t.Quiet → t.pool.Balanced) (CallersRun.start pool)
        [.snapshot false, .snapshot true, .acquire false .empty 0, .acquire true .empty 0] := by
  refine ⟨_, rfl, by decide +kernel, fun always => ?_⟩
  have balanced := always _ _ (List.prefix_refl _) rfl (by unfold CallersRun.Quiet; decide +kernel)
  revert balanced
  decide +kernel

end StellarFlow.Relayer
