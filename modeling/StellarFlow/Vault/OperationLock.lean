import Mathlib.Algebra.Order.Ring.Rat
import Mathlib.Logic.Function.Basic
import Mathlib.Tactic.Linarith
import StellarFlow.Lib.Lease
import StellarFlow.Lib.Machine

/-!
# The lock of vault operations

Model of `VaultOperationLock` in `app/services/vault_operation_lock.py` for one account: any number of locks contend for
the same keys on independent Redis nodes. Every SET NX PX and every release script is a step of its own; a call may
raise before or after it took effect. A lock is known by its number, which stands for its random token. Times are in
milliseconds of one clock rate.
-/

namespace StellarFlow.Vault
open Lease

/-- The arguments of a lock. -/
structure Options where
  ttlMs : ℕ
  retryDelayMs : ℕ
  retries : ℕ

/-- The number of nodes, the arguments of the locks, and `int(ttl_ms * 0.01)`. -/
structure Deployment where
  nodes : ℕ
  options : ℕ → Options
  percent : ℕ → ℕ

/-- Where a lock stands: before `__enter__`, in an attempt with the nodes it still asks and those that have accepted,
giving these back, waiting for the next attempt, past `__enter__`, in `release`, or after `VaultLockError`. -/
inductive Phase where
  | idle
  | acquiring (attempt : ℕ) (startTime : ℚ) (clients acquired : List ℕ)
  | undoing (attempt : ℕ) (clients : List ℕ)
  | sleeping (attempt : ℕ) (wakeTime : ℚ)
  | entered (startTime endTime : ℚ) (acquired : List ℕ)
  | releasing (clients : List ℕ)
  | exhausted

structure System where
  now : ℚ
  nodes : ℕ → Option (Key ℚ ℕ)
  locks : ℕ → Phase

/-- How a call to a node ends. -/
inductive Outcome where
  | answered
  | raised (tookEffect : Bool)

def Outcome.tookEffect : Outcome → Bool
  | .answered => true
  | .raised tookEffect => tookEffect

inductive Move where
  | wait (delay : ℚ)
  | enter (lock : ℕ)
  | set (lock : ℕ) (outcome : Outcome)
  | conclude (lock : ℕ)
  | eval (lock : ℕ) (outcome : Outcome)
  | evaluated (lock : ℕ)
  | retry (lock : ℕ)
  | release (lock : ℕ)

/-- The lock that moves. -/
def Move.lock : Move → Option ℕ
  | .wait _ => none
  | .enter lock => some lock
  | .set lock _ => some lock
  | .conclude lock => some lock
  | .eval lock _ => some lock
  | .evaluated lock => some lock
  | .retry lock => some lock
  | .release lock => some lock

variable (env : Deployment)

def Deployment.quorum : ℕ := env.nodes / 2 + 1

/-- `validity_ms` of an attempt. -/
def Deployment.validityMs (lock : ℕ) (startTime endTime : ℚ) : ℚ :=
  (env.options lock).ttlMs - (endTime - startTime) - (max 1 (env.percent (env.options lock).ttlMs) : ℕ)

def System.setPhase (s : System) (lock : ℕ) (phase : Phase) : System :=
  { s with locks := Function.update s.locks lock phase }

def System.setNode (s : System) (node : ℕ) (slot : Option (Key ℚ ℕ)) : System :=
  { s with nodes := Function.update s.nodes node slot }

/-- `client.set(self._key, self._token, nx=True, px=self._ttl_ms)` on a node. -/
def Deployment.setResult (s : System) (lock node : ℕ) : Bool × Option (Key ℚ ℕ) :=
  setNx s.now (s.now + (env.options lock).ttlMs) lock (s.nodes node)

/-- The call took effect, or it did not. -/
def System.setNodeIf (s : System) (outcome : Outcome) (node : ℕ) (slot : Option (Key ℚ ℕ)) : System :=
  if outcome.tookEffect then s.setNode node slot else s

/-- The nodes that have accepted, after the call. -/
def acquiredAfter (outcome : Outcome) (acquired : List ℕ) (node : ℕ) (result : Bool) : List ℕ :=
  match outcome with
  | .answered => if result then acquired ++ [node] else acquired
  | .raised _ => acquired

/-- An attempt. -/
def Deployment.attempt (s : System) (lock attempt : ℕ) : System :=
  s.setPhase lock (.acquiring attempt s.now (List.range env.nodes) [])

/-- What follows a failed attempt. -/
def Deployment.afterAttempt (s : System) (lock attempt : ℕ) : Phase :=
  if attempt < (env.options lock).retries then .sleeping attempt (s.now + (env.options lock).retryDelayMs)
  else .exhausted

def System.step (s : System) : Move → Option System
  | .wait delay => if 0 ≤ delay then some { s with now := s.now + delay } else none
  | .enter lock =>
    match s.locks lock with
    | .idle => some (env.attempt s lock 0)
    | .exhausted => some (env.attempt s lock 0)
    | _ => none
  | .set lock outcome =>
    match s.locks lock with
    | .acquiring attempt startTime (node :: clients) acquired =>
      let result := env.setResult s lock node
      some ((s.setNodeIf outcome node result.2).setPhase lock
        (.acquiring attempt startTime clients (acquiredAfter outcome acquired node result.1)))
    | _ => none
  | .conclude lock =>
    match s.locks lock with
    | .acquiring attempt startTime [] acquired =>
      some (s.setPhase lock
        (if env.quorum ≤ acquired.length ∧ 0 < env.validityMs lock startTime s.now then
          .entered startTime s.now acquired
        else .undoing attempt acquired))
    | _ => none
  | .eval lock outcome =>
    match s.locks lock with
    | .undoing attempt (node :: clients) =>
      some ((s.setNodeIf outcome node (deleteOwn s.now lock (s.nodes node))).setPhase lock (.undoing attempt clients))
    | .releasing (node :: clients) =>
      some ((s.setNodeIf outcome node (deleteOwn s.now lock (s.nodes node))).setPhase lock (.releasing clients))
    | _ => none
  | .evaluated lock =>
    match s.locks lock with
    | .undoing attempt [] => some (s.setPhase lock (env.afterAttempt s lock attempt))
    | .releasing [] => some (s.setPhase lock .idle)
    | _ => none
  | .retry lock =>
    match s.locks lock with
    | .sleeping attempt wakeTime => if wakeTime ≤ s.now then some (env.attempt s lock (attempt + 1)) else none
    | _ => none
  | .release lock =>
    match s.locks lock with
    | .entered _ _ acquired => some (s.setPhase lock (.releasing acquired))
    | _ => none

/-- Nodes with any keys, and locks that were just made. -/
def System.initial (now : ℚ) (nodes : ℕ → Option (Key ℚ ℕ)) : System := ⟨now, nodes, fun _ => .idle⟩

/-- The lock is past `__enter__`, not released, and within the validity of its attempt. -/
def System.IsValid (s : System) (lock : ℕ) : Prop :=
  ∃ startTime endTime acquired, s.locks lock = .entered startTime endTime acquired ∧ endTime ≤ s.now ∧
    s.now ≤ endTime + env.validityMs lock startTime endTime

/-- At most one lock is valid. -/
def System.IsExclusive (s : System) : Prop := ∀ i j, s.IsValid env i → s.IsValid env j → i = j

/-- No step of a lock touches a key that exists and has the token of another lock. -/
def System.IsRespectful (s : System) : Prop :=
  ∀ m lock s', m.lock = some lock → s.step env m = some s' →
    ∀ node key, live s.now (s.nodes node) = some key → key.holder ≠ lock → live s'.now (s'.nodes node) = some key

/-- The nodes of a lock are different ones and hold its keys, each for the TTL from the start of the attempt. -/
def Phase.Keeps (s : System) (lock : ℕ) : Phase → Prop
  | .acquiring _ startTime clients acquired =>
    startTime ≤ s.now ∧ (acquired ++ clients).Nodup ∧ (∀ node ∈ acquired ++ clients, node < env.nodes) ∧
      ∀ node ∈ acquired, Holds s.now (startTime + (env.options lock).ttlMs) lock (s.nodes node)
  | .entered startTime _ acquired =>
    env.quorum ≤ acquired.length ∧ acquired.Nodup ∧ (∀ node ∈ acquired, node < env.nodes) ∧
      ∀ node ∈ acquired, Holds s.now (startTime + (env.options lock).ttlMs) lock (s.nodes node)
  | _ => True

def System.Sound (s : System) : Prop := ∀ lock, (s.locks lock).Keeps env s lock

variable {env} {s s' : System} {lock lock' node : ℕ} {phase : Phase}

/-- A phase is set for one lock. -/
lemma locks_setPhase : (s.setPhase lock phase).locks lock' = if lock' = lock then phase else s.locks lock' :=
  Function.update_apply ..

/-- What a lock holds it holds later, where its keys are left alone. -/
lemma Phase.Keeps.frame (keeps : phase.Keeps env s lock) (le : s.now ≤ s'.now)
    (holds : ∀ bound node, Holds s.now bound lock (s.nodes node) → Holds s'.now bound lock (s'.nodes node)) :
    phase.Keeps env s' lock := by
  cases phase with
  | acquiring attempt startTime clients acquired =>
    obtain ⟨started, nodup, below, held⟩ := keeps
    exact ⟨started.trans le, nodup, below, fun node mem => holds _ node (held node mem)⟩
  | entered startTime endTime acquired =>
    obtain ⟨enough, nodup, below, held⟩ := keeps
    exact ⟨enough, nodup, below, fun node mem => holds _ node (held node mem)⟩
  | _ => trivial

/-- One lock moves, and the keys of the others are left alone. -/
lemma sound_setPhase (sound : s.Sound env) (now : s'.now = s.now) (locks : s'.locks = s.locks)
    (holds : ∀ lock' ≠ lock, ∀ bound node, Holds s.now bound lock' (s.nodes node) →
      Holds s.now bound lock' (s'.nodes node))
    (own : phase.Keeps env (s'.setPhase lock phase) lock) : (s'.setPhase lock phase).Sound env := by
  intro lock'
  rw [locks_setPhase]
  split
  case isTrue same =>
    rw [same]
    exact own
  case isFalse other =>
    rw [locks]
    refine (sound lock').frame now.ge fun bound node held => ?_
    show Holds s'.now bound lock' (s'.nodes node)
    rw [now]
    exact holds lock' other bound node held

/-- A node changes so that a lock's keys are left alone. -/
lemma holds_setNodeIf {outcome : Outcome} {slot : Option (Key ℚ ℕ)} {bound : ℚ} (node' : ℕ)
    (change : Holds s.now bound lock (s.nodes node) → Holds s.now bound lock slot)
    (held : Holds s.now bound lock (s.nodes node')) :
    Holds s.now bound lock ((s.setNodeIf outcome node slot).nodes node') := by
  rw [System.setNodeIf]
  split
  · show Holds s.now bound lock (Function.update s.nodes node slot node')
    rw [Function.update_apply]
    split
    case isTrue same =>
      rw [same] at held
      exact change held
    case isFalse => exact held
  · exact held

/-- Setting a node takes no time. -/
lemma now_setNodeIf {outcome : Outcome} {slot : Option (Key ℚ ℕ)} : (s.setNodeIf outcome node slot).now = s.now := by
  rw [System.setNodeIf]
  split
  · rfl
  · rfl

/-- Setting a node changes no lock. -/
lemma locks_setNodeIf {outcome : Outcome} {slot : Option (Key ℚ ℕ)} :
    (s.setNodeIf outcome node slot).locks = s.locks := by
  rw [System.setNodeIf]
  split
  · rfl
  · rfl

/-- An attempt begins or the calls end. -/
lemma sound_attempt (sound : s.Sound env) (lock attempt : ℕ) : (env.attempt s lock attempt).Sound env := by
  refine sound_setPhase sound rfl rfl (fun _ _ _ _ held => held) ⟨le_rfl, List.nodup_range, fun node mem => ?_,
    fun node mem => absurd mem List.not_mem_nil⟩
  exact List.mem_range.1 mem

/-- A phase that holds nothing. -/
lemma sound_drop (sound : s.Sound env) (nothing : ∀ s, phase.Keeps env s lock) : (s.setPhase lock phase).Sound env :=
  sound_setPhase sound rfl rfl (fun _ _ _ _ held => held) (nothing _)

/-- A script gives up a key. -/
lemma sound_eval {outcome : Outcome} (sound : s.Sound env) (nothing : ∀ s, phase.Keeps env s lock) :
    ((s.setNodeIf outcome node (deleteOwn s.now lock (s.nodes node))).setPhase lock phase).Sound env :=
  sound_setPhase sound now_setNodeIf locks_setNodeIf
    (fun _ other _ node' held => holds_setNodeIf node' (fun held => held.deleteOwn other) held) (nothing _)

/-- A node that accepts holds the key of the lock from now on. -/
lemma sound_set {outcome : Outcome} {attempt : ℕ} {startTime : ℚ} {clients acquired : List ℕ} (sound : s.Sound env)
    (asks : s.locks lock = .acquiring attempt startTime (node :: clients) acquired) :
    ((s.setNodeIf outcome node (env.setResult s lock node).2).setPhase lock (.acquiring attempt startTime clients
      (acquiredAfter outcome acquired node (env.setResult s lock node).1))).Sound env := by
  have keeps := sound lock
  rw [asks] at keeps
  obtain ⟨started, nodup, below, held⟩ := keeps
  have kept : ∀ lock' bound node', Holds s.now bound lock' (s.nodes node') →
      Holds s.now bound lock' ((s.setNodeIf outcome node (env.setResult s lock node).2).nodes node') :=
    fun _ _ node' held => holds_setNodeIf node' (fun held => held.setNx) held
  refine sound_setPhase sound now_setNodeIf locks_setNodeIf (fun lock' _ => kept lock') ?_
  show startTime ≤ (s.setNodeIf outcome node _).now ∧ _ ∧ _ ∧ ∀ node' ∈ _,
    Holds (s.setNodeIf outcome node _).now _ lock ((s.setNodeIf outcome node _).nodes node')
  rw [now_setNodeIf]
  have fewer : (acquired ++ clients).Sublist (acquired ++ node :: clients) :=
    (List.Sublist.refl acquired).append (List.sublist_cons_self node clients)
  cases outcome with
  | raised tookEffect =>
    exact ⟨started, nodup.sublist fewer, fun node' mem => below node' (fewer.subset mem),
      fun node' mem => kept lock _ node' (held node' mem)⟩
  | answered =>
    cases accepted : (env.setResult s lock node).1 with
    | false =>
      exact ⟨started, nodup.sublist fewer, fun node' mem => below node' (fewer.subset mem),
        fun node' mem => kept lock _ node' (held node' mem)⟩
    | true =>
      have split : acquired ++ [node] ++ clients = acquired ++ node :: clients := List.append_assoc ..
      show _ ≤ _ ∧ (acquired ++ [node] ++ clients).Nodup ∧ (∀ node' ∈ acquired ++ [node] ++ clients, _) ∧
        ∀ node' ∈ acquired ++ [node], _
      rw [split]
      refine ⟨started, nodup, below, fun node' mem => ?_⟩
      rcases List.mem_append.1 mem with old | new
      · exact kept lock _ node' (held node' old)
      · rw [List.mem_singleton.1 new]
        show Holds s.now _ lock (Function.update s.nodes node _ node)
        rw [Function.update_self]
        exact holds_of_setNx accepted (add_le_add_left started _)

/-- The moves of the system, case by case. -/
inductive Step (env : Deployment) (s : System) : Move → System → Prop where
  | wait {delay : ℚ} (later : 0 ≤ delay) : Step env s (.wait delay) { s with now := s.now + delay }
  | enter {lock : ℕ} : Step env s (.enter lock) (env.attempt s lock 0)
  | set {lock node attempt : ℕ} {startTime : ℚ} {clients acquired : List ℕ} (outcome : Outcome)
      (asks : s.locks lock = .acquiring attempt startTime (node :: clients) acquired) :
      Step env s (.set lock outcome) ((s.setNodeIf outcome node (env.setResult s lock node).2).setPhase lock
        (.acquiring attempt startTime clients (acquiredAfter outcome acquired node (env.setResult s lock node).1)))
  | entered {lock attempt : ℕ} {startTime : ℚ} {acquired : List ℕ}
      (asked : s.locks lock = .acquiring attempt startTime [] acquired) (enough : env.quorum ≤ acquired.length) :
      Step env s (.conclude lock) (s.setPhase lock (.entered startTime s.now acquired))
  | failed {lock attempt : ℕ} {acquired : List ℕ} :
      Step env s (.conclude lock) (s.setPhase lock (.undoing attempt acquired))
  | undo {lock attempt node : ℕ} {clients : List ℕ} (outcome : Outcome) :
      Step env s (.eval lock outcome)
        ((s.setNodeIf outcome node (deleteOwn s.now lock (s.nodes node))).setPhase lock (.undoing attempt clients))
  | free {lock node : ℕ} {clients : List ℕ} (outcome : Outcome) :
      Step env s (.eval lock outcome)
        ((s.setNodeIf outcome node (deleteOwn s.now lock (s.nodes node))).setPhase lock (.releasing clients))
  | undone {lock attempt : ℕ} : Step env s (.evaluated lock) (s.setPhase lock (env.afterAttempt s lock attempt))
  | released {lock : ℕ} : Step env s (.evaluated lock) (s.setPhase lock .idle)
  | retry {lock attempt : ℕ} : Step env s (.retry lock) (env.attempt s lock attempt)
  | release {lock : ℕ} {acquired : List ℕ} : Step env s (.release lock) (s.setPhase lock (.releasing acquired))

/-- Each step of the model is one of those named. -/
lemma step_cases {m : Move} (taken : s.step env m = some s') : Step env s m s' := by
  cases m with
  | wait delay =>
    rw [System.step] at taken
    split at taken
    case isTrue later => cases taken; exact .wait later
    case isFalse => cases taken
  | enter lock =>
    rw [System.step] at taken
    split at taken
    case h_3 => cases taken
    all_goals
      cases taken
      exact .enter
  | set lock outcome =>
    rw [System.step] at taken
    split at taken
    case h_1 asks => cases taken; exact .set outcome asks
    case h_2 => cases taken
  | conclude lock =>
    rw [System.step] at taken
    split at taken
    case h_1 asked =>
      cases taken
      split
      case isTrue enough => exact .entered asked enough.1
      case isFalse => exact .failed
    case h_2 => cases taken
  | eval lock outcome =>
    rw [System.step] at taken
    split at taken
    case h_1 => cases taken; exact .undo outcome
    case h_2 => cases taken; exact .free outcome
    case h_3 => cases taken
  | evaluated lock =>
    rw [System.step] at taken
    split at taken
    case h_1 => cases taken; exact .undone
    case h_2 => cases taken; exact .released
    case h_3 => cases taken
  | retry lock =>
    rw [System.step] at taken
    split at taken
    case h_1 =>
      split at taken
      case isTrue => cases taken; exact .retry
      case isFalse => cases taken
    case h_2 => cases taken
  | release lock =>
    rw [System.step] at taken
    split at taken
    case h_1 => cases taken; exact .release
    case h_2 => cases taken

/-- A quorum in time lets the lock in. -/
lemma sound_entered {attempt : ℕ} {startTime : ℚ} {acquired : List ℕ} (sound : s.Sound env)
    (asked : s.locks lock = .acquiring attempt startTime [] acquired) (enough : env.quorum ≤ acquired.length) :
    (s.setPhase lock (.entered startTime s.now acquired)).Sound env := by
  have keeps := sound lock
  rw [asked] at keeps
  obtain ⟨-, nodup, below, held⟩ := keeps
  rw [List.append_nil] at nodup below
  exact sound_setPhase sound rfl rfl (fun _ _ _ _ held => held) ⟨enough, nodup, below, held⟩

/-- Each step keeps soundness. -/
lemma sound_step {m : Move} (sound : s.Sound env) (taken : s.step env m = some s') : s'.Sound env := by
  cases step_cases taken with
  | @wait delay later =>
    have le : s.now ≤ s.now + delay := le_add_of_nonneg_right later
    exact fun lock => (sound lock).frame le fun bound node held => held.mono le
  | @enter lock => exact sound_attempt sound lock 0
  | set outcome asks => exact sound_set sound asks
  | entered asked enough => exact sound_entered sound asked enough
  | failed => exact sound_drop sound fun _ => trivial
  | undo => exact sound_eval sound fun _ => trivial
  | free => exact sound_eval sound fun _ => trivial
  | undone =>
    rw [Deployment.afterAttempt]
    split
    · exact sound_drop sound fun _ => trivial
    · exact sound_drop sound fun _ => trivial
  | released => exact sound_drop sound fun _ => trivial
  | @retry lock attempt => exact sound_attempt sound lock attempt
  | release => exact sound_drop sound fun _ => trivial

/-- Two valid locks have a majority of the nodes each, and hold the keys of all of these. -/
lemma exclusive_of_sound (sound : s.Sound env) : s.IsExclusive env := by
  have valid : ∀ i, s.IsValid env i → ∃ (bound : ℚ) (acquired : List ℕ), s.now < bound ∧
      env.quorum ≤ acquired.length ∧ acquired.Nodup ∧ (∀ node ∈ acquired, node < env.nodes) ∧
        ∀ node ∈ acquired, Holds s.now bound i (s.nodes node) := by
    rintro i ⟨startTime, endTime, acquired, entered, -, valid⟩
    have keeps := sound i
    rw [entered] at keeps
    refine ⟨startTime + (env.options i).ttlMs, acquired, ?_, keeps⟩
    -- the drift is at least a millisecond
    have drift : (1 : ℚ) ≤ (max 1 (env.percent (env.options i).ttlMs) : ℕ) := Nat.one_le_cast.2 (Nat.le_max_left 1 _)
    rw [Deployment.validityMs] at valid
    linarith
  intro i j valid_i valid_j
  obtain ⟨bound, xs, early, enough, nodup, below, held⟩ := valid i valid_i
  obtain ⟨bound', ys, early', enough', nodup', below', held'⟩ := valid j valid_j
  have many : env.nodes < xs.length + ys.length := by
    rw [Deployment.quorum] at enough enough'
    omega
  obtain ⟨node, mem, mem'⟩ := share_node nodup nodup' below below' many
  exact (held node mem).unique (held' node mem') early early'

/-- A call changes a key that exists only where it is the caller's own. -/
lemma live_setNodeIf {outcome : Outcome} {slot : Option (Key ℚ ℕ)} {key : Key ℚ ℕ} (node' : ℕ)
    (there : live s.now (s.nodes node') = some key)
    (same : live s.now (s.nodes node) = some key → slot = s.nodes node) :
    live (s.setNodeIf outcome node slot).now ((s.setNodeIf outcome node slot).nodes node') = some key := by
  rw [now_setNodeIf, System.setNodeIf]
  split
  · show live s.now (Function.update s.nodes node slot node') = some key
    rw [Function.update_apply]
    split
    case isTrue here =>
      rw [here] at there
      rw [same there, there]
    case isFalse => exact there
  · exact there

/-- The locks respect each other's keys. -/
lemma respectful (s : System) : s.IsRespectful env := by
  intro m lock s' mover taken node key there foreign
  cases step_cases taken with
  | wait => cases mover
  | set outcome =>
    cases mover
    refine live_setNodeIf node there fun there' => ?_
    rw [Deployment.setResult, setNx_of_live there']
  | undo =>
    cases mover
    exact live_setNodeIf node there fun there' => deleteOwn_of_live there' foreign
  | free =>
    cases mover
    exact live_setNodeIf node there fun there' => deleteOwn_of_live there' foreign
  | _ => exact there

/-- In every run of any number of locks on any number of nodes, at most one lock is valid at a time, and no lock
removes the key of another one. -/
theorem lock_exclusive (env : Deployment) (now : ℚ) (nodes : ℕ → Option (Key ℚ ℕ)) (trace : List Move) :
    Machine.Always (System.step env) (fun s => s.IsExclusive env ∧ s.IsRespectful env) (System.initial now nodes)
      trace := by
  have always : Machine.Always (System.step env) (System.Sound env) (System.initial now nodes) trace :=
    Machine.always_of_guarded (fun _ => trivial) (fun _ _ _ sound _ taken => sound_step sound taken)
      (show Machine.Guarded _ (fun _ _ => True) _ trace from fun _ _ _ _ _ => trivial)
  exact fun pre s le run => ⟨exclusive_of_sound (always pre s le run), respectful s⟩

end StellarFlow.Vault
