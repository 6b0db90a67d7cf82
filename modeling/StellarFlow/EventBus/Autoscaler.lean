import Mathlib.Algebra.Order.Ring.Int
import Mathlib.Logic.Function.Basic
import StellarFlow.Lib.JavaScript
import StellarFlow.Lib.Machine

/-!
# Scaling worker pools

Model of `WorkerAutoscaler` in `src/services/eventBus/workerAutoscaler.ts`, as `eventBusService.ts` drives it: replica
counts are refreshed, then one cycle after the other evaluates samples and applies the decisions. An evaluation and the
actions take time, and the provider answers as it likes.

Replicas are removed only from a pool whose backlog has been low for long enough. The backlog is the sum of the depths
that are known: a queue that could not be probed counts as empty.
-/

namespace StellarFlow.Autoscaler

structure AutoscalerConfig where
  enabled : Bool
  minReplicas : ℕ
  maxReplicas : ℕ
  targetMessagesPerReplica : ℕ
  maxScaleStep : ℕ
  cooldownMs : ℕ
  scaleDownStabilizationMs : ℕ
  scaleDownThreshold : ℕ
  pools : List String

structure QueueDepthSample where
  name : String
  pool : String
  pending : ℤ

inductive ScaleAction where
  | none
  | scaleUp
  | scaleDown
  deriving DecidableEq

/-- A decision; `current` and `replicas` are its fields `from` and `to`. -/
structure ScaleDecision where
  pool : String
  action : ScaleAction
  current : Option ℕ
  replicas : ℕ
  pending : ℤ
  limitedBy : Option String

structure PoolState where
  lastPending : ℤ
  quietSince : Option ℕ
  lastActionAt : Option ℕ
  lastDesired : Option ℕ
  lastKnown : Option ℕ

/-- `UNKNOWN_DEPTH`. -/
def unknownDepth : ℤ := -1

def pendingForPool (samples : List QueueDepthSample) (pool : String) : ℤ :=
  ((samples.filter fun sample => sample.pool = pool && sample.pending ≠ unknownDepth).map (·.pending)).sum

/-- What happened: a pool was evaluated, or a provider was asked for a number of replicas and answered. -/
inductive Event where
  | evaluated (time : ℕ) (pool : String) (samples : List QueueDepthSample)
  | acted (calledAt doneAt : ℕ) (pool : String) (before : Option ℕ) (replicas : ℕ)

/-- Between cycles, in the loop of `evaluate`, in the loop of `apply`, in a call of the provider. -/
inductive Phase where
  | idle
  | evaluating (samples : List QueueDepthSample) (pools : List String) (decisions : List ScaleDecision)
  | applying (decisions : List ScaleDecision)
  | setting (decision : ScaleDecision) (calledAt : ℕ) (decisions : List ScaleDecision)

structure System where
  now : ℕ
  pools : String → PoolState
  phase : Phase
  events : List Event

/-- The answer of `getReplicaCount`: a number, null, or an error. -/
inductive Answer where
  | count (n : ℕ)
  | unknown
  | failed

inductive Move where
  | wait (delay : ℕ)
  | refresh (pool : String) (answer : Answer)
  | evaluate (samples : List QueueDepthSample)
  | evaluatePool (delay : ℕ)
  | finish (applied : Bool)
  | apply
  | setReplicaCount (succeeds : Bool)
  | done

namespace AutoscalerConfig
variable (config : AutoscalerConfig)

def desiredReplicasFor (pending : ℤ) : ℕ :=
  if pending ≤ 0 then config.minReplicas
  else
    let target := max 1 config.targetMessagesPerReplica
    min config.maxReplicas (max config.minReplicas ((pending.toNat + target - 1) / target))

/-- One step towards the target. -/
def stepped (target current : ℕ) : ℕ :=
  if current < target then min target (current + config.maxScaleStep) else max target (current - config.maxScaleStep)

/-- What an evaluation notes of a pool. -/
def observe (state : PoolState) (now : ℕ) (pending : ℤ) : PoolState :=
  { state with
    lastPending := pending
    quietSince := if pending ≤ config.scaleDownThreshold then some (state.quietSince.getD now) else none
    lastDesired := some (config.desiredReplicasFor pending) }

/-- The backlog has been low for long enough. -/
def isSettled (state : PoolState) (now : ℕ) : Bool :=
  state.quietSince.any fun since => since + config.scaleDownStabilizationMs ≤ now

/-- The step is smaller than what is missing. -/
def clampedBy (stepped target : ℕ) : Option String := if stepped ≠ target then some "max-scale-step" else none

/-- What an evaluation decides for a pool. -/
def decision (pool : String) (state : PoolState) (now : ℕ) (pending : ℤ) : ScaleDecision :=
  let target := config.desiredReplicasFor pending
  match state.lastKnown with
  | none => ⟨pool, .none, none, target, pending, some "unknown-current"⟩
  | some current =>
    let stepped := config.stepped target current
    let clamped := clampedBy stepped target
    if stepped = current then ⟨pool, .none, current, current, pending, none⟩
    else if current < stepped then ⟨pool, .scaleUp, current, stepped, pending, clamped⟩
    else if !config.isSettled state now then ⟨pool, .none, current, current, pending, some "scale-down-stabilization"⟩
    else if 1 ≤ config.minReplicas && stepped < 1 then ⟨pool, .none, current, current, pending, some "min-replicas"⟩
    else ⟨pool, .scaleDown, current, stepped, pending, clamped⟩

def poolsToManage (samples : List QueueDepthSample) : List String :=
  if config.pools.length > 0 then config.pools else Js.sortedSet (samples.map (·.pool))

/-- The last action on the pool is too recent. -/
def isCooling (state : PoolState) (now : ℕ) : Bool :=
  state.lastActionAt.any fun lastAction => now < lastAction + config.cooldownMs

end AutoscalerConfig

/-- `refreshReplicaCount`. -/
def PoolState.refresh (state : PoolState) : Answer → PoolState
  | .count n => { state with lastKnown := some n }
  | .unknown => state
  | .failed => state

/-- The state of a pool changes. -/
def System.setPool (s : System) (pool : String) (state : PoolState) : System :=
  { s with pools := Function.update s.pools pool state }

/-- The body of the loop of `evaluate`; the clock goes on between its two readings. -/
def System.evaluatePool (config : AutoscalerConfig) (s : System) (samples : List QueueDepthSample) (pool : String)
    (pools : List String) (decisions : List ScaleDecision) (delay : ℕ) : System :=
  let pending := pendingForPool samples pool
  let state := config.observe (s.pools pool) s.now pending
  { s.setPool pool state with
    now := s.now + delay
    phase := .evaluating samples pools (decisions ++ [config.decision pool state (s.now + delay) pending])
    events := s.events ++ [.evaluated s.now pool samples] }

/-- The provider has set the number of replicas. -/
def System.acted (s : System) (decision : ScaleDecision) (calledAt : ℕ) (decisions : List ScaleDecision) : System :=
  let state := s.pools decision.pool
  { s.setPool decision.pool { state with lastActionAt := some s.now, lastKnown := some decision.replicas } with
    phase := .applying decisions
    events := s.events ++ [.acted calledAt s.now decision.pool state.lastKnown decision.replicas] }

def System.step (config : AutoscalerConfig) (hasProvider : Bool) (s : System) : Move → Option System
  | .wait delay => some { s with now := s.now + delay }
  | .refresh pool answer =>
    match s.phase with
    | .idle => some (if hasProvider then s.setPool pool ((s.pools pool).refresh answer) else s)
    | _ => none
  | .evaluate samples =>
    match s.phase with
    | .idle => some { s with phase := .evaluating samples (config.poolsToManage samples) [] }
    | _ => none
  | .evaluatePool delay =>
    match s.phase with
    | .evaluating samples (pool :: pools) decisions =>
      some (s.evaluatePool config samples pool pools decisions delay)
    | _ => none
  | .finish applied =>
    match s.phase with
    | .evaluating _ [] decisions => some { s with phase := if applied then .applying decisions else .idle }
    | _ => none
  | .apply =>
    match s.phase with
    | .applying (decision :: decisions) =>
      if decision.action = .none || !config.enabled || !hasProvider ||
          config.isCooling (s.pools decision.pool) s.now then
        some { s with phase := .applying decisions }
      else some { s with phase := .setting decision s.now decisions }
    | _ => none
  | .setReplicaCount succeeds =>
    match s.phase with
    | .setting decision calledAt decisions =>
      some (if succeeds then s.acted decision calledAt decisions else { s with phase := .applying decisions })
    | _ => none
  | .done =>
    match s.phase with
    | .applying [] => some { s with phase := .idle }
    | _ => none

def PoolState.new : PoolState where
  lastPending := 0
  quietSince := none
  lastActionAt := none
  lastDesired := none
  lastKnown := none

def System.initial (now : ℕ) : System where
  now := now
  pools := fun _ => PoolState.new
  phase := .idle
  events := []

section Justified
variable (quiet : List QueueDepthSample → String → Prop)

/-- An evaluation of the pool finds it quiet. -/
def Event.FindsQuiet (pool : String) : Event → Prop
  | .evaluated _ pool' samples => pool' = pool → quiet samples pool
  | .acted .. => True

/-- The pool was evaluated at the time, and found quiet then and ever since. -/
def QuietSince (events : List Event) (pool : String) (time : ℕ) : Prop :=
  ∃ before samples later, events = before ++ .evaluated time pool samples :: later ∧ quiet samples pool ∧
    ∀ e ∈ later, e.FindsQuiet quiet pool

/-- After the events, an action that lowers the count of a pool removes replicas from a quiet pool, in a small step and
not too soon. -/
def Event.Justified (config : AutoscalerConfig) (events : List Event) : Event → Prop
  | .evaluated .. => True
  | .acted calledAt _ pool before replicas => ∀ count, before = some count → replicas < count →
    (∃ since, since + config.scaleDownStabilizationMs ≤ calledAt ∧ QuietSince quiet events pool since) ∧
    (∀ calledAt' doneAt' before' replicas', .acted calledAt' doneAt' pool before' replicas' ∈ events →
      doneAt' + config.cooldownMs ≤ calledAt) ∧
    count - replicas ≤ config.maxScaleStep

/-- Every action so far was justified by what had happened before. -/
def RemovesQuietly (config : AutoscalerConfig) (s : System) : Prop :=
  ∀ before e later, s.events = before ++ e :: later → e.Justified quiet config before

end Justified

/-- The known depths of the pool's queues add up to little. -/
def IsLow (config : AutoscalerConfig) (samples : List QueueDepthSample) (pool : String) : Prop :=
  pendingForPool samples pool ≤ config.scaleDownThreshold

/-- The pool has queues and all depths are known. -/
def IsKnown (samples : List QueueDepthSample) (pool : String) : Prop :=
  (∃ sample ∈ samples, sample.pool = pool) ∧ ∀ sample ∈ samples, sample.pool = pool → sample.pending ≠ unknownDepth

variable {config : AutoscalerConfig} {s s' : System} {samples : List QueueDepthSample} {pool : String}

section Events
variable {quiet : List QueueDepthSample → String → Prop} {events : List Event} {e : Event}

/-- One more quiet evaluation keeps the time since which the pool is quiet. -/
lemma quietSince_snoc {time : ℕ} (since : QuietSince quiet events pool time) (finds : e.FindsQuiet quiet pool) :
    QuietSince quiet (events ++ [e]) pool time := by
  obtain ⟨before, samples, later, rfl, first, rest⟩ := since
  refine ⟨before, samples, later ++ [e], by rw [List.append_assoc]; rfl, first, fun e' mem => ?_⟩
  rcases List.mem_append.1 mem with old | new
  · exact rest e' old
  · rw [List.mem_singleton.1 new]
    exact finds

/-- One more event. -/
lemma removesQuietly_snoc (removes : RemovesQuietly quiet config s) (justified : e.Justified quiet config s.events)
    (events : s'.events = s.events ++ [e]) : RemovesQuietly quiet config s' := by
  intro before e' later split
  rw [events] at split
  rcases List.eq_nil_or_concat later with rfl | ⟨rest, last, rfl⟩
  · obtain ⟨rfl, same⟩ := List.append_inj' split rfl
    rw [← List.singleton_inj.1 same]
    exact justified
  · have split' : s.events ++ [e] = (before ++ e' :: rest) ++ [last] := by
      rw [split, List.append_assoc, List.concat_eq_append]
      rfl
    obtain ⟨same, -⟩ := List.append_inj' split' rfl
    exact removes before e' rest same

end Events

/-- A decision of the present evaluation, unless it is to do nothing. -/
structure ScaleDecision.Decided (config : AutoscalerConfig) (samples : List QueueDepthSample) (s : System)
    (d : ScaleDecision) : Prop where
  known : (s.pools d.pool).lastKnown = d.current
  stepped : ∃ current, d.current = some current ∧
    d.replicas = config.stepped (config.desiredReplicasFor (pendingForPool samples d.pool)) current
  settled : ∀ current, d.current = some current → d.replicas < current →
    config.isSettled (s.pools d.pool) s.now = true ∧ IsLow config samples d.pool

/-- A decision that is to be applied, where it may have been before for the same pool. -/
structure ScaleDecision.Fits (config : AutoscalerConfig) (time : ℕ) (s : System) (d : ScaleDecision) : Prop where
  known : (s.pools d.pool).lastKnown = d.current ∨ (s.pools d.pool).lastKnown = some d.replicas
  small : ∀ current, d.current = some current → d.replicas < current →
    current - d.replicas ≤ config.maxScaleStep ∧ config.isSettled (s.pools d.pool) time = true

/-- Decisions for one pool ask for the same number. -/
def Agree (decisions : List ScaleDecision) : Prop :=
  ∀ d ∈ decisions, ∀ d' ∈ decisions, d.action ≠ .none → d'.action ≠ .none → d.pool = d'.pool →
    d.replicas = d'.replicas

def System.PhaseSound (config : AutoscalerConfig) (s : System) : Prop :=
  match s.phase with
  | .idle => True
  | .evaluating samples _ decisions => ∀ d ∈ decisions, d.action ≠ .none → d.Decided config samples s
  | .applying decisions => (∀ d ∈ decisions, d.action ≠ .none → d.Fits config s.now s) ∧ Agree decisions
  | .setting decision calledAt decisions =>
    (∀ d ∈ decision :: decisions, d.action ≠ .none → d.Fits config s.now s) ∧ Agree (decision :: decisions) ∧
      decision.action ≠ .none ∧ decision.Fits config calledAt s ∧
      config.isCooling (s.pools decision.pool) calledAt = false

/-- What the states of the pools say about what happened, and what the phase says about the decisions. -/
structure Sound (config : AutoscalerConfig) (s : System) : Prop where
  quiet : ∀ pool since, (s.pools pool).quietSince = some since → QuietSince (IsLow config) s.events pool since
  acted : ∀ calledAt doneAt pool before replicas, .acted calledAt doneAt pool before replicas ∈ s.events →
    ∃ last, (s.pools pool).lastActionAt = some last ∧ doneAt ≤ last
  clock : ∀ pool last, (s.pools pool).lastActionAt = some last → last ≤ s.now
  phase : s.PhaseSound config
  removes : RemovesQuietly (IsLow config) config s

/-- A pool is settled when it has been quiet for the stabilisation time. -/
lemma isSettled_iff {state : PoolState} {now : ℕ} : config.isSettled state now = true ↔
    ∃ since, state.quietSince = some since ∧ since + config.scaleDownStabilizationMs ≤ now := by
  rw [AutoscalerConfig.isSettled, Option.any_eq_true]
  simp only [decide_eq_true_iff]

/-- A settled pool stays so while time passes. -/
lemma isSettled_mono {state : PoolState} {now now' : ℕ} (settled : config.isSettled state now = true)
    (le : now ≤ now') : config.isSettled state now' = true := by
  obtain ⟨since, quiet, early⟩ := isSettled_iff.1 settled
  exact isSettled_iff.2 ⟨since, quiet, early.trans le⟩

/-- A step down is small. -/
lemma sub_stepped_le {target current : ℕ} : current - config.stepped target current ≤ config.maxScaleStep := by
  rw [AutoscalerConfig.stepped]
  split
  · omega
  · omega

/-- What a decision that is not to do nothing says. -/
lemma decision_spec {state : PoolState} {now : ℕ} {pending : ℤ}
    (moves : (config.decision pool state now pending).action ≠ .none) :
    ∃ current, state.lastKnown = some current ∧ (config.decision pool state now pending).current = some current ∧
      (config.decision pool state now pending).replicas = config.stepped (config.desiredReplicasFor pending) current ∧
      (config.stepped (config.desiredReplicasFor pending) current < current → config.isSettled state now = true) := by
  rw [AutoscalerConfig.decision] at moves ⊢
  cases known : state.lastKnown with
  | none =>
    rw [known] at moves
    exact absurd rfl moves
  | some current =>
    rw [known] at moves
    refine ⟨current, rfl, ?_⟩
    dsimp only at moves ⊢
    split_ifs at moves ⊢ with same up unsettled floor
    · exact absurd rfl moves
    · exact ⟨rfl, rfl, fun down => absurd up (Nat.lt_asymm down)⟩
    · exact absurd rfl moves
    · exact absurd rfl moves
    · exact ⟨rfl, rfl, fun _ => by simpa using unsettled⟩

/-- A decision is about the pool it was made for. -/
lemma pool_decision {state : PoolState} {now : ℕ} {pending : ℤ} :
    (config.decision pool state now pending).pool = pool := by
  rw [AutoscalerConfig.decision]
  cases state.lastKnown with
  | none => rfl
  | some current =>
    dsimp only
    split_ifs
    · rfl
    · rfl
    · rfl
    · rfl
    · rfl

/-- A decision stays justified while time passes. -/
lemma decided_wait {d : ScaleDecision} (decided : d.Decided config samples s) (pools : s'.pools = s.pools)
    (le : s.now ≤ s'.now) : d.Decided config samples s' where
  known := by rw [pools]; exact decided.known
  stepped := decided.stepped
  settled current here down := by
    rw [pools]
    exact (decided.settled current here down).imp_left fun settled => isSettled_mono settled le

/-- A decision keeps within its bounds while time passes. -/
lemma fits_wait {d : ScaleDecision} {time time' : ℕ} (fits : d.Fits config time s) (pools : s'.pools = s.pools)
    (le : time ≤ time') : d.Fits config time' s' where
  known := by rw [pools]; exact fits.known
  small current here down := by
    rw [pools]
    exact (fits.small current here down).imp_right fun settled => isSettled_mono settled le

/-- A new phase has only to be sound itself. -/
lemma sound_phase {phase : Phase} (sound : Sound config s)
    (there : ({ s with phase := phase } : System).PhaseSound config) :
    Sound config { s with phase := phase } :=
  ⟨sound.quiet, sound.acted, sound.clock, there, sound.removes⟩

/-- Time passes. -/
lemma sound_wait {delay : ℕ} (sound : Sound config s) : Sound config { s with now := s.now + delay } := by
  have le : s.now ≤ s.now + delay := Nat.le_add_right ..
  refine ⟨sound.quiet, sound.acted, fun pool last acted => (sound.clock pool last acted).trans le, ?_, sound.removes⟩
  have there := sound.phase
  rw [System.PhaseSound] at there ⊢
  cases phase : s.phase with
  | idle => trivial
  | evaluating samples pools decisions =>
    rw [phase] at there
    exact fun d mem moves => decided_wait (there d mem moves) rfl le
  | applying decisions =>
    rw [phase] at there
    exact ⟨fun d mem moves => fits_wait (there.1 d mem moves) rfl le, there.2⟩
  | setting decision calledAt decisions =>
    rw [phase] at there
    obtain ⟨fits, agree, moves, fits', cooled⟩ := there
    exact ⟨fun d mem moves => fits_wait (fits d mem moves) rfl le, agree, moves, fits_wait fits' rfl le_rfl, cooled⟩

/-- Setting a pool changes no other. -/
lemma pools_setPool {state : PoolState} (pool' : String) :
    (s.setPool pool state).pools pool' = if pool' = pool then state else s.pools pool' :=
  Function.update_apply ..

/-- A pool of which only the known count changes. -/
lemma sound_refresh {answer : Answer} (sound : Sound config s) (idle : s.phase = .idle) :
    Sound config (s.setPool pool ((s.pools pool).refresh answer)) := by
  have same : ∀ pool', ((s.setPool pool ((s.pools pool).refresh answer)).pools pool').quietSince =
        (s.pools pool').quietSince ∧
      ((s.setPool pool ((s.pools pool).refresh answer)).pools pool').lastActionAt = (s.pools pool').lastActionAt := by
    intro pool'
    rw [pools_setPool]
    split
    case isTrue here =>
      rw [here]
      cases answer with
      | count n => exact ⟨rfl, rfl⟩
      | unknown => exact ⟨rfl, rfl⟩
      | failed => exact ⟨rfl, rfl⟩
    case isFalse => exact ⟨rfl, rfl⟩
  refine ⟨fun pool' since quiet => ?_, fun calledAt doneAt pool' before replicas mem => ?_, fun pool' last acted => ?_,
    ?_, sound.removes⟩
  · rw [(same pool').1] at quiet
    exact sound.quiet pool' since quiet
  · rw [(same pool').2]
    exact sound.acted calledAt doneAt pool' before replicas mem
  · rw [(same pool').2] at acted
    exact sound.clock pool' last acted
  · rw [System.PhaseSound, show (s.setPool pool _).phase = .idle from idle]
    trivial

section EvaluatePool
variable {pools : List String} {decisions : List ScaleDecision} {delay : ℕ}

/-- Evaluating a pool records what is observed of it, and of no other. -/
lemma pools_evaluatePool (pool' : String) :
    (s.evaluatePool config samples pool pools decisions delay).pools pool' =
      if pool' = pool then config.observe (s.pools pool) s.now (pendingForPool samples pool) else s.pools pool' :=
  pools_setPool pool'

/-- Since the time it notes, a pool was low at each evaluation. -/
lemma quiet_evaluatePool (sound : Sound config s) (pool' : String) (since : ℕ)
    (quiet : ((s.evaluatePool config samples pool pools decisions delay).pools pool').quietSince = some since) :
    QuietSince (IsLow config) (s.events ++ [.evaluated s.now pool samples]) pool' since := by
  rw [pools_evaluatePool] at quiet
  split at quiet
  case isTrue here =>
    rw [AutoscalerConfig.observe] at quiet
    dsimp only at quiet
    split at quiet
    case isTrue low =>
      subst here
      cases before : (s.pools pool').quietSince with
      | none =>
        rw [before] at quiet
        cases quiet
        exact ⟨s.events, samples, [], rfl, low, fun e mem => absurd mem List.not_mem_nil⟩
      | some time =>
        rw [before] at quiet
        cases quiet
        exact quietSince_snoc (sound.quiet pool' time before) fun _ => low
    case isFalse => cases quiet
  case isFalse other => exact quietSince_snoc (sound.quiet pool' since quiet) fun same => absurd same.symm other

/-- A decision for the pool, made from the same samples, stays as it was. -/
lemma decided_evaluatePool {d : ScaleDecision} (decided : d.Decided config samples s) :
    d.Decided config samples (s.evaluatePool config samples pool pools decisions delay) := by
  have state : (s.evaluatePool config samples pool pools decisions delay).pools d.pool = _ := pools_evaluatePool d.pool
  have le : s.now ≤ s.now + delay := Nat.le_add_right ..
  by_cases here : d.pool = pool
  · rw [if_pos here] at state
    refine ⟨?_, decided.stepped, fun current same down => ?_⟩
    · rw [state, ← here]
      exact decided.known
    · obtain ⟨settled, low⟩ := decided.settled current same down
      obtain ⟨since, quiet, early⟩ := isSettled_iff.1 settled
      refine ⟨isSettled_iff.2 ⟨since, ?_, early.trans le⟩, low⟩
      rw [state, ← here, AutoscalerConfig.observe]
      dsimp only
      rw [if_pos (show pendingForPool samples d.pool ≤ config.scaleDownThreshold from low), quiet]
      rfl
  · rw [if_neg here] at state
    refine ⟨by rw [state]; exact decided.known, decided.stepped, fun current same down => ?_⟩
    rw [state]
    exact (decided.settled current same down).imp_left fun settled => isSettled_mono settled le

/-- A pool is evaluated, and the decision about it noted. -/
lemma sound_evaluatePool (sound : Sound config s) (phase : s.phase = .evaluating samples (pool :: pools) decisions) :
    Sound config (s.evaluatePool config samples pool pools decisions delay) := by
  have lastActionAt : ∀ pool', ((s.evaluatePool config samples pool pools decisions delay).pools pool').lastActionAt =
      (s.pools pool').lastActionAt := by
    intro pool'
    rw [pools_evaluatePool]
    split
    case isTrue here => rw [here]; rfl
    case isFalse => rfl
  have le : s.now ≤ s.now + delay := Nat.le_add_right ..
  refine ⟨quiet_evaluatePool sound, fun calledAt doneAt pool' before replicas mem => ?_, fun pool' last acted => ?_, ?_,
    removesQuietly_snoc (e := .evaluated s.now pool samples) sound.removes trivial rfl⟩
  · rw [lastActionAt]
    rcases List.mem_append.1 mem with old | new
    · exact sound.acted calledAt doneAt pool' before replicas old
    · cases List.mem_singleton.1 new
  · rw [lastActionAt] at acted
    exact (sound.clock pool' last acted).trans le
  · have there := sound.phase
    rw [System.PhaseSound, phase] at there
    show ∀ d ∈ decisions ++ [_], _
    intro d mem moves
    rcases List.mem_append.1 mem with old | new
    · exact decided_evaluatePool (there d old moves)
    · obtain rfl := List.mem_singleton.1 new
      obtain ⟨current, known, same, replicas, settled⟩ := decision_spec moves
      have state : (s.evaluatePool config samples pool pools decisions delay).pools pool =
          config.observe (s.pools pool) s.now (pendingForPool samples pool) := by
        rw [pools_evaluatePool, if_pos rfl]
      refine ⟨?_, ⟨current, same, ?_⟩, fun current' same' down => ?_⟩
      · rw [pool_decision, state, known, same]
      · rw [pool_decision, replicas]
      · rw [same] at same'
        cases same'
        rw [replicas] at down
        have settled := settled down
        rw [pool_decision, state]
        refine ⟨settled, ?_⟩
        obtain ⟨since, quiet, -⟩ := isSettled_iff.1 settled
        rw [AutoscalerConfig.observe] at quiet
        dsimp only at quiet
        split at quiet
        case isTrue low => exact low
        case isFalse => cases quiet

end EvaluatePool

/-- A decision of an evaluation, as `apply` gets it. -/
lemma ScaleDecision.Decided.fits {d : ScaleDecision} (decided : d.Decided config samples s) :
    d.Fits config s.now s where
  known := .inl decided.known
  small current here down := by
    obtain ⟨current', here', replicas⟩ := decided.stepped
    obtain rfl : current = current' := Option.some.inj (here.symm.trans here')
    refine ⟨?_, (decided.settled current here down).1⟩
    rw [replicas]
    exact sub_stepped_le

/-- Decisions about one pool that were made in one evaluation agree. -/
lemma agree_of_decided {decisions : List ScaleDecision}
    (decided : ∀ d ∈ decisions, d.action ≠ .none → d.Decided config samples s) : Agree decisions := by
  intro d mem d' mem' moves moves' same
  obtain ⟨current, here, replicas⟩ := (decided d mem moves).stepped
  obtain ⟨current', here', replicas'⟩ := (decided d' mem' moves').stepped
  have known := (decided d mem moves).known
  have known' := (decided d' mem' moves').known
  rw [same, known', here, here'] at known
  cases known
  rw [replicas, replicas', same]

/-- The decisions that are left agree. -/
lemma agree_tail {d : ScaleDecision} {decisions : List ScaleDecision} (agree : Agree (d :: decisions)) :
    Agree decisions :=
  fun e mem e' mem' => agree e (List.mem_cons_of_mem _ mem) e' (List.mem_cons_of_mem _ mem')

/-- An action that lowers the count carries out a decision to lower it. -/
lemma justified_acted {decision : ScaleDecision} {calledAt : ℕ} {decisions : List ScaleDecision}
    (sound : Sound config s) (phase : s.phase = .setting decision calledAt decisions) :
    Event.Justified (IsLow config) config s.events
      (.acted calledAt s.now decision.pool (s.pools decision.pool).lastKnown decision.replicas) := by
  have there := sound.phase
  rw [System.PhaseSound, phase] at there
  obtain ⟨-, -, -, fits, cooled⟩ := there
  intro count known down
  have current : decision.current = some count := by
    rcases fits.known with same | same
    · exact same.symm.trans known
    · rw [known] at same
      exact absurd (Option.some.inj same).symm down.ne
  obtain ⟨small, settled⟩ := fits.small count current down
  obtain ⟨since, quiet, early⟩ := isSettled_iff.1 settled
  refine ⟨⟨since, early, sound.quiet _ since quiet⟩, fun calledAt' doneAt' before' replicas' mem => ?_, small⟩
  obtain ⟨last, acted, le⟩ := sound.acted calledAt' doneAt' decision.pool before' replicas' mem
  rw [AutoscalerConfig.isCooling, acted, Option.any_some, decide_eq_false_iff_not, Nat.not_lt] at cooled
  exact (Nat.add_le_add_right le _).trans cooled

/-- The provider has answered, and the next decision is taken up. -/
lemma sound_acted {decision : ScaleDecision} {calledAt : ℕ} {decisions : List ScaleDecision} (sound : Sound config s)
    (phase : s.phase = .setting decision calledAt decisions) : Sound config (s.acted decision calledAt decisions) := by
  have pools : ∀ pool, (s.acted decision calledAt decisions).pools pool =
      if pool = decision.pool then
        { s.pools decision.pool with lastActionAt := some s.now, lastKnown := some decision.replicas }
      else s.pools pool := fun pool => pools_setPool pool
  have quietSince : ∀ pool, ((s.acted decision calledAt decisions).pools pool).quietSince =
      (s.pools pool).quietSince := by
    intro pool
    rw [pools]
    split
    case isTrue here => rw [here]
    case isFalse => rfl
  have there := sound.phase
  rw [System.PhaseSound, phase] at there
  obtain ⟨fits, agree, moves, -, -⟩ := there
  refine ⟨fun pool since quiet => ?_, fun calledAt' doneAt' pool before' replicas' mem => ?_, fun pool last acted => ?_,
    ⟨fun d mem moves' => ?_, agree_tail agree⟩, removesQuietly_snoc sound.removes (justified_acted sound phase) rfl⟩
  · rw [quietSince] at quiet
    exact quietSince_snoc (sound.quiet pool since quiet) trivial
  · rw [pools]
    split
    case isTrue here =>
      refine ⟨s.now, rfl, ?_⟩
      rcases List.mem_append.1 mem with old | new
      · obtain ⟨last, acted, le⟩ := sound.acted calledAt' doneAt' pool before' replicas' old
        exact le.trans (sound.clock pool last acted)
      · cases List.mem_singleton.1 new
        exact le_rfl
    case isFalse other =>
      rcases List.mem_append.1 mem with old | new
      · exact sound.acted calledAt' doneAt' pool before' replicas' old
      · cases List.mem_singleton.1 new
        exact absurd rfl other
  · rw [pools] at acted
    split at acted
    case isTrue => cases acted; exact le_rfl
    case isFalse => exact sound.clock pool last acted
  · have old := fits d (List.mem_cons_of_mem _ mem) moves'
    refine ⟨?_, fun current here down => ?_⟩
    · rw [pools]
      split
      case isTrue same =>
        exact .inr (congrArg some (agree decision List.mem_cons_self d (List.mem_cons_of_mem _ mem) moves moves'
          same.symm))
      case isFalse => exact old.known
    · refine (old.small current here down).imp_right fun settled => ?_
      rw [AutoscalerConfig.isSettled, quietSince]
      exact settled

/-- A decision is taken up. -/
lemma sound_apply {decision : ScaleDecision} {decisions : List ScaleDecision} {hasProvider : Bool}
    (sound : Sound config s) (phase : s.phase = .applying (decision :: decisions)) (taken :
      s.step config hasProvider .apply = some s') : Sound config s' := by
  have there := sound.phase
  rw [System.PhaseSound, phase] at there
  obtain ⟨fits, agree⟩ := there
  simp only [System.step, phase] at taken
  split at taken
  case isTrue =>
    cases taken
    exact sound_phase sound
      ⟨fun d mem moves => fits_wait (fits d (List.mem_cons_of_mem _ mem) moves) rfl le_rfl, agree_tail agree⟩
  case isFalse goes =>
    cases taken
    simp only [Bool.or_eq_true, not_or, decide_eq_true_iff, Bool.not_eq_true] at goes
    have moves := goes.1.1.1
    exact sound_phase sound ⟨fun d mem moves => fits_wait (fits d mem moves) rfl le_rfl, agree, moves,
      fits_wait (fits decision List.mem_cons_self moves) rfl le_rfl, goes.2⟩

/-- The decisions of an evaluation are applied. -/
lemma sound_finish {samples : List QueueDepthSample} {decisions : List ScaleDecision} (sound : Sound config s)
    (phase : s.phase = .evaluating samples [] decisions) : Sound config { s with phase := .applying decisions } := by
  have decided := sound.phase
  rw [System.PhaseSound, phase] at decided
  exact sound_phase sound
    ⟨fun d mem moves => fits_wait (decided d mem moves).fits rfl le_rfl, agree_of_decided decided⟩

/-- The provider refuses. -/
lemma sound_refused {decision : ScaleDecision} {calledAt : ℕ} {decisions : List ScaleDecision}
    (sound : Sound config s) (phase : s.phase = .setting decision calledAt decisions) :
    Sound config { s with phase := .applying decisions } := by
  have there := sound.phase
  rw [System.PhaseSound, phase] at there
  exact sound_phase sound
    ⟨fun d mem moves => fits_wait (there.1 d (List.mem_cons_of_mem _ mem) moves) rfl le_rfl, agree_tail there.2.1⟩

/-- Each step keeps soundness. -/
lemma sound_step {hasProvider : Bool} {m : Move} (sound : Sound config s)
    (taken : s.step config hasProvider m = some s') : Sound config s' := by
  cases m with
  | wait delay => cases taken; exact sound_wait sound
  | refresh pool answer =>
    rw [System.step] at taken
    split at taken
    case h_1 idle =>
      cases taken
      split
      · exact sound_refresh sound idle
      · exact sound
    case h_2 => cases taken
  | evaluate samples =>
    rw [System.step] at taken
    split at taken
    case h_1 => cases taken; exact sound_phase sound fun d mem => absurd mem List.not_mem_nil
    case h_2 => cases taken
  | evaluatePool delay =>
    rw [System.step] at taken
    split at taken
    case h_1 samples pool pools decisions phase => cases taken; exact sound_evaluatePool sound phase
    case h_2 => cases taken
  | finish applied =>
    rw [System.step] at taken
    split at taken
    case h_1 samples decisions phase =>
      cases taken
      cases applied with
      | false => exact sound_phase sound trivial
      | true => exact sound_finish sound phase
    case h_2 => cases taken
  | apply =>
    have taken' := taken
    rw [System.step] at taken
    split at taken
    case h_1 decision decisions phase => exact sound_apply sound phase taken'
    case h_2 => cases taken
  | setReplicaCount succeeds =>
    rw [System.step] at taken
    split at taken
    case h_1 decision calledAt decisions phase =>
      cases taken
      cases succeeds with
      | true => exact sound_acted sound phase
      | false => exact sound_refused sound phase
    case h_2 => cases taken
  | done =>
    rw [System.step] at taken
    split at taken
    case h_1 => cases taken; exact sound_phase sound trivial
    case h_2 => cases taken

/-- At the start nothing was observed. -/
lemma sound_initial (now : ℕ) : Sound config (System.initial now) where
  quiet pool since quiet := by cases quiet
  acted calledAt doneAt pool before replicas mem := by cases mem
  clock pool last acted := by cases acted
  phase := trivial
  removes before e later split := by cases before <;> cases split

/-- In every run of any configuration, an action that lowers the count of a pool comes after an evaluation, as early as
the stabilization asks for, since when all evaluations of the pool found its known backlog at the threshold or below;
earlier actions on the pool are over for the cooldown, and the step is at most the largest one. -/
theorem removes_from_quiet_pools (config : AutoscalerConfig) (hasProvider : Bool) (now : ℕ) (trace : List Move) :
    Machine.Always (System.step config hasProvider) (RemovesQuietly (IsLow config) config) (System.initial now)
      trace := by
  have always : Machine.Always (System.step config hasProvider) (Sound config) (System.initial now) trace :=
    Machine.always_of_guarded (sound_initial now) (fun _ _ _ sound _ taken => sound_step sound taken)
      (show Machine.Guarded _ (fun _ _ => True) _ trace from fun _ _ _ _ _ => trivial)
  exact fun pre s le run => (always pre s le run).removes

/-- One pool; ten minutes of quiet, five minutes between actions. -/
def sampleConfig : AutoscalerConfig where
  enabled := true
  minReplicas := 1
  maxReplicas := 20
  targetMessagesPerReplica := 250
  maxScaleStep := 5
  cooldownMs := 300000
  scaleDownStabilizationMs := 600000
  scaleDownThreshold := 250
  pools := ["celery-webhook"]

/-- The only queue of the pool cannot be probed for ten minutes. -/
def blindTrace : List Move :=
  [.refresh "celery-webhook" (.count 8), .evaluate [⟨"q", "celery-webhook", -1⟩], .evaluatePool 0, .finish true, .apply,
    .done, .wait 600000, .evaluate [⟨"q", "celery-webhook", -1⟩], .evaluatePool 0, .finish true, .apply,
    .setReplicaCount true]

/-- Five replicas are removed from a pool of which nothing was known. -/
theorem removes_from_unknown_pool : ¬Machine.Always (System.step sampleConfig true)
    (RemovesQuietly (fun samples pool => IsKnown samples pool ∧ IsLow sampleConfig samples pool) sampleConfig)
    (System.initial 0) blindTrace := by
  intro always
  have run : (Machine.exec (System.step sampleConfig true) (System.initial 0) blindTrace).map (·.events) =
      some [.evaluated 0 "celery-webhook" [⟨"q", "celery-webhook", -1⟩],
        .evaluated 600000 "celery-webhook" [⟨"q", "celery-webhook", -1⟩],
        .acted 600000 600000 "celery-webhook" (some 8) 3] := by rfl
  obtain ⟨s, reached, events⟩ := Option.map_eq_some_iff.1 run
  obtain ⟨⟨since, -, before, samples, later, split, ⟨⟨-, known⟩, -⟩, -⟩, -⟩ :=
    always _ s (List.prefix_refl _) reached [_, _] _ [] events 8 rfl (by decide)
  -- both evaluations have the same sample
  have mem : Event.evaluated since "celery-webhook" samples ∈
      before ++ .evaluated since "celery-webhook" samples :: later := List.mem_append_right _ List.mem_cons_self
  rw [← split] at mem
  have same : samples = [⟨"q", "celery-webhook", -1⟩] := by
    rcases List.mem_cons.1 mem with here | mem
    · cases here
      rfl
    · cases List.mem_singleton.1 mem
      rfl
  subst same
  exact known _ List.mem_cons_self rfl rfl

end StellarFlow.Autoscaler
