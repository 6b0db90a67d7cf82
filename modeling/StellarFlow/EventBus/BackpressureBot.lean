import Mathlib.Algebra.Order.BigOperators.Group.List
import Mathlib.Algebra.Order.Ring.Rat
import Mathlib.Data.List.ReduceOption
import Mathlib.Data.Rat.Floor
import StellarFlow.Lib.Dict
import StellarFlow.Lib.JavaScript
import StellarFlow.Lib.Machine

/-!
# Backpressure incidents

Model of `src/services/eventBus/queueBackpressureBot.ts` and of the settings of the bot in `config.ts`: cycles evaluate
the samples of the queues and their sum, and scopes are forgotten now and then. An evaluation does not await before its
alerts are made. What reads the clock is given what it reads. How alerts are delivered is left out.
-/

namespace StellarFlow.BackpressureBot
open Machine

inductive BackpressureLevel where
  | ok
  | warning
  | critical
  deriving DecidableEq

/-- The `kind` of an alert. -/
inductive AlertKind where
  | trigger
  | reminder
  | resolve
  deriving DecidableEq

inductive QueueTransport where
  | redisList
  | redisStream
  | redisSet
  | redisPubsub
  | amqp
  deriving DecidableEq

structure AlertBotConfig where
  threshold : ℚ
  criticalThreshold : ℚ
  cooldownMs : ℚ
  totalScopeName : String
  alertOnTotal : Bool
  recoveryRatio : ℚ
  resolveOnRecovery : Bool

/-- A sample, without the fields that the bot does not read. -/
structure QueueDepthSample where
  name : String
  pool : String
  transport : QueueTransport
  pending : ℤ
  unacked : Option ℤ
  consumers : Option ℤ

/-- `UNKNOWN_DEPTH`. -/
def UNKNOWN_DEPTH : ℤ := -1

structure Thresholds where
  warning : ℚ
  critical : ℚ

structure ScopeState where
  level : BackpressureLevel
  lastNotifiedAt : Option ℤ
  lastPending : ℤ
  peakPending : ℤ
  lastAlertAt : Option ℤ
  deriving DecidableEq

/-- What an alert says of a queue. -/
structure QueueLine where
  name : String
  pool : String
  transport : QueueTransport
  pending : ℤ
  consumers : Option ℤ
  unacked : Option ℤ

/-- An alert; `observedAt` is the time whose text it has. -/
structure BackpressureAlert where
  scope : String
  pool : Option String
  level : BackpressureLevel
  pending : ℤ
  threshold : ℚ
  criticalThreshold : ℚ
  overshootPercent : ℚ
  kind : AlertKind
  observedAt : ℤ
  queues : List QueueLine
  probeErrors : List String
  desiredReplicas : Option ℕ

/-- What the clock says in an evaluation of a scope, when the cooldown is looked at and when the alert is noted. -/
structure Clock where
  checked : ℤ
  noted : ℤ
  deriving DecidableEq

/-- The state of the bot. -/
structure Bot where
  scopes : Dict String ScopeState

/-- What the bot is made with. -/
structure Options where
  config : AlertBotConfig
  thresholds : Dict String Thresholds

/-- `thresholdsFor`. -/
def Options.thresholdsFor (options : Options) (queueName : String) : Thresholds :=
  (options.thresholds.get? queueName).getD ⟨options.config.threshold, options.config.criticalThreshold⟩

/-- A scope to evaluate: its backlog, and what an alert about it says besides. -/
structure Target where
  scope : String
  pending : ℤ
  thresholds : Thresholds
  breakdown : List QueueDepthSample
  pool : Option String

/-- What is the same for all scopes of a cycle. -/
structure Context where
  observedAt : ℤ
  probeErrors : List String
  resolveDesiredReplicas : Option String → Option ℕ

/-- A state that `stateFor` makes. -/
def ScopeState.new : ScopeState := ⟨.ok, none, 0, 0, none⟩

/-- `stateFor`. -/
def Bot.stateFor (bot : Bot) (scope : String) : ScopeState := (bot.scopes.get? scope).getD .new

/-- `cooldownElapsed`. -/
def cooldownElapsed (config : AlertBotConfig) (lastNotifiedAt : Option ℤ) (clock : Clock) : Bool :=
  match lastNotifiedAt with
  | none => true
  | some lastNotifiedAt => config.cooldownMs ≤ (clock.checked - lastNotifiedAt : ℤ)

/-- `rawLevel`. -/
def rawLevel (thresholds : Thresholds) (pending : ℤ) : BackpressureLevel :=
  if thresholds.critical ≤ pending then .critical else .warning

/-- What `evaluateScope` makes of the state of the scope: the state, the level and the kind of the alert. -/
def ScopeState.evaluate (config : AlertBotConfig) (state : ScopeState) (pending : ℤ) (thresholds : Thresholds)
    (observedAt : ℤ) (clock : Clock) : ScopeState × BackpressureLevel × Option AlertKind :=
  let recoveryThreshold := thresholds.warning * config.recoveryRatio
  if pending < recoveryThreshold then
    let recovered := { state with lastPending := pending, level := .ok }
    if state.level ≠ .ok ∧ config.resolveOnRecovery then
      ({ recovered with lastNotifiedAt := some clock.noted, lastAlertAt := some observedAt }, .ok, some .resolve)
    else (recovered, .ok, none)
  else
    let rawLevel := rawLevel thresholds pending
    if pending < thresholds.warning then ({ state with lastPending := pending }, state.level, none)
    else
      let escalated : Bool := state.level ≠ rawLevel
      let level := if escalated then rawLevel else state.level
      let seen := { state with lastPending := pending, peakPending := max state.peakPending pending }
      if !escalated && !cooldownElapsed config state.lastNotifiedAt clock then (seen, level, none)
      else
        ({ seen with level := level, lastNotifiedAt := some clock.noted, lastAlertAt := some observedAt }, level,
          some (if escalated then .trigger else .reminder))

/-- `buildAlert`. -/
def buildAlert (context : Context) (target : Target) (level : BackpressureLevel) (kind : AlertKind) :
    BackpressureAlert where
  scope := target.scope
  pool := target.pool
  level := level
  pending := target.pending
  threshold := target.thresholds.warning
  criticalThreshold := target.thresholds.critical
  overshootPercent :=
    if 0 < target.thresholds.warning then ⌊target.pending / target.thresholds.warning * 1000 + 1 / 2⌋ / 10 else 0
  kind := kind
  observedAt := context.observedAt
  queues := (target.breakdown.mergeSort fun a b => b.pending ≤ a.pending).map fun sample =>
    ⟨sample.name, sample.pool, sample.transport, sample.pending, sample.consumers, sample.unacked⟩
  probeErrors := context.probeErrors
  desiredReplicas := context.resolveDesiredReplicas target.pool

/-- What `evaluateScope` returns, with the scope and what the clock said. -/
structure Outcome where
  scope : String
  clock : Clock
  level : BackpressureLevel
  alert : Option BackpressureAlert

/-- `evaluateScope`. -/
def evaluateScope (config : AlertBotConfig) (context : Context) (bot : Bot) (target : Target × Clock) : Outcome × Bot :=
  let (state, level, kind) := (bot.stateFor target.1.scope).evaluate config target.1.pending target.1.thresholds
    context.observedAt target.2
  (⟨target.1.scope, target.2, level, kind.map (buildAlert context target.1 level)⟩,
    ⟨bot.scopes.set target.1.scope state⟩)

/-- The samples of probes that succeeded. -/
def healthy (samples : List QueueDepthSample) : List QueueDepthSample :=
  samples.filter fun sample => sample.pending ≠ UNKNOWN_DEPTH

/-- `totalPending`. -/
def totalPending (samples : List QueueDepthSample) : ℤ := ((healthy samples).map QueueDepthSample.pending).sum

/-- The scopes of a cycle, in the order of their evaluation. -/
def Options.targets (options : Options) (samples : List QueueDepthSample) : List Target :=
  ((healthy samples).map fun sample =>
    ⟨sample.name, sample.pending, options.thresholdsFor sample.name, [sample], some sample.pool⟩) ++
  if options.config.alertOnTotal then
    [⟨options.config.totalScopeName, totalPending samples,
      ⟨options.config.threshold, options.config.criticalThreshold⟩, healthy samples, none⟩]
  else []

/-- An evaluation, whose alerts are with what the clock said at them. -/
structure BackpressureEvaluation where
  alerts : List (Clock × BackpressureAlert)
  levels : Dict String BackpressureLevel
  totalPending : ℤ
  criticalScopes : List String

/-- What is asked of the bot. -/
inductive Command where
  | evaluate (context : Context) (clocks : ℕ → Clock) (samples : List QueueDepthSample)
  | forget (scope : String)

/-- The alert of an outcome. -/
def Outcome.alerted (outcome : Outcome) : Option (Clock × BackpressureAlert) :=
  outcome.alert.map fun alert => (outcome.clock, alert)

/-- The scopes of a cycle, each with what the clock says there. -/
def Options.timed (options : Options) (clocks : ℕ → Clock) (samples : List QueueDepthSample) : List (Target × Clock) :=
  (options.targets samples).zipIdx.map fun target => (target.1, clocks target.2)

/-- `evaluate` and `forget`. -/
def step (options : Options) (bot : Bot) : Command → Option BackpressureEvaluation × Bot
  | .evaluate context clocks samples =>
    let timed := options.timed clocks samples
    let outcomes := answers (evaluateScope options.config context) bot timed
    let levels := outcomes.foldl (fun levels outcome => levels.set outcome.scope outcome.level) .empty
    let failed := samples.filter fun sample => sample.pending = UNKNOWN_DEPTH
    (some {
      alerts := outcomes.filterMap Outcome.alerted
      levels := failed.foldl (fun levels sample => levels.set sample.name .ok) levels
      totalPending := totalPending samples
      criticalScopes := (outcomes.filter fun outcome => outcome.level = .critical).map Outcome.scope },
    after (evaluateScope options.config context) bot timed)
  | .forget scope => (none, ⟨bot.scopes.pop scope⟩)

/-! ### The settings -/

/-- What `process.env` has of a name. -/
abbrev Env := String → Option String

/-- `readNumber`; `number` is `Number(raw)` where it is finite. -/
def readNumber (number : String → Option ℚ) (env : Env) (key : String) (fallback min max : ℚ) : ℚ :=
  match env key with
  | none => fallback
  | some raw =>
    if Js.trim raw = "" then fallback
    else
      match number raw with
      | none => fallback
      | some parsed => if parsed < min ∨ max < parsed then fallback else ⌊parsed⌋

/-- `readBoolean`. -/
def readBoolean (env : Env) (key : String) (fallback : Bool) : Bool :=
  match env key with
  | none => fallback
  | some raw =>
    if Js.trim raw = "" then fallback
    else
      let normalized := (Js.trim raw).toLower
      if normalized ∈ ["1", "true", "yes", "on"] then true
      else if normalized ∈ ["0", "false", "no", "off"] then false
      else fallback

/-- `readString`. -/
def readString (env : Env) (key : String) : Option String :=
  match env key with
  | none => none
  | some raw => if Js.trim raw = "" then none else some (Js.trim raw)

/-- `Number.MAX_SAFE_INTEGER`. -/
def MAX_SAFE_INTEGER : ℚ := 9007199254740991

/-- The settings of the bot that `loadEventBusConfig` reads. -/
def alertConfig (number : String → Option ℚ) (env : Env) : AlertBotConfig :=
  let threshold := readNumber number env "EVENT_BUS_BACKPRESSURE_THRESHOLD" 1000 1 MAX_SAFE_INTEGER
  let criticalThreshold :=
    readNumber number env "EVENT_BUS_CRITICAL_THRESHOLD" (max threshold (threshold * 5)) 1 MAX_SAFE_INTEGER
  { threshold := threshold
    criticalThreshold := max threshold criticalThreshold
    cooldownMs := readNumber number env "EVENT_BUS_ALERT_COOLDOWN_MS" (15 * 60 * 1000) 0 MAX_SAFE_INTEGER
    totalScopeName := (readString env "EVENT_BUS_TOTAL_SCOPE_NAME").getD "event-bus-total"
    alertOnTotal := readBoolean env "EVENT_BUS_ALERT_ON_TOTAL" true
    resolveOnRecovery := readBoolean env "EVENT_BUS_RESOLVE_ALERTS" true
    recoveryRatio := readNumber number env "EVENT_BUS_RECOVERY_RATIO" (1 / 2) (1 / 100) (99 / 100) }

/-! ### What one scope sees -/

/-- What the evaluations of one scope are given. -/
structure Reading where
  pending : ℤ
  thresholds : Thresholds
  observedAt : ℤ
  clock : Clock

/-- The backlog is below the recovery mark. -/
def Reading.Recovers (config : AlertBotConfig) (r : Reading) : Prop :=
  r.pending < r.thresholds.warning * config.recoveryRatio

/-- The backlog calls for an incident. -/
def Reading.Raises (config : AlertBotConfig) (r : Reading) : Prop :=
  ¬r.Recovers config ∧ r.thresholds.warning ≤ r.pending

/-- The level of a backlog that calls for an incident. -/
abbrev Reading.rawLevel (r : Reading) : BackpressureLevel := BackpressureBot.rawLevel r.thresholds r.pending

/-- An alert of the log of a scope. -/
structure Entry where
  clock : Clock
  level : BackpressureLevel
  kind : AlertKind
  deriving DecidableEq

/-- The level of a scope after its last alert. -/
def notified (log : List Entry) : BackpressureLevel := (log.getLast?.map Entry.level).getD .ok

/-- Since the scope last recovered its backlog has called for an incident, the last time for one of this level. -/
def Raised (config : AlertBotConfig) (readings : List Reading) (level : BackpressureLevel) : Prop :=
  ∃ before r later, readings = before ++ r :: later ∧ r.Raises config ∧ r.rawLevel = level ∧
    ∀ q ∈ later, ¬q.Recovers config ∧ ¬q.Raises config

/-- The log of a scope that has these readings. A backlog that calls for an incident is a trigger, unless the scope is
already raised to its level; then it is a reminder once the cooldown since the last alert is over. A backlog below the
recovery mark is the end of an open incident, if recoveries are notified. Nothing else is an alert. -/
inductive Incidents (config : AlertBotConfig) : List Reading → List Entry → Prop
  | nil : Incidents config [] []
  | trigger {readings : List Reading} {log : List Entry} {r : Reading} (before : Incidents config readings log)
      (raises : r.Raises config) (changes : ¬Raised config readings r.rawLevel) :
      Incidents config (readings ++ [r]) (log ++ [⟨r.clock, r.rawLevel, .trigger⟩])
  | reminder {readings : List Reading} {log : List Entry} {r : Reading} {p : Entry}
      (before : Incidents config readings log) (raises : r.Raises config) (same : Raised config readings r.rawLevel)
      (last : log.getLast? = some p) (cooled : config.cooldownMs ≤ (r.clock.checked - p.clock.noted : ℤ)) :
      Incidents config (readings ++ [r]) (log ++ [⟨r.clock, r.rawLevel, .reminder⟩])
  | quiet {readings : List Reading} {log : List Entry} {r : Reading} {p : Entry}
      (before : Incidents config readings log) (raises : r.Raises config) (same : Raised config readings r.rawLevel)
      (last : log.getLast? = some p) (soon : (r.clock.checked - p.clock.noted : ℤ) < config.cooldownMs) :
      Incidents config (readings ++ [r]) log
  | resolve {readings : List Reading} {log : List Entry} {r : Reading} {level : BackpressureLevel}
      (before : Incidents config readings log) (recovers : r.Recovers config) (raised : Raised config readings level)
      (notifies : config.resolveOnRecovery = true) :
      Incidents config (readings ++ [r]) (log ++ [⟨r.clock, .ok, .resolve⟩])
  | recovered {readings : List Reading} {log : List Entry} {r : Reading} (before : Incidents config readings log)
      (recovers : r.Recovers config)
      (silent : config.resolveOnRecovery = true → ∀ level, ¬Raised config readings level) :
      Incidents config (readings ++ [r]) log
  | holds {readings : List Reading} {log : List Entry} {r : Reading} (before : Incidents config readings log)
      (high : ¬r.Recovers config) (low : ¬r.Raises config) : Incidents config (readings ++ [r]) log

/-- An evaluation of one scope. -/
def scopeStep (config : AlertBotConfig) (state : ScopeState) (r : Reading) : Option Entry × ScopeState :=
  let (state', level, kind) := state.evaluate config r.pending r.thresholds r.observedAt r.clock
  (kind.map fun kind => ⟨r.clock, level, kind⟩, state')

/-- The log of a scope that has these readings. -/
def scopeLog (config : AlertBotConfig) (readings : List Reading) : List Entry :=
  (answers (scopeStep config) .new readings).reduceOption

/-- The state of a scope that had these readings. -/
def scopeAfter (config : AlertBotConfig) (readings : List Reading) : ScopeState :=
  after (scopeStep config) .new readings

section Scope
variable {config : AlertBotConfig} {state : ScopeState} {r : Reading} {readings : List Reading} {log : List Entry}

/-- A reading that raises is never at `ok`. -/
lemma rawLevel_ne_ok (r : Reading) : r.rawLevel ≠ .ok := by
  rw [Reading.rawLevel, rawLevel]
  split
  · exact nofun
  · exact nofun

/-- A recovered queue is at `ok`, and a resolve is sent where it was above and the bot resolves. -/
lemma scopeStep_recovers (recovers : r.Recovers config) :
    (scopeStep config state r).2.level = .ok ∧
      (((scopeStep config state r).1 = none ∧ (scopeStep config state r).2.lastNotifiedAt = state.lastNotifiedAt ∧
          (state.level = .ok ∨ config.resolveOnRecovery = false)) ∨
        ((scopeStep config state r).1 = some ⟨r.clock, .ok, .resolve⟩ ∧
          (scopeStep config state r).2.lastNotifiedAt = some r.clock.noted ∧ state.level ≠ .ok ∧
          config.resolveOnRecovery = true)) := by
  have below : (r.pending : ℚ) < r.thresholds.warning * config.recoveryRatio := recovers
  by_cases alerting : state.level ≠ .ok ∧ config.resolveOnRecovery = true
  · simp only [scopeStep, ScopeState.evaluate, if_pos below, if_pos alerting]
    exact ⟨trivial, .inr ⟨rfl, trivial, alerting⟩⟩
  · simp only [scopeStep, ScopeState.evaluate, if_pos below, if_neg alerting]
    refine ⟨trivial, .inl ⟨rfl, trivial, ?_⟩⟩
    by_cases calm : state.level = .ok
    · exact .inl calm
    · exact .inr (Bool.eq_false_iff.2 fun resolves => alerting ⟨calm, resolves⟩)

/-- Between the thresholds nothing changes. -/
lemma scopeStep_holds (high : ¬r.Recovers config) (low : ¬r.Raises config) :
    (scopeStep config state r).2.level = state.level ∧ (scopeStep config state r).1 = none ∧
      (scopeStep config state r).2.lastNotifiedAt = state.lastNotifiedAt := by
  have above : ¬(r.pending : ℚ) < r.thresholds.warning * config.recoveryRatio := high
  have below : (r.pending : ℚ) < r.thresholds.warning := not_le.1 fun le => low ⟨high, le⟩
  simp only [scopeStep, ScopeState.evaluate, if_neg above, if_pos below]
  exact ⟨trivial, rfl, trivial⟩

/-- Over a threshold the level is the raw one, and an alert is sent unless the level is old and cools down. -/
lemma scopeStep_raises (raises : r.Raises config) :
    (scopeStep config state r).2.level = r.rawLevel ∧
      (((scopeStep config state r).1 = none ∧ (scopeStep config state r).2.lastNotifiedAt = state.lastNotifiedAt ∧
          state.level = r.rawLevel ∧ ∃ t ∈ state.lastNotifiedAt, (r.clock.checked - t : ℤ) < config.cooldownMs) ∨
        ((scopeStep config state r).2.lastNotifiedAt = some r.clock.noted ∧
          (((scopeStep config state r).1 = some ⟨r.clock, r.rawLevel, .trigger⟩ ∧ state.level ≠ r.rawLevel) ∨
            ((scopeStep config state r).1 = some ⟨r.clock, r.rawLevel, .reminder⟩ ∧ state.level = r.rawLevel ∧
              ∀ t ∈ state.lastNotifiedAt, config.cooldownMs ≤ (r.clock.checked - t : ℤ))))) := by
  have above : ¬(r.pending : ℚ) < r.thresholds.warning * config.recoveryRatio := raises.1
  simp only [scopeStep, ScopeState.evaluate, if_neg above, if_neg (not_lt.2 raises.2)]
  by_cases same : state.level = r.rawLevel
  · simp only [same, ne_eq, not_true, decide_false, Bool.not_false, Bool.true_and]
    by_cases cooled : cooldownElapsed config state.lastNotifiedAt r.clock = true
    · rw [cooled]
      refine ⟨rfl, .inr ⟨rfl, .inr ⟨rfl, trivial, fun t mem => ?_⟩⟩⟩
      rw [mem, cooldownElapsed] at cooled
      exact of_decide_eq_true cooled
    · rw [Bool.eq_false_iff.2 cooled]
      refine ⟨rfl, .inl ⟨rfl, rfl, trivial, ?_⟩⟩
      cases noted : state.lastNotifiedAt with
      | none =>
        rw [noted] at cooled
        exact absurd rfl cooled
      | some t =>
        rw [noted, cooldownElapsed, decide_eq_true_iff] at cooled
        exact ⟨t, rfl, not_le.1 cooled⟩
  · simp only [same, ne_eq, not_false_eq_true, decide_true, Bool.not_true, Bool.false_and]
    exact ⟨rfl, .inr ⟨rfl, .inl ⟨rfl, trivial⟩⟩⟩

/-- The level is raised by the last reading that is not between the thresholds. -/
lemma raised_snoc {level : BackpressureLevel} :
    Raised config (readings ++ [r]) level ↔
      (r.Raises config ∧ r.rawLevel = level) ∨
        (¬r.Recovers config ∧ ¬r.Raises config ∧ Raised config readings level) := by
  constructor
  · rintro ⟨before, q, later, eq, raises, raw, calm⟩
    induction later using List.reverseRecOn with
    | nil =>
      obtain ⟨-, last⟩ := List.append_inj' eq rfl
      obtain rfl := List.singleton_inj.1 last
      exact .inl ⟨raises, raw⟩
    | append_singleton later last _ =>
      rw [← List.cons_append, ← List.append_assoc] at eq
      obtain ⟨rest, tail⟩ := List.append_inj' eq rfl
      obtain rfl := List.singleton_inj.1 tail
      obtain ⟨high, low⟩ := calm r (List.mem_append_right _ (List.mem_singleton_self r))
      exact .inr ⟨high, low, before, q, later, rest, raises, raw, fun x mem => calm x (List.mem_append_left _ mem)⟩
  · rintro (⟨raises, raw⟩ | ⟨high, low, before, q, later, rfl, raises, raw, calm⟩)
    · exact ⟨readings, r, [], rfl, raises, raw, nofun⟩
    · refine ⟨before, q, later ++ [r], by simp, raises, raw, fun x mem => ?_⟩
      obtain old | new := List.mem_append.1 mem
      · exact calm x old
      · exact List.mem_singleton.1 new ▸ ⟨high, low⟩

/-- An incident is not of the level `ok`. -/
lemma Raised.ne_ok {level : BackpressureLevel} (raised : Raised config readings level) : level ≠ .ok := by
  obtain ⟨-, q, -, -, -, rfl, -⟩ := raised
  exact rawLevel_ne_ok q

/-- What the log of a scope and its state have to do with each other and with what it read. -/
structure Settled (config : AlertBotConfig) (readings : List Reading) (state : ScopeState) (log : List Entry) :
    Prop where
  incidents : Incidents config readings log
  raised : ∀ level ≠ .ok, state.level = level ↔ Raised config readings level
  noted : state.lastNotifiedAt = log.getLast?.map fun e => e.clock.noted
  alerting : state.level ≠ .ok → notified log = state.level
  closed : config.resolveOnRecovery = true → notified log = state.level

/-- The last entry tells the level that was notified. -/
lemma notified_snoc (log : List Entry) (e : Entry) : notified (log ++ [e]) = e.level := by
  rw [notified, List.getLast?_concat]
  rfl

/-- There is a last alert, where its level is not `ok`. -/
lemma last_of_notified (raised : notified log ≠ .ok) : ∃ p, log.getLast? = some p := by
  rw [notified] at raised
  cases last : log.getLast? with
  | none =>
    rw [last] at raised
    exact absurd rfl raised
  | some p => exact ⟨p, rfl⟩

/-- After a recovery the record agrees with the level. -/
lemma Settled.recovers (settled : Settled config readings state log) (recovers : r.Recovers config) :
    Settled config (readings ++ [r]) (scopeStep config state r).2 (log ++ (scopeStep config state r).1.toList) := by
  obtain ⟨level, cases⟩ := @scopeStep_recovers config state r recovers
  have raised : ∀ l ≠ .ok, (scopeStep config state r).2.level = l ↔ Raised config (readings ++ [r]) l := by
    intro l ne
    rw [level, raised_snoc]
    exact ⟨fun eq => absurd eq.symm ne, fun raised => raised.elim (fun raises => absurd recovers raises.1.1)
      fun held => absurd recovers held.1⟩
  obtain ⟨silent, kept, calm⟩ | ⟨alert, noted, alerting, notifies⟩ := cases
  · rw [silent, Option.toList_none, List.append_nil]
    have ok : config.resolveOnRecovery = true → state.level = .ok := fun resolves =>
      calm.resolve_right fun never => absurd (resolves.symm.trans never) (by decide)
    refine ⟨settled.incidents.recovered recovers fun resolves l held => ?_, raised, kept.trans settled.noted,
      fun up => absurd level up, fun resolves => ?_⟩
    · exact held.ne_ok (((settled.raised l held.ne_ok).2 held).symm.trans (ok resolves))
    · rw [level, settled.closed resolves, ok resolves]
  · rw [alert, Option.toList_some]
    have opened := (settled.raised _ alerting).1 rfl
    refine ⟨settled.incidents.resolve recovers opened notifies, raised, ?_, fun up => absurd level up, fun _ => ?_⟩
    · rw [noted, List.getLast?_concat]
      rfl
    · rw [notified_snoc, level]

/-- After an alert, or one that cools down, it agrees too. -/
lemma Settled.raises (settled : Settled config readings state log) (raises : r.Raises config) :
    Settled config (readings ++ [r]) (scopeStep config state r).2 (log ++ (scopeStep config state r).1.toList) := by
  obtain ⟨level, cases⟩ := @scopeStep_raises config state r raises
  have raised : ∀ l ≠ .ok, (scopeStep config state r).2.level = l ↔ Raised config (readings ++ [r]) l := by
    intro l _
    rw [level, raised_snoc]
    exact ⟨fun eq => .inl ⟨raises, eq⟩, fun raised => raised.elim (fun up => up.2) fun held => absurd raises held.2.1⟩
  -- an alert of the new level, whichever its kind
  have alerted : ∀ {kind : AlertKind}, (scopeStep config state r).1 = some ⟨r.clock, r.rawLevel, kind⟩ →
      (scopeStep config state r).2.lastNotifiedAt = some r.clock.noted →
      Incidents config (readings ++ [r]) (log ++ [⟨r.clock, r.rawLevel, kind⟩]) →
      Settled config (readings ++ [r]) (scopeStep config state r).2 (log ++ (scopeStep config state r).1.toList) := by
    intro kind alert noted incidents
    rw [alert, Option.toList_some]
    refine ⟨incidents, raised, ?_, fun _ => ?_, fun _ => ?_⟩
    · rw [noted, List.getLast?_concat]
      rfl
    · rw [notified_snoc, level]
    · rw [notified_snoc, level]
  -- where the scope already is at the level, the log has a last alert
  have there : state.level = r.rawLevel → Raised config readings r.rawLevel ∧ ∃ p, log.getLast? = some p := by
    intro same
    have before := settled.alerting (same.symm ▸ rawLevel_ne_ok r)
    obtain ⟨p, last⟩ := last_of_notified (before.symm ▸ same.symm ▸ rawLevel_ne_ok r)
    exact ⟨(settled.raised _ (rawLevel_ne_ok r)).1 same, p, last⟩
  obtain ⟨silent, kept, same, t, noted, soon⟩ | ⟨noted, ⟨alert, differs⟩ | ⟨alert, same, cooled⟩⟩ := cases
  · rw [silent, Option.toList_none, List.append_nil]
    have before := settled.alerting (same.symm ▸ rawLevel_ne_ok r)
    obtain ⟨held, p, last⟩ := there same
    rw [settled.noted, last] at noted
    cases noted
    exact ⟨settled.incidents.quiet raises held last soon, raised, kept.trans settled.noted,
      fun _ => by rw [before, level, same], fun _ => by rw [before, level, same]⟩
  · refine alerted alert noted (settled.incidents.trigger raises fun held => differs ?_)
    exact (settled.raised _ (rawLevel_ne_ok r)).2 held
  · obtain ⟨held, p, last⟩ := there same
    refine alerted alert noted (settled.incidents.reminder raises held last (cooled _ ?_))
    rw [settled.noted, last]
    rfl

/-- Between the thresholds nothing has to change. -/
lemma Settled.holds (settled : Settled config readings state log) (high : ¬r.Recovers config) (low : ¬r.Raises config) :
    Settled config (readings ++ [r]) (scopeStep config state r).2 (log ++ (scopeStep config state r).1.toList) := by
  obtain ⟨level, silent, kept⟩ := @scopeStep_holds config state r high low
  rw [silent, Option.toList_none, List.append_nil]
  refine ⟨settled.incidents.holds high low, fun l ne => ?_, kept.trans settled.noted, fun up => ?_,
    fun resolves => ?_⟩
  · rw [level, settled.raised l ne, raised_snoc]
    exact ⟨fun held => .inr ⟨high, low, held⟩, fun held => held.elim (fun up => absurd up.1 low) fun held => held.2.2⟩
  · rw [level] at up ⊢
    exact settled.alerting up
  · rw [level, settled.closed resolves]

/-- A scope is settled after every list of readings. -/
lemma settled (config : AlertBotConfig) (readings : List Reading) :
    Settled config readings (scopeAfter config readings) (scopeLog config readings) := by
  induction readings using List.reverseRecOn with
  | nil =>
    refine ⟨.nil, fun l ne => ⟨fun eq => absurd eq.symm ne, ?_⟩, rfl, fun up => absurd rfl up, fun _ => rfl⟩
    rintro ⟨before, r, later, eq, -⟩
    simp at eq
  | append_singleton readings r ih =>
    have log : scopeLog config (readings ++ [r]) =
        scopeLog config readings ++ (scopeStep config (scopeAfter config readings) r).1.toList := by
      rw [scopeLog, answers_snoc, List.reduceOption_append, List.reduceOption_singleton]
      rfl
    rw [log, scopeAfter, after_snoc]
    by_cases recovers : r.Recovers config
    · exact ih.recovers recovers
    · by_cases raises : r.Raises config
      · exact ih.raises raises
      · exact ih.holds recovers raises

end Scope

/-! ### What the bot does for one scope -/

/-- What an evaluation of a scope is given. -/
def reading (context : Context) (target : Target × Clock) : Reading :=
  ⟨target.1.pending, target.1.thresholds, context.observedAt, target.2⟩

/-- The readings of a scope in a command. -/
def readingsOf (options : Options) (scope : String) : Command → List Reading
  | .evaluate context clocks samples =>
    ((options.timed clocks samples).filter fun target => target.1.scope = scope).map (reading context)
  | .forget _ => []

/-- What the log has of alerts. -/
def entriesOf (scope : String) (alerts : List (Clock × BackpressureAlert)) : List Entry :=
  (alerts.filter fun alert => alert.2.scope = scope).map fun alert => ⟨alert.1, alert.2.level, alert.2.kind⟩

/-- The alerts of an answer. -/
def alertsOf (answer : Option BackpressureEvaluation) : List (Clock × BackpressureAlert) :=
  answer.elim [] BackpressureEvaluation.alerts

/-- The log of a scope in a run. -/
def logOf (scope : String) (answers : List (Option BackpressureEvaluation)) : List Entry :=
  entriesOf scope (answers.flatMap alertsOf)

section Bot
variable {options : Options} {config : AlertBotConfig} {context : Context} {scope : String}

/-- The entries of a scope add up over an append. -/
lemma entriesOf_append (alerts more : List (Clock × BackpressureAlert)) :
    entriesOf scope (alerts ++ more) = entriesOf scope alerts ++ entriesOf scope more := by
  rw [entriesOf, List.filter_append, List.map_append]
  rfl

/-- An evaluation changes the state of its own scope. -/
lemma stateFor_evaluateScope (bot : Bot) (target : Target × Clock) :
    (evaluateScope config context bot target).2.stateFor scope =
      if target.1.scope = scope then (scopeStep config (bot.stateFor scope) (reading context target)).2
      else bot.stateFor scope := by
  rw [evaluateScope, Bot.stateFor, Dict.get?_set]
  by_cases same : target.1.scope = scope
  · rw [if_pos same.symm, if_pos same, ← same]
    rfl
  · rw [if_neg (Ne.symm same), if_neg same]
    rfl

/-- An evaluation alerts for its own scope. -/
lemma entriesOf_evaluateScope (bot : Bot) (target : Target × Clock) :
    entriesOf scope (evaluateScope config context bot target).1.alerted.toList =
      if target.1.scope = scope then (scopeStep config (bot.stateFor scope) (reading context target)).1.toList
      else [] := by
  by_cases same : target.1.scope = scope
  · rw [if_pos same, ← same, evaluateScope, scopeStep, reading, Outcome.alerted]
    generalize (bot.stateFor target.1.scope).evaluate config target.1.pending target.1.thresholds context.observedAt
      target.2 = made
    obtain ⟨state, level, _ | kind⟩ := made
    · rfl
    · simp [entriesOf, buildAlert]
  · rw [if_neg same, evaluateScope, Outcome.alerted]
    generalize (bot.stateFor target.1.scope).evaluate config target.1.pending target.1.thresholds context.observedAt
      target.2 = made
    obtain ⟨state, level, _ | kind⟩ := made
    · rfl
    · simp [entriesOf, buildAlert, same]

/-- The scopes evaluated in a cycle do for one scope what its readings do. -/
lemma scope_of_targets (bot : Bot) (targets : List (Target × Clock)) :
    (after (evaluateScope config context) bot targets).stateFor scope =
        after (scopeStep config) (bot.stateFor scope)
          ((targets.filter fun target => target.1.scope = scope).map (reading context)) ∧
      entriesOf scope ((answers (evaluateScope config context) bot targets).filterMap Outcome.alerted) =
        (answers (scopeStep config) (bot.stateFor scope)
          ((targets.filter fun target => target.1.scope = scope).map (reading context))).reduceOption := by
  induction targets generalizing bot with
  | nil => exact ⟨rfl, rfl⟩
  | cons target targets ih =>
    obtain ⟨state, log⟩ := ih (evaluateScope config context bot target).2
    have head : entriesOf scope ((answers (evaluateScope config context) bot (target :: targets)).filterMap
        Outcome.alerted) = entriesOf scope (evaluateScope config context bot target).1.alerted.toList ++
          entriesOf scope ((answers (evaluateScope config context) (evaluateScope config context bot target).2
            targets).filterMap Outcome.alerted) := by
      rw [← entriesOf_append, answers, List.filterMap_cons]
      cases (evaluateScope config context bot target).1.alerted with
      | none => rfl
      | some alert => rfl
    rw [head, log, entriesOf_evaluateScope]
    refine ⟨state.trans ?_, ?_⟩
    · rw [stateFor_evaluateScope]
      by_cases same : target.1.scope = scope
      · rw [if_pos same, List.filter_cons, if_pos (decide_eq_true same)]
        rfl
      · rw [if_neg same, List.filter_cons, if_neg fun eq => same (of_decide_eq_true eq)]
    · rw [stateFor_evaluateScope]
      by_cases same : target.1.scope = scope
      · rw [if_pos same, if_pos same, List.filter_cons, if_pos (decide_eq_true same), List.map_cons, answers]
        cases (scopeStep config (bot.stateFor scope) (reading context target)).1 with
        | none => rw [List.reduceOption_cons_of_none, Option.toList_none, List.nil_append]
        | some e => rw [List.reduceOption_cons_of_some, Option.toList_some, List.singleton_append]
      · rw [if_neg same, if_neg same, List.filter_cons, if_neg fun eq => same (of_decide_eq_true eq),
          List.nil_append]

/-- A run in which a scope is not forgotten does for the scope what its readings do. -/
lemma scope_of_run (bot : Bot) {trace : List Command} (kept : .forget scope ∉ trace) :
    (after (step options) bot trace).stateFor scope =
        after (scopeStep options.config) (bot.stateFor scope) (trace.flatMap (readingsOf options scope)) ∧
      logOf scope (answers (step options) bot trace) =
        (answers (scopeStep options.config) (bot.stateFor scope)
          (trace.flatMap (readingsOf options scope))).reduceOption := by
  induction trace generalizing bot with
  | nil => exact ⟨rfl, rfl⟩
  | cons command trace ih =>
    rw [List.mem_cons, not_or] at kept
    obtain ⟨state, log⟩ := ih (step options bot command).2 kept.2
    have head : logOf scope (answers (step options) bot (command :: trace)) =
        entriesOf scope (alertsOf (step options bot command).1) ++
          logOf scope (answers (step options) (step options bot command).2 trace) := by
      rw [logOf, answers, List.flatMap_cons, entriesOf_append, logOf]
    rw [head, log, List.flatMap_cons, after_append, answers_append, List.reduceOption_append]
    cases command with
    | evaluate context clocks samples =>
      obtain ⟨cycle, alerts⟩ := @scope_of_targets options.config context scope bot
        (options.timed clocks samples)
      have next : (step options bot (.evaluate context clocks samples)).2.stateFor scope = _ := cycle
      rw [next] at state ⊢
      exact ⟨state, congrArg (· ++ _) alerts⟩
    | forget other =>
      have differs : scope ≠ other := fun eq => kept.1 (eq ▸ rfl)
      have next : (step options bot (.forget other)).2.stateFor scope = bot.stateFor scope := by
        rw [step, Bot.stateFor, Dict.get?_pop, if_neg differs]
        rfl
      rw [next] at state ⊢
      exact ⟨state, rfl⟩

end Bot

/-- In every run since a scope was forgotten or not yet known, the alerts of the scope are the log of incidents of its
readings: a trigger exactly where a backlog calls for an incident of another level, a reminder exactly where the level
stays and the cooldown is over, and a resolve exactly where the backlog recovers from an open incident and recoveries
are notified. The level of the scope is what the last reading that called for an incident says, if the backlog has not
recovered since. Where recoveries are notified, it is the level of the last alert. -/
theorem incidents_of_run (options : Options) {bot : Bot} {scope : String} (unknown : bot.scopes.get? scope = none)
    {trace : List Command} (kept : .forget scope ∉ trace) :
    Incidents options.config (trace.flatMap (readingsOf options scope))
        (logOf scope (answers (step options) bot trace)) ∧
      (∀ level ≠ .ok, ((after (step options) bot trace).stateFor scope).level = level ↔
        Raised options.config (trace.flatMap (readingsOf options scope)) level) ∧
      (options.config.resolveOnRecovery = true →
        notified (logOf scope (answers (step options) bot trace)) =
          ((after (step options) bot trace).stateFor scope).level) := by
  obtain ⟨state, log⟩ := @scope_of_run options scope bot trace kept
  have new : bot.stateFor scope = .new := by
    rw [Bot.stateFor, unknown]
    rfl
  have done := settled options.config (trace.flatMap (readingsOf options scope))
  rw [state, log, new]
  exact ⟨done.incidents, done.raised, done.closed⟩

/-- The default settings. -/
def defaultConfig : AlertBotConfig := alertConfig (fun _ => none) fun _ => none

/-- A cycle of a queue with a backlog, at a time. -/
def cycleOf (time pending : ℤ) : Command :=
  .evaluate ⟨time, [], fun _ => none⟩ (fun _ => ⟨time, time⟩) [⟨"celery", "celery-webhook", .amqp, pending, none, none⟩]

/-- A backlog that reaches the warning threshold, the critical one, stays above the recovery mark and recovers. -/
theorem incidents_of_run_escalates :
    let trace := [cycleOf 0 1200, cycleOf 15000 6000, cycleOf 30000 700, cycleOf 45000 100]
    Incidents defaultConfig (trace.flatMap (readingsOf ⟨defaultConfig, .empty⟩ "celery"))
        (logOf "celery" (answers (step ⟨defaultConfig, .empty⟩) ⟨.empty⟩ trace)) ∧
      (∀ level ≠ .ok, ((after (step ⟨defaultConfig, .empty⟩) ⟨.empty⟩ trace).stateFor "celery").level = level ↔
        Raised defaultConfig (trace.flatMap (readingsOf ⟨defaultConfig, .empty⟩ "celery")) level) ∧
      notified (logOf "celery" (answers (step ⟨defaultConfig, .empty⟩) ⟨.empty⟩ trace)) =
        ((after (step ⟨defaultConfig, .empty⟩) ⟨.empty⟩ trace).stateFor "celery").level := by
  have kept : Command.forget "celery" ∉ [cycleOf 0 1200, cycleOf 15000 6000, cycleOf 30000 700, cycleOf 45000 100] := by
    simp [cycleOf]
  have unknown : (⟨.empty⟩ : Bot).scopes.get? "celery" = none := rfl
  obtain ⟨incidents, raised, closed⟩ := incidents_of_run ⟨defaultConfig, .empty⟩ unknown kept
  exact ⟨incidents, raised, closed rfl⟩

/-! ### A recovery ratio of the environment -/

/-- A recovery ratio between the bounds that `readNumber` checks is read as zero. -/
lemma recoveryRatio_of_env {number : String → Option ℚ} {env : Env} {raw : String} {ratio : ℚ}
    (given : env "EVENT_BUS_RECOVERY_RATIO" = some raw) (ink : Js.trim raw ≠ "") (parsed : number raw = some ratio)
    (low : 1 / 100 ≤ ratio) (high : ratio ≤ 99 / 100) : (alertConfig number env).recoveryRatio = 0 := by
  have within : ¬(ratio < 1 / 100 ∨ 99 / 100 < ratio) := fun out => out.elim (not_lt.2 low) (not_lt.2 high)
  have floor : ⌊ratio⌋ = 0 := Int.floor_eq_zero_iff.2 ⟨by linarith, by linarith⟩
  show readNumber number env "EVENT_BUS_RECOVERY_RATIO" (1 / 2) (1 / 100) (99 / 100) = 0
  simp only [readNumber, given, if_neg ink, parsed, if_neg within, floor, Int.cast_zero]

section Recovery
variable {config : AlertBotConfig} {readings : List Reading}

/-- Only a backlog below the recovery mark ends an incident. -/
lemma recovers_of_resolve {e : Entry} (mem : e ∈ scopeLog config readings) (resolve : e.kind = .resolve) :
    ∃ r ∈ readings, r.Recovers config := by
  induction readings using List.reverseRecOn with
  | nil => cases mem
  | append_singleton readings r ih =>
    by_cases recovers : r.Recovers config
    · exact ⟨r, List.mem_append_right _ (List.mem_singleton_self r), recovers⟩
    · rw [scopeLog, answers_snoc, List.reduceOption_append, List.reduceOption_singleton, List.mem_append] at mem
      obtain before | last := mem
      · obtain ⟨q, memq, holds⟩ := ih before
        exact ⟨q, List.mem_append_left _ memq, holds⟩
      · rw [Option.mem_toList] at last
        by_cases raises : r.Raises config
        · obtain ⟨-, ⟨silent, -⟩ | ⟨-, ⟨alert, -⟩ | ⟨alert, -⟩⟩⟩ :=
            @scopeStep_raises config (scopeAfter config readings) r raises
          · cases silent.symm.trans last
          · cases alert.symm.trans last
            cases resolve
          · cases alert.symm.trans last
            cases resolve
        · cases (@scopeStep_holds config (scopeAfter config readings) r recovers raises).2.1.symm.trans last

/-- Where no backlog recovers, one that called for an incident is never over. -/
lemma raised_of_mem (up : ∀ r ∈ readings, ¬r.Recovers config) {r : Reading} (mem : r ∈ readings)
    (raises : r.Raises config) : ∃ level ≠ .ok, Raised config readings level := by
  induction readings using List.reverseRecOn with
  | nil => cases mem
  | append_singleton readings last ih =>
    by_cases again : last.Raises config
    · exact ⟨last.rawLevel, rawLevel_ne_ok last, raised_snoc.2 (.inl ⟨again, rfl⟩)⟩
    · obtain before | here := List.mem_append.1 mem
      · obtain ⟨level, ne, raised⟩ := ih (fun q memq => up q (List.mem_append_left _ memq)) before
        have high := up last (List.mem_append_right _ (List.mem_singleton_self last))
        exact ⟨level, ne, raised_snoc.2 (.inr ⟨high, again, raised⟩)⟩
      · exact absurd (List.mem_singleton.1 here ▸ raises) again

end Recovery

/-- The backlogs of a cycle are not negative. -/
lemma pending_nonneg {options : Options} {scope : String} {context : Context} {clocks : ℕ → Clock}
    {samples : List QueueDepthSample} (probed : ∀ sample ∈ samples, UNKNOWN_DEPTH ≤ sample.pending) {r : Reading}
    (mem : r ∈ readingsOf options scope (.evaluate context clocks samples)) : 0 ≤ r.pending := by
  have known : ∀ sample ∈ healthy samples, 0 ≤ sample.pending := fun sample inside => by
    obtain ⟨among, healthy⟩ := List.mem_filter.1 inside
    have bound := probed sample among
    have differs := of_decide_eq_true healthy
    rw [UNKNOWN_DEPTH] at bound differs
    omega
  obtain ⟨target, inside, rfl⟩ := List.mem_map.1 mem
  obtain ⟨indexed, among, rfl⟩ := List.mem_map.1 (List.mem_filter.1 inside).1
  have target : indexed.1 ∈ options.targets samples := List.fst_mem_of_mem_zipIdx among
  rw [Options.targets, List.mem_append] at target
  obtain queue | total := target
  · obtain ⟨sample, here, eq⟩ := List.mem_map.1 queue
    rw [reading, ← eq]
    exact known sample here
  · split at total
    · rw [reading, List.mem_singleton.1 total]
      refine List.sum_nonneg fun pending here => ?_
      obtain ⟨sample, among, rfl⟩ := List.mem_map.1 here
      exact known sample among
    · cases total

/-- With a recovery ratio from the environment no incident is ever resolved: since it was last forgotten, a scope stays
alerting from the first backlog that reaches its warning threshold on. Only a test calls `forget`. -/
theorem never_resolved_of_env {number : String → Option ℚ} {env : Env} {raw : String} {ratio : ℚ}
    (given : env "EVENT_BUS_RECOVERY_RATIO" = some raw) (ink : Js.trim raw ≠ "") (parsed : number raw = some ratio)
    (low : 1 / 100 ≤ ratio) (high : ratio ≤ 99 / 100) (thresholds : Dict String Thresholds) {bot : Bot} {scope : String}
    (unknown : bot.scopes.get? scope = none) {trace : List Command} (kept : .forget scope ∉ trace)
    (probed : ∀ context clocks samples, .evaluate context clocks samples ∈ trace →
      ∀ sample ∈ samples, UNKNOWN_DEPTH ≤ sample.pending) :
    let options : Options := ⟨alertConfig number env, thresholds⟩
    (∀ e ∈ logOf scope (answers (step options) bot trace), e.kind ≠ .resolve) ∧
      (((after (step options) bot trace).stateFor scope).level = .ok ↔
        ∀ r ∈ trace.flatMap (readingsOf options scope), r.pending < r.thresholds.warning) := by
  intro options
  obtain ⟨state, log⟩ := @scope_of_run options scope bot trace kept
  have new : bot.stateFor scope = .new := by
    rw [Bot.stateFor, unknown]
    rfl
  rw [state, log, new]
  have up : ∀ r ∈ trace.flatMap (readingsOf options scope), ¬r.Recovers options.config := by
    intro r mem below
    rw [Reading.Recovers, recoveryRatio_of_env given ink parsed low high, mul_zero] at below
    obtain ⟨command, among, here⟩ := List.mem_flatMap.1 mem
    cases command with
    | evaluate context clocks samples =>
      exact absurd (Int.cast_lt_zero.1 below) (not_lt.2 (pending_nonneg (probed context clocks samples among) here))
    | forget other => cases here
  refine ⟨fun e mem resolve => ?_, ⟨fun ok r mem => ?_, fun below => ?_⟩⟩
  · obtain ⟨r, mem, recovers⟩ := recovers_of_resolve mem resolve
    exact up r mem recovers
  · by_contra reached
    obtain ⟨level, ne, raised⟩ := raised_of_mem up mem ⟨up r mem, not_lt.1 reached⟩
    exact ne (((settled options.config _).raised level ne).2 raised ▸ ok)
  · by_contra alerting
    obtain ⟨before, r, later, eq, raises, -⟩ := ((settled options.config _).raised _ alerting).1 rfl
    exact absurd (below r (eq ▸ List.mem_append_right before (List.mem_cons_self ..))) (not_lt.2 raises.2)

/-- With the ratio of `.env.example` a queue that is emptied is not resolved. -/
theorem never_resolved_of_env_half :
    let env : Env := fun key => if key = "EVENT_BUS_RECOVERY_RATIO" then some "0.5" else none
    let options : Options := ⟨alertConfig (fun _ => some (1 / 2)) env, .empty⟩
    let trace := [cycleOf 0 1200, cycleOf 15000 0]
    (∀ e ∈ logOf "celery" (answers (step options) ⟨.empty⟩ trace), e.kind ≠ .resolve) ∧
      (((after (step options) ⟨.empty⟩ trace).stateFor "celery").level = .ok ↔
        ∀ r ∈ trace.flatMap (readingsOf options "celery"), r.pending < r.thresholds.warning) := by
  intro env options trace
  have given : env "EVENT_BUS_RECOVERY_RATIO" = some "0.5" := rfl
  have ink : Js.trim "0.5" ≠ "" := by decide +kernel
  have parsed : (fun _ : String => some (1 / 2 : ℚ)) "0.5" = some (1 / 2) := rfl
  have unknown : (⟨.empty⟩ : Bot).scopes.get? "celery" = none := rfl
  have kept : Command.forget "celery" ∉ trace := by simp [trace, cycleOf]
  refine never_resolved_of_env given ink parsed (by norm_num) (by norm_num) .empty unknown kept ?_
  intro context clocks samples mem sample among
  simp only [trace, cycleOf, List.mem_cons, Command.evaluate.injEq, List.not_mem_nil, or_false] at mem
  obtain ⟨-, -, rfl⟩ | ⟨-, -, rfl⟩ := mem
  · rw [List.mem_singleton.1 among]
    decide
  · rw [List.mem_singleton.1 among]
    decide

end StellarFlow.BackpressureBot
