import Mathlib.Data.List.Sort
import Mathlib.Data.Rat.Lemmas
import Mathlib.Tactic.Linarith
import StellarFlow.Lib.Dict
import StellarFlow.Lib.Machine
import StellarFlow.Lib.Python

/-!
# Multi-region routing

Model of `MultiRegionLoadBalancer` in `src/network/multi_region_lb.py`, with scores and times in exact arithmetic. Each
method that takes the lock is one step, and threads may take them in any order; a health check and a request result are
lists of steps. The failover callback is left out.

A node that traffic was moved away from is in a table for a while. The table is pruned only when traffic is moved again,
and a candidate must not be in it, however old its entry is.
-/

namespace StellarFlow.Network
open Machine

/-- `NodeEndpoint`. -/
structure NodeEndpoint where
  url : String
  region : String
  url_ne : url ≠ ""
  region_ne : region ≠ ""

/-- `NodeHealth`. -/
structure NodeHealth where
  endpoint : NodeEndpoint
  latencySamples : List ℚ
  successCount : ℕ
  failureCount : ℕ
  consecutiveFailures : ℕ
  lastCheckTime : Option ℚ
  lastSuccessTime : Option ℚ
  healthScore : ℚ
  isHealthy : Bool
  errorTypes : Dict String ℕ

/-- The thresholds of a balancer, with their defaults. -/
structure RoutingSettings where
  healthThreshold : ℚ := 70
  latencyThresholdMs : ℚ := 2000
  successRateThreshold : ℚ := 95 / 100
  routingHysteresisFactor : ℚ := 7 / 10

/-- `DEFAULT_MAX_SAMPLES`. -/
def maxSamples : ℕ := 100

/-- `FAILURE_THRESHOLD_FOR_UNHEALTHY`. -/
def failureThreshold : ℕ := 3

/-- `_demotion_cooldown_s`. -/
def demotionCooldown : ℚ := 60

/-- `KeyError`. -/
def keyError (url : String) : PyError := .exception "KeyError" (Py.repr url)

namespace NodeHealth

/-- A node as `__init__` creates it. -/
def fresh (endpoint : NodeEndpoint) : NodeHealth where
  endpoint
  latencySamples := []
  successCount := 0
  failureCount := 0
  consecutiveFailures := 0
  lastCheckTime := none
  lastSuccessTime := none
  healthScore := 100
  isHealthy := false
  errorTypes := Dict.empty

variable (h : NodeHealth)

/-- `total_requests`. -/
def totalRequests : ℕ := h.successCount + h.failureCount

/-- `success_rate`. -/
def successRate : ℚ := if h.totalRequests = 0 then 1 else (h.successCount : ℚ) / h.totalRequests

/-- `avg_latency_ms`. -/
def avgLatencyMs : ℚ := if h.latencySamples = [] then 0 else h.latencySamples.sum / h.latencySamples.length

/-- `_apply_health_flags`. -/
def applyHealthFlags : NodeHealth :=
  if h.consecutiveFailures ≥ failureThreshold then { h with isHealthy := false, healthScore := min h.healthScore 0 }
  else h

/-- A successful probe; the deque keeps the latest samples. -/
def succeed (latencyMs now : ℚ) : NodeHealth :=
  let samples := h.latencySamples ++ [latencyMs]
  { h with
    lastCheckTime := some now
    successCount := h.successCount + 1
    consecutiveFailures := 0
    lastSuccessTime := some now
    latencySamples := samples.drop (samples.length - maxSamples) }

/-- A failed probe. -/
def fail (error : Option String) (now : ℚ) : NodeHealth :=
  let errorKey := (error.filter (· ≠ "")).getD "unknown"
  { h with
    lastCheckTime := some now
    failureCount := h.failureCount + 1
    consecutiveFailures := h.consecutiveFailures + 1
    errorTypes := h.errorTypes.set errorKey ((h.errorTypes.get? errorKey).getD 0 + 1) }

/-- What `_record_probe` does to a node. -/
def probed (success : Bool) (latencyMs : ℚ) (error : Option String) (now : ℚ) : NodeHealth :=
  (if success then h.succeed latencyMs now else h.fail error now).applyHealthFlags

/-- `_calculate_health_score`. -/
def calculateHealthScore (settings : RoutingSettings) : ℚ :=
  let avg := h.avgLatencyMs
  let latencyScore :=
    if avg = 0 then 100
    else if avg ≤ settings.latencyThresholdMs then 100
    else max 0 (100 - (avg - settings.latencyThresholdMs) / 10)
  let rate := h.successRate
  let successScore :=
    if rate ≥ settings.successRateThreshold then 100 else max 0 (rate / settings.successRateThreshold * 100)
  let penalty := min 100 ((h.consecutiveFailures : ℚ) * 20)
  latencyScore * (4 / 10) + successScore * (4 / 10) + (100 - penalty) * (2 / 10)

/-- What `_recompute_scores` does to a node. -/
def rescored (settings : RoutingSettings) : NodeHealth :=
  let score := h.calculateHealthScore settings
  let h := { h with healthScore := score }
  if h.consecutiveFailures < failureThreshold ∧ h.totalRequests > 0 then
    { h with isHealthy := decide (score ≥ settings.healthThreshold ∧ h.successRate ≥ settings.successRateThreshold) }
  else h

end NodeHealth

/-- `MultiRegionLoadBalancer`. -/
structure MultiRegionLoadBalancer where
  endpoints : List NodeEndpoint
  settings : RoutingSettings
  health : Dict String NodeHealth
  activeUrl : String
  failoversTotal : ℕ
  recentlyDemoted : Dict String ℚ

namespace MultiRegionLoadBalancer

/-- `{ep.url: NodeHealth(endpoint=ep, is_healthy=False) for ep in self.endpoints}`. -/
def freshHealth (endpoints : List NodeEndpoint) : Dict String NodeHealth :=
  endpoints.foldl (fun health ep => health.set ep.url (.fresh ep)) Dict.empty

/-- `MultiRegionLoadBalancer.__init__`. -/
def init (endpoints : List NodeEndpoint) (settings : RoutingSettings) : Except PyError MultiRegionLoadBalancer :=
  match endpoints with
  | [] => .error (.valueError "MultiRegionLoadBalancer requires at least one endpoint")
  | first :: _ =>
    if ¬(endpoints.map NodeEndpoint.url).Nodup then .error (.valueError "Duplicate endpoint URLs are not allowed")
    else .ok {
      endpoints, settings
      health := freshHealth endpoints
      activeUrl := first.url
      failoversTotal := 0
      recentlyDemoted := Dict.empty }

variable (lb : MultiRegionLoadBalancer)

/-- `_record_probe`. -/
def recordProbe (url : String) (success : Bool) (latencyMs : ℚ) (error : Option String) (now : ℚ) :
    Except PyError MultiRegionLoadBalancer :=
  match lb.health.get? url with
  | none => .error (keyError url)
  | some _ => .ok { lb with health := lb.health.modify url fun h => h.probed success latencyMs error now }

/-- `_recompute_scores`. -/
def recomputeScores : MultiRegionLoadBalancer :=
  { lb with health := lb.health.mapValues fun h => h.rescored lb.settings }

/-- The key of the sort in `_select_candidate`. -/
def ranks (h h' : NodeHealth) : Prop :=
  -h.healthScore < -h'.healthScore ∨ (-h.healthScore = -h'.healthScore ∧ h.avgLatencyMs ≤ h'.avgLatencyMs)

instance : DecidableRel ranks := fun _ _ => inferInstanceAs (Decidable (_ ∨ _))

/-- The pool of `_select_candidate`. -/
def pool (exclude : String) : List NodeHealth :=
  (lb.health.entries.filter fun e =>
    e.1 ≠ exclude ∧ e.2.isHealthy = true ∧ e.2.latencySamples ≠ [] ∧ e.1 ∉ lb.recentlyDemoted.keys).map Prod.snd

/-- `_select_candidate`. -/
def selectCandidate (exclude : String) : Option NodeHealth :=
  ((lb.pool exclude).insertionSort ranks).head?

/-- The nodes of `_select_failover_candidate` that were never probed. -/
def unproven (exclude : String) : List NodeHealth :=
  (lb.health.entries.filter fun e =>
    e.1 ≠ exclude ∧ e.2.totalRequests = 0 ∧ e.2.consecutiveFailures = 0).map Prod.snd

/-- `_select_failover_candidate`. -/
def selectFailoverCandidate (exclude : String) : Option NodeHealth :=
  match lb.selectCandidate exclude with
  | some proven => some proven
  | none => (lb.unproven exclude).head?

/-- `_beats_hysteresis`. -/
def beatsHysteresis (candidate active : NodeHealth) : Bool :=
  if active.avgLatencyMs ≤ 0 ∨ candidate.avgLatencyMs ≤ 0 then false
  else decide (candidate.avgLatencyMs < active.avgLatencyMs * lb.settings.routingHysteresisFactor)

/-- `_switch_active`. -/
def switchActive (newUrl : String) (now : ℚ) : MultiRegionLoadBalancer :=
  if newUrl = lb.activeUrl then lb
  else
    let demoted := lb.recentlyDemoted.set lb.activeUrl now
    let cutoff := now - demotionCooldown
    { lb with
      activeUrl := newUrl
      failoversTotal := lb.failoversTotal + 1
      recentlyDemoted := demoted.filterValues fun time => decide (cutoff ≤ time) }

/-- The switch to a faster node in `_reevaluate_routing_locked`. -/
def switchToFaster (active : NodeHealth) (now : ℚ) : MultiRegionLoadBalancer :=
  match lb.selectCandidate lb.activeUrl with
  | none => lb
  | some candidate =>
    if lb.beatsHysteresis candidate active then lb.switchActive candidate.endpoint.url now else lb

/-- `_reevaluate_routing`. -/
def reevaluateRouting (now : ℚ) : Except PyError MultiRegionLoadBalancer :=
  match lb.health.get? lb.activeUrl with
  | none => .error (keyError lb.activeUrl)
  | some active =>
    if active.totalRequests = 0 then .ok (lb.switchToFaster active now)
    else if active.isHealthy = true ∧ active.healthScore ≥ lb.settings.healthThreshold then
      .ok (lb.switchToFaster active now)
    else
      match lb.selectFailoverCandidate lb.activeUrl with
      | none => .ok lb
      | some candidate => .ok (lb.switchActive candidate.endpoint.url now)

end MultiRegionLoadBalancer

/-- A method that takes the lock, and the clock it reads. -/
inductive LbMove where
  | recordProbe (url : String) (success : Bool) (latencyMs : ℚ) (error : Option String) (now : ℚ)
  | recomputeScores (now : ℚ)
  | reevaluateRouting (now : ℚ)

/-- What a probe of a node gives: its success, its latency and its error. -/
structure Probe where
  success : Bool
  latencyMs : ℚ
  error : Option String

/-- `run_health_checks`. -/
def runHealthChecks (endpoints : List NodeEndpoint) (probe : String → Probe) (now : ℚ) : List LbMove :=
  endpoints.map (fun ep => .recordProbe ep.url (probe ep.url).success (probe ep.url).latencyMs (probe ep.url).error now)
    ++ [.recomputeScores now, .reevaluateRouting now]

/-- `record_request_result`. -/
def recordRequestResult (url : String) (success : Bool) (latencyMs now : ℚ) : List LbMove :=
  [.recordProbe url success latencyMs (if success then none else some "request_error") now, .recomputeScores now,
    .reevaluateRouting now]

/-- A balancer, the clock, and when traffic was moved away from which node. -/
structure LbRun where
  clock : ℚ
  lb : MultiRegionLoadBalancer
  demotions : List (String × ℚ)

namespace LbRun

def start (lb : MultiRegionLoadBalancer) (clock : ℚ) : LbRun := ⟨clock, lb, []⟩

/-- The state after a method; a call that raises has changed nothing. -/
def after (s : LbRun) (now : ℚ) : Except PyError MultiRegionLoadBalancer → LbRun
  | .error _ => { s with clock := now }
  | .ok lb => {
      clock := now, lb
      demotions := if lb.activeUrl = s.lb.activeUrl then s.demotions else s.demotions ++ [(s.lb.activeUrl, now)] }

/-- One method, by a clock that does not go back. -/
def step (s : LbRun) : LbMove → Option LbRun
  | .recordProbe url success latencyMs error now =>
    if now < s.clock then none else some (s.after now (s.lb.recordProbe url success latencyMs error now))
  | .recomputeScores now => if now < s.clock then none else some (s.after now (.ok s.lb.recomputeScores))
  | .reevaluateRouting now => if now < s.clock then none else some (s.after now (s.lb.reevaluateRouting now))

/-- The active node was measured, and is unhealthy or below the threshold. -/
def Degraded (s : LbRun) : Prop :=
  ∃ h, s.lb.health.get? s.lb.activeUrl = some h ∧ h.totalRequests ≠ 0 ∧
    (h.isHealthy = false ∨ h.healthScore < s.lb.settings.healthThreshold)

/-- Another node that is healthy and has latency samples. -/
def Alternative (s : LbRun) (url : String) : Prop :=
  ∃ h, s.lb.health.get? url = some h ∧ url ≠ s.lb.activeUrl ∧ h.isHealthy = true ∧ h.latencySamples ≠ []

/-- Another node that was never probed. -/
def Unproven (s : LbRun) (url : String) : Prop :=
  ∃ h, s.lb.health.get? url = some h ∧ url ≠ s.lb.activeUrl ∧ h.totalRequests = 0 ∧ h.consecutiveFailures = 0

/-- Traffic was moved away from the node within the cooldown. -/
def Cooling (s : LbRun) (now : ℚ) (url : String) : Prop :=
  ∃ time, (url, time) ∈ s.demotions ∧ now - demotionCooldown ≤ time

/-- Traffic was moved away from the node, and not moved again after the cooldown. -/
def Remembered (s : LbRun) (url : String) : Prop :=
  ∃ time, (url, time) ∈ s.demotions ∧ ∀ d ∈ s.demotions, d.2 - demotionCooldown ≤ time

/-- The active node is not degraded while there is a better one. -/
def Routed (s : LbRun) (now : ℚ) : Prop :=
  ¬(s.Degraded ∧ ∃ url, s.Alternative url ∧ ¬s.Cooling now url)

/-- There is a node to move to that the table does not hold. -/
def Movable (s : LbRun) : Prop :=
  (∃ url, s.Alternative url ∧ ¬s.Remembered url) ∨ ∃ url, s.Unproven url

end LbRun

section Nodes
variable {h : NodeHealth} {settings : RoutingSettings}

/-- A node that counts as healthy reaches the threshold, has answered and not just failed. -/
def NodeHealth.Flagged (settings : RoutingSettings) (h : NodeHealth) : Prop :=
  h.isHealthy = true →
    settings.healthThreshold ≤ h.healthScore ∧ h.consecutiveFailures < failureThreshold ∧ 0 < h.totalRequests

/-- The flags are sound once they are set. -/
lemma NodeHealth.Flagged.applyHealthFlags (score : h.isHealthy = true → settings.healthThreshold ≤ h.healthScore)
    (probed : 0 < h.totalRequests) : h.applyHealthFlags.Flagged settings := by
  rw [NodeHealth.applyHealthFlags]
  split
  case isTrue => exact fun healthy => absurd healthy Bool.false_ne_true
  case isFalse few => exact fun healthy => ⟨score healthy, not_le.1 few, probed⟩

/-- The flags are sound after a probe. -/
lemma NodeHealth.Flagged.probed (flagged : h.Flagged settings) (success : Bool) (latencyMs : ℚ)
    (error : Option String) (now : ℚ) : (h.probed success latencyMs error now).Flagged settings := by
  rw [NodeHealth.probed]
  cases success with
  | true =>
    refine Flagged.applyHealthFlags (fun healthy => (flagged healthy).1) ?_
    show 0 < h.successCount + 1 + h.failureCount
    omega
  | false =>
    refine Flagged.applyHealthFlags (fun healthy => (flagged healthy).1) ?_
    show 0 < h.successCount + (h.failureCount + 1)
    omega

/-- The flags are sound after the scores are computed again. -/
lemma NodeHealth.Flagged.rescored (flagged : h.Flagged settings) : (h.rescored settings).Flagged settings := by
  rw [NodeHealth.rescored]
  split
  case isTrue measured =>
    intro healthy
    exact ⟨(of_decide_eq_true healthy).1, measured⟩
  case isFalse unmeasured => exact fun healthy => absurd (flagged healthy).2 unmeasured

/-- The flags change no endpoint. -/
lemma NodeHealth.endpoint_applyHealthFlags (h : NodeHealth) : h.applyHealthFlags.endpoint = h.endpoint := by
  rw [NodeHealth.applyHealthFlags]
  split <;> rfl

/-- A probe changes no endpoint. -/
lemma NodeHealth.endpoint_probed (success : Bool) (latencyMs : ℚ) (error : Option String) (now : ℚ) :
    (h.probed success latencyMs error now).endpoint = h.endpoint := by
  rw [NodeHealth.probed, NodeHealth.endpoint_applyHealthFlags]
  cases success <;> rfl

/-- A new score changes no endpoint. -/
lemma NodeHealth.endpoint_rescored : (h.rescored settings).endpoint = h.endpoint := by
  rw [NodeHealth.rescored]
  split <;> rfl

end Nodes

section Selection
variable {lb : MultiRegionLoadBalancer} {exclude : String} {h : NodeHealth}

/-- The candidate is in the pool. -/
lemma mem_of_selectCandidate (selected : lb.selectCandidate exclude = some h) : h ∈ lb.pool exclude :=
  (List.mem_insertionSort _).1 (List.mem_of_head? selected)

/-- There is none where the pool is empty. -/
lemma selectCandidate_eq_none : lb.selectCandidate exclude = none ↔ lb.pool exclude = [] := by
  rw [MultiRegionLoadBalancer.selectCandidate, List.head?_eq_none_iff, ← List.length_eq_zero_iff,
    List.length_insertionSort, List.length_eq_zero_iff]

/-- The pool has the healthy nodes that were measured and not left lately. -/
lemma mem_pool : h ∈ lb.pool exclude ↔ ∃ url, lb.health.get? url = some h ∧ url ≠ exclude ∧ h.isHealthy = true ∧
    h.latencySamples ≠ [] ∧ url ∉ lb.recentlyDemoted.keys := by
  simp only [MultiRegionLoadBalancer.pool, Dict.mem_filter_values, decide_eq_true_iff]

/-- The unproven nodes were never probed. -/
lemma mem_unproven : h ∈ lb.unproven exclude ↔
    ∃ url, lb.health.get? url = some h ∧ url ≠ exclude ∧ h.totalRequests = 0 ∧ h.consecutiveFailures = 0 := by
  simp only [MultiRegionLoadBalancer.unproven, Dict.mem_filter_values, decide_eq_true_iff]

/-- A re-evaluation moves to a node of the pool or an unproven one, or moves nowhere; then the active node is not
degraded, or there is no such node. -/
lemma reevaluateRouting_cases {active : NodeHealth} (found : lb.health.get? lb.activeUrl = some active) (now : ℚ) :
    (∃ h, (h ∈ lb.pool lb.activeUrl ∨ h ∈ lb.unproven lb.activeUrl) ∧
        lb.reevaluateRouting now = .ok (lb.switchActive h.endpoint.url now)) ∨
      (lb.reevaluateRouting now = .ok lb ∧
        (active.totalRequests = 0 ∨ (active.isHealthy = true ∧ active.healthScore ≥ lb.settings.healthThreshold) ∨
          (lb.pool lb.activeUrl = [] ∧ lb.unproven lb.activeUrl = []))) := by
  have faster : lb.switchToFaster active now = lb ∨ ∃ h ∈ lb.pool lb.activeUrl,
      lb.switchToFaster active now = lb.switchActive h.endpoint.url now := by
    rw [MultiRegionLoadBalancer.switchToFaster]
    split
    case h_1 => exact .inl rfl
    case h_2 candidate selected =>
      split
      · exact .inr ⟨candidate, mem_of_selectCandidate selected, rfl⟩
      · exact .inl rfl
  rw [MultiRegionLoadBalancer.reevaluateRouting, found]
  dsimp only
  by_cases unmeasured : active.totalRequests = 0
  · rw [if_pos unmeasured]
    obtain same | ⟨h, mem, moved⟩ := faster
    · exact .inr ⟨congrArg Except.ok same, .inl unmeasured⟩
    · exact .inl ⟨h, .inl mem, congrArg Except.ok moved⟩
  · rw [if_neg unmeasured]
    by_cases fine : active.isHealthy = true ∧ active.healthScore ≥ lb.settings.healthThreshold
    · rw [if_pos fine]
      obtain same | ⟨h, mem, moved⟩ := faster
      · exact .inr ⟨congrArg Except.ok same, .inr (.inl fine)⟩
      · exact .inl ⟨h, .inl mem, congrArg Except.ok moved⟩
    · rw [if_neg fine, MultiRegionLoadBalancer.selectFailoverCandidate]
      cases selected : lb.selectCandidate lb.activeUrl with
      | some proven => exact .inl ⟨proven, .inl (mem_of_selectCandidate selected), rfl⟩
      | none =>
        cases first : (lb.unproven lb.activeUrl).head? with
        | some candidate => exact .inl ⟨candidate, .inr (List.mem_of_head? first), rfl⟩
        | none =>
          have none_left := List.head?_eq_none_iff.1 first
          exact .inr ⟨rfl, .inr (.inr ⟨selectCandidate_eq_none.1 selected, none_left⟩)⟩

end Selection

/-- The nodes of a balancer: the active one is among them, each has its own URL, and the flags are sound. -/
structure Sound (lb : MultiRegionLoadBalancer) : Prop where
  active : ∃ h, lb.health.get? lb.activeUrl = some h
  named : ∀ url h, lb.health.get? url = some h → h.endpoint.url = url
  flagged : ∀ url h, lb.health.get? url = some h → h.Flagged lb.settings

/-- The table holds the latest demotions, as far as they are remembered. -/
structure Listed (s : LbRun) : Prop where
  past : ∀ d ∈ s.demotions, d.2 ≤ s.clock
  listed : ∀ url time, s.lb.recentlyDemoted.get? url = some time →
    (url, time) ∈ s.demotions ∧ ∀ d ∈ s.demotions, d.2 - demotionCooldown ≤ time
  complete : ∀ url time, (url, time) ∈ s.demotions → (∀ d ∈ s.demotions, d.2 - demotionCooldown ≤ time) →
    ∃ latest, s.lb.recentlyDemoted.get? url = some latest ∧ time ≤ latest

section Invariants
variable {lb : MultiRegionLoadBalancer} {s s' : LbRun} {url : String} {now : ℚ}

/-- The table holds the nodes that are remembered. -/
lemma Listed.mem_iff (listed : Listed s) : url ∈ s.lb.recentlyDemoted.keys ↔ s.Remembered url := by
  rw [Dict.mem_keys_iff]
  constructor
  · rintro ⟨time, found⟩
    exact ⟨time, listed.listed url time found⟩
  · rintro ⟨time, mem, remembered⟩
    obtain ⟨latest, found, -⟩ := listed.complete url time mem remembered
    exact ⟨latest, found⟩

/-- Every node of a map is fresh and under its URL, and the URLs of the endpoints are its keys. -/
lemma freshHealth_get? (endpoints : List NodeEndpoint) (url : String) :
    (∀ h, (MultiRegionLoadBalancer.freshHealth endpoints).get? url = some h →
        h = .fresh h.endpoint ∧ h.endpoint.url = url) ∧
      (url ∈ endpoints.map NodeEndpoint.url →
        ∃ h, (MultiRegionLoadBalancer.freshHealth endpoints).get? url = some h) := by
  induction endpoints using List.reverseRecOn with
  | nil => exact ⟨fun h found => absurd found (Option.some_ne_none h).symm, fun mem => absurd mem List.not_mem_nil⟩
  | append_singleton endpoints ep ih =>
    rw [MultiRegionLoadBalancer.freshHealth, List.foldl_append, List.foldl_cons, List.foldl_nil, Dict.get?_set]
    by_cases own : url = ep.url
    · rw [if_pos own]
      refine ⟨fun h found => ?_, fun _ => ⟨_, rfl⟩⟩
      cases found
      exact ⟨rfl, own.symm⟩
    · rw [if_neg own]
      refine ⟨ih.1, fun mem => ih.2 ?_⟩
      rw [List.map_append, List.mem_append] at mem
      exact mem.resolve_right fun last => own (List.mem_singleton.1 last)

/-- A new balancer is sound. -/
lemma sound_init {endpoints : List NodeEndpoint} {settings : RoutingSettings}
    (created : MultiRegionLoadBalancer.init endpoints settings = .ok lb) :
    Sound lb ∧ lb.recentlyDemoted = Dict.empty := by
  cases endpoints with
  | nil => cases created
  | cons first rest =>
    rw [MultiRegionLoadBalancer.init] at created
    split at created
    case isTrue => cases created
    case isFalse =>
      cases created
      have fresh := freshHealth_get? (first :: rest)
      refine ⟨⟨(fresh first.url).2 List.mem_cons_self, fun url h found => ((fresh url).1 h found).2, ?_⟩, rfl⟩
      intro url h found healthy
      rw [((fresh url).1 h found).1] at healthy
      cases healthy

/-- A change of the nodes that keeps what is said of each keeps the balancer sound. -/
lemma Sound.of_health (sound : Sound lb) {health : Dict String NodeHealth}
    (same : ∀ other, ∃ f : NodeHealth → NodeHealth, health.get? other = (lb.health.get? other).map f ∧
      ∀ h, (f h).endpoint = h.endpoint ∧ (h.Flagged lb.settings → (f h).Flagged lb.settings)) :
    Sound { lb with health } := by
  have before : ∀ url h, health.get? url = some h → ∃ h₀, lb.health.get? url = some h₀ ∧
      h.endpoint = h₀.endpoint ∧ (h₀.Flagged lb.settings → h.Flagged lb.settings) := by
    intro url h found
    obtain ⟨f, eq, keeps⟩ := same url
    rw [eq, Option.map_eq_some_iff] at found
    obtain ⟨h₀, found, rfl⟩ := found
    exact ⟨h₀, found, keeps h₀⟩
  refine ⟨?_, fun url h found => ?_, fun url h found => ?_⟩
  · obtain ⟨h, found⟩ := sound.active
    obtain ⟨f, eq, -⟩ := same lb.activeUrl
    exact ⟨f h, by rw [eq, found]; rfl⟩
  · obtain ⟨h₀, found, endpoint, -⟩ := before url h found
    rw [endpoint, sound.named url h₀ found]
  · obtain ⟨h₀, found, -, flagged⟩ := before url h found
    exact flagged (sound.flagged url h₀ found)

/-- A probe is recorded. -/
lemma Sound.recordProbe (sound : Sound lb) {success : Bool} {latencyMs : ℚ} {error : Option String}
    {lb' : MultiRegionLoadBalancer} (recorded : lb.recordProbe url success latencyMs error now = .ok lb') :
    Sound lb' ∧ lb'.activeUrl = lb.activeUrl ∧ lb'.recentlyDemoted = lb.recentlyDemoted := by
  rw [MultiRegionLoadBalancer.recordProbe] at recorded
  split at recorded
  case h_1 => cases recorded
  case h_2 =>
    cases recorded
    refine ⟨sound.of_health fun other => ?_, rfl, rfl⟩
    rw [Dict.get?_modify]
    by_cases own : other = url
    · rw [if_pos own, own]
      exact ⟨_, rfl, fun h => ⟨h.endpoint_probed .., fun flagged => flagged.probed success latencyMs error now⟩⟩
    · rw [if_neg own]
      exact ⟨id, Option.map_id.symm ▸ rfl, fun h => ⟨rfl, id⟩⟩

/-- The scores are computed again. -/
lemma Sound.recomputeScores (sound : Sound lb) : Sound lb.recomputeScores :=
  sound.of_health fun _ =>
    ⟨_, Dict.get?_mapValues .., fun _ => ⟨NodeHealth.endpoint_rescored, fun flagged => flagged.rescored⟩⟩

/-- Traffic moves to another node, and the old one is noted. -/
lemma switchActive_eq {newUrl : String} (other : newUrl ≠ lb.activeUrl) :
    lb.switchActive newUrl now = { lb with
      activeUrl := newUrl
      failoversTotal := lb.failoversTotal + 1
      recentlyDemoted := (lb.recentlyDemoted.set lb.activeUrl now).filterValues fun time =>
        decide (now - demotionCooldown ≤ time) } :=
  if_neg other

/-- Moving on lists the node that was active, and forgets what is older than the cooldown. -/
lemma Listed.switchActive (listed : Listed s) (le : s.clock ≤ now) (other : url ≠ s.lb.activeUrl) :
    Listed ⟨now, s.lb.switchActive url now, s.demotions ++ [(s.lb.activeUrl, now)]⟩ := by
  have past : ∀ d ∈ s.demotions ++ [(s.lb.activeUrl, now)], d.2 ≤ now := by
    intro d mem
    obtain before | last := List.mem_append.1 mem
    · exact (listed.past d before).trans le
    · exact (congrArg Prod.snd (List.mem_singleton.1 last)).le
  have latest : (s.lb.activeUrl, now) ∈ s.demotions ++ [(s.lb.activeUrl, now)] :=
    List.mem_append_right _ (List.mem_singleton_self _)
  rw [switchActive_eq other]
  refine ⟨past, fun url time found => ?_, fun url time mem remembered => ?_⟩
  · obtain ⟨found, recent⟩ := Dict.get?_filterValues.1 found
    have recent : now - demotionCooldown ≤ time := of_decide_eq_true recent
    refine ⟨?_, fun d mem => (sub_le_sub_right (past d mem) _).trans recent⟩
    rw [Dict.get?_set] at found
    split at found
    case isTrue own =>
      cases found
      rw [own]
      exact latest
    case isFalse => exact List.mem_append_left _ (listed.listed url time found).1
  · have recent : now - demotionCooldown ≤ time := remembered _ latest
    by_cases own : url = s.lb.activeUrl
    · refine ⟨now, Dict.get?_filterValues.2 ⟨by rw [Dict.get?_set, if_pos own], ?_⟩, past _ mem⟩
      exact decide_eq_true (sub_le_self now (by decide))
    · have earlier : (url, time) ∈ s.demotions :=
        (List.mem_append.1 mem).resolve_right fun last => own (congrArg Prod.fst (List.mem_singleton.1 last))
      obtain ⟨time', found, le'⟩ :=
        listed.complete url time earlier fun d before => remembered d (List.mem_append_left _ before)
      refine ⟨time', Dict.get?_filterValues.2 ⟨by rw [Dict.get?_set, if_neg own, found], ?_⟩, le'⟩
      exact decide_eq_true (recent.trans le')

/-- Traffic moves to a node that is there. -/
lemma Sound.switchActive {h : NodeHealth} (sound : Sound lb) (found : lb.health.get? url = some h)
    (other : url ≠ lb.activeUrl) : Sound (lb.switchActive url now) := by
  rw [switchActive_eq other]
  exact ⟨⟨h, found⟩, sound.named, sound.flagged⟩

end Invariants

namespace LbRun
variable {s s' : LbRun} {move : LbMove} {now : ℚ}

/-- What a re-evaluation does: traffic moves to another node, which is proven or was never probed, or stays, and then
there is no need to move, or nowhere to move to. -/
lemma reevaluate_cases (sound : Sound s.lb) (listed : Listed s) (step : s.step (.reevaluateRouting now) = some s') :
    s.clock ≤ now ∧
      ((∃ url h, s.lb.health.get? url = some h ∧ url ≠ s.lb.activeUrl ∧
          ((h.isHealthy = true ∧ s.Alternative url ∧ ¬s.Remembered url) ∨ (h.totalRequests = 0 ∧ s.Unproven url)) ∧
          s' = ⟨now, s.lb.switchActive url now, s.demotions ++ [(s.lb.activeUrl, now)]⟩) ∨
        (s' = { s with clock := now } ∧ (¬s.Degraded ∨ ¬s.Movable))) := by
  rw [LbRun.step, Option.ite_none_left_eq_some, Option.some_inj] at step
  obtain ⟨le, step⟩ := step
  refine ⟨not_lt.1 le, ?_⟩
  obtain ⟨active, found⟩ := sound.active
  obtain ⟨h, mem, moved⟩ | ⟨stays, reason⟩ := reevaluateRouting_cases found now
  · have target : ∃ url, s.lb.health.get? url = some h ∧ url ≠ s.lb.activeUrl ∧
        ((h.isHealthy = true ∧ s.Alternative url ∧ ¬s.Remembered url) ∨ (h.totalRequests = 0 ∧ s.Unproven url)) := by
      obtain pooled | unproven := mem
      · obtain ⟨url, found, other, healthy, sampled, new⟩ := mem_pool.1 pooled
        rw [listed.mem_iff] at new
        exact ⟨url, found, other, .inl ⟨healthy, ⟨h, found, other, healthy, sampled⟩, new⟩⟩
      · obtain ⟨url, found, other, unmeasured, failed⟩ := mem_unproven.1 unproven
        exact ⟨url, found, other, .inr ⟨unmeasured, h, found, other, unmeasured, failed⟩⟩
    obtain ⟨url, found, other, kind⟩ := target
    refine .inl ⟨url, h, found, other, kind, ?_⟩
    have switched : (s.lb.switchActive url now).activeUrl ≠ s.lb.activeUrl := by
      rw [switchActive_eq other]
      exact other
    rw [← step, moved, sound.named url h found, after, if_neg switched]
  · refine .inr ⟨by rw [← step, stays, after, if_pos rfl], ?_⟩
    obtain unmeasured | ⟨healthy, score⟩ | ⟨pool, unproven⟩ := reason
    · refine .inl ?_
      rintro ⟨h, same, measured, -⟩
      rw [found, Option.some_inj] at same
      exact measured (same ▸ unmeasured)
    · refine .inl ?_
      rintro ⟨h, same, -, bad⟩
      rw [found, Option.some_inj] at same
      subst same
      obtain unhealthy | low := bad
      · rw [healthy] at unhealthy
        cases unhealthy
      · exact absurd score (not_le.2 low)
    · refine .inr ?_
      rintro (⟨url, ⟨h, found, other, healthy, sampled⟩, new⟩ | ⟨url, h, found, other, unmeasured, failed⟩)
      · rw [← listed.mem_iff] at new
        have mem := mem_pool.2 ⟨url, found, other, healthy, sampled, new⟩
        rw [pool] at mem
        cases mem
      · have mem := mem_unproven.2 ⟨url, found, other, unmeasured, failed⟩
        rw [unproven] at mem
        cases mem

/-- A node that was just moved to is healthy or unmeasured. -/
lemma not_degraded_of_switch {url : String} {h : NodeHealth} {demotions : List (String × ℚ)} (sound : Sound s.lb)
    (found : s.lb.health.get? url = some h) (other : url ≠ s.lb.activeUrl)
    (fine : h.isHealthy = true ∨ h.totalRequests = 0) :
    ¬(⟨now, s.lb.switchActive url now, demotions⟩ : LbRun).Degraded := by
  rw [switchActive_eq other]
  rintro ⟨h', same, measured, bad⟩
  rw [found, Option.some_inj] at same
  subst same
  obtain healthy | unmeasured := fine
  · obtain unhealthy | low := bad
    · rw [healthy] at unhealthy
      cases unhealthy
    · exact absurd (sound.flagged url h found healthy).1 (not_le.2 low)
  · exact measured unmeasured

/-- A re-evaluation leaves a degraded node for a better one exactly if there is a node to move to. -/
lemma routed_iff (sound : Sound s.lb) (listed : Listed s) (step : s.step (.reevaluateRouting now) = some s') :
    s'.Routed now ↔ (s.Degraded → (∃ url, s.Alternative url ∧ ¬s.Cooling now url) → s.Movable) := by
  obtain ⟨-, ⟨url, h, found, other, kind, rfl⟩ | ⟨rfl, reason⟩⟩ := reevaluate_cases sound listed step
  · have fine : h.isHealthy = true ∨ h.totalRequests = 0 := kind.imp And.left And.left
    have movable : s.Movable :=
      kind.imp (fun proven => ⟨url, proven.2⟩) (fun unproven => ⟨url, unproven.2⟩)
    exact ⟨fun _ _ _ => movable, fun _ degraded => not_degraded_of_switch sound found other fine degraded.1⟩
  · show ¬(s.Degraded ∧ ∃ url, s.Alternative url ∧ ¬s.Cooling now url) ↔ _
    obtain fine | stuck := reason
    · exact ⟨fun _ degraded => absurd degraded fine, fun _ both => fine both.1⟩
    · exact ⟨fun routed degraded better => absurd ⟨degraded, better⟩ routed,
        fun ok both => stuck (ok both.1 both.2)⟩

/-- A method that leaves the active node and the table alone. -/
lemma after_invariant {result : Except PyError MultiRegionLoadBalancer} (inv : Sound s.lb ∧ Listed s)
    (le : s.clock ≤ now)
    (kept : ∀ lb, result = .ok lb →
      Sound lb ∧ lb.activeUrl = s.lb.activeUrl ∧ lb.recentlyDemoted = s.lb.recentlyDemoted) :
    Sound (s.after now result).lb ∧ Listed (s.after now result) := by
  obtain ⟨sound, listed⟩ := inv
  cases result with
  | error e => exact ⟨sound, fun d mem => (listed.past d mem).trans le, listed.listed, listed.complete⟩
  | ok lb =>
    obtain ⟨sound', active, table⟩ := kept lb rfl
    rw [after, if_pos active]
    refine ⟨sound', fun d mem => (listed.past d mem).trans le, ?_, ?_⟩
    · rw [table]
      exact listed.listed
    · rw [table]
      exact listed.complete

/-- Each step keeps the invariant. -/
lemma step_invariant (inv : Sound s.lb ∧ Listed s) (step : s.step move = some s') : Sound s'.lb ∧ Listed s' := by
  cases move with
  | recordProbe url success latencyMs error now =>
    rw [LbRun.step, Option.ite_none_left_eq_some] at step
    obtain ⟨le, step⟩ := step
    cases step
    exact after_invariant inv (not_lt.1 le) fun _ => inv.1.recordProbe
  | recomputeScores now =>
    rw [LbRun.step, Option.ite_none_left_eq_some] at step
    obtain ⟨le, step⟩ := step
    cases step
    refine after_invariant inv (not_lt.1 le) fun lb same => ?_
    cases same
    exact ⟨inv.1.recomputeScores, rfl, rfl⟩
  | reevaluateRouting now =>
    obtain ⟨sound, listed⟩ := inv
    obtain ⟨le, ⟨url, h, found, other, -, rfl⟩ | ⟨rfl, -⟩⟩ := reevaluate_cases sound listed step
    · exact ⟨sound.switchActive found other, listed.switchActive le other⟩
    · exact ⟨sound, fun d mem => (listed.past d mem).trans le, listed.listed, listed.complete⟩

/-- In every run of any methods at any times, every re-evaluation leaves a degraded node for a better one if and only
if every re-evaluation that has to finds a node that the table does not hold, or one that was never probed. -/
theorem routed_always_iff {endpoints : List NodeEndpoint} {settings : RoutingSettings} {lb : MultiRegionLoadBalancer}
    {clock : ℚ} {moves : List LbMove} (created : MultiRegionLoadBalancer.init endpoints settings = .ok lb)
    (run : exec LbRun.step (start lb clock) moves = some s) :
    Guarded LbRun.step (fun s move => ∀ now s', move = .reevaluateRouting now → s.step move = some s' → s'.Routed now)
        (start lb clock) moves ↔
      Guarded LbRun.step (fun s move => ∀ now, move = .reevaluateRouting now → s.Degraded →
        (∃ url, s.Alternative url ∧ ¬s.Cooling now url) → s.Movable) (start lb clock) moves := by
  obtain ⟨sound, empty⟩ := sound_init created
  have listed : Listed (start lb clock) := by
    refine ⟨fun d mem => absurd mem List.not_mem_nil, fun url time found => ?_, fun url time mem => ?_⟩
    · rw [start, empty] at found
      cases found
    · exact absurd mem List.not_mem_nil
  have always : Always LbRun.step (fun s => Sound s.lb ∧ Listed s) (start lb clock) moves :=
    always_of_invariant ⟨sound, listed⟩ (fun _ _ _ inv step => step_invariant inv step) moves
  refine guarded_congr run always fun t move t' inv step => ?_
  constructor
  · rintro routed now rfl
    exact (routed_iff inv.1 inv.2 step).1 (routed now t' rfl step)
  · rintro movable now u rfl step'
    exact (routed_iff inv.1 inv.2 step').2 (movable now rfl)

end LbRun

section Stuck
open LbRun

def west : NodeEndpoint := ⟨"https://west", "us-west", by decide, by decide⟩

def east : NodeEndpoint := ⟨"https://east", "eu-central", by decide, by decide⟩

/-- The nodes answer with the latencies given. -/
def answers (westMs eastMs : ℚ) (url : String) : Probe :=
  ⟨true, if url = "https://west" then westMs else eastMs, none⟩

/-- The west is slow once and recovers, and later the east is slow. -/
def threeChecks : List LbMove :=
  runHealthChecks [west, east] (answers 4000 100) 0 ++ runHealthChecks [west, east] (answers 100 100) 100 ++
    runHealthChecks [west, east] (answers 100 10000) 200

/-- The balancer of two regions. -/
def twoRegions : MultiRegionLoadBalancer where
  endpoints := [west, east]
  settings := {}
  health := MultiRegionLoadBalancer.freshHealth [west, east]
  activeUrl := "https://west"
  failoversTotal := 0
  recentlyDemoted := Dict.empty

/-- Two nodes in two regions. -/
lemma twoRegions_created : MultiRegionLoadBalancer.init [west, east] {} = .ok twoRegions := by
  rw [MultiRegionLoadBalancer.init, if_neg (by decide)]
  rfl

/-- What is measured of a node: its requests, its samples, and whether it is healthy. -/
def measured (lb : MultiRegionLoadBalancer) (url : String) : Option (ℕ × ℕ × Bool) :=
  (lb.health.get? url).map fun h => (h.totalRequests, h.latencySamples.length, h.isHealthy)

/-- After three checks the active node is degraded, and traffic stays. -/
lemma threeChecks_run : ∃ s, exec LbRun.step (start twoRegions 0) threeChecks = some s ∧ ¬s.Routed 200 := by
  have run : (exec LbRun.step (start twoRegions 0) threeChecks).any (fun s =>
      s.lb.activeUrl = "https://east" ∧ measured s.lb "https://east" = some (3, 3, false) ∧
        measured s.lb "https://west" = some (3, 3, true) ∧ s.demotions = [("https://west", 0)]) = true := by
    decide +kernel
  obtain ⟨s, reached, eq⟩ := (Option.any_eq_true ..).1 run
  obtain ⟨active, east, west, demotions⟩ := of_decide_eq_true eq
  obtain ⟨h, found, facts⟩ := Option.map_eq_some_iff.1 east
  obtain ⟨h', found', facts'⟩ := Option.map_eq_some_iff.1 west
  simp only [Prod.mk.injEq] at facts facts'
  refine ⟨s, reached, fun routed => routed ⟨?_, "https://west", ?_, ?_⟩⟩
  · exact ⟨h, active ▸ found, by rw [facts.1]; decide, .inl facts.2.2⟩
  · refine ⟨h', found', by rw [active]; decide, facts'.2.2, fun empty => ?_⟩
    have samples := facts'.2.1
    rw [empty] at samples
    cases samples
  · rintro ⟨time, mem, recent⟩
    rw [demotions, List.mem_singleton] at mem
    obtain rfl : time = 0 := congrArg Prod.snd mem
    exact absurd recent (by decide +kernel)

/-- One of the three checks has not routed traffic away. -/
lemma threeChecks_not_routed :
    ∃ s, exec LbRun.step (start twoRegions 0) threeChecks = some s ∧
      ¬Guarded LbRun.step
        (fun s move => ∀ now s', move = .reevaluateRouting now → s.step move = some s' → s'.Routed now)
        (start twoRegions 0) threeChecks := by
  obtain ⟨s, run, stuck⟩ := threeChecks_run
  refine ⟨s, run, fun routed => stuck ?_⟩
  have split : threeChecks = threeChecks.dropLast ++ [.reevaluateRouting 200] := rfl
  rw [split] at run
  obtain ⟨u, before, last⟩ := exec_snoc.1 run
  exact routed threeChecks.dropLast _ u (split ▸ List.prefix_refl _) before 200 s rfl last

/-- In the run of the three checks, some re-evaluation that has to move finds the better node in the table. -/
theorem routed_always_iff_threeChecks :
    ¬Guarded LbRun.step (fun s move => ∀ now, move = .reevaluateRouting now → s.Degraded →
      (∃ url, s.Alternative url ∧ ¬s.Cooling now url) → s.Movable) (start twoRegions 0) threeChecks := by
  obtain ⟨s, run, stuck⟩ := threeChecks_not_routed
  exact fun movable => stuck ((routed_always_iff twoRegions_created run).2 movable)

/-- A balancer stays on a degraded node while one that was demoted 200 seconds ago is healthy. -/
theorem stays_on_degraded :
    ¬∀ endpoints settings lb clock moves s, MultiRegionLoadBalancer.init endpoints settings = .ok lb →
      exec LbRun.step (start lb clock) moves = some s →
        Guarded LbRun.step
          (fun s move => ∀ now s', move = .reevaluateRouting now → s.step move = some s' → s'.Routed now)
          (start lb clock) moves := by
  intro all
  obtain ⟨s, run, stuck⟩ := threeChecks_not_routed
  exact stuck (all _ _ _ _ _ s twoRegions_created run)

end Stuck

end StellarFlow.Network
