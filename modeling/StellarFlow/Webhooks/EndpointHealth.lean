import Mathlib.Tactic.Linarith
import StellarFlow.Lib.Dict
import StellarFlow.Lib.Lease
import StellarFlow.Lib.Machine
import StellarFlow.Lib.Python

/-!
# Webhook endpoint health

Model of `WebhookEndpointHealth` and `deliver_webhook` in `app/services/webhook_retry.py`, over a Redis store whose
keys vanish when their `ex` runs out. Times are datetimes in microseconds. A delivery asks whether its endpoint is
disabled and sends its request; the answer is recorded when it comes, and other deliveries may start and end before it.
The `GET` and `SET` of `record_failure` are one step: the recordings of two answers do not interleave.

Each failure renews the key for 24 hours, so the store remembers a streak of failures only as far back as its last gap
of that length (`unbroken`), and nothing of it 24 hours after its last failure. An endpoint that is disabled is not
asked, so that is how it comes to be enabled again.
-/

namespace StellarFlow.Webhooks
open Machine

/-- `DISABLE_AFTER`, and the `ex` of a key. -/
def disableAfter : ℤ := 24 * 60 * 60 * 1000000

/-- `TRANSIENT_STATUS_CODES`. -/
def transientStatusCodes : List ℕ := [408, 425, 429, 500, 502, 503, 504]

/-- The document of an endpoint. -/
structure EndpointState where
  firstFailureAt : ℤ
  lastFailureAt : ℤ
  failureCount : ℕ
  disabled : Bool

/-- A key of the store holds a document until it expires. -/
abbrev StoredState := Lease.Key ℤ EndpointState

structure WebhookEndpointHealth where
  store : Dict String StoredState
  keyPrefix : String

namespace WebhookEndpointHealth
variable (h : WebhookEndpointHealth) (endpointId : String) (now : ℤ)

/-- `WebhookEndpointHealth._key`. -/
def key : String := h.keyPrefix ++ "endpoint:" ++ endpointId

/-- `EndpointStateStore.get`. -/
def get : Option EndpointState :=
  (Lease.live now (h.store.get? (h.key endpointId))).map Lease.Key.holder

/-- `WebhookEndpointHealth.is_disabled`. -/
def isDisabled : Bool :=
  match h.get endpointId now with
  | none => false
  | some state => state.disabled

/-- `WebhookEndpointHealth.record_failure`. -/
def recordFailure : Bool × WebhookEndpointHealth :=
  let state := h.get endpointId now
  let firstFailure := (state.map EndpointState.firstFailureAt).getD now
  let disabled := decide (now - firstFailure ≥ disableAfter)
  let state : EndpointState := {
    firstFailureAt := firstFailure
    lastFailureAt := now
    failureCount := (state.map EndpointState.failureCount).getD 0 + 1
    disabled }
  (disabled, { h with store := h.store.set (h.key endpointId) ⟨state, now + disableAfter⟩ })

/-- `WebhookEndpointHealth.record_success`. -/
def recordSuccess : WebhookEndpointHealth :=
  { h with store := h.store.pop (h.key endpointId) }

end WebhookEndpointHealth

/-- `WebhookDeliveryError`. -/
def deliveryError (msg : String) : PyError := .exception "WebhookDeliveryError" msg

/-- `PermanentWebhookDeliveryError`. -/
def permanentError (msg : String) : PyError := .exception "PermanentWebhookDeliveryError" msg

/-- `deliver_webhook` up to the request. -/
def admission (h : WebhookEndpointHealth) (endpointId : String) (now : ℤ) : Except PyError Unit :=
  if h.isDisabled endpointId now then .error (deliveryError "webhook endpoint is disabled") else .ok ()

/-- A status that `deliver_webhook` takes for a success. -/
def delivered (status : ℕ) : Bool := decide (200 ≤ status ∧ status < 300)

/-- `deliver_webhook` from the answer on, with what it records, in one step. -/
def settle (h : WebhookEndpointHealth) (endpointId : String) (now : ℤ) (status : ℕ) :
    Except PyError ℕ × WebhookEndpointHealth :=
  if delivered status then (.ok status, h.recordSuccess endpointId)
  else
    let (disabled, h) := h.recordFailure endpointId now
    let error :=
      if disabled then deliveryError "webhook endpoint disabled after 24 hours of failures"
      else if status ∉ transientStatusCodes then permanentError s!"webhook returned permanent HTTP {status}"
      else deliveryError s!"webhook returned transient HTTP {status}"
    (.error error, h)

/-- What was recorded of a delivery. -/
structure Outcome where
  endpointId : String
  recordedAt : ℤ
  status : ℕ

/-- The clock, the health, the endpoints of the requests that are not answered yet, and the outcomes. -/
structure DeliveryRun where
  clock : ℤ
  health : WebhookEndpointHealth
  inFlight : List String
  log : List Outcome

/-- A delivery starts, its request is answered, or the client raises. -/
inductive DeliveryMove where
  | start (endpointId : String) (now : ℤ)
  | answer (endpointId : String) (now : ℤ) (status : ℕ)
  | fail (endpointId : String) (now : ℤ)

/-- The clock does not go back, and only requests that were sent come to an end. -/
def DeliveryRun.step (s : DeliveryRun) : DeliveryMove → Option DeliveryRun
  | .start endpointId now =>
    if now < s.clock then none
    else
      match admission s.health endpointId now with
      | .error _ => some { s with clock := now }
      | .ok () => some { s with clock := now, inFlight := s.inFlight ++ [endpointId] }
  | .answer endpointId now status =>
    if now < s.clock ∨ endpointId ∉ s.inFlight then none
    else
      let (_, health) := settle s.health endpointId now status
      some {
        clock := now, health, inFlight := s.inFlight.erase endpointId
        log := s.log ++ [⟨endpointId, now, status⟩] }
  | .fail endpointId now =>
    if now < s.clock ∨ endpointId ∉ s.inFlight then none
    else some { s with clock := now, inFlight := s.inFlight.erase endpointId }

/-- An empty store. -/
def DeliveryRun.init (clock : ℤ) (keyPrefix : String) : DeliveryRun where
  clock
  health := ⟨Dict.empty, keyPrefix⟩
  inFlight := []
  log := []

/-- An outcome in the failures of an endpoint since its last success. -/
def observe (endpointId : String) (failures : List ℤ) (o : Outcome) : List ℤ :=
  if o.endpointId = endpointId then if delivered o.status then [] else failures ++ [o.recordedAt] else failures

/-- The times of an endpoint's failures since its last success. -/
def streak (endpointId : String) (log : List Outcome) : List ℤ :=
  log.foldl (observe endpointId) []

/-- The last failure is less than 24 hours ago. -/
def Continues (now : ℤ) (failures : List ℤ) : Prop :=
  ∃ last, failures.getLast? = some last ∧ now < last + disableAfter

/-- Some failure came at least 24 hours after the first. -/
def Lasted (failures : List ℤ) : Prop :=
  ∃ first, failures.head? = some first ∧ ∃ failure ∈ failures, first + disableAfter ≤ failure

instance (now : ℤ) (failures : List ℤ) : Decidable (Continues now failures) :=
  match eq : failures.getLast? with
  | none => isFalse (by simp [Continues, eq])
  | some last => decidable_of_iff (now < last + disableAfter) (by simp [Continues, eq])

/-- One more failure: a gap of 24 hours starts anew. -/
def prolong (failures : List ℤ) (now : ℤ) : List ℤ :=
  if Continues now failures then failures ++ [now] else [now]

/-- The failures since the last gap of at least 24 hours between two of them. -/
def unbroken (failures : List ℤ) : List ℤ :=
  failures.foldl prolong []

/-- The key an unbroken series of failures leaves in the store. -/
def stored (failures : List ℤ) : Option StoredState :=
  match failures.head?, failures.getLast? with
  | some first, some last =>
    some ⟨⟨first, last, failures.length, decide (last - first ≥ disableAfter)⟩, last + disableAfter⟩
  | _, _ => none

section Series
variable {failures : List ℤ} {now last : ℤ}

/-- One more failure goes on with the series, or begins one. -/
lemma unbroken_snoc (failures : List ℤ) (now : ℤ) :
    unbroken (failures ++ [now]) = prolong (unbroken failures) now := by
  rw [unbroken, List.foldl_append]
  rfl

/-- A series that goes on is the end of the failures. -/
lemma prolong_suffix {failures series : List ℤ} (suffix : series <:+ failures) (now : ℤ) :
    prolong series now <:+ failures ++ [now] := by
  rw [prolong]
  split
  · obtain ⟨before, rfl⟩ := suffix
    exact ⟨before, (List.append_assoc ..).symm⟩
  · exact List.suffix_append failures [now]

/-- The unbroken series is the end of the failures. -/
lemma unbroken_suffix (failures : List ℤ) : unbroken failures <:+ failures := by
  induction failures using List.reverseRecOn with
  | nil => exact List.suffix_refl []
  | append_singleton failures now ih =>
    rw [unbroken_snoc]
    exact prolong_suffix ih now

/-- The last failure of a series that goes on is the present one. -/
lemma getLast?_prolong (failures : List ℤ) (now : ℤ) : (prolong failures now).getLast? = some now := by
  rw [prolong]
  split
  · exact List.getLast?_concat
  · rfl

/-- The failure the store knows as the last one is the last one. -/
lemma getLast?_unbroken (failures : List ℤ) : (unbroken failures).getLast? = failures.getLast? := by
  cases failures using List.reverseRecOn with
  | nil => rfl
  | append_singleton failures now => rw [unbroken_snoc, getLast?_prolong, List.getLast?_concat]

/-- The unbroken series goes on where the failures do. -/
lemma continues_unbroken : Continues now (unbroken failures) ↔ Continues now failures := by
  rw [Continues, Continues, getLast?_unbroken]

/-- Of failures in the order of time, the last comes latest. -/
lemma lasted_iff (sorted : failures.Pairwise (· ≤ ·)) (ended : failures.getLast? = some last) :
    Lasted failures ↔ ∃ first, failures.head? = some first ∧ first + disableAfter ≤ last := by
  obtain ⟨before, rfl⟩ := List.getLast?_eq_some_iff.1 ended
  constructor
  · rintro ⟨first, head, failure, mem, le⟩
    refine ⟨first, head, le.trans ?_⟩
    obtain mem | mem := List.mem_append.1 mem
    · exact (List.pairwise_append.1 sorted).2.2 failure mem last (List.mem_singleton_self last)
    · exact (List.mem_singleton.1 mem).le
  · rintro ⟨first, head, le⟩
    exact ⟨first, head, last, List.mem_append_right before (List.mem_singleton_self last), le⟩

/-- What part of the failures lasted, all of them did. -/
lemma Lasted.of_suffix {series : List ℤ} (sorted : failures.Pairwise (· ≤ ·)) (suffix : series <:+ failures)
    (lasted : Lasted series) : Lasted failures := by
  obtain ⟨first, head, failure, mem, le⟩ := lasted
  obtain ⟨before, rfl⟩ := suffix
  cases before with
  | nil => exact ⟨first, head, failure, mem, le⟩
  | cons earliest before =>
    refine ⟨earliest, rfl, failure, List.mem_append_right _ mem, le_trans ?_ le⟩
    have among : first ∈ before ++ series := List.mem_append_right before (List.mem_of_mem_head? head)
    have earlier : earliest ≤ first := (List.pairwise_cons.1 sorted).1 first among
    exact Int.add_le_add_right earlier _

end Series

section Keys
variable {h : WebhookEndpointHealth} {endpointId other : String} {failures : List ℤ} {now : ℤ}

/-- A key tells its endpoint. -/
lemma key_inj : h.key endpointId = h.key other ↔ endpointId = other := String.append_right_inj _

/-- The key of an unbroken series lives as long as the series continues. -/
lemma live_stored (now : ℤ) (failures : List ℤ) :
    Lease.live now (stored failures) = if Continues now failures then stored failures else none := by
  cases failures using List.reverseRecOn with
  | nil => rw [if_neg (by simp [Continues])]; rfl
  | append_singleton failures last =>
    have continues : Continues now (failures ++ [last]) ↔ now < last + disableAfter := by simp [Continues]
    obtain ⟨first, head⟩ : ∃ first, (failures ++ [last]).head? = some first :=
      Option.isSome_iff_exists.1 (by simp)
    simp only [stored, head, List.getLast?_concat, Lease.live, Option.filter_some, continues, decide_eq_true_iff]

/-- A series is read while it may go on. -/
lemma get_of_stored (same : h.store.get? (h.key endpointId) = stored failures) :
    h.get endpointId now = if Continues now failures then (stored failures).map Lease.Key.holder else none := by
  rw [WebhookEndpointHealth.get, same, live_stored, apply_ite (Option.map Lease.Key.holder)]
  rfl

/-- A series is stored with its first and its last failure. -/
lemma stored_eq {first last : ℤ} (head : failures.head? = some first) (ended : failures.getLast? = some last) :
    stored failures =
      some ⟨⟨first, last, failures.length, decide (last - first ≥ disableAfter)⟩, last + disableAfter⟩ := by
  rw [stored, head, ended]

/-- A series that continues has a first failure and a last. -/
lemma Continues.ends (continues : Continues now failures) :
    ∃ first last, failures.head? = some first ∧ failures.getLast? = some last := by
  obtain ⟨last, ended, -⟩ := continues
  cases failures with
  | nil => cases ended
  | cons first rest => exact ⟨first, last, rfl, ended⟩

/-- What is read of a series is whether it lasted, while it continues. -/
lemma isDisabled_iff (same : h.store.get? (h.key endpointId) = stored failures)
    (sorted : failures.Pairwise (· ≤ ·)) :
    h.isDisabled endpointId now = true ↔ Lasted failures ∧ Continues now failures := by
  rw [WebhookEndpointHealth.isDisabled, get_of_stored same]
  by_cases continues : Continues now failures
  · obtain ⟨first, last, head, ended⟩ := continues.ends
    have long : last - first ≥ disableAfter ↔ first + disableAfter ≤ last := by omega
    simp [continues, lasted_iff sorted ended, stored_eq head ended, head, long]
  · simp [continues]

/-- A failure prolongs the series that is stored. -/
lemma recordFailure_store (same : h.store.get? (h.key endpointId) = stored failures) :
    (h.recordFailure endpointId now).2.store.get? (h.key endpointId) = stored (prolong failures now) := by
  simp only [WebhookEndpointHealth.recordFailure, get_of_stored same, Dict.get?_set, if_pos, prolong]
  by_cases continues : Continues now failures
  · obtain ⟨first, last, head, ended⟩ := continues.ends
    have prolonged : (failures ++ [now]).head? = some first := by simp [head]
    simp [continues, stored_eq head ended, stored_eq prolonged List.getLast?_concat]
  · simp [continues, stored]

end Keys

section Runs
variable {s s' : DeliveryRun} {move : DeliveryMove} {endpointId : String} {now : ℤ}

/-- A step lets time pass, or records an outcome. -/
lemma DeliveryRun.step_cases (step : s.step move = some s') :
    s.clock ≤ s'.clock ∧
      ((s'.health = s.health ∧ s'.log = s.log) ∨
        ∃ endpointId status, s'.health = (settle s.health endpointId s'.clock status).2 ∧
          s'.log = s.log ++ [⟨endpointId, s'.clock, status⟩]) := by
  cases move with
  | start endpointId now =>
    rw [DeliveryRun.step, Option.ite_none_left_eq_some] at step
    obtain ⟨le, step⟩ := step
    split at step
    all_goals
      cases step
      exact ⟨not_lt.1 le, .inl ⟨rfl, rfl⟩⟩
  | answer endpointId now status =>
    rw [DeliveryRun.step, Option.ite_none_left_eq_some, not_or] at step
    obtain ⟨⟨le, -⟩, step⟩ := step
    cases step
    exact ⟨not_lt.1 le, .inr ⟨endpointId, status, rfl, rfl⟩⟩
  | fail endpointId now =>
    rw [DeliveryRun.step, Option.ite_none_left_eq_some, not_or] at step
    obtain ⟨⟨le, -⟩, step⟩ := step
    cases step
    exact ⟨not_lt.1 le, .inl ⟨rfl, rfl⟩⟩

/-- The store keeps of the log the unbroken failures of an endpoint. -/
structure Tracked (endpointId : String) (s : DeliveryRun) : Prop where
  kept : s.health.store.get? (s.health.key endpointId) = stored (unbroken (streak endpointId s.log))
  sorted : (streak endpointId s.log).Pairwise (· ≤ ·)
  past : ∀ failure ∈ streak endpointId s.log, failure ≤ s.clock

/-- At the start nothing was recorded. -/
lemma tracked_init (clock : ℤ) (keyPrefix endpointId : String) :
    Tracked endpointId (DeliveryRun.init clock keyPrefix) where
  kept := rfl
  sorted := List.Pairwise.nil
  past _ mem := absurd mem List.not_mem_nil

/-- One more outcome goes on with the streak or ends it. -/
lemma streak_snoc (log : List Outcome) (o : Outcome) :
    streak endpointId (log ++ [o]) = observe endpointId (streak endpointId log) o := by
  rw [streak, List.foldl_append]
  rfl

/-- An outcome is observed in the store. -/
lemma settle_store {h : WebhookEndpointHealth} {failures : List ℤ} (o : Outcome)
    (same : h.store.get? (h.key endpointId) = stored (unbroken failures)) :
    (settle h o.endpointId o.recordedAt o.status).2.store.get? (h.key endpointId) =
      stored (unbroken (observe endpointId failures o)) := by
  by_cases own : o.endpointId = endpointId
  · subst own
    by_cases success : delivered o.status
    · simp only [settle, observe, success, if_true, WebhookEndpointHealth.recordSuccess, Dict.get?_pop]
      rfl
    · simp only [settle, observe, success, if_true, Bool.false_eq_true, if_false, unbroken_snoc]
      exact recordFailure_store same
  · have ne : h.key endpointId ≠ h.key o.endpointId := fun eq => own (key_inj.1 eq).symm
    rw [observe, if_neg own, ← same, settle]
    split
    · rw [WebhookEndpointHealth.recordSuccess, Dict.get?_pop, if_neg ne]
    · simp only [WebhookEndpointHealth.recordFailure, Dict.get?_set, if_neg ne]

/-- Settling leaves the prefix. -/
lemma keyPrefix_settle (h : WebhookEndpointHealth) (endpointId : String) (now : ℤ) (status : ℕ) :
    (settle h endpointId now status).2.keyPrefix = h.keyPrefix := by
  rw [settle]
  split <;> rfl

/-- The failures of a streak stay in order. -/
lemma observe_sorted {failures : List ℤ} (endpointId : String) (o : Outcome) (sorted : failures.Pairwise (· ≤ ·))
    (past : ∀ failure ∈ failures, failure ≤ o.recordedAt) :
    (observe endpointId failures o).Pairwise (· ≤ ·) ∧
      ∀ failure ∈ observe endpointId failures o, failure ≤ o.recordedAt := by
  rw [observe]
  split
  · split
    · exact ⟨List.Pairwise.nil, fun _ mem => absurd mem List.not_mem_nil⟩
    · refine ⟨List.pairwise_append.2 ⟨sorted, List.pairwise_singleton .., ?_⟩, ?_⟩
      · intro failure mem now last
        rw [List.mem_singleton.1 last]
        exact past failure mem
      · intro failure mem
        obtain mem | mem := List.mem_append.1 mem
        · exact past failure mem
        · exact (List.mem_singleton.1 mem).le
  · exact ⟨sorted, past⟩

/-- Each move keeps the streaks tracked. -/
lemma Tracked.step (tracked : Tracked endpointId s) (step : s.step move = some s') : Tracked endpointId s' := by
  obtain ⟨le, ⟨health, log⟩ | ⟨other, status, health, log⟩⟩ := DeliveryRun.step_cases step
  · refine ⟨?_, ?_, ?_⟩
    · rw [health, log]
      exact tracked.kept
    · rw [log]
      exact tracked.sorted
    · rw [log]
      exact fun failure mem => (tracked.past failure mem).trans le
  · have past : ∀ failure ∈ streak endpointId s.log, failure ≤ s'.clock :=
      fun failure mem => (tracked.past failure mem).trans le
    have observed := observe_sorted endpointId ⟨other, s'.clock, status⟩ tracked.sorted past
    have kept := settle_store ⟨other, s'.clock, status⟩ tracked.kept
    refine ⟨?_, ?_, ?_⟩
    · rw [health, log, streak_snoc, ← kept, WebhookEndpointHealth.key, keyPrefix_settle]
      rfl
    · rw [log, streak_snoc]
      exact observed.1
    · rw [log, streak_snoc]
      exact observed.2

/-- What `is_disabled` answers after a run. -/
lemma Tracked.isDisabled (tracked : Tracked endpointId s) :
    s.health.isDisabled endpointId now = true ↔
      Lasted (unbroken (streak endpointId s.log)) ∧ Continues now (streak endpointId s.log) := by
  have sorted := tracked.sorted.sublist (unbroken_suffix (streak endpointId s.log)).sublist
  rw [isDisabled_iff tracked.kept sorted, continues_unbroken]

/-- A disabled endpoint is refused. -/
lemma admission_of_isDisabled {h : WebhookEndpointHealth} (disabled : h.isDisabled endpointId now = true) :
    admission h endpointId now = .error (deliveryError "webhook endpoint is disabled") := by
  rw [admission, if_pos disabled]

/-- At any time after any run, an endpoint is disabled exactly when its failures since its last success lasted 24
hours, and then not contacted, if and only if failures that lasted did so without a gap of 24 hours, and the last of
them is not that long ago. -/
theorem disabled_kept_iff {clock : ℤ} {keyPrefix : String} {moves : List DeliveryMove}
    (run : exec DeliveryRun.step (DeliveryRun.init clock keyPrefix) moves = some s)
    (endpointId : String) (now : ℤ) :
    ((s.health.isDisabled endpointId now = true ↔ Lasted (streak endpointId s.log)) ∧
      (Lasted (streak endpointId s.log) →
        admission s.health endpointId now = .error (deliveryError "webhook endpoint is disabled"))) ↔
    (Lasted (streak endpointId s.log) →
      Lasted (unbroken (streak endpointId s.log)) ∧ Continues now (streak endpointId s.log)) := by
  have tracked : Tracked endpointId s :=
    exec_invariant (tracked_init clock keyPrefix endpointId) (fun _ _ _ inv => inv.step) run
  rw [tracked.isDisabled]
  constructor
  · intro exact lasted
    exact exact.1.2 lasted
  · intro kept
    refine ⟨⟨fun disabled => ?_, kept⟩, fun lasted => admission_of_isDisabled (tracked.isDisabled.2 (kept lasted))⟩
    exact disabled.1.of_suffix tracked.sorted (unbroken_suffix _)

end Runs

section Failures

def hours (n : ℤ) : ℤ := n * 60 * 60 * 1000000

/-- Three deliveries fail, 20 hours after each other. -/
def threeFailures : List DeliveryMove :=
  [.start "shop" (hours 0), .answer "shop" (hours 0) 503, .start "shop" (hours 20), .answer "shop" (hours 20) 503,
    .start "shop" (hours 40), .answer "shop" (hours 40) 503]

/-- Three failures disable the endpoint until its key expires. -/
lemma threeFailures_run :
    ∃ s, exec DeliveryRun.step (DeliveryRun.init 0 "stellarflow:webhook:") threeFailures = some s ∧
      s.clock = hours 40 ∧ streak "shop" s.log = [hours 0, hours 20, hours 40] ∧
        s.health.isDisabled "shop" (hours 63) = true ∧ s.health.isDisabled "shop" (hours 64) = false := by
  have run : ((exec DeliveryRun.step (DeliveryRun.init 0 "stellarflow:webhook:") threeFailures).map fun s =>
      (s.clock, streak "shop" s.log, s.health.isDisabled "shop" (hours 63), s.health.isDisabled "shop" (hours 64))) =
        some (hours 40, [hours 0, hours 20, hours 40], true, false) := by decide +kernel
  obtain ⟨s, reached, eq⟩ := Option.map_eq_some_iff.1 run
  simp only [Prod.mk.injEq] at eq
  exact ⟨s, reached, eq⟩

/-- The three failures lasted long enough. -/
lemma threeFailures_lasted : Lasted [hours 0, hours 20, hours 40] :=
  ⟨hours 0, rfl, hours 40, by decide, by decide⟩

/-- While the key lives, the endpoint stays disabled. -/
theorem disabled_kept_iff_threeFailures :
    ∃ s, exec DeliveryRun.step (DeliveryRun.init 0 "stellarflow:webhook:") threeFailures = some s ∧
      admission s.health "shop" (hours 63) = .error (deliveryError "webhook endpoint is disabled") := by
  obtain ⟨s, run, -, failures, -⟩ := threeFailures_run
  refine ⟨s, run, ((disabled_kept_iff run "shop" (hours 63)).2 fun _ => ?_).2 ?_⟩
  · rw [failures]
    exact ⟨⟨hours 0, rfl, hours 40, by decide, by decide⟩, hours 40, rfl, by decide⟩
  · rw [failures]
    exact threeFailures_lasted

/-- 24 hours after the last failure the key is gone, and the endpoint is contacted again. -/
theorem disabled_until_key_expires :
    ¬∀ clock keyPrefix moves s, exec DeliveryRun.step (DeliveryRun.init clock keyPrefix) moves = some s →
      ∀ endpointId now, s.clock ≤ now →
        (s.health.isDisabled endpointId now = true ↔ Lasted (streak endpointId s.log)) ∧
          (Lasted (streak endpointId s.log) →
            admission s.health endpointId now = .error (deliveryError "webhook endpoint is disabled")) := by
  intro all
  obtain ⟨s, run, clock, failures, -, enabled⟩ := threeFailures_run
  have kept := (all 0 _ threeFailures s run "shop" (hours 64) (by rw [clock]; decide)).1
  rw [failures, enabled] at kept
  exact Bool.false_ne_true (kept.2 threeFailures_lasted)

end Failures

end StellarFlow.Webhooks
