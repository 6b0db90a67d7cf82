import StellarFlow.Bridge.Ingestion
import StellarFlow.Bridge.MintQueue
import StellarFlow.Bridge.Validators

/-!
# Staging of verified locks

The worker of `src/services/bridgeEventListener.ts` together with the `addValidatorSignature` calls of
`src/services/bridgeSignatureVerification.ts`, which run beside it one database statement at a time. The worker takes
one packet after the other: it records the event, verifies the signatures that are stored by then, stages the mint and
enqueues it; when something throws, or the threshold is not met, it drops the packet.

Nothing else stages an event, and the worker does not look at its type. So the operations are those of the verified
locks where the signatures of a lock are stored before the worker counts them, the worker enqueues only locks, and it
gives up no lock that has met the threshold.
-/

namespace StellarFlow.Bridge.Staging
open Validators (Network Registry weigh requiredThreshold)

/-- Where the worker stands with a packet; from `tallying` on it has read the event and the total weight. -/
inductive Phase where
  | idle
  | recorded (id : ℕ) (event : BridgeEvent)
  | tallying (id : ℕ) (event read : BridgeEvent) (totalWeight : ℤ)
  | marking (id : ℕ) (event : BridgeEvent)
  | verified (id : ℕ) (event : BridgeEvent)
  | staged (id : ℕ) (event : BridgeEvent) (mint : Mint)
  | queued (id : ℕ)
  deriving DecidableEq

/-- The tables with the calls in progress, the worker, and the rows of `BridgeOperation`. -/
structure Pipeline where
  registry : Registry
  phase : Phase
  operations : List BridgeOperation

inductive Move where
  | call (m : Validators.Move)
  | record (id : ℕ) (eventData : BridgeEventData)
  | load
  | tally
  | mark
  | stage (answered : Bool)
  | enqueue (now : ℤ)
  | finish
  | error

/-- The move is one of an `addValidatorSignature` call. -/
def isCall : Validators.Move → Bool
  | .addValidatorSignature _ _ _ => true
  | .lookup _ => true
  | .check _ => true
  | .validate _ => true
  | .create _ => true
  | .load _ => true
  | .tally _ => true
  | .mark _ => true
  | .error _ => true
  | _ => false

/-- The event of the packet, until its operation is created. -/
def Phase.pending : Phase → Option (ℕ × BridgeEvent)
  | .recorded id event => some (id, event)
  | .tallying id event _ _ => some (id, event)
  | .marking id event => some (id, event)
  | .verified id event => some (id, event)
  | .staged id event _ => some (id, event)
  | _ => none

/-- The packet is of the event, and has no operation yet. -/
def Phase.isPending (phase : Phase) (id : ℕ) : Bool := phase.pending.any fun e => e.1 = id

/-- The worker has still to read the signatures of the event. -/
def Phase.awaits (phase : Phase) (id : ℕ) : Bool :=
  match phase with
  | .recorded id' _ => id' = id
  | .tallying id' _ _ _ => id' = id
  | _ => false

/-- The arguments of `enqueueBridgeOperation` for a staged mint. -/
def enqueueParams (id : ℕ) (event : BridgeEvent) (mint : Mint) : BridgeOperationParams :=
  ⟨id, mint.contract, event.tokenAmount, mint.recipient, some 5⟩

variable (net : Network)

/-- One move. -/
def Pipeline.step (s : Pipeline) : Move → Option Pipeline
  | .call m =>
    if isCall m then (s.registry.step net m).map fun registry => { s with registry := registry } else none
  | .record id eventData =>
    match s.phase with
    | .idle =>
      if id ∈ s.registry.events.keys then none
      else if (s.registry.events.entries.any fun e => e.2.transactionHash = eventData.transactionHash) ||
          !eventData.fits then some s
      else
        let event := (eventData.row eventData.tokenAmount .pending).toBridgeEvent
        some { s with
          registry := { s.registry with events := s.registry.events.set id event }
          phase := .recorded id event }
    | _ => none
  | .load =>
    match s.phase with
    | .recorded id event =>
      match s.registry.events.get? id with
      | none => some { s with phase := .idle }
      | some read =>
        let validators := s.registry.bridgeValidators net read
        if validators = [] then some { s with phase := .idle }
        else some { s with phase := .tallying id event read (weigh validators) }
    | _ => none
  | .tally =>
    match s.phase with
    | .tallying id event read totalWeight =>
      if requiredThreshold totalWeight ≤ weigh (s.registry.validSigners net id read) then
        some { s with phase := .marking id event }
      else some { s with phase := .idle }
    | _ => none
  | .mark =>
    match s.phase with
    | .marking id event => some { s with registry := s.registry.update id .verified, phase := .verified id event }
    | _ => none
  | .stage answered =>
    match s.phase with
    | .verified id event =>
      match if answered then stageSorobanMintTransaction net.runtime event else none with
      | some mint => some { s with phase := .staged id event mint }
      | none => some { s with phase := .idle }
    | _ => none
  | .enqueue now =>
    match s.phase with
    | .staged id event mint =>
      match (enqueueParams id event mint).create now with
      | some operation => some { s with operations := s.operations ++ [operation], phase := .queued id }
      | none => some { s with phase := .idle }
    | _ => none
  | .finish =>
    match s.phase with
    | .queued id => some { s with registry := s.registry.update id .staged, phase := .idle }
    | _ => none
  | .error => if s.phase = .idle then none else some { s with phase := .idle }

/-- No events yet, and no calls. -/
def Pipeline.initial (validators : Dict ℕ Validators.BridgeValidator) (signatures : Dict (ℕ × ℕ) String) : Pipeline :=
  ⟨Registry.initial validators Dict.empty signatures, .idle, []⟩

def isLock (event : BridgeEvent) : Bool := event.eventType = "TOKEN_LOCK"

/-- The stored signatures of the event meet the threshold of its chain. -/
def meets (registry : Registry) (id : ℕ) (event : BridgeEvent) : Bool :=
  ¬registry.bridgeValidators net event = [] ∧
    requiredThreshold (weigh (registry.bridgeValidators net event)) ≤ weigh (registry.validSigners net id event)

/-- How many operations there should be for an event. -/
def due (registry : Registry) (id : ℕ) (event : BridgeEvent) : ℕ :=
  if isLock event && meets net registry id event then 1 else 0

/-- How many there are. -/
def Pipeline.queuedFor (s : Pipeline) (id : ℕ) : ℕ := s.operations.countP fun operation => operation.bridgeEventId = id

/-- No call is in progress. -/
def Pipeline.isQuiet (s : Pipeline) : Bool := s.phase = .idle && s.registry.calls.all fun call => call.phase = .finished

/-- When no call is in progress, the events with an operation are the locks that meet the threshold, and each of them
has one. -/
def QueuedOnce (s : Pipeline) : Prop :=
  s.isQuiet = true →
    (∀ id event, s.registry.events.get? id = some event → s.queuedFor id = due net s.registry id event) ∧
    ∀ operation ∈ s.operations, operation.bridgeEventId ∈ s.registry.events.keys

/-- The event that the worker drops at this move: an error, or a mint that is not staged or not stored. -/
def Pipeline.givesUp (s : Pipeline) : Move → Option (ℕ × BridgeEvent)
  | .error => s.phase.pending
  | .stage answered =>
    match s.phase with
    | .verified id event =>
      if answered && (stageSorobanMintTransaction net.runtime event).isSome then none else some (id, event)
    | _ => none
  | .enqueue now =>
    match s.phase with
    | .staged id event mint => if ((enqueueParams id event mint).create now).isSome then none else some (id, event)
    | _ => none
  | _ => none

/-- No lock that meets the threshold is dropped, what is enqueued is a lock, and a signature that is stored for a lock
when the worker does not wait for its signatures makes no difference to the threshold. -/
def Pipeline.isOrderly (s : Pipeline) (m : Move) : Bool :=
  ((s.givesUp net m).all fun e => !(isLock e.2 && meets net s.registry e.1 e.2)) &&
  match m with
  | .enqueue _ =>
    match s.phase with
    | .staged _ event _ => isLock event
    | _ => true
  | .call (.create i) =>
    match s.registry.calls[i]? with
    | some ⟨id, .creating validatorId signature⟩ =>
      s.phase.awaits id || (s.registry.events.get? id).all fun event =>
        let signed := { s.registry with signatures := s.registry.signatures.set (id, validatorId) signature }
        !isLock event || s.registry.isStored id validatorId ||
          meets net signed id event = meets net s.registry id event
    | _ => true
  | _ => true

variable {net} {s s' : Pipeline} {r r' : Registry} {m : Move} {id : ℕ} {event : BridgeEvent} {phase : Phase}

/-- The two tables have the same events, up to their status. -/
def SameRows (a b : Dict ℕ BridgeEvent) : Prop :=
  ∀ id, a.get? id = none ∧ b.get? id = none ∨
    ∃ event status, a.get? id = some event ∧ b.get? id = some { event with status := status }

/-- Rows are the same as themselves. -/
lemma sameRows_refl (a : Dict ℕ BridgeEvent) : SameRows a a := by
  intro id
  cases found : a.get? id with
  | none => exact .inl ⟨rfl, rfl⟩
  | some event => exact .inr ⟨event, event.status, rfl, rfl⟩

/-- Setting a status leaves the rest of the rows. -/
lemma sameRows_update (r : Registry) (id : ℕ) (status : EventStatus) :
    SameRows r.events (r.update id status).events := by
  intro x
  rw [Registry.update, Dict.get?_modify]
  by_cases same : x = id
  · rw [if_pos same, same]
    cases r.events.get? id with
    | none => exact .inl ⟨rfl, rfl⟩
    | some event => exact .inr ⟨event, status, rfl, rfl⟩
  · rw [if_neg same]
    exact sameRows_refl r.events x

/-- A move of a call changes no validator and no event but for its status, and stores at most one signature. -/
lemma call_cases {m : Validators.Move} (call : isCall m = true) (taken : r.step net m = some r') :
    r'.validators = r.validators ∧ SameRows r.events r'.events ∧
      (r'.signatures = r.signatures ∨ ∃ i id validatorId signature, m = .create i ∧
        r.calls[i]? = some ⟨id, .creating validatorId signature⟩ ∧ (id, validatorId) ∉ r.signatures.keys ∧
        r'.signatures = r.signatures.set (id, validatorId) signature) := by
  cases Registry.step_cases taken with
  | createValidator => cases call
  | setActive => cases call
  | recordEvent => cases call
  | setStatus => cases call
  | start => exact ⟨rfl, sameRows_refl _, .inl rfl⟩
  | advance => exact ⟨rfl, sameRows_refl _, .inl rfl⟩
  | create found new => exact ⟨rfl, sameRows_refl _, .inr ⟨_, _, _, _, rfl, found, new, rfl⟩⟩
  | load => exact ⟨rfl, sameRows_refl _, .inl rfl⟩
  | tally => exact ⟨rfl, sameRows_refl _, .inl rfl⟩
  | mark => exact ⟨rfl, sameRows_update _ _ _, .inl rfl⟩

/-- The table has the event, with some status. -/
def HasRow (r : Registry) (id : ℕ) (event : BridgeEvent) : Prop :=
  ∃ status, r.events.get? id = some { event with status := status }

/-- What the phase of the worker rests on. -/
def Supports (net : Network) (r : Registry) : Phase → Prop
  | .idle => True
  | .recorded id event => HasRow r id event
  | .tallying id event read totalWeight =>
    HasRow r id event ∧ (∃ status, read = { event with status := status }) ∧
      ¬r.bridgeValidators net event = [] ∧ totalWeight = weigh (r.bridgeValidators net event)
  | .marking id event => HasRow r id event ∧ (isLock event = true → meets net r id event = true)
  | .verified id event => HasRow r id event ∧ (isLock event = true → meets net r id event = true)
  | .staged id event _ => HasRow r id event ∧ (isLock event = true → meets net r id event = true)
  | .queued _ => True

/-- The event that the worker has not yet enqueued or dropped has no operation, every other one as many as it should. -/
structure Sound (net : Network) (s : Pipeline) : Prop where
  owned : ∀ operation ∈ s.operations, operation.bridgeEventId ∈ s.registry.events.keys
  counted : ∀ id event, s.registry.events.get? id = some event →
    s.queuedFor id = if s.phase.isPending id then 0 else due net s.registry id event
  supports : Supports net s.registry s.phase

/-- The phase has the event, and rests on it. -/
lemma hasRow_of_pending (supports : Supports net r phase) (pending : phase.pending = some (id, event)) :
    HasRow r id event := by
  cases phase with
  | idle => cases pending
  | recorded =>
    cases pending
    exact supports
  | tallying =>
    cases pending
    exact supports.1
  | marking =>
    cases pending
    exact supports.1
  | verified =>
    cases pending
    exact supports.1
  | staged =>
    cases pending
    exact supports.1
  | queued => cases pending

/-- No signatures are awaited for an event that is not pending. -/
lemma awaits_of_not_isPending (pending : ¬phase.isPending id = true) : phase.awaits id = false := by
  cases phase with
  | recorded => exact Bool.eq_false_of_not_eq_true pending
  | tallying => exact Bool.eq_false_of_not_eq_true pending
  | idle => rfl
  | marking => rfl
  | verified => rfl
  | staged => rfl
  | queued => rfl

/-- What is due stays the same where a lock meets the threshold as before. -/
lemma due_congr {status : EventStatus} (kept : isLock event = true → meets net r' id event = meets net r id event) :
    due net r id event = due net r' id { event with status := status } := by
  -- the status is not read
  change due net r id event = due net r' id event
  rw [due, due]
  cases lock : isLock event with
  | false => rfl
  | true => rw [kept lock]

/-- Nothing is due for a lock that misses the threshold. -/
lemma due_eq_zero (unmet : isLock event = true → meets net r id event = false) : due net r id event = 0 := by
  rw [due]
  cases lock : isLock event with
  | false => rfl
  | true =>
    rw [unmet lock]
    rfl

/-- What another move may do to the tables while the worker stands still. -/
structure Beside (net : Network) (phase : Phase) (r r' : Registry) : Prop where
  validators : r'.validators = r.validators
  rows : SameRows r.events r'.events
  meets : ∀ id event, r.events.get? id = some event → isLock event = true → phase.awaits id = false →
    Staging.meets net r' id event = Staging.meets net r id event

/-- A row stays, whatever another move may do beside the worker. -/
lemma HasRow.beside (row : HasRow r id event) (beside : Beside net phase r r') : HasRow r' id event := by
  obtain ⟨status, found⟩ := row
  rcases beside.rows id with ⟨none, -⟩ | ⟨event', status', found', same⟩
  · rw [none] at found
    cases found
  · rw [found] at found'
    obtain rfl := Option.some.inj found'
    exact ⟨status', same⟩

/-- The validators of a chain stay, whatever another move may do beside the worker. -/
lemma bridgeValidators_beside (beside : Beside net phase r r') (event : BridgeEvent) :
    r'.bridgeValidators net event = r.bridgeValidators net event := by
  rw [Registry.bridgeValidators, Registry.bridgeValidators, beside.validators]

/-- A lock whose signatures are counted still meets the threshold. -/
lemma HasRow.meets_beside (row : HasRow r id event) (met : isLock event = true → meets net r id event = true)
    (counted : phase.awaits id = false) (beside : Beside net phase r r') (lock : isLock event = true) :
    meets net r' id event = true := by
  obtain ⟨status, found⟩ := row
  exact (beside.meets id _ found lock counted).trans (met lock)

/-- What a phase rests on stays, whatever another move may do beside it. -/
lemma Supports.beside (supports : Supports net r phase) (beside : Beside net phase r r') : Supports net r' phase := by
  cases phase with
  | idle => trivial
  | recorded => exact HasRow.beside supports beside
  | tallying id event read totalWeight =>
    obtain ⟨row, read, nonempty, weight⟩ := supports
    refine ⟨row.beside beside, read, ?_, ?_⟩
    · rw [bridgeValidators_beside beside]
      exact nonempty
    · rw [bridgeValidators_beside beside]
      exact weight
  | marking => exact ⟨supports.1.beside beside, supports.1.meets_beside supports.2 rfl beside⟩
  | verified => exact ⟨supports.1.beside beside, supports.1.meets_beside supports.2 rfl beside⟩
  | staged => exact ⟨supports.1.beside beside, supports.1.meets_beside supports.2 rfl beside⟩
  | queued => trivial

/-- Soundness stays, whatever another move may do beside the worker. -/
lemma Sound.beside (sound : Sound net s) (beside : Beside net s.phase s.registry r) :
    Sound net { s with registry := r } := by
  refine ⟨fun operation mem => ?_, fun id event found => ?_, sound.supports.beside beside⟩
  · obtain ⟨event, found⟩ := Dict.mem_keys_iff.1 (sound.owned operation mem)
    rcases beside.rows operation.bridgeEventId with ⟨none, -⟩ | ⟨event', status, -, same⟩
    · rw [none] at found
      cases found
    · exact Dict.mem_keys_iff.2 ⟨_, same⟩
  · rcases beside.rows id with ⟨-, none⟩ | ⟨event', status, found', same⟩
    · rw [none] at found
      cases found
    · rw [found] at same
      obtain rfl := Option.some.inj same
      refine (sound.counted id event' found').trans ?_
      by_cases pending : s.phase.isPending id = true
      · rw [if_pos pending, if_pos pending]
      · rw [if_neg pending, if_neg pending]
        have kept : isLock event' = true →
            Staging.meets net r id event' = Staging.meets net s.registry id event' := fun lock =>
          beside.meets id event' found' lock (awaits_of_not_isPending pending)
        exact due_congr kept

/-- The worker goes on with the same packet. -/
lemma Sound.advance (sound : Sound net s) (pending : phase.pending = s.phase.pending)
    (supports : Supports net s.registry phase) : Sound net { s with phase := phase } := by
  refine ⟨sound.owned, fun id event found => ?_, supports⟩
  rw [Phase.isPending, pending]
  exact sound.counted id event found

/-- The worker drops a packet that should have no operation. -/
lemma Sound.drop (sound : Sound net s)
    (unmet : ∀ id event, s.phase.pending = some (id, event) → isLock event = true →
      meets net s.registry id event = false)
    (free : phase.pending = none) (supports : Supports net s.registry phase) : Sound net { s with phase := phase } := by
  refine ⟨sound.owned, fun id event found => ?_, supports⟩
  rw [Phase.isPending, free]
  refine (sound.counted id event found).trans ?_
  by_cases pending : s.phase.isPending id = true
  · obtain ⟨⟨id', event'⟩, eq, same⟩ := (Option.any_eq_true _ _).1 pending
    obtain rfl := of_decide_eq_true same
    obtain ⟨status, found'⟩ := hasRow_of_pending sound.supports eq
    rw [found] at found'
    obtain rfl := Option.some.inj found'
    rw [if_pos pending]
    exact (due_eq_zero (unmet _ _ eq)).symm
  · rw [if_neg pending]
    rfl

/-- Setting a status is such a move. -/
lemma beside_update (r : Registry) (id : ℕ) (status : EventStatus) : Beside net phase r (r.update id status) :=
  ⟨rfl, sameRows_update r id status, fun _ _ _ _ _ => rfl⟩

/-- A new event has no operation, and the worker has still to count. -/
lemma Sound.record (sound : Sound net s) (idle : s.phase = .idle) (new : id ∉ s.registry.events.keys) :
    Sound net { s with
      registry := { s.registry with events := s.registry.events.set id event }, phase := .recorded id event } := by
  have row : (s.registry.events.set id event).get? id = some event := by rw [Dict.get?_set, if_pos rfl]
  refine ⟨fun operation mem => ?_, fun x event' found => ?_, ⟨event.status, row⟩⟩
  · obtain ⟨event', found⟩ := Dict.mem_keys_iff.1 (sound.owned operation mem)
    have other : operation.bridgeEventId ≠ id := fun same => new (same ▸ sound.owned operation mem)
    exact Dict.mem_keys_iff.2 ⟨event', (Dict.get?_set ..).trans ((if_neg other).trans found)⟩
  · dsimp only at found ⊢
    rw [Dict.get?_set] at found
    by_cases same : x = id
    · subst same
      rw [Phase.isPending, Phase.pending, Option.any_some, decide_eq_true rfl, if_pos rfl]
      refine List.countP_eq_zero.2 fun operation mem eq => new ?_
      exact of_decide_eq_true eq ▸ sound.owned operation mem
    · rw [if_neg same] at found
      have counted := sound.counted x event' found
      rw [idle] at counted
      have free : Phase.isPending (.recorded id event) x = false := decide_eq_false fun eq => same eq.symm
      rw [free]
      exact counted

/-- The operation of a lock that meets the threshold. -/
lemma Sound.enqueue (sound : Sound net s) {mint : Mint} (staged : s.phase = .staged id event mint)
    (lock : isLock event = true) {operation : BridgeOperation} (own : operation.bridgeEventId = id) :
    Sound net { s with operations := s.operations ++ [operation], phase := .queued id } := by
  have supports := sound.supports
  rw [staged] at supports
  obtain ⟨⟨status, row⟩, met⟩ := supports
  refine ⟨List.forall_mem_append.2 ⟨sound.owned, List.forall_mem_singleton.2 ?_⟩, fun x event' found => ?_, trivial⟩
  · rw [own]
    exact Dict.mem_keys_iff.2 ⟨_, row⟩
  · have counted := sound.counted x event' found
    rw [staged] at counted
    have more : Pipeline.queuedFor { s with operations := s.operations ++ [operation], phase := .queued id } x =
        s.queuedFor x + if id = x then 1 else 0 := by
      rw [Pipeline.queuedFor, List.countP_append, List.countP_singleton, own]
      simp only [decide_eq_true_eq]
      rfl
    rw [more, counted]
    by_cases same : id = x
    · subst same
      rw [found] at row
      obtain rfl := Option.some.inj row
      rw [if_pos rfl, Phase.isPending, Phase.pending, Option.any_some, decide_eq_true rfl, if_pos rfl]
      have due_eq : due net s.registry id event = 1 := by rw [due, lock, met lock, Bool.true_and, if_pos rfl]
      exact due_eq.symm
    · have free : Phase.isPending (.staged id event mint) x = false := decide_eq_false same
      rw [if_neg same, free]
      rfl

/-- Whether the threshold is met depends on the validators and the signatures. -/
lemma meets_congr (validators : r'.validators = r.validators) (signatures : r'.signatures = r.signatures) (id : ℕ)
    (event : BridgeEvent) : meets net r' id event = meets net r id event := by
  obtain ⟨_, _, _, _⟩ := r
  obtain ⟨_, _, _, _⟩ := r'
  cases validators
  cases signatures
  rfl

/-- A signature of another event does not count. -/
lemma meets_other {id' validatorId : ℕ} {signature : String} (validators : r'.validators = r.validators)
    (new : (id, validatorId) ∉ r.signatures.keys)
    (signed : r'.signatures = r.signatures.set (id, validatorId) signature) (other : id' ≠ id) :
    meets net r' id' event = meets net r id' event := by
  have bridgeValidators : r'.bridgeValidators net event = r.bridgeValidators net event := by
    rw [Registry.bridgeValidators, Registry.bridgeValidators, validators]
  have signer : r'.signer net id' event = r.signer net id' event := by
    funext row
    rw [Registry.signer, Registry.signer, validators]
  have validSigners : r'.validSigners net id' event = r.validSigners net id' event := by
    have ignored : r.signer net id' event ((id, validatorId), signature) = none := if_neg fun same => other same.symm
    rw [Registry.validSigners, Registry.validSigners, signer, signed, Dict.entries_set_of_not_mem new,
      List.filterMap_append, List.filterMap_cons_none ignored, List.filterMap_nil, List.append_nil]
  rw [meets, meets, bridgeValidators, validSigners]

/-- What the guard says of an event that is dropped. -/
lemma unmet_of_isOrderly (orderly : s.isOrderly net m = true) (dropped : s.givesUp net m = some (id, event))
    (lock : isLock event = true) : meets net s.registry id event = false := by
  have unmet := (Bool.and_eq_true_iff.1 orderly).1
  rw [dropped, Option.all_some, lock, Bool.true_and] at unmet
  exact (Bool.not_eq_true' _).mp unmet

/-- A call on the registry keeps soundness in an orderly run. -/
lemma sound_call {m : Validators.Move} (sound : Sound net s) (orderly : s.isOrderly net (.call m) = true)
    (call : isCall m = true) (taken : s.registry.step net m = some r) : Sound net { s with registry := r } := by
  obtain ⟨validators, rows, signatures⟩ := call_cases call taken
  refine sound.beside ⟨validators, rows, fun id' event found lock counted => ?_⟩
  rcases signatures with same | ⟨i, id, validatorId, signature, rfl, creating, new, signed⟩
  · exact meets_congr validators same id' event
  · have stored := (Bool.and_eq_true_iff.1 orderly).2
    dsimp only at stored
    rw [creating] at stored
    dsimp only at stored
    by_cases own : id' = id
    · subst own
      have unstored : s.registry.isStored id' validatorId = false := decide_eq_false new
      rw [counted, found, Bool.false_or, Option.all_some, lock, unstored] at stored
      refine (meets_congr ?_ ?_ id' event).trans (of_decide_eq_true stored)
      · exact validators
      · exact signed
    · exact meets_other validators new signed own

/-- The worker drops the packet that it has. -/
lemma Sound.dropPending (sound : Sound net s) (pending : s.phase.pending = some (id, event))
    (unmet : isLock event = true → meets net s.registry id event = false) : Sound net { s with phase := .idle } := by
  refine sound.drop (fun id' event' pending' lock => ?_) rfl trivial
  rw [pending] at pending'
  cases pending'
  exact unmet lock

/-- An event is recorded. -/
lemma sound_record {eventData : BridgeEventData} (sound : Sound net s)
    (taken : s.step net (.record id eventData) = some s') : Sound net s' := by
  rw [Pipeline.step] at taken
  split at taken
  case h_1 idle =>
    split at taken
    case isTrue => cases taken
    case isFalse new =>
      split at taken
      case isTrue =>
        cases taken
        exact sound
      case isFalse =>
        cases taken
        exact sound.record idle new
  case h_2 => cases taken

/-- The event is loaded. -/
lemma sound_load (sound : Sound net s) (taken : s.step net .load = some s') : Sound net s' := by
  have supports := sound.supports
  rw [Pipeline.step] at taken
  split at taken
  case h_1 id event recorded =>
    have pending : s.phase.pending = some (id, event) := by rw [recorded]; rfl
    rw [recorded] at supports
    obtain ⟨status, row⟩ := supports
    rw [row] at taken
    dsimp only at taken
    split at taken
    case isTrue none =>
      -- without active validators the threshold counts as not met
      cases taken
      exact sound.dropPending pending fun _ => decide_eq_false fun met => met.1 none
    case isFalse some =>
      cases taken
      exact sound.advance pending.symm ⟨⟨status, row⟩, ⟨status, rfl⟩, some, rfl⟩
  case h_2 => cases taken

/-- The valid signatures are weighed. -/
lemma sound_tally (sound : Sound net s) (taken : s.step net .tally = some s') : Sound net s' := by
  have supports := sound.supports
  rw [Pipeline.step] at taken
  split at taken
  case h_1 id event read totalWeight tallying =>
    have pending : s.phase.pending = some (id, event) := by rw [tallying]; rfl
    rw [tallying] at supports
    -- the total is the one of the validators that still count
    obtain ⟨row, ⟨status, rfl⟩, some, rfl⟩ := supports
    split at taken
    case isTrue met =>
      cases taken
      exact sound.advance pending.symm ⟨row, fun _ => decide_eq_true ⟨some, met⟩⟩
    case isFalse unmet =>
      cases taken
      exact sound.dropPending pending fun _ => decide_eq_false fun met => unmet met.2
  case h_2 => cases taken

/-- The event is marked as verified. -/
lemma sound_mark (sound : Sound net s) (taken : s.step net .mark = some s') : Sound net s' := by
  rw [Pipeline.step] at taken
  split at taken
  case h_1 id event marking =>
    cases taken
    have marked := sound.beside (beside_update s.registry id .verified)
    have rests := marked.supports
    dsimp only at rests
    rw [marking] at rests
    exact marked.advance (by rw [marking]; rfl) rests
  case h_2 => cases taken

/-- The operation is staged, or was staged before. -/
lemma sound_stage {answered : Bool} (sound : Sound net s) (orderly : s.isOrderly net (.stage answered) = true)
    (taken : s.step net (.stage answered) = some s') : Sound net s' := by
  have supports := sound.supports
  rw [Pipeline.step] at taken
  split at taken
  case h_1 id event verified =>
    have pending : s.phase.pending = some (id, event) := by rw [verified]; rfl
    rw [verified] at supports
    split at taken
    case h_1 mint staged =>
      cases taken
      exact sound.advance pending.symm supports
    case h_2 failed =>
      cases taken
      have dropped : s.givesUp net (.stage answered) = some (id, event) := by
        rw [Pipeline.givesUp, verified]
        cases answered with
        | false => rfl
        | true =>
          rw [if_pos rfl] at failed
          dsimp only
          rw [failed]
          rfl
      exact sound.dropPending pending (unmet_of_isOrderly orderly dropped)
  case h_2 => cases taken

/-- The operation is queued. -/
lemma sound_enqueue {now : ℤ} (sound : Sound net s) (orderly : s.isOrderly net (.enqueue now) = true)
    (taken : s.step net (.enqueue now) = some s') : Sound net s' := by
  rw [Pipeline.step] at taken
  split at taken
  case h_1 id event mint staged =>
    split at taken
    case h_1 operation created =>
      cases taken
      -- only a lock is enqueued in an orderly run
      have lock := (Bool.and_eq_true_iff.1 orderly).2
      dsimp only at lock
      rw [staged] at lock
      obtain ⟨amount, -, rfl⟩ := Option.map_eq_some_iff.1 created
      exact sound.enqueue staged lock rfl
    case h_2 failed =>
      cases taken
      have pending : s.phase.pending = some (id, event) := by rw [staged]; rfl
      have dropped : s.givesUp net (.enqueue now) = some (id, event) := by
        rw [Pipeline.givesUp, staged]
        dsimp only
        rw [failed]
        rfl
      exact sound.dropPending pending (unmet_of_isOrderly orderly dropped)
  case h_2 => cases taken

/-- The tick is through. -/
lemma sound_finish (sound : Sound net s) (taken : s.step net .finish = some s') : Sound net s' := by
  rw [Pipeline.step] at taken
  split at taken
  case h_1 id queued =>
    cases taken
    refine (sound.beside (beside_update s.registry id .staged)).drop (fun _ _ pending _ => ?_) rfl trivial
    dsimp only at pending
    rw [queued] at pending
    cases pending
  case h_2 => cases taken

/-- An orderly move keeps what the worker rests on. -/
lemma sound_step (sound : Sound net s) (orderly : s.isOrderly net m = true) (taken : s.step net m = some s') :
    Sound net s' := by
  cases m with
  | call m =>
    rw [Pipeline.step] at taken
    split at taken
    case isTrue call =>
      obtain ⟨r, moved, rfl⟩ := Option.map_eq_some_iff.1 taken
      exact sound_call sound orderly call moved
    case isFalse => cases taken
  | record => exact sound_record sound taken
  | load => exact sound_load sound taken
  | tally => exact sound_tally sound taken
  | mark => exact sound_mark sound taken
  | stage => exact sound_stage sound orderly taken
  | enqueue => exact sound_enqueue sound orderly taken
  | finish => exact sound_finish sound taken
  | error =>
    rw [Pipeline.step] at taken
    split at taken
    case isTrue => cases taken
    case isFalse =>
      cases taken
      exact sound.drop (fun _ _ pending lock => unmet_of_isOrderly orderly pending lock) rfl trivial

/-- A sound state without a call in progress has queued what it should. -/
lemma Sound.queuedOnce (sound : Sound net s) : QueuedOnce net s := by
  intro quiet
  have idle : s.phase = .idle := of_decide_eq_true (Bool.and_eq_true_iff.1 quiet).1
  refine ⟨fun id event found => ?_, sound.owned⟩
  have counted := sound.counted id event found
  rw [idle] at counted
  exact counted

/-- In an orderly run, whenever no call is in progress, each lock that meets the threshold has one operation, and no
other event has any. -/
theorem locks_queued_once {validators : Dict ℕ Validators.BridgeValidator} {signatures : Dict (ℕ × ℕ) String}
    {trace : List Move}
    (orderly : Machine.Guarded (Pipeline.step net) (fun s m => s.isOrderly net m = true)
      (Pipeline.initial validators signatures) trace) :
    Machine.Always (Pipeline.step net) (QueuedOnce net) (Pipeline.initial validators signatures) trace := by
  have init : Sound net (Pipeline.initial validators signatures) := by
    refine ⟨fun operation mem => absurd mem List.not_mem_nil, fun id event found => ?_, trivial⟩
    cases found
  have sound := Machine.always_of_guarded init (fun s m s' inv met taken => sound_step inv met taken) orderly
  exact fun pre s le reached => (sound pre s le reached).queuedOnce

/-- A lock of 5 tokens on chain 1. -/
def sampleLock : BridgeEventData where
  chainId := 1
  chainType := "EVM"
  eventType := "TOKEN_LOCK"
  transactionHash := "0x1"
  blockNumber := 5
  logIndex := 0
  tokenAmount := 5
  fromAddress := "from"
  toAddress := "recipient"
  destinationChainId := "contract"
  destinationAddress := "recipient"
  eventTimestamp := 0

/-- Validator a, who has two thirds of the weight, signs event 1. -/
def signing : List Move :=
  [.addValidatorSignature 1 "a" (Validators.sampleSignature "a"), .lookup 0, .check 0, .validate 0, .create 0].map .call

/-- Its call verifies the event. -/
def verifying : List Move := [.load 0, .tally 0, .mark 0].map .call

/-- The worker stages and enqueues what it has counted. -/
def staging : List Move := [.mark, .stage true, .enqueue 0, .finish]

def samplePipeline : Pipeline := Pipeline.initial Validators.sampleValidators Dict.empty

/-- The signature is stored before the worker counts. -/
theorem locks_queued_once_sample : ∃ s,
    Machine.exec (Pipeline.step Validators.sampleNetwork) samplePipeline
      (.record 1 sampleLock :: signing ++ [.load, .tally] ++ staging ++ verifying) = some s ∧
    s.isQuiet = true ∧ s.queuedFor 1 = 1 ∧ QueuedOnce Validators.sampleNetwork s := by
  have run : (Machine.exec (Pipeline.step Validators.sampleNetwork) samplePipeline
      (.record 1 sampleLock :: signing ++ [.load, .tally] ++ staging ++ verifying)).map (fun s =>
        (s.isQuiet, s.queuedFor 1)) = some (true, 1) := by decide +kernel
  have orderly : Machine.Guarded (Pipeline.step Validators.sampleNetwork)
      (fun s m => s.isOrderly Validators.sampleNetwork m = true) samplePipeline
      (.record 1 sampleLock :: signing ++ [.load, .tally] ++ staging ++ verifying) := by decide +kernel
  obtain ⟨s, reached, facts⟩ := Option.map_eq_some_iff.1 run
  obtain ⟨quiet, one⟩ := Prod.mk.inj facts
  exact ⟨s, reached, quiet, one, locks_queued_once orderly _ s (List.prefix_refl _) reached⟩

/-- The signature is stored after the worker has counted: the lock meets the threshold and has no operation. -/
theorem lock_not_queued : ∃ s,
    Machine.exec (Pipeline.step Validators.sampleNetwork) samplePipeline
      (.record 1 sampleLock :: [.load, .tally] ++ signing ++ verifying) = some s ∧
    ¬QueuedOnce Validators.sampleNetwork s := by
  have run : (Machine.exec (Pipeline.step Validators.sampleNetwork) samplePipeline
      (.record 1 sampleLock :: [.load, .tally] ++ signing ++ verifying)).map (fun s =>
        (s.isQuiet, s.queuedFor 1, (s.registry.events.get? 1).map fun event =>
          due Validators.sampleNetwork s.registry 1 event)) = some (true, 0, some 1) := by decide +kernel
  obtain ⟨s, reached, facts⟩ := Option.map_eq_some_iff.1 run
  obtain ⟨quiet, facts⟩ := Prod.mk.inj facts
  obtain ⟨none, owed⟩ := Prod.mk.inj facts
  obtain ⟨event, found, one⟩ := Option.map_eq_some_iff.1 owed
  refine ⟨s, reached, fun queued => ?_⟩
  have counted := (queued quiet).1 1 event found
  rw [none, one] at counted
  cases counted

end StellarFlow.Bridge.Staging
