import Mathlib.Algebra.BigOperators.Group.List.Lemmas
import Mathlib.Algebra.Order.Floor.Ring
import Mathlib.Data.Rat.Floor
import Mathlib.Tactic.Linarith
import StellarFlow.Bridge.Events
import StellarFlow.Lib.Machine

/-!
# Signatures of the validators

Model of `addValidatorSignature` and `verifyBridgeEventSignatures` in `src/services/bridgeSignatureVerification.ts`, and
of the validators that `POST /validators` creates. The calls run interleaved, one database statement at a time, while
validators are created, activated and deactivated. Whether a signature verifies is an arbitrary predicate.

The threshold is two thirds of the weight of the active validators of the chain, but the weight of every signature that
verifies counts, whatever the chain of its validator and whether or not it is active by now. An event that is marked
has a quorum where such signatures weigh nothing, and what was counted still stands when the event is marked.
-/

namespace StellarFlow.Bridge.Validators

structure BridgeChain where
  chainId : String
  chainType : String

structure BridgeValidator where
  chainId : String
  validatorAddress : String
  isActive : Bool
  weight : ℤ

/-- The chains, and which signatures of a message verify for an address on a type of chain. -/
structure Network where
  runtime : Runtime
  chains : ℕ → BridgeChain
  verifies : (chainType message validatorAddress signature : String) → Bool

/-- Where a call stands. The first four phases are those of `addValidatorSignature` up to its call of
`verifyBridgeEventSignatures`; `tallying` has read the event and the total weight, `marking` has met the threshold. -/
inductive Phase where
  | looking (validatorAddress signature : String)
  | checking (validatorId : ℕ) (validatorAddress signature : String)
  | validating (validatorId : ℕ) (validatorAddress signature : String)
  | creating (validatorId : ℕ) (signature : String)
  | verifying
  | tallying (event : BridgeEvent) (totalWeight : ℤ)
  | marking
  | finished
  deriving DecidableEq

structure Call where
  bridgeEventId : ℕ
  phase : Phase
  deriving DecidableEq

/-- The tables, and the calls in progress. There is one signature for an event and a validator. -/
structure Registry where
  validators : Dict ℕ BridgeValidator
  events : Dict ℕ BridgeEvent
  signatures : Dict (ℕ × ℕ) String
  calls : List Call

inductive Move where
  | createValidator (id : ℕ) (chainId validatorAddress : String) (weight : Option ℤ)
  | setActive (id : ℕ) (isActive : Bool)
  | recordEvent (id : ℕ) (event : BridgeEvent)
  | setStatus (id : ℕ) (status : EventStatus)
  | addValidatorSignature (bridgeEventId : ℕ) (validatorAddress signature : String)
  | verifyBridgeEventSignatures (bridgeEventId : ℕ)
  | lookup (i : ℕ)
  | check (i : ℕ)
  | validate (i : ℕ)
  | create (i : ℕ)
  | load (i : ℕ)
  | tally (i : ℕ)
  | mark (i : ℕ)
  | error (i : ℕ)

variable (net : Network)

/-- `verifyValidatorSignature`. -/
def verifyValidatorSignature (event : BridgeEvent) (validatorAddress signature : String) : Bool :=
  net.verifies (net.chains event.chainId).chainType (event.message net.runtime) validatorAddress signature

/-- The validator is one of `bridgeEvent.chain.bridgeValidators`. -/
def isOwn (event : BridgeEvent) (validator : BridgeValidator) : Bool :=
  validator.isActive && validator.chainId = (net.chains event.chainId).chainId

def weigh (validators : List (ℕ × BridgeValidator)) : ℤ := (validators.map fun e => e.2.weight).sum

/-- `bridgeEvent.chain.bridgeValidators`. -/
def Registry.bridgeValidators (s : Registry) (event : BridgeEvent) : List (ℕ × BridgeValidator) :=
  s.validators.entries.filter fun e => isOwn net event e.2

/-- The validator of a signature of the event, if the signature verifies. -/
def Registry.signer (s : Registry) (id : ℕ) (event : BridgeEvent) (row : (ℕ × ℕ) × String) :
    Option (ℕ × BridgeValidator) :=
  if row.1.1 = id then
    (s.validators.get? row.1.2).bind fun validator =>
      if verifyValidatorSignature net event validator.validatorAddress row.2 then some (row.1.2, validator) else none
  else none

/-- The validators of `validSignatures`. -/
def Registry.validSigners (s : Registry) (id : ℕ) (event : BridgeEvent) : List (ℕ × BridgeValidator) :=
  s.signatures.entries.filterMap (s.signer net id event)

/-- `Math.ceil((totalWeight * 2) / 3)`. -/
def requiredThreshold (totalWeight : ℤ) : ℤ := ⌈((totalWeight * 2 : ℤ) : ℚ) / 3⌉

def Registry.advance (s : Registry) (i id : ℕ) (phase : Phase) : Registry :=
  { s with calls := s.calls.set i ⟨id, phase⟩ }

/-- `bridgeEvent.update`. -/
def Registry.update (s : Registry) (id : ℕ) (status : EventStatus) : Registry :=
  { s with events := s.events.modify id fun event => { event with status := status } }

/-- `bridgeValidator.findUnique({ where: { validatorAddress } })`. -/
def Registry.findValidator (s : Registry) (validatorAddress : String) : Option (ℕ × BridgeValidator) :=
  s.validators.entries.find? fun e => e.2.validatorAddress = validatorAddress

/-- One move. -/
def Registry.step (s : Registry) : Move → Option Registry
  | .createValidator id chainId validatorAddress weight =>
    if id ∈ s.validators.keys || (s.findValidator validatorAddress).isSome then none
    else
      let weight := if weight.getD 0 = 0 then 1 else weight.getD 0
      some { s with validators := s.validators.set id ⟨chainId, validatorAddress, true, weight⟩ }
  | .setActive id isActive =>
    some { s with validators := s.validators.modify id fun validator => { validator with isActive := isActive } }
  | .recordEvent id event =>
    if id ∈ s.events.keys then none else some { s with events := s.events.set id event }
  | .setStatus id status => if status = .verified then none else some (s.update id status)
  | .addValidatorSignature id validatorAddress signature =>
    some { s with calls := s.calls ++ [⟨id, .looking validatorAddress signature⟩] }
  | .verifyBridgeEventSignatures id => some { s with calls := s.calls ++ [⟨id, .verifying⟩] }
  | .lookup i =>
    match s.calls[i]? with
    | some ⟨id, .looking validatorAddress signature⟩ =>
      match s.findValidator validatorAddress with
      | none => some (s.advance i id .finished)
      | some (validatorId, validator) =>
        if validator.isActive then some (s.advance i id (.checking validatorId validatorAddress signature))
        else some (s.advance i id .finished)
    | _ => none
  | .check i =>
    match s.calls[i]? with
    | some ⟨id, .checking validatorId validatorAddress signature⟩ =>
      if (id, validatorId) ∈ s.signatures.keys then some (s.advance i id .finished)
      else some (s.advance i id (.validating validatorId validatorAddress signature))
    | _ => none
  | .validate i =>
    match s.calls[i]? with
    | some ⟨id, .validating validatorId validatorAddress signature⟩ =>
      match s.events.get? id with
      | none => some (s.advance i id .finished)
      | some event =>
        if verifyValidatorSignature net event validatorAddress signature then
          some (s.advance i id (.creating validatorId signature))
        else some (s.advance i id .finished)
    | _ => none
  | .create i =>
    match s.calls[i]? with
    | some ⟨id, .creating validatorId signature⟩ =>
      if (id, validatorId) ∈ s.signatures.keys then some (s.advance i id .finished)
      else some { s.advance i id .verifying with signatures := s.signatures.set (id, validatorId) signature }
    | _ => none
  | .load i =>
    match s.calls[i]? with
    | some ⟨id, .verifying⟩ =>
      match s.events.get? id with
      | none => some (s.advance i id .finished)
      | some event =>
        let validators := s.bridgeValidators net event
        if validators = [] then some (s.advance i id .finished)
        else some (s.advance i id (.tallying event (weigh validators)))
    | _ => none
  | .tally i =>
    match s.calls[i]? with
    | some ⟨id, .tallying event totalWeight⟩ =>
      if requiredThreshold totalWeight ≤ weigh (s.validSigners net id event) then some (s.advance i id .marking)
      else some (s.advance i id .finished)
    | _ => none
  | .mark i =>
    match s.calls[i]? with
    | some ⟨id, .marking⟩ => some ((s.update id .verified).advance i id .finished)
    | _ => none
  | .error i => (s.calls[i]?).map fun call => s.advance i call.bridgeEventId .finished

/-- The event has a signature of the validator. -/
def Registry.isStored (s : Registry) (id validatorId : ℕ) : Bool := (id, validatorId) ∈ s.signatures.keys

/-- Tables without calls. -/
def Registry.initial (validators : Dict ℕ BridgeValidator) (events : Dict ℕ BridgeEvent)
    (signatures : Dict (ℕ × ℕ) String) : Registry :=
  ⟨validators, events, signatures, []⟩

/-- The validator has a signature of the event that verifies. -/
def Registry.hasSigned (s : Registry) (id : ℕ) (event : BridgeEvent) (e : ℕ × BridgeValidator) : Bool :=
  (s.signatures.get? (id, e.1)).any fun signature => verifyValidatorSignature net event e.2.validatorAddress signature

/-- The active validators of the event's chain whose signature verifies. -/
def Registry.quorum (s : Registry) (id : ℕ) (event : BridgeEvent) : List (ℕ × BridgeValidator) :=
  (s.bridgeValidators net event).filter (s.hasSigned net id event)

/-- Validators of two thirds of the weight have signed the event. -/
def Registry.HasQuorum (s : Registry) (id : ℕ) : Prop :=
  ∃ event, s.events.get? id = some event ∧
    2 * weigh (s.bridgeValidators net event) ≤ 3 * weigh (s.quorum net id event)

/-- An event has a quorum when it is marked. -/
def Genuine (s : Registry) : Move → Prop
  | .mark i => ∀ id, s.calls[i]? = some ⟨id, .marking⟩ → s.HasQuorum net id
  | _ => True

/-- The call has read the total weight, or met the threshold. -/
def Call.isCounting (call : Call) : Bool :=
  match call.phase with
  | .tallying _ _ => true
  | .marking => true
  | _ => false

/-- An event of the chain is being verified. -/
def Registry.isCounting (s : Registry) (chainId : String) : Bool :=
  s.calls.any fun call => call.isCounting &&
    (s.events.get? call.bridgeEventId).any fun event => (net.chains event.chainId).chainId = chainId

/-- An event has met the threshold, and is about to be marked. -/
def Registry.isMarking (s : Registry) (id : ℕ) : Bool :=
  s.calls.any fun call =>
    match call with
    | ⟨id', .marking⟩ => id' = id
    | _ => false

/-- The signatures that are counted and are not of active validators of the event's chain weigh nothing, the validators
of a chain do not change while one of its events is being verified, and no negative weight is added to an event that has
met the threshold. -/
def Registry.isSteady (s : Registry) : Move → Bool
  | .createValidator _ chainId _ _ => !s.isCounting net chainId
  | .setActive id _ => (s.validators.get? id).all fun validator => !s.isCounting net validator.chainId
  | .tally i =>
    match s.calls[i]? with
    | some ⟨id, .tallying event _⟩ =>
      weigh ((s.validSigners net id event).filter fun e => !isOwn net event e.2) ≤ 0
    | _ => true
  | .create i =>
    match s.calls[i]? with
    | some ⟨id, .creating validatorId _⟩ =>
      !s.isMarking id || (s.validators.get? validatorId).all fun validator => 0 ≤ validator.weight
    | _ => true
  | _ => true

/-- What a call has read still holds, and an event that is about to be marked has a quorum. -/
def Registry.Supports (s : Registry) (call : Call) : Prop :=
  match call.phase with
  | .tallying event totalWeight =>
    (∃ status, s.events.get? call.bridgeEventId = some { event with status := status }) ∧
      totalWeight = weigh (s.bridgeValidators net event)
  | .marking => s.HasQuorum net call.bridgeEventId
  | _ => True

variable {net} {s s' : Registry} {m : Move} {i id : ℕ} {event : BridgeEvent} {call : Call} {phase : Phase}

/-- The moves, case by case; `start` and `advance` are those that change no table and make no call count. -/
inductive Registry.Step (net : Network) (s : Registry) : Move → Registry → Prop where
  | createValidator {id : ℕ} {chainId validatorAddress : String} {weight : Option ℤ} (validator : BridgeValidator)
      (chain : validator.chainId = chainId) (new : id ∉ s.validators.keys) :
      Step net s (.createValidator id chainId validatorAddress weight)
        { s with validators := s.validators.set id validator }
  | setActive {id : ℕ} {isActive : Bool} : Step net s (.setActive id isActive)
      { s with validators := s.validators.modify id fun validator => { validator with isActive := isActive } }
  | recordEvent {id : ℕ} {event : BridgeEvent} (new : id ∉ s.events.keys) :
      Step net s (.recordEvent id event) { s with events := s.events.set id event }
  | setStatus {id : ℕ} {status : EventStatus} : Step net s (.setStatus id status) (s.update id status)
  | start {m : Move} (call : Call) (uncounted : call.isCounting = false) :
      Step net s m { s with calls := s.calls ++ [call] }
  | advance {m : Move} {i : ℕ} (id : ℕ) (phase : Phase) {call : Call} (found : s.calls[i]? = some call)
      (uncounted : Call.isCounting ⟨id, phase⟩ = false) : Step net s m (s.advance i id phase)
  | create {i id validatorId : ℕ} {signature : String}
      (found : s.calls[i]? = some ⟨id, .creating validatorId signature⟩)
      (new : (id, validatorId) ∉ s.signatures.keys) : Step net s (.create i)
        { s.advance i id .verifying with signatures := s.signatures.set (id, validatorId) signature }
  | load {i id : ℕ} {event : BridgeEvent} (found : s.calls[i]? = some ⟨id, .verifying⟩)
      (row : s.events.get? id = some event) :
      Step net s (.load i) (s.advance i id (.tallying event (weigh (s.bridgeValidators net event))))
  | tally {i id : ℕ} {event : BridgeEvent} {totalWeight : ℤ}
      (found : s.calls[i]? = some ⟨id, .tallying event totalWeight⟩)
      (met : requiredThreshold totalWeight ≤ weigh (s.validSigners net id event)) :
      Step net s (.tally i) (s.advance i id .marking)
  | mark {i id : ℕ} (found : s.calls[i]? = some ⟨id, .marking⟩) :
      Step net s (.mark i) ((s.update id .verified).advance i id .finished)

/-- Each step of the model is one of those named. -/
lemma Registry.step_cases (taken : s.step net m = some s') : Registry.Step net s m s' := by
  cases m with
  | createValidator id chainId validatorAddress weight =>
    rw [Registry.step] at taken
    split at taken
    case isTrue => cases taken
    case isFalse free =>
      cases taken
      exact .createValidator _ rfl fun mem => free (by simp [mem])
  | setActive id isActive =>
    cases taken
    exact .setActive
  | recordEvent id event =>
    rw [Registry.step] at taken
    split at taken
    case isTrue => cases taken
    case isFalse new =>
      cases taken
      exact .recordEvent new
  | setStatus id status =>
    rw [Registry.step] at taken
    split at taken
    case isTrue => cases taken
    case isFalse =>
      cases taken
      exact .setStatus
  | addValidatorSignature id validatorAddress signature =>
    cases taken
    exact .start _ rfl
  | verifyBridgeEventSignatures id =>
    cases taken
    exact .start _ rfl
  | lookup i =>
    rw [Registry.step] at taken
    split at taken
    case h_1 id validatorAddress signature found =>
      split at taken
      case h_1 =>
        cases taken
        exact .advance id .finished found rfl
      case h_2 validatorId validator _ =>
        split at taken
        case isTrue =>
          cases taken
          exact .advance id (.checking ..) found rfl
        case isFalse =>
          cases taken
          exact .advance id .finished found rfl
    case h_2 => cases taken
  | check i =>
    rw [Registry.step] at taken
    split at taken
    case h_1 id validatorId validatorAddress signature found =>
      split at taken
      case isTrue =>
        cases taken
        exact .advance id .finished found rfl
      case isFalse =>
        cases taken
        exact .advance id (.validating ..) found rfl
    case h_2 => cases taken
  | validate i =>
    rw [Registry.step] at taken
    split at taken
    case h_1 id validatorId validatorAddress signature found =>
      split at taken
      case h_1 =>
        cases taken
        exact .advance id .finished found rfl
      case h_2 event _ =>
        split at taken
        case isTrue =>
          cases taken
          exact .advance id (.creating ..) found rfl
        case isFalse =>
          cases taken
          exact .advance id .finished found rfl
    case h_2 => cases taken
  | create i =>
    rw [Registry.step] at taken
    split at taken
    case h_1 id validatorId signature found =>
      split at taken
      case isTrue =>
        cases taken
        exact .advance id .finished found rfl
      case isFalse new =>
        cases taken
        exact .create found new
    case h_2 => cases taken
  | load i =>
    rw [Registry.step] at taken
    split at taken
    case h_1 id found =>
      split at taken
      case h_1 =>
        cases taken
        exact .advance id .finished found rfl
      case h_2 event row =>
        dsimp only at taken
        split at taken
        case isTrue =>
          cases taken
          exact .advance id .finished found rfl
        case isFalse =>
          cases taken
          exact .load found row
    case h_2 => cases taken
  | tally i =>
    rw [Registry.step] at taken
    split at taken
    case h_1 id event totalWeight found =>
      split at taken
      case isTrue met =>
        cases taken
        exact .tally found met
      case isFalse =>
        cases taken
        exact .advance id .finished found rfl
    case h_2 => cases taken
  | mark i =>
    rw [Registry.step] at taken
    split at taken
    case h_1 id found =>
      cases taken
      exact .mark found
    case h_2 => cases taken
  | error i =>
    obtain ⟨call, found, rfl⟩ := Option.map_eq_some_iff.1 taken
    exact .advance call.bridgeEventId .finished found rfl

/-- Weights add up over an append. -/
lemma weigh_append (xs ys : List (ℕ × BridgeValidator)) : weigh (xs ++ ys) = weigh xs + weigh ys := by
  rw [weigh, List.map_append, List.sum_append]
  rfl

/-- Weights do not depend on the order. -/
lemma weigh_of_perm {xs ys : List (ℕ × BridgeValidator)} (perm : xs.Perm ys) : weigh xs = weigh ys :=
  (perm.map _).sum_eq

/-- The weight of one more validator is added. -/
lemma weigh_cons (e : ℕ × BridgeValidator) (xs : List (ℕ × BridgeValidator)) :
    weigh (e :: xs) = e.2.weight + weigh xs := List.sum_cons

/-- More validators weigh more, if the new ones have no negative weight. -/
lemma weigh_filter_le {p q : ℕ × BridgeValidator → Bool} {xs : List (ℕ × BridgeValidator)}
    (keeps : ∀ e ∈ xs, p e = true → q e = true) (adds : ∀ e ∈ xs, q e = true → p e = false → 0 ≤ e.2.weight) :
    weigh (xs.filter p) ≤ weigh (xs.filter q) := by
  induction xs with
  | nil => exact le_refl _
  | cons e xs ih =>
    have rest := ih (fun x mem => keeps x (List.mem_cons_of_mem e mem)) fun x mem => adds x (List.mem_cons_of_mem e mem)
    cases before : p e with
    | true =>
      have after := keeps e List.mem_cons_self before
      rw [List.filter_cons_of_pos before, List.filter_cons_of_pos after, weigh_cons, weigh_cons]
      exact add_le_add_right rest _
    | false =>
      rw [List.filter_cons_of_neg (ne_true_of_eq_false before)]
      cases after : q e with
      | true =>
        have weight := adds e List.mem_cons_self after before
        rw [List.filter_cons_of_pos after, weigh_cons]
        omega
      | false =>
        rw [List.filter_cons_of_neg (ne_true_of_eq_false after)]
        exact rest

/-- The threshold is met exactly by two thirds of the weight. -/
lemma requiredThreshold_le {totalWeight weight : ℤ} :
    requiredThreshold totalWeight ≤ weight ↔ 2 * totalWeight ≤ 3 * weight := by
  rw [requiredThreshold, Int.ceil_le, div_le_iff₀ (by norm_num)]
  constructor
  · intro met
    have ints : totalWeight * 2 ≤ weight * 3 := by exact_mod_cast met
    omega
  · intro met
    have ints : totalWeight * 2 ≤ weight * 3 := by omega
    exact_mod_cast ints

/-- A row stands for a validator where it is a valid signature of the event by one that is registered. -/
lemma Registry.signer_eq_some {row : (ℕ × ℕ) × String} {e : ℕ × BridgeValidator} :
    s.signer net id event row = some e ↔ row.1 = (id, e.1) ∧ s.validators.get? e.1 = some e.2 ∧
      verifyValidatorSignature net event e.2.validatorAddress row.2 = true := by
  obtain ⟨⟨eventId, validatorId⟩, signature⟩ := row
  obtain ⟨key, validator⟩ := e
  rw [Registry.signer]
  constructor
  · intro found
    split at found
    case isTrue own =>
      obtain ⟨validator', row, found⟩ := Option.bind_eq_some_iff.1 found
      split at found
      case isTrue valid =>
        cases found
        exact ⟨Prod.ext own rfl, row, valid⟩
      case isFalse => cases found
    case isFalse => cases found
  · rintro ⟨own, row, valid⟩
    cases own
    rw [if_pos rfl, row, Option.bind_some, if_pos valid]

/-- A validator is counted once. -/
lemma Registry.nodup_validSigners (s : Registry) (id : ℕ) (event : BridgeEvent) :
    (s.validSigners net id event).Nodup := by
  have keys := List.pairwise_map.1 s.signatures.nodup
  refine keys.filterMap (s.signer net id event) ?_
  rintro row row' other e counted e' counted' rfl
  exact other ((signer_eq_some.1 counted).1.trans (signer_eq_some.1 counted').1.symm)

/-- The valid signers are the registered validators that have signed. -/
lemma Registry.mem_validSigners {e : ℕ × BridgeValidator} :
    e ∈ s.validSigners net id event ↔ e ∈ s.validators.entries ∧ s.hasSigned net id event e = true := by
  rw [Registry.validSigners, List.mem_filterMap, Registry.hasSigned, Option.any_eq_true]
  constructor
  · rintro ⟨⟨key, signature⟩, mem, counted⟩
    obtain ⟨rfl, validator, valid⟩ := signer_eq_some.1 counted
    exact ⟨Dict.get?_eq_some validator, signature, Dict.get?_of_mem mem, valid⟩
  · rintro ⟨mem, signature, row, valid⟩
    exact ⟨((id, e.1), signature), Dict.get?_eq_some row, signer_eq_some.2 ⟨rfl, Dict.get?_of_mem mem, valid⟩⟩

/-- The signatures of active validators of the event's chain that are counted are those of the quorum. -/
lemma Registry.weigh_validSigners (net : Network) (s : Registry) (id : ℕ) (event : BridgeEvent) :
    weigh (s.validSigners net id event) = weigh (s.quorum net id event) +
      weigh ((s.validSigners net id event).filter fun e => !isOwn net event e.2) := by
  have own : ((s.validSigners net id event).filter fun e => isOwn net event e.2).Perm (s.quorum net id event) := by
    -- both lists have the same members, each of them once
    have entries : s.validators.entries.Nodup := s.validators.nodup.of_map
    refine (List.perm_ext_iff_of_nodup ((nodup_validSigners s id event).filter _) ((entries.filter _).filter _)).2 ?_
    intro e
    rw [List.mem_filter, mem_validSigners, List.mem_filter, List.mem_filter]
    exact ⟨fun ⟨⟨mem, signed⟩, own⟩ => ⟨⟨mem, own⟩, signed⟩, fun ⟨⟨mem, own⟩, signed⟩ => ⟨⟨mem, signed⟩, own⟩⟩
  rw [← weigh_of_perm own, ← weigh_append]
  exact (weigh_of_perm (List.filter_append_perm _ _)).symm

/-- A call that counts keeps what it rests on. -/
lemma Registry.Supports.mono (supports : s.Supports net call)
    (events : ∀ event, s.events.get? call.bridgeEventId = some event →
      ∃ status, s'.events.get? call.bridgeEventId = some { event with status := status })
    (validators : ∀ event, call.isCounting = true → s.events.get? call.bridgeEventId = some event →
      s'.bridgeValidators net event = s.bridgeValidators net event)
    (signed : ∀ event, call.phase = .marking → s.events.get? call.bridgeEventId = some event →
      weigh (s.quorum net call.bridgeEventId event) ≤ weigh (s'.quorum net call.bridgeEventId event)) :
    s'.Supports net call := by
  obtain ⟨id, phase⟩ := call
  cases phase with
  | tallying event totalWeight =>
    obtain ⟨⟨status, row⟩, rfl⟩ := supports
    obtain ⟨status', row'⟩ := events _ row
    have same : s'.bridgeValidators net event = s.bridgeValidators net event :=
      validators { event with status := status } rfl row
    exact ⟨⟨status', row'⟩, congrArg weigh same.symm⟩
  | marking =>
    obtain ⟨event, row, met⟩ := supports
    obtain ⟨status, row'⟩ := events event row
    have same := validators event rfl row
    refine ⟨_, row', ?_⟩
    calc 2 * weigh (s'.bridgeValidators net event) = 2 * weigh (s.bridgeValidators net event) := by rw [same]
      _ ≤ 3 * weigh (s.quorum net id event) := met
      _ ≤ 3 * weigh (s'.quorum net id event) := by
        have more := signed event rfl row
        dsimp only at more
        omega
  | looking => trivial
  | checking => trivial
  | validating => trivial
  | creating => trivial
  | verifying => trivial
  | finished => trivial

/-- The row of an event stays, up to its status. -/
lemma Registry.Supports.update (supports : s.Supports net call) (id : ℕ) (status : EventStatus) :
    (s.update id status).Supports net call := by
  refine supports.mono (fun event row => ?_) (fun _ _ _ => rfl) fun _ _ _ => le_refl _
  rw [Registry.update, Dict.get?_modify]
  split
  case isTrue same =>
    rw [← same, row]
    exact ⟨status, rfl⟩
  case isFalse => exact ⟨event.status, row⟩

/-- A new event leaves a count under way alone. -/
lemma Registry.Supports.recordEvent (supports : s.Supports net call) (new : id ∉ s.events.keys) :
    Registry.Supports net { s with events := s.events.set id event } call := by
  refine supports.mono (fun row found => ?_) (fun _ _ _ => rfl) fun _ _ _ => le_refl _
  have other : call.bridgeEventId ≠ id := fun same => new (same ▸ Dict.mem_keys_iff.2 ⟨row, found⟩)
  refine ⟨row.status, ?_⟩
  rw [Dict.get?_set, if_neg other]
  exact found

/-- The validators of other chains do not matter to a call. -/
lemma Registry.Supports.validators (supports : s.Supports net call) (mem : call ∈ s.calls) {chainId : String}
    {validators : Dict ℕ BridgeValidator} (quiet : s.isCounting net chainId = false)
    (same : ∀ event, (net.chains event.chainId).chainId ≠ chainId →
      (validators.entries.filter fun e => isOwn net event e.2) = s.bridgeValidators net event) :
    Registry.Supports net { s with validators := validators } call := by
  have elsewhere : ∀ event, call.isCounting = true → s.events.get? call.bridgeEventId = some event →
      (net.chains event.chainId).chainId ≠ chainId := by
    intro event counting row here
    refine ne_true_of_eq_false quiet (List.any_eq_true.2 ⟨call, mem, ?_⟩)
    rw [counting, row, Option.any_some, here, decide_eq_true rfl, Bool.and_true]
  refine supports.mono (fun event row => ⟨event.status, row⟩) (fun event counting row => ?_) fun event marking row => ?_
  · exact same event (elsewhere event counting row)
  · have counting : call.isCounting = true := by rw [Call.isCounting, marking]
    refine le_of_eq (congrArg weigh ?_)
    exact congrArg (List.filter _) (same event (elsewhere event counting row)).symm

/-- A new validator of a chain whose signatures nobody counts leaves a call alone. -/
lemma Registry.Supports.createValidator (supports : s.Supports net call) (mem : call ∈ s.calls)
    {validator : BridgeValidator} (new : id ∉ s.validators.keys) (quiet : s.isCounting net validator.chainId = false) :
    Registry.Supports net { s with validators := s.validators.set id validator } call := by
  refine supports.validators mem quiet fun event elsewhere => Dict.filter_entries_set (fun old entry => ?_) ?_
  · exact absurd (List.mem_map_of_mem entry) new
  · rw [isOwn, decide_eq_false fun own => elsewhere own.symm, Bool.and_false]

/-- Switching a validator of such a chain on or off leaves a call alone. -/
lemma Registry.Supports.setActive (supports : s.Supports net call) (mem : call ∈ s.calls) {isActive : Bool}
    (quiet : ∀ validator, s.validators.get? id = some validator → s.isCounting net validator.chainId = false) :
    Registry.Supports net { s with
      validators := s.validators.modify id fun validator => { validator with isActive := isActive } } call := by
  cases found : s.validators.get? id with
  | none =>
    rw [Dict.modify, found]
    exact supports
  | some validator =>
    refine supports.validators mem (quiet validator found) fun event elsewhere => Dict.filter_entries_modify ?_
    intro validator' found'
    obtain rfl : validator = validator' := Option.some.inj (found.symm.trans found')
    have foreign : decide (validator.chainId = (net.chains event.chainId).chainId) = false :=
      decide_eq_false fun own => elsewhere own.symm
    rw [isOwn, isOwn, foreign, Bool.and_false, Bool.and_false]
    exact ⟨rfl, rfl⟩

/-- A signature is added to the quorum, or to nothing. -/
lemma Registry.Supports.create (supports : s.Supports net call) (mem : call ∈ s.calls) {validatorId : ℕ}
    {signature : String} (new : (id, validatorId) ∉ s.signatures.keys)
    (weighs : s.isMarking id = true →
      ∀ validator, s.validators.get? validatorId = some validator → 0 ≤ validator.weight) :
    Registry.Supports net { s with signatures := s.signatures.set (id, validatorId) signature } call := by
  refine supports.mono (fun event row => ⟨event.status, row⟩) (fun _ _ _ => rfl) fun event marking row => ?_
  refine weigh_filter_le (fun e _ signed => ?_) fun e entry signed unsigned => ?_
  · -- the validator has signed before, so the new signature is not its own
    rw [Registry.hasSigned, Dict.get?_set]
    rw [Registry.hasSigned] at signed
    have other : (call.bridgeEventId, e.1) ≠ (id, validatorId) := by
      intro same
      obtain ⟨old, found, -⟩ := (Option.any_eq_true _ _).1 signed
      exact new (same ▸ Dict.mem_keys_iff.2 ⟨old, found⟩)
    rw [if_neg other]
    exact signed
  · rw [Registry.hasSigned, Dict.get?_set] at signed
    split at signed
    case isTrue same =>
      obtain ⟨rfl, rfl⟩ := Prod.mk.inj same
      obtain ⟨bridgeEventId, phase⟩ := call
      cases marking
      refine weighs (List.any_eq_true.2 ⟨_, mem, decide_eq_true rfl⟩) e.2 ?_
      exact Dict.get?_of_mem (List.mem_of_mem_filter entry)
    case isFalse => exact absurd signed (ne_true_of_eq_false unsigned)

/-- The weight that met the threshold is that of a quorum, if nothing else was counted. -/
lemma Registry.Supports.tally {totalWeight : ℤ} (supports : s.Supports net ⟨id, .tallying event totalWeight⟩)
    (met : requiredThreshold totalWeight ≤ weigh (s.validSigners net id event))
    (own : weigh ((s.validSigners net id event).filter fun e => !isOwn net event e.2) ≤ 0) :
    s.Supports net ⟨id, .marking⟩ := by
  obtain ⟨⟨status, row⟩, rfl⟩ := supports
  have twoThirds := requiredThreshold_le.1 met
  have split := s.weigh_validSigners net id event
  refine ⟨_, row, ?_⟩
  calc 2 * weigh (s.bridgeValidators net event) ≤ 3 * weigh (s.validSigners net id event) := twoThirds
    _ ≤ 3 * weigh (s.quorum net id event) := by omega

/-- A call that has counted nothing relies on nothing. -/
lemma Registry.supports_of_uncounted (s : Registry) (uncounted : call.isCounting = false) : s.Supports net call := by
  obtain ⟨id, phase⟩ := call
  cases phase with
  | tallying => cases uncounted
  | marking => cases uncounted
  | looking => trivial
  | checking => trivial
  | validating => trivial
  | creating => trivial
  | verifying => trivial
  | finished => trivial

/-- A steady step keeps what the calls rest on. -/
lemma supports_step (inv : ∀ call ∈ s.calls, s.Supports net call) (steady : s.isSteady net m = true)
    (taken : s.step net m = some s') : ∀ call ∈ s'.calls, s'.Supports net call := by
  cases Registry.step_cases taken with
  | createValidator validator chain new =>
    intro call mem
    refine (inv call mem).createValidator mem new ?_
    rw [chain]
    exact (Bool.not_eq_true' _).mp steady
  | setActive =>
    intro call mem
    refine (inv call mem).setActive mem fun validator found => ?_
    rw [Registry.isSteady, found, Option.all_some] at steady
    exact (Bool.not_eq_true' _).mp steady
  | recordEvent new => exact fun call mem => (inv call mem).recordEvent new
  | setStatus => exact fun call mem => (inv call mem).update _ _
  | start call uncounted =>
    exact Machine.forall_snoc (P := s.Supports net) inv (s.supports_of_uncounted uncounted)
  | advance id phase found uncounted =>
    exact fun call mem => Machine.forall_set found inv (fun _ => s.supports_of_uncounted uncounted) mem
  | @create i id validatorId signature found new =>
    rw [Registry.isSteady, found] at steady
    have weighs : s.isMarking id = true →
        ∀ validator, s.validators.get? validatorId = some validator → 0 ≤ validator.weight := by
      intro marking validator row
      simpa [marking, row] using steady
    have kept : ∀ call ∈ s.calls,
        Registry.Supports net { s with signatures := s.signatures.set (id, validatorId) signature } call :=
      fun call mem => (inv call mem).create mem new weighs
    exact fun call mem => Machine.forall_set found kept (fun _ => Registry.supports_of_uncounted _ rfl) mem
  | @load i id event found row =>
    have read : s.Supports net ⟨id, .tallying event (weigh (s.bridgeValidators net event))⟩ :=
      ⟨⟨event.status, row⟩, rfl⟩
    exact fun call mem => Machine.forall_set (P := s.Supports net) found inv (fun _ => read) mem
  | tally found met =>
    rw [Registry.isSteady, found] at steady
    have own := of_decide_eq_true steady
    exact fun call mem => Machine.forall_set found inv (fun supports => supports.tally met own) mem
  | @mark i id found =>
    have kept : ∀ call ∈ s.calls, (s.update id .verified).Supports net call :=
      fun call mem => (inv call mem).update id .verified
    exact fun call mem => Machine.forall_set found kept (fun _ => Registry.supports_of_uncounted _ rfl) mem

/-- In a steady run every event that is marked has a quorum. -/
theorem marked_has_quorum {validators : Dict ℕ BridgeValidator} {events : Dict ℕ BridgeEvent}
    {signatures : Dict (ℕ × ℕ) String} {trace : List Move}
    (steady : Machine.Guarded (Registry.step net) (fun s m => s.isSteady net m = true)
      (Registry.initial validators events signatures) trace) :
    Machine.Guarded (Registry.step net) (Genuine net) (Registry.initial validators events signatures) trace := by
  have init : ∀ call ∈ (Registry.initial validators events signatures).calls,
      (Registry.initial validators events signatures).Supports net call :=
    fun call mem => absurd mem List.not_mem_nil
  have inv := Machine.always_of_guarded init (fun _ _ _ inv met taken => supports_step inv met taken) steady
  intro pre m s le reached
  have supports := inv pre s ((List.prefix_append pre [m]).trans le) reached
  cases m with
  | mark i => exact fun id found => supports _ (List.mem_of_getElem? found)
  | createValidator => trivial
  | setActive => trivial
  | recordEvent => trivial
  | setStatus => trivial
  | addValidatorSignature => trivial
  | verifyBridgeEventSignatures => trivial
  | lookup => trivial
  | check => trivial
  | validate => trivial
  | create => trivial
  | load => trivial
  | tally => trivial
  | error => trivial

def sampleNetwork : Network where
  runtime := sampleRuntime
  chains := fun id => if id = 1 then ⟨"ethereum", "EVM"⟩ else ⟨"polygon", "EVM"⟩
  verifies := fun _ message validatorAddress signature => signature = validatorAddress ++ message

def sampleValidators : Dict ℕ BridgeValidator where
  entries := [(1, ⟨"ethereum", "a", true, 2⟩), (2, ⟨"ethereum", "b", true, 1⟩), (3, ⟨"polygon", "c", true, 2⟩)]
  nodup := by decide

/-- A signature of the event of the sample tables. -/
def sampleSignature (validatorAddress : String) : String :=
  validatorAddress ++ "BridgeEvent:TOKEN_LOCK:0x1:from:5:contract"

/-- A validator adds its signature to event 1, up to the statement that marks the event. -/
def sampleCalls (validatorAddress : String) : List Move :=
  [.addValidatorSignature 1 validatorAddress (sampleSignature validatorAddress), .lookup 0, .check 0, .validate 0,
    .create 0, .load 0, .tally 0]

def sampleRegistry : Registry := Registry.initial sampleValidators sampleBridgeEvents Dict.empty

/-- A validator with two thirds of the weight of its chain signs an event. -/
theorem marked_has_quorum_sample : ∃ s,
    Machine.exec (Registry.step sampleNetwork) sampleRegistry (sampleCalls "a") = some s ∧
    s.calls = [⟨1, .marking⟩] ∧ s.HasQuorum sampleNetwork 1 := by
  have run : (Machine.exec (Registry.step sampleNetwork) sampleRegistry (sampleCalls "a")).map (fun s => s.calls) =
      some [⟨1, .marking⟩] := by decide +kernel
  have steady : Machine.Guarded (Registry.step sampleNetwork) (fun s m => s.isSteady sampleNetwork m = true)
      sampleRegistry (sampleCalls "a" ++ [.mark 0]) := by decide +kernel
  obtain ⟨s, reached, marking⟩ := Option.map_eq_some_iff.1 run
  refine ⟨s, reached, marking, ?_⟩
  refine marked_has_quorum steady (sampleCalls "a") (.mark 0) s (List.prefix_refl _) reached 1 ?_
  rw [marking]
  rfl

/-- The signature of a validator of another chain meets the threshold, and the event is marked without any signature of
its own validators. -/
theorem marked_without_quorum : ∃ s,
    Machine.exec (Registry.step sampleNetwork) sampleRegistry (sampleCalls "c") = some s ∧
    s.calls = [⟨1, .marking⟩] ∧ ¬s.HasQuorum sampleNetwork 1 := by
  have run : (Machine.exec (Registry.step sampleNetwork) sampleRegistry (sampleCalls "c")).map (fun s =>
      (s.calls, (s.events.get? 1).any fun event =>
        2 * weigh (s.bridgeValidators sampleNetwork event) ≤ 3 * weigh (s.quorum sampleNetwork 1 event))) =
      some ([⟨1, .marking⟩], false) := by decide +kernel
  obtain ⟨s, reached, facts⟩ := Option.map_eq_some_iff.1 run
  obtain ⟨marking, lacking⟩ := Prod.mk.inj facts
  refine ⟨s, reached, marking, ?_⟩
  rintro ⟨event, row, met⟩
  exact ne_true_of_eq_false lacking ((Option.any_eq_true _ _).2 ⟨event, row, decide_eq_true met⟩)

end StellarFlow.Bridge.Validators
