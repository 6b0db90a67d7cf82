import StellarFlow.Lib.Machine
import StellarFlow.Nonce.Tracker

/-!
# Broadcasts and the sequences they leave behind

Model of `TxManager` in `src/network/tx_manager.py`. A broadcast holds the lock of its account while it
takes a sequence from the tracker, has the payload signed and dispatches it. Broadcasts on different
accounts interleave, so a run takes these three sections one at a time.

Only the dispatcher runs inside the `try` block that reports a failure to the tracker. A sequence whose
payload cannot be copied, whose signer raises or whose signed payload fails the check stays pending for
ever; `no_pending_iff_completes` says that nothing else does.
-/

namespace StellarFlow.Nonce
open Machine

variable {V R : Type}

/-- A call of `TxManager.broadcast`; `V` are the payload values and `R` what the dispatcher returns. -/
structure Broadcast (V R : Type) where
  accountId : String
  payload : Dict String V
  signer : Dict String V → Except PyError (Dict String V)
  dispatcher : Dict String V → Except PyError R
  seedSequence : Option ℤ

/-- `BroadcastResult`. -/
structure BroadcastResult (V R : Type) where
  accountId : String
  sequence : ℤ
  payload : Dict String V
  dispatchResult : R

/-- `TxManager`; `deepcopy` is `copy.deepcopy` on its payloads, which raises on values that cannot be
copied. -/
structure TxManager (V : Type) where
  sequenceField : String
  tracker : NonceTracker
  deepcopy : Dict String V → Except PyError (Dict String V)

namespace TxManager
variable [BEq V] [IntCast V] (m : TxManager V)

/-- `TxManager.__init__` without a tracker argument. -/
def init (sequenceField : String) (deepcopy : Dict String V → Except PyError (Dict String V)) :
    TxManager V where
  sequenceField := sequenceField
  tracker := .createStandalone
  deepcopy := deepcopy

/-- `TxManager._with_sequence`. -/
def withSequence (payload : Dict String V) (sequence : ℤ) : Except PyError (Dict String V) := do
  let sequencedPayload ← m.deepcopy payload
  return sequencedPayload.set m.sequenceField (sequence : V)

/-- The payload carries the sequence. -/
def Carries (payload : Dict String V) (sequence : ℤ) : Prop :=
  payload.get? m.sequenceField == some (sequence : V)

instance (payload : Dict String V) (sequence : ℤ) : Decidable (m.Carries payload sequence) :=
  inferInstanceAs (Decidable (_ = true))

/-- `TxManager._assert_signed_sequence`. -/
def assertSignedSequence (payload : Dict String V) (sequence : ℤ) : Except PyError Unit :=
  if m.Carries payload sequence then .ok ()
  else .error (.valueError "Signer returned a payload with a mismatched sequence value.")

/-- The first section of `broadcast`: the sequence assignment. -/
def assign (b : Broadcast V R) (now : ℚ) : Except PyError ℤ × TxManager V :=
  let (result, tracker) := m.tracker.getNextNonce b.accountId b.seedSequence now
  (result, { m with tracker })

/-- The second section of `broadcast`: payload copy, signer and signed-sequence check. -/
def sign (b : Broadcast V R) (sequence : ℤ) : Except PyError (Dict String V) := do
  let sequencedPayload ← m.withSequence b.payload sequence
  let signedPayload ← b.signer sequencedPayload
  m.assertSignedSequence signedPayload sequence
  return signedPayload

/-- The third section of `broadcast`: the dispatch and its report to the tracker. -/
def dispatch (b : Broadcast V R) (sequence : ℤ) (signedPayload : Dict String V) :
    Except PyError (BroadcastResult V R) × TxManager V :=
  match b.dispatcher signedPayload with
  | .error e =>
    if e.isException then (.error e, { m with tracker := m.tracker.fail b.accountId sequence })
    else (.error e, m)
  | .ok dispatchResult =>
    (.ok { accountId := b.accountId, sequence, payload := signedPayload, dispatchResult },
      { m with tracker := m.tracker.confirm b.accountId sequence })

/-- `TxManager.broadcast`. -/
def broadcast (b : Broadcast V R) (now : ℚ) : Except PyError (BroadcastResult V R) × TxManager V :=
  if b.accountId = "" then (.error (.valueError "account_id is required."), m)
  else match m.assign b now with
    | (.error e, m) => (.error e, m)
    | (.ok sequence, m) =>
      match m.sign b sequence with
      | .error e => (.error e, m)
      | .ok signedPayload => m.dispatch b sequence signedPayload

end TxManager

/-- Where the broadcast that holds an account's lock stands. -/
inductive Phase (V R : Type) where
  | idle
  | assigned (b : Broadcast V R) (sequence : ℤ)
  | signed (b : Broadcast V R) (sequence : ℤ) (signedPayload : Dict String V)

/-- The sequence held by the broadcast in progress. -/
def Phase.held : Phase V R → Option ℤ
  | .idle => none
  | .assigned _ sequence => some sequence
  | .signed _ sequence _ => some sequence

/-- A step of a run: a broadcast takes its account's lock and a sequence, or the one in progress on an
account goes on to its next section. -/
inductive Section (V R : Type) where
  | assign (b : Broadcast V R) (now : ℚ)
  | sign (accountId : String)
  | dispatch (accountId : String)

/-- A manager and the broadcasts in progress. -/
structure ManagerRun (V R : Type) where
  manager : TxManager V
  phase : String → Phase V R

namespace ManagerRun
variable [BEq V] [IntCast V]

def start (manager : TxManager V) : ManagerRun V R where
  manager := manager
  phase := fun _ => .idle

/-- No broadcast is in progress. -/
def Quiet (s : ManagerRun V R) : Prop :=
  ∀ account, s.phase account = .idle

/-- One section of a broadcast. An exception ends the broadcast and releases the lock. -/
def step (s : ManagerRun V R) : Section V R → Option (ManagerRun V R)
  | .assign b now =>
    if b.accountId = "" then some s
    else match s.phase b.accountId with
      | .idle =>
        match s.manager.assign b now with
        | (.error _, manager) => some { s with manager }
        | (.ok sequence, manager) =>
          some { manager, phase := Function.update s.phase b.accountId (.assigned b sequence) }
      | _ => none
  | .sign account =>
    match s.phase account with
    | .assigned b sequence =>
      match s.manager.sign b sequence with
      | .error _ => some { s with phase := Function.update s.phase account .idle }
      | .ok signedPayload =>
        some { s with phase := Function.update s.phase account (.signed b sequence signedPayload) }
    | _ => none
  | .dispatch account =>
    match s.phase account with
    | .signed b sequence signedPayload =>
      let (_, manager) := s.manager.dispatch b sequence signedPayload
      some { manager, phase := Function.update s.phase account .idle }
    | _ => none

end ManagerRun

section Sections
variable [BEq V] [IntCast V]

/-- The sections run one after the other are `broadcast`. -/
lemma ManagerRun.exec_broadcast (s : ManagerRun V R) (b : Broadcast V R) (now : ℚ)
    (idle : s.phase b.accountId = .idle) :
    ∃ trace, exec ManagerRun.step s trace =
      some { manager := (s.manager.broadcast b now).2, phase := s.phase } := by
  -- releasing the lock puts the account back where it was
  have released : ∀ phase, Function.update (Function.update s.phase b.accountId phase) b.accountId .idle =
      s.phase := by
    intro phase
    rw [Function.update_idem, ← idle, Function.update_eq_self]
  by_cases anonymous : b.accountId = ""
  · exact ⟨[], by simp [TxManager.broadcast, anonymous]⟩
  · have first : s.step (.assign b now) = match s.manager.assign b now with
        | (.error _, manager) => some { s with manager }
        | (.ok sequence, manager) =>
          some { manager, phase := Function.update s.phase b.accountId (.assigned b sequence) } := by
      simp only [ManagerRun.step, anonymous, if_false, idle]
    simp only [TxManager.broadcast, anonymous, if_false]
    split at first
    · rename_i e manager assigned
      exact ⟨[.assign b now], by rw [exec_cons, first]; rfl⟩
    · rename_i sequence manager assigned
      cases signed : manager.sign b sequence with
      | error e =>
        refine ⟨[.assign b now, .sign b.accountId], ?_⟩
        rw [exec_cons, first, Option.bind_some, exec_cons]
        simp [ManagerRun.step, signed, released]
      | ok signedPayload =>
        refine ⟨[.assign b now, .sign b.accountId, .dispatch b.accountId], ?_⟩
        rw [exec_cons, first, Option.bind_some, exec_cons]
        simp [ManagerRun.step, signed, released, exec_cons]

end Sections

/-- The condition on a step of a run: the payload can be copied, the signer returns and what it returns
carries the assigned sequence, and the dispatcher, where it raises, raises an `Exception`. -/
def Completes [BEq V] [IntCast V] (s : ManagerRun V R) : Section V R → Prop
  | .assign _ _ => True
  | .sign account => ∀ b sequence, s.phase account = .assigned b sequence →
      ∃ copied signedPayload, s.manager.deepcopy b.payload = .ok copied ∧
        b.signer (copied.set s.manager.sequenceField (sequence : V)) = .ok signedPayload ∧
        s.manager.Carries signedPayload sequence
  | .dispatch account => ∀ b sequence signedPayload,
      s.phase account = .signed b sequence signedPayload →
      ∀ e, b.dispatcher signedPayload = .error e → e.isException

/-- What a run keeps for one account: the cached counter, the pending nonces and the sequence of the
broadcast in progress. -/
structure Slots where
  counter : Option ℤ
  pending : Dict ℤ ℚ
  held : Option ℤ

namespace Slots

/-- What a step may do to an account. A slot that is opened is closed again unless the condition fails. -/
inductive Move (met : Prop) : Slots → Slots → Prop
  | stay {v : Slots} (ok : met) : Move met v v
  | opened {counter : Option ℤ} {pending : Dict ℤ ℚ} {nonce : ℤ} {now : ℚ} (ok : met)
      (next : counter = none ∨ counter = some (nonce - 1)) :
      Move met ⟨counter, pending, none⟩ ⟨some nonce, pending.set nonce now, some nonce⟩
  | closed {counter : Option ℤ} {pending : Dict ℤ ℚ} {nonce : ℤ} (ok : met) :
      Move met ⟨counter, pending, some nonce⟩ ⟨counter, pending.pop nonce, none⟩
  | abandoned {counter : Option ℤ} {pending : Dict ℤ ℚ} {nonce : ℤ} (fails : ¬ met) :
      Move met ⟨counter, pending, some nonce⟩ ⟨counter, pending, none⟩

/-- Every pending nonce was counted, and the held one is pending. -/
structure Numbered (v : Slots) : Prop where
  counted : ∀ n ∈ v.pending.keys, ∃ counter, v.counter = some counter ∧ n ≤ counter
  held : ∀ n, v.held = some n → n ∈ v.pending.keys

/-- Nothing is pending but the sequence of the broadcast in progress. -/
def Clean (v : Slots) : Prop :=
  ∀ n ∈ v.pending.keys, v.held = some n

variable {met : Prop} {v w : Slots}

/-- The number after the counter is not pending. -/
lemma Numbered.fresh (num : Numbered v) {nonce : ℤ}
    (next : v.counter = none ∨ v.counter = some (nonce - 1)) : nonce ∉ v.pending.keys := by
  intro mem
  obtain ⟨counter, cached, le⟩ := num.counted nonce mem
  rw [cached] at next
  obtain none | same := next
  · cases none
  · obtain rfl := Option.some.inj same
    omega

/-- A move keeps the pending nonces up to the last one. -/
lemma Move.numbered (move : Move met v w) (num : Numbered v) : Numbered w := by
  cases move with
  | stay _ => exact num
  | @opened counter pending nonce now _ next =>
    constructor
    · intro n mem
      rcases Dict.mem_keys_set.mp mem with rfl | mem
      · exact ⟨n, rfl, le_rfl⟩
      · obtain ⟨c, cached, le⟩ := num.counted n mem
        refine ⟨nonce, rfl, ?_⟩
        obtain none | same := next
        · rw [none] at cached
          cases cached
        · obtain rfl := Option.some.inj (same.symm.trans cached)
          omega
    · intro n held
      exact Dict.mem_keys_set.mpr (.inl (Option.some.inj held).symm)
  | closed _ =>
    exact ⟨fun n mem => num.counted n (Dict.mem_keys_pop.mp mem).2, fun n held => nomatch held⟩
  | abandoned _ => exact ⟨num.counted, fun n held => nomatch held⟩

/-- A step keeps an account clean exactly when it meets the condition. -/
lemma Move.clean_iff (move : Move met v w) (num : Numbered v) (clean : Clean v) : Clean w ↔ met := by
  cases move with
  | stay ok => exact ⟨fun _ => ok, fun _ => clean⟩
  | opened ok _ =>
    refine ⟨fun _ => ok, fun _ n mem => ?_⟩
    rcases Dict.mem_keys_set.mp mem with rfl | mem
    · rfl
    · exact nomatch clean n mem
  | closed ok =>
    refine ⟨fun _ => ok, fun _ n mem => ?_⟩
    obtain ⟨ne, mem⟩ := Dict.mem_keys_pop.mp mem
    exact absurd (Option.some.inj (clean n mem)).symm ne
  | @abandoned counter pending nonce fails =>
    -- the lock is free again and the sequence is still pending
    refine ⟨fun still => ?_, fun ok => absurd ok fails⟩
    exact nomatch still nonce (num.held nonce rfl)

/-- A sequence that was left behind stays pending. -/
lemma Move.not_clean (move : Move met v w) (num : Numbered v) (orphan : ¬ Clean v) : ¬ Clean w := by
  simp only [Clean, not_forall] at orphan
  obtain ⟨n, mem, ne⟩ := orphan
  intro clean
  cases move with
  | stay _ => exact ne (clean n mem)
  | opened _ next =>
    -- the new sequence is above everything pending, so it is not the orphan
    have same := Option.some.inj (clean n (Dict.mem_keys_set.mpr (.inr mem)))
    exact num.fresh next (same ▸ mem)
  | closed _ =>
    exact nomatch clean n (Dict.mem_keys_pop.mpr ⟨fun eq => ne (congrArg some eq.symm), mem⟩)
  | abandoned _ => exact nomatch clean n mem

end Slots

namespace ManagerRun

/-- The slots of an account. -/
def slots (s : ManagerRun V R) (account : String) : Slots where
  counter := s.manager.tracker.nonces account
  pending := s.manager.tracker.pending account
  held := (s.phase account).held

/-- The broadcast in progress on an account is one for that account. -/
def Owned (s : ManagerRun V R) : Prop :=
  ∀ account, match s.phase account with
    | .idle => True
    | .assigned b _ => b.accountId = account
    | .signed b _ _ => b.accountId = account

/-- A phase of a broadcast is put to its own account. -/
lemma owned_update {s : ManagerRun V R} (owned : s.Owned) {manager : TxManager V} {account : String}
    {phase : Phase V R}
    (own : match phase with
      | .idle => True
      | .assigned b _ => b.accountId = account
      | .signed b _ _ => b.accountId = account) :
    Owned { manager, phase := Function.update s.phase account phase } := by
  intro other
  by_cases eq : other = account
  · subst eq
    simpa using own
  · simpa [eq] using owned other

/-- Other accounts keep their slots. -/
lemma slots_update_of_ne {s : ManagerRun V R} {manager : TxManager V} {account other : String}
    {phase : Phase V R} (ne : other ≠ account)
    (nonces : manager.tracker.nonces other = s.manager.tracker.nonces other)
    (pending : manager.tracker.pending other = s.manager.tracker.pending other) :
    slots { manager, phase := Function.update s.phase account phase } other = s.slots other := by
  simp [slots, nonces, pending, ne]

/-- The second section succeeds exactly when the condition on it holds. -/
lemma sign_eq_ok [BEq V] [IntCast V] {m : TxManager V} {b : Broadcast V R} {sequence : ℤ}
    {signedPayload : Dict String V} :
    m.sign b sequence = .ok signedPayload ↔
      ∃ copied, m.deepcopy b.payload = .ok copied ∧
        b.signer (copied.set m.sequenceField (sequence : V)) = .ok signedPayload ∧
        m.Carries signedPayload sequence := by
  simp only [TxManager.sign, TxManager.withSequence, Py.bind_eq_ok, pure, Except.pure,
    Except.ok.injEq]
  constructor
  · rintro ⟨_, ⟨copied, copy, rfl⟩, signed, sign, ⟨⟩, checked, rfl⟩
    refine ⟨copied, copy, sign, ?_⟩
    rw [TxManager.assertSignedSequence] at checked
    split at checked
    · assumption
    · cases checked
  · rintro ⟨copied, copy, sign, carries⟩
    exact ⟨_, ⟨copied, copy, rfl⟩, signedPayload, sign, (), if_pos carries, rfl⟩

variable [BEq V] [IntCast V] {s t : ManagerRun V R}

/-- What a step does: it moves the slots of one account. -/
def Moves (s t : ManagerRun V R) (met : Prop) (account : String) : Prop :=
  (∀ other, other ≠ account → t.slots other = s.slots other) ∧
    Slots.Move met (s.slots account) (t.slots account)

omit [BEq V] [IntCast V] in
/-- The slot of the account has its new phase. -/
lemma slots_update_self (manager : TxManager V) (account : String) (phase : Phase V R) :
    slots { manager, phase := Function.update s.phase account phase } account =
      ⟨manager.tracker.nonces account, manager.tracker.pending account, phase.held⟩ := by
  simp [slots]

omit [BEq V] [IntCast V] in
/-- A slot holds what its phase does. -/
lemma slots_of_phase {account : String} {phase : Phase V R} (at_ : s.phase account = phase) :
    s.slots account = ⟨s.manager.tracker.nonces account, s.manager.tracker.pending account,
      phase.held⟩ := by
  rw [slots, at_]

/-- An assignment moves the slot of its account. -/
lemma assign_moves {b : Broadcast V R} {now : ℚ} (stepped : s.step (.assign b now) = some t) :
    Moves s t (Completes s (.assign b now)) b.accountId := by
  simp only [step] at stepped
  split at stepped
  · cases stepped
    exact ⟨fun _ _ => rfl, .stay trivial⟩
  · split at stepped
    · rename_i idle
      simp only [TxManager.assign] at stepped
      obtain ⟨error, raised⟩ | ⟨nonce, issued, next⟩ :=
        s.manager.tracker.getNextNonce_cases b.accountId b.seedSequence now
      · rw [raised] at stepped
        cases stepped
        exact ⟨fun _ _ => rfl, .stay trivial⟩
      · rw [issued] at stepped
        cases stepped
        refine ⟨fun other ne => slots_update_of_ne ne ?_ ?_, ?_⟩
        · exact NonceTracker.issue_nonces_of_ne ne
        · exact NonceTracker.issue_pending_of_ne ne
        · rw [slots_of_phase idle, slots_update_self, NonceTracker.issue_nonces,
            NonceTracker.issue_pending]
          exact .opened trivial next
    · cases stepped

/-- A signature moves the slot of its account. -/
lemma sign_moves {account : String} (stepped : s.step (.sign account) = some t) :
    Moves s t (Completes s (.sign account)) account := by
  simp only [step] at stepped
  split at stepped
  · rename_i b sequence assigned
    rw [Moves, slots_of_phase assigned]
    split at stepped
    · rename_i error raised
      cases stepped
      refine ⟨fun other ne => slots_update_of_ne ne rfl rfl, ?_⟩
      rw [slots_update_self]
      refine .abandoned fun met => ?_
      obtain ⟨copied, signedPayload, copy, sign, carries⟩ := met b sequence assigned
      have ok := sign_eq_ok.mpr ⟨copied, copy, sign, carries⟩
      rw [raised] at ok
      cases ok
    · rename_i signedPayload signed
      cases stepped
      refine ⟨fun other ne => slots_update_of_ne ne rfl rfl, ?_⟩
      rw [slots_update_self]
      refine .stay fun b' sequence' assigned' => ?_
      rw [assigned] at assigned'
      cases assigned'
      obtain ⟨copied, copy, sign, carries⟩ := sign_eq_ok.mp signed
      exact ⟨copied, signedPayload, copy, sign, carries⟩
  · cases stepped

/-- A dispatch moves the slot of its account. -/
lemma dispatch_moves {account : String} (owned : s.Owned)
    (stepped : s.step (.dispatch account) = some t) :
    Moves s t (Completes s (.dispatch account)) account := by
  simp only [step] at stepped
  split at stepped
  · rename_i b sequence signedPayload signed
    obtain rfl : b.accountId = account := by
      have own := owned account
      rw [signed] at own
      exact own
    rw [Moves, slots_of_phase signed]
    -- the condition speaks of the dispatcher of the broadcast in progress
    have condition : Completes s (.dispatch b.accountId) ↔
        ∀ e, b.dispatcher signedPayload = .error e → e.isException := by
      refine ⟨fun met => met b sequence signedPayload signed, fun each b' sequence' payload' at' => ?_⟩
      rw [signed] at at'
      cases at'
      exact each
    rw [condition]
    have reported : ∀ tracker : NonceTracker, tracker = s.manager.tracker.resolve b.accountId sequence →
        ∀ other, other ≠ b.accountId → tracker.pending other = s.manager.tracker.pending other := by
      rintro _ rfl other ne
      exact NonceTracker.resolve_pending_of_ne ne
    cases result : b.dispatcher signedPayload with
    | ok dispatchResult =>
      simp only [TxManager.dispatch, result, Option.some.injEq] at stepped
      subst stepped
      refine ⟨fun other ne => slots_update_of_ne ne rfl (reported _ rfl other ne), ?_⟩
      rw [slots_update_self, NonceTracker.confirm, NonceTracker.resolve_pending]
      exact .closed fun e raised => nomatch raised
    | error e =>
      cases caught : e.isException with
      | true =>
        simp only [TxManager.dispatch, result, caught, if_true, Option.some.injEq] at stepped
        subst stepped
        refine ⟨fun other ne => slots_update_of_ne ne rfl (reported _ rfl other ne), ?_⟩
        rw [slots_update_self, NonceTracker.fail, NonceTracker.resolve_pending]
        refine .closed fun e' raised => ?_
        cases raised
        exact caught
      | false =>
        simp only [TxManager.dispatch, result, caught, Bool.false_eq_true, if_false,
          Option.some.injEq] at stepped
        subst stepped
        refine ⟨fun other ne => slots_update_of_ne ne rfl rfl, ?_⟩
        rw [slots_update_self]
        refine .abandoned fun met => ?_
        rw [met e rfl] at caught
        cases caught
  · cases stepped

/-- Each section moves one slot. -/
lemma step_moves {l : Section V R} (owned : s.Owned) (stepped : s.step l = some t) :
    ∃ account, Moves s t (Completes s l) account := by
  cases l with
  | assign b now => exact ⟨_, assign_moves stepped⟩
  | sign account => exact ⟨_, sign_moves stepped⟩
  | dispatch account => exact ⟨_, dispatch_moves owned stepped⟩

/-- Each section keeps the phases with their accounts. -/
lemma owned_step {l : Section V R} (owned : s.Owned) (stepped : s.step l = some t) : t.Owned := by
  cases l with
  | assign b now =>
    simp only [step] at stepped
    split at stepped
    · cases stepped
      exact owned
    · split at stepped
      · split at stepped
        · cases stepped
          exact owned
        · cases stepped
          exact owned_update owned rfl
      · cases stepped
  | sign account =>
    simp only [step] at stepped
    split at stepped
    · rename_i b sequence assigned
      split at stepped
      · cases stepped
        exact owned_update owned trivial
      · cases stepped
        have own := owned account
        rw [assigned] at own
        exact owned_update owned own
    · cases stepped
  | dispatch account =>
    simp only [step] at stepped
    split at stepped
    · cases stepped
      exact owned_update owned trivial
    · cases stepped

/-- The invariant of every run. -/
structure Sound (s : ManagerRun V R) : Prop where
  owned : s.Owned
  numbered : ∀ account, (s.slots account).Numbered

/-- Nothing is pending on any account but the sequences of broadcasts in progress. -/
def AllClean (s : ManagerRun V R) : Prop :=
  ∀ account, (s.slots account).Clean

omit [BEq V] [IntCast V] in
/-- A new manager is sound. -/
lemma sound_start (sequenceField : String) (deepcopy : Dict String V → Except PyError (Dict String V)) :
    Sound (start (.init sequenceField deepcopy) : ManagerRun V R) where
  owned := fun _ => trivial
  numbered := fun _ => ⟨fun _ mem => (nomatch mem), fun _ held => (nomatch held)⟩

/-- Each section keeps soundness. -/
lemma sound_step (s : ManagerRun V R) (l : Section V R) (t : ManagerRun V R) (sound : Sound s)
    (stepped : s.step l = some t) : Sound t := by
  refine ⟨owned_step sound.owned stepped, fun other => ?_⟩
  obtain ⟨account, frame, move⟩ := step_moves sound.owned stepped
  by_cases eq : other = account
  · subst eq
    exact move.numbered (sound.numbered other)
  · rw [frame other eq]
    exact sound.numbered other

/-- A section leaves all slots clean just where it completes. -/
lemma allClean_step_iff (s : ManagerRun V R) (l : Section V R) (t : ManagerRun V R) (sound : Sound s)
    (clean : AllClean s) (stepped : s.step l = some t) : AllClean t ↔ Completes s l := by
  obtain ⟨account, frame, move⟩ := step_moves sound.owned stepped
  have here := move.clean_iff (sound.numbered account) (clean account)
  refine ⟨fun all => here.mp (all account), fun met other => ?_⟩
  by_cases eq : other = account
  · subst eq
    exact here.mpr met
  · rw [frame other eq]
    exact clean other

/-- A slot that is not clean stays so. -/
lemma not_allClean_step (s : ManagerRun V R) (l : Section V R) (t : ManagerRun V R) (sound : Sound s)
    (orphan : ¬ AllClean s) (stepped : s.step l = some t) : ¬ AllClean t := by
  obtain ⟨account, frame, move⟩ := step_moves sound.owned stepped
  simp only [AllClean, not_forall] at orphan
  obtain ⟨other, orphan⟩ := orphan
  intro all
  by_cases eq : other = account
  · subst eq
    exact move.not_clean (sound.numbered other) orphan (all other)
  · rw [← frame other eq] at orphan
    exact orphan (all other)

omit [BEq V] [IntCast V] in
/-- When no broadcast is in progress, clean accounts are those without a pending nonce. -/
lemma quiet_allClean_iff (quiet : s.Quiet) :
    AllClean s ↔ ∀ account, s.manager.tracker.getPendingNonces account = [] := by
  simp only [List.eq_nil_iff_forall_not_mem, NonceTracker.mem_getPendingNonces]
  constructor
  · intro clean account n mem
    have held := clean account n mem
    rw [slots_of_phase (quiet account)] at held
    cases held
  · intro none account n mem
    exact absurd mem (none account n)

end ManagerRun

section Runs
variable [BEq V] [IntCast V]
open ManagerRun

/-- Along every run whose sections meet the condition the tracker has no pending nonce whenever no
broadcast is in progress; and a run that ends so only has sections that meet it. -/
theorem no_pending_iff_completes (sequenceField : String)
    (deepcopy : Dict String V → Except PyError (Dict String V)) (trace : List (Section V R))
    (s : ManagerRun V R)
    (run : exec ManagerRun.step (start (.init sequenceField deepcopy)) trace = some s) :
    (Guarded ManagerRun.step Completes (start (.init sequenceField deepcopy)) trace →
      Always ManagerRun.step
        (fun t => t.Quiet → ∀ account, t.manager.tracker.getPendingNonces account = [])
        (start (.init sequenceField deepcopy)) trace) ∧
    (s.Quiet → (∀ account, s.manager.tracker.getPendingNonces account = []) →
      Guarded ManagerRun.step Completes (start (.init sequenceField deepcopy)) trace) := by
  have init := sound_start (R := R) sequenceField deepcopy
  have clean : AllClean (start (.init sequenceField deepcopy) : ManagerRun V R) :=
    fun _ _ mem => nomatch mem
  have exactly := always_iff_guarded init clean (fun s l t sound _ => sound_step s l t sound)
    allClean_step_iff run
  constructor
  · intro guarded pre t le reached quiet
    exact (quiet_allClean_iff quiet).mp (exactly.mpr guarded pre t le reached)
  · intro quiet none
    refine exactly.mp fun pre t le reached => ?_
    by_contra orphan
    obtain ⟨rest, rfl⟩ := le
    rw [exec_append, reached] at run
    -- an orphan at `t` is still there at the end of the run
    have stays : Sound s ∧ ¬ AllClean s :=
      exec_invariant (I := fun u => Sound u ∧ ¬ AllClean u)
        ⟨exec_invariant init sound_step reached, orphan⟩
        (fun u l w inv stepped =>
          ⟨sound_step u l w inv.1 stepped, not_allClean_step u l w inv.1 inv.2 stepped⟩) run
    exact stays.2 ((quiet_allClean_iff quiet).mpr none)

end Runs

/-- A first broadcast on an account, with sequence 5. -/
def firstBroadcast (signer : Dict String ℤ → Except PyError (Dict String ℤ))
    (dispatcher : Dict String ℤ → Except PyError Unit) : Broadcast ℤ Unit where
  accountId := "GACC"
  payload := .empty
  signer := signer
  dispatcher := dispatcher
  seedSequence := some 5

/-- A broadcast whose dispatcher times out after signing: the sequence is reported as failed. -/
theorem no_pending_iff_completes_dispatcher_raises :
    ∃ s, exec ManagerRun.step (.start (.init "sequence" .ok))
        [.assign (firstBroadcast .ok fun _ => .error (.exception "TimeoutError" "read timed out")) 0,
          .sign "GACC", .dispatch "GACC"] = some s ∧
      s.manager.tracker.getNonce "GACC" = some 5 ∧
      Guarded ManagerRun.step Completes (.start (.init "sequence" .ok))
        [.assign (firstBroadcast .ok fun _ => .error (.exception "TimeoutError" "read timed out")) 0,
          .sign "GACC", .dispatch "GACC"] := by
  refine ⟨_, rfl, rfl, (no_pending_iff_completes "sequence" .ok _ _ rfl).2 ?_ ?_⟩
  · intro account
    by_cases eq : account = "GACC"
    · subst eq
      rfl
    · simp [firstBroadcast, eq, ManagerRun.start]
  · intro account
    by_cases eq : account = "GACC"
    · subst eq
      decide
    · simp [firstBroadcast, ManagerRun.start, NonceTracker.getPendingNonces, NonceTracker.fail,
        NonceTracker.resolve_pending_of_ne eq, NonceTracker.issue_pending_of_ne eq, TxManager.init,
        NonceTracker.createStandalone]

/-- A broadcast whose signer raises: no broadcast is in progress and its sequence is still pending. -/
theorem signer_raises_leaves_sequence_pending :
    ∃ s, exec ManagerRun.step (.start (.init "sequence" .ok))
        [.assign (firstBroadcast (fun _ => .error (.exception "SigningError" "no key")) fun _ => .ok ()) 0,
          .sign "GACC"] = some s ∧
      s.Quiet ∧ s.manager.tracker.getPendingNonces "GACC" = [5] := by
  refine ⟨_, rfl, fun account => ?_, by decide⟩
  by_cases eq : account = "GACC"
  · subst eq
    rfl
  · simp [firstBroadcast, eq, ManagerRun.start]

end StellarFlow.Nonce
