import Mathlib.Algebra.Order.Ring.Int
import Mathlib.Data.List.Range
import StellarFlow.Lib.Machine

/-!
# The rotation of signing keys

Model of `KeyRotationHandler` in `app/security/kms.py`, in one event loop: any number of calls of `sign_envelope`, of
`start` and `stop`, and the schedulers that were started; what a task does between two awaits is one step. Handles are
known by their place among all that were made. Times are in microseconds, and each comes with the step that reads the
clock. What is signed and how it is encoded is left out.
-/

open Machine

namespace StellarFlow.KeyRotation

structure KeyHandle where
  key_id : String
  public_key_b64 : String
  expires_at : Option ℤ
  pending_tx_count : ℕ
  is_active : Bool

/-- `is_expiring_soon`. -/
def KeyHandle.is_expiring_soon (h : KeyHandle) (lead_time : ℤ) (now : ℤ) : Bool :=
  match h.expires_at with
  | none => false
  | some expires_at => expires_at - now ≤ lead_time

/-- `is_expired`. -/
def KeyHandle.is_expired (h : KeyHandle) (now : ℤ) : Bool :=
  match h.expires_at with
  | none => false
  | some expires_at => expires_at ≤ now

/-- An envelope, without what was signed and the times. -/
structure SignedEnvelope where
  key_id : String
  signer_public_key_b64 : String
  signature : List UInt8

structure RotationEvent where
  old_key_id : String
  new_key_id : String
  drained_tx_count : ℕ
  success : Bool
  error : Option String

/-- The settings of a handler; `on_rotation` says whether there is a callback. -/
structure Config where
  lead_time : ℤ
  drain_timeout : ℤ
  on_rotation : Bool

/-- Where a scheduler awaits something: the pause before it polls, `generate_key`, the pause of `_drain`, `retire_key`
and the callback. -/
inductive Scheduler where
  | polling
  | provisioning (old_handle : ℕ)
  | draining (old_handle new_handle initial_count : ℕ) (deadline : ℤ)
  | retiring (old_handle new_handle drained : ℕ)
  | notifying
  | finished
  deriving DecidableEq

/-- A call of `sign_envelope`, with the key it took, until `provider.sign` is through. -/
structure SignCall where
  handle : ℕ
  inFlight : Bool

/-- The handler with its tasks. `retired` has the keys whose retirement was asked for, and `timedOut` those that were
not drained in time. -/
structure Handler where
  handles : List KeyHandle
  active_handle : Option ℕ
  running : Bool
  starts : ℕ
  schedulers : List Scheduler
  scheduler_task : Option ℕ
  calls : List SignCall
  envelopes : List SignedEnvelope
  rotation_history : List RotationEvent
  retired : List ℕ
  timedOut : List ℕ

/-- A key that the provider makes. -/
structure NewKey where
  key_id : String
  public_key_b64 : String
  expires_at : Option ℤ

/-- The handle of a new key. -/
def NewKey.handle (key : NewKey) : KeyHandle := ⟨key.key_id, key.public_key_b64, key.expires_at, 0, true⟩

/-- What happens; the answer of a provider is `none` or an error where it raises. -/
inductive Event where
  | start
  | started (key : Option NewKey)
  | sign
  | signed (i : ℕ) (signature : Option (List UInt8))
  | poll (j : ℕ) (now : ℤ)
  | provisioned (j : ℕ) (key : Except String NewKey) (now later : ℤ)
  | drain (j : ℕ) (now : ℤ)
  | retired (j : ℕ) (error : Option String)
  | notified (j : ℕ)
  | stop

namespace Handler

/-- `KeyRotationHandler(provider)`. -/
def new : Handler where
  handles := []
  active_handle := none
  running := false
  starts := 0
  schedulers := []
  scheduler_task := none
  calls := []
  envelopes := []
  rotation_history := []
  retired := []
  timedOut := []

/-- The end of `start`. -/
def launch (s : Handler) : Handler :=
  { s with running := true, schedulers := s.schedulers ++ [.polling], scheduler_task := some s.schedulers.length }

/-- The rest of `start`. -/
def started (s : Handler) (key : Option NewKey) : Handler :=
  match key with
  | none => { s with starts := s.starts - 1 }
  | some key =>
    { s with
      starts := s.starts - 1
      handles := s.handles ++ [key.handle]
      active_handle := some s.handles.length }.launch

/-- `_get_active_handle`; `none` where it raises. -/
def get_active_handle (s : Handler) : Option ℕ :=
  match s.active_handle with
  | none => none
  | some a => if (s.handles[a]?.map KeyHandle.is_active).getD false then some a else none

/-- `handle.pending_tx_count`. -/
def pending (s : Handler) (k : ℕ) : ℕ := (s.handles[k]?.map KeyHandle.pending_tx_count).getD 0

/-- The id of a key. -/
def keyId (s : Handler) (k : ℕ) : String := (s.handles[k]?.map KeyHandle.key_id).getD ""

/-- `sign_envelope` up to the call of the provider. -/
def sign (s : Handler) : Option Handler :=
  s.get_active_handle.map fun k =>
    { s with
      handles := s.handles.modify k fun h => { h with pending_tx_count := h.pending_tx_count + 1 }
      calls := s.calls ++ [⟨k, true⟩] }

/-- What `sign_envelope` returns. -/
def envelope (s : Handler) (k : ℕ) (signature : List UInt8) : Option SignedEnvelope :=
  s.handles[k]?.map fun h => ⟨h.key_id, h.public_key_b64, signature⟩

/-- The `finally` of `sign_envelope`. -/
def release (s : Handler) (k : ℕ) : List KeyHandle :=
  s.handles.modify k fun h => { h with pending_tx_count := max 0 (h.pending_tx_count - 1) }

/-- The rest of `sign_envelope`. -/
def signed (s : Handler) (i k : ℕ) (signature : Option (List UInt8)) : Handler :=
  { s with
    handles := s.release k
    calls := s.calls.set i ⟨k, false⟩
    envelopes := s.envelopes ++ (signature.bind (s.envelope k)).toList }

/-- The scheduler goes on with its loop. -/
def await (s : Handler) (j : ℕ) (phase : Scheduler) : Handler := { s with schedulers := s.schedulers.set j phase }

/-- Whether a key is due for rotation. -/
def due (config : Config) (s : Handler) (k : ℕ) (now : ℤ) : Bool :=
  match s.handles[k]? with
  | none => false
  | some h => h.is_expiring_soon config.lead_time now || h.is_expired now

/-- `_check_and_rotate`, up to `generate_key`. -/
def poll (config : Config) (s : Handler) (j : ℕ) (now : ℤ) : Handler :=
  if s.running then
    match s.active_handle with
    | none => s.await j .polling
    | some a => s.await j (if s.due config a now then .provisioning a else .polling)
  else s.await j .finished

/-- The end of `_rotate`. -/
def record (config : Config) (s : Handler) (j : ℕ) (event : RotationEvent) : Handler :=
  { s with rotation_history := s.rotation_history ++ [event] }.await j
    (if config.on_rotation then .notifying else .polling)

/-- The handler of exceptions of `_rotate`. -/
def rotationFailed (config : Config) (s : Handler) (j old_handle : ℕ) (error : String) : Handler :=
  { s with
    handles :=
      if s.active_handle = some old_handle then s.handles.modify old_handle fun h => { h with is_active := true }
      else s.handles }.record config j ⟨s.keyId old_handle, "<pending>", 0, false, some error⟩

/-- A turn of the loop of `_drain`; what is retired next is noted. -/
def drain (s : Handler) (j old_handle new_handle initial_count : ℕ) (deadline now : ℤ) : Handler :=
  if s.pending old_handle = 0 then
    { s with retired := s.retired ++ [old_handle] }.await j (.retiring old_handle new_handle initial_count)
  else if deadline ≤ now then
    { s with
      retired := s.retired ++ [old_handle]
      timedOut := s.timedOut ++ [old_handle] }.await j (.retiring old_handle new_handle initial_count)
  else s.await j (.draining old_handle new_handle initial_count deadline)

/-- The cut-over of `_rotate`. -/
def swap (s : Handler) (old_handle : ℕ) (key : NewKey) : Handler :=
  { s with
    handles := s.handles.modify old_handle (fun h => { h with is_active := false }) ++ [key.handle]
    active_handle := some s.handles.length }

/-- `_rotate` after `generate_key`; `_drain` reads the clock for its deadline, and `later` in its loop. -/
def provisioned (config : Config) (s : Handler) (j old_handle : ℕ) (key : Except String NewKey) (now later : ℤ) :
    Handler :=
  match key with
  | .error error => s.rotationFailed config j old_handle error
  | .ok key =>
    (s.swap old_handle key).drain j old_handle s.handles.length (s.pending old_handle) (now + config.drain_timeout)
      later

/-- `_rotate` after `retire_key`. -/
def finishRotation (config : Config) (s : Handler) (j old_handle new_handle drained : ℕ) (error : Option String) :
    Handler :=
  match error with
  | some error => s.rotationFailed config j old_handle error
  | none => s.record config j ⟨s.keyId old_handle, s.keyId new_handle, drained, true, none⟩

/-- One step; `none` is a call that raises, or an event that cannot happen. -/
def step (config : Config) (s : Handler) : Event → Option Handler
  | .start => if s.active_handle = none then some { s with starts := s.starts + 1 } else some s.launch
  | .started key => if s.starts = 0 then none else some (s.started key)
  | .sign => s.sign
  | .signed i signature =>
    match s.calls[i]? with
    | some ⟨k, true⟩ => some (s.signed i k signature)
    | _ => none
  | .poll j now =>
    match s.schedulers[j]? with
    | some .polling => some (s.poll config j now)
    | _ => none
  | .provisioned j key now later =>
    match s.schedulers[j]? with
    | some (.provisioning old_handle) => some (s.provisioned config j old_handle key now later)
    | _ => none
  | .drain j now =>
    match s.schedulers[j]? with
    | some (.draining old_handle new_handle initial_count deadline) =>
      some (s.drain j old_handle new_handle initial_count deadline now)
    | _ => none
  | .retired j error =>
    match s.schedulers[j]? with
    | some (.retiring old_handle new_handle drained) =>
      some (s.finishRotation config j old_handle new_handle drained error)
    | _ => none
  | .notified j =>
    match s.schedulers[j]? with
    | some .notifying => some (s.await j .polling)
    | _ => none
  | .stop =>
    match s.scheduler_task with
    | none => some { s with running := false }
    | some j => some ({ s with running := false }.await j .finished)

/-- The calls under way with a key. -/
def inFlight (s : Handler) (k : ℕ) : ℕ := s.calls.countP fun c => c.inFlight && decide (c.handle = k)

/-- What holds of a scheduler between its steps. -/
def Leaves (s : Handler) : Scheduler → Prop
  | .provisioning old_handle => old_handle < s.handles.length
  | .draining old_handle _ _ _ => old_handle < s.handles.length ∧ s.active_handle ≠ some old_handle
  | _ => True

/-- The invariant: the counters count the calls under way, the active key is active, and a key that was retired is not
active and, where it was drained in time, no call with it is under way. -/
structure Sound (s : Handler) : Prop where
  counts : ∀ k h, s.handles[k]? = some h → h.pending_tx_count = s.inFlight k
  made : ∀ c ∈ s.calls, c.handle < s.handles.length
  active : ∀ a, s.active_handle = some a → ∃ h, s.handles[a]? = some h ∧ h.is_active = true
  gone : ∀ k ∈ s.retired, k < s.handles.length ∧ s.active_handle ≠ some k ∧ (k ∉ s.timedOut → s.inFlight k = 0)
  leaves : ∀ p ∈ s.schedulers, s.Leaves p

/-- The key that a scheduler drains. -/
def drainingKey : Scheduler → Option ℕ
  | .draining old_handle _ _ _ => some old_handle
  | _ => none

/-- The steps, one for each way on. -/
inductive Step (config : Config) (s : Handler) : Event → Handler → Prop
  | start (absent : s.active_handle = none) : Step config s .start { s with starts := s.starts + 1 }
  | launch (present : s.active_handle ≠ none) : Step config s .start s.launch
  | started (key : Option NewKey) (waiting : s.starts ≠ 0) : Step config s (.started key) (s.started key)
  | sign {k : ℕ} (active : s.get_active_handle = some k) :
      Step config s .sign
        { s with
          handles := s.handles.modify k fun h => { h with pending_tx_count := h.pending_tx_count + 1 }
          calls := s.calls ++ [⟨k, true⟩] }
  | signed {i k : ℕ} (signature : Option (List UInt8)) (found : s.calls[i]? = some ⟨k, true⟩) :
      Step config s (.signed i signature) (s.signed i k signature)
  | poll {j : ℕ} {now : ℤ} {phase : Scheduler} (found : s.schedulers[j]? = some .polling)
      (quiet : drainingKey phase = none) (rotates : ∀ k, phase = .provisioning k → s.active_handle = some k) :
      Step config s (.poll j now) (s.await j phase)
  | provisioned {j old_handle : ℕ} (key : Except String NewKey) (now later : ℤ)
      (found : s.schedulers[j]? = some (.provisioning old_handle)) :
      Step config s (.provisioned j key now later) (s.provisioned config j old_handle key now later)
  | drain {j old_handle new_handle initial_count : ℕ} {deadline : ℤ} (now : ℤ)
      (found : s.schedulers[j]? = some (.draining old_handle new_handle initial_count deadline)) :
      Step config s (.drain j now) (s.drain j old_handle new_handle initial_count deadline now)
  | retired {j old_handle new_handle drained : ℕ} (error : Option String)
      (found : s.schedulers[j]? = some (.retiring old_handle new_handle drained)) :
      Step config s (.retired j error) (s.finishRotation config j old_handle new_handle drained error)
  | notified {j : ℕ} (found : s.schedulers[j]? = some .notifying) : Step config s (.notified j) (s.await j .polling)
  | halt (unscheduled : s.scheduler_task = none) : Step config s .stop { s with running := false }
  | stop {j : ℕ} (scheduled : s.scheduler_task = some j) :
      Step config s .stop ({ s with running := false }.await j .finished)

section Steps
variable {s : Handler} {config : Config} {j : ℕ} {p : Scheduler}

/-- A poll finds no work, or a key that is due. -/
lemma step_poll {now : ℤ} (found : s.schedulers[j]? = some .polling) :
    Step config s (.poll j now) (s.poll config j now) := by
  rw [Handler.poll]
  split
  · split
    case h_1 => exact .poll found rfl nofun
    case h_2 a active =>
      split
      · exact .poll found rfl fun k eq => by
          cases eq
          exact active
      · exact .poll found rfl nofun
  · exact .poll found rfl nofun

/-- Each step of the model is one of those named. -/
lemma step_cases {e : Event} {t : Handler} (taken : s.step config e = some t) : Step config s e t := by
  cases e with
  | start =>
    rw [Handler.step] at taken
    split at taken
    case isTrue absent => exact Option.some.inj taken ▸ .start absent
    case isFalse present => exact Option.some.inj taken ▸ .launch present
  | started key =>
    rw [Handler.step] at taken
    split at taken
    case isTrue => cases taken
    case isFalse waiting => exact Option.some.inj taken ▸ .started key waiting
  | sign =>
    obtain ⟨k, active, rfl⟩ := Option.map_eq_some_iff.1 taken
    exact .sign active
  | signed i signature =>
    rw [Handler.step] at taken
    split at taken
    case h_1 found => exact Option.some.inj taken ▸ .signed signature found
    case h_2 => cases taken
  | poll j now =>
    rw [Handler.step] at taken
    split at taken
    case h_1 found => exact Option.some.inj taken ▸ step_poll found
    case h_2 => cases taken
  | provisioned j key now later =>
    rw [Handler.step] at taken
    split at taken
    case h_1 found => exact Option.some.inj taken ▸ .provisioned key now later found
    case h_2 => cases taken
  | drain j now =>
    rw [Handler.step] at taken
    split at taken
    case h_1 found => exact Option.some.inj taken ▸ .drain now found
    case h_2 => cases taken
  | retired j error =>
    rw [Handler.step] at taken
    split at taken
    case h_1 found => exact Option.some.inj taken ▸ .retired error found
    case h_2 => cases taken
  | notified j =>
    rw [Handler.step] at taken
    split at taken
    case h_1 found => exact Option.some.inj taken ▸ .notified found
    case h_2 => cases taken
  | stop =>
    rw [Handler.step] at taken
    split at taken
    case h_1 unscheduled => exact Option.some.inj taken ▸ .halt unscheduled
    case h_2 scheduled => exact Option.some.inj taken ▸ .stop scheduled

/-- A new handler is sound. -/
lemma Sound.new : Sound Handler.new :=
  ⟨fun _ _ found => by simp [Handler.new] at found, nofun, nofun, nofun, nofun⟩

/-- A scheduler goes on. -/
lemma Sound.await (sound : s.Sound) (leaves : s.Leaves p) : (s.await j p).Sound := by
  refine ⟨sound.counts, sound.made, sound.active, sound.gone, fun q mem => ?_⟩
  rcases List.mem_or_eq_of_mem_set mem with old | rfl
  · exact sound.leaves q old
  · exact leaves

/-- A scheduler is launched. -/
lemma Sound.launch (sound : s.Sound) : s.launch.Sound :=
  ⟨sound.counts, sound.made, sound.active, sound.gone, forall_snoc sound.leaves trivial⟩

/-- The counter of a key is the number of its calls under way. -/
lemma Sound.pending (sound : s.Sound) {k : ℕ} (made : k < s.handles.length) : s.pending k = s.inFlight k := by
  rw [Handler.pending, List.getElem?_eq_getElem made]
  exact sound.counts k _ (List.getElem?_eq_getElem made)

/-- A rotation is recorded. -/
lemma Sound.record (sound : s.Sound) (event : RotationEvent) : (s.record config j event).Sound := by
  have noted : { s with rotation_history := s.rotation_history ++ [event] }.Sound :=
    ⟨sound.counts, sound.made, sound.active, sound.gone, sound.leaves⟩
  refine noted.await ?_
  split
  · trivial
  · trivial

/-- A change of handles that keeps their counters. -/
lemma Sound.modify (sound : s.Sound) (k : ℕ) {f : KeyHandle → KeyHandle}
    (count : ∀ h, (f h).pending_tx_count = h.pending_tx_count)
    (active : ∀ h, s.active_handle = some k → h.is_active = true → (f h).is_active = true) :
    { s with handles := s.handles.modify k f }.Sound := by
  have length : (s.handles.modify k f).length = s.handles.length := List.length_modify ..
  refine ⟨fun x h found => ?_, fun c mem => ?_, fun a eq => ?_, fun x mem => ?_, fun q mem => ?_⟩
  · rw [List.getElem?_modify] at found
    obtain ⟨h', found', rfl⟩ := Option.map_eq_some_iff.1 found
    have same := sound.counts x h' found'
    split
    · exact (count h').trans same
    · exact same
  · exact (sound.made c mem).trans_eq length.symm
  · obtain ⟨h, found, up⟩ := sound.active a eq
    rw [List.getElem?_modify, found]
    refine ⟨_, rfl, ?_⟩
    by_cases same : k = a
    · simp only [if_pos same]
      exact active h (same ▸ eq) up
    · simp only [if_neg same]
      exact up
  · obtain ⟨lt, rest⟩ := sound.gone x mem
    exact ⟨lt.trans_eq length.symm, rest⟩
  · have old := sound.leaves q mem
    cases q with
    | provisioning k' => exact old.trans_eq length.symm
    | draining k' n i d => exact ⟨old.1.trans_eq length.symm, old.2⟩
    | polling | retiring k' n d | notifying | finished => trivial

/-- A rotation fails. -/
lemma Sound.rotationFailed (sound : s.Sound) (old_handle : ℕ) (error : String) :
    (s.rotationFailed config j old_handle error).Sound := by
  refine Sound.record ?_ _
  by_cases still : s.active_handle = some old_handle
  · rw [if_pos still]
    exact sound.modify old_handle (fun _ => rfl) fun _ _ _ => rfl
  · rw [if_neg still]
    exact sound

/-- While there is a key, calls are signed with it. -/
lemma Sound.get_active_handle (sound : s.Sound) : s.get_active_handle = s.active_handle := by
  rw [Handler.get_active_handle]
  cases eq : s.active_handle with
  | none => rfl
  | some a =>
    obtain ⟨h, found, up⟩ := sound.active a eq
    simp only [found, Option.map_some, Option.getD_some, up, if_true]

/-- A call takes the active key. -/
lemma Sound.sign (sound : s.Sound) {k : ℕ} (eq : s.active_handle = some k) :
    { s with
      handles := s.handles.modify k fun h => { h with pending_tx_count := h.pending_tx_count + 1 }
      calls := s.calls ++ [SignCall.mk k true] }.Sound := by
  obtain ⟨h, found, up⟩ := sound.active k eq
  have made : k < s.handles.length := (List.getElem?_eq_some_iff.1 found).1
  have length : (s.handles.modify k fun h => { h with pending_tx_count := h.pending_tx_count + 1 }).length =
      s.handles.length := List.length_modify ..
  have count : ∀ x, (s.calls ++ [SignCall.mk k true]).countP (fun c => c.inFlight && decide (c.handle = x)) =
      s.inFlight x + if k = x then 1 else 0 := fun x => by
    rw [List.countP_append, List.countP_singleton, inFlight]
    simp
  refine ⟨fun x h found => ?_, forall_snoc (fun c mem => (sound.made c mem).trans_eq length.symm)
    (made.trans_eq length.symm), fun a same => ?_, fun x mem => ?_, fun q mem => ?_⟩
  · rw [List.getElem?_modify] at found
    obtain ⟨h', found', rfl⟩ := Option.map_eq_some_iff.1 found
    have before := sound.counts x h' found'
    rw [inFlight, count]
    split
    · rw [← before]
    · exact before
  · obtain ⟨h', found', up'⟩ := sound.active a same
    rw [List.getElem?_modify, found']
    refine ⟨_, rfl, ?_⟩
    split
    · exact up'
    · exact up'
  · obtain ⟨lt, away, idle⟩ := sound.gone x mem
    refine ⟨lt.trans_eq length.symm, away, fun intime => ?_⟩
    have other : k ≠ x := fun same => away (same ▸ eq)
    rw [inFlight, count, idle intime, if_neg other]
  · have old := sound.leaves q mem
    cases q with
    | provisioning k' => exact old.trans_eq length.symm
    | draining k' n i d => exact ⟨old.1.trans_eq length.symm, old.2⟩
    | polling | retiring k' n d | notifying | finished => trivial

/-- The end of a call is one call less. -/
lemma inFlight_signed {i k : ℕ} (found : s.calls[i]? = some ⟨k, true⟩) (signature : Option (List UInt8)) (x : ℕ) :
    (s.signed i k signature).inFlight x + (if k = x then 1 else 0) = s.inFlight x := by
  have one := countP_set (fun c : SignCall => c.inFlight && decide (c.handle = x)) ⟨k, false⟩ found
  simp only [Bool.false_and, Bool.true_and, Bool.false_eq_true, if_false, decide_eq_true_eq] at one
  exact one

/-- A call gives its key back. -/
lemma Sound.signed (sound : s.Sound) {i k : ℕ} (found : s.calls[i]? = some ⟨k, true⟩)
    (signature : Option (List UInt8)) : (s.signed i k signature).Sound := by
  have made : k < s.handles.length := sound.made _ (List.mem_of_getElem? found)
  have handles : (s.signed i k signature).handles = s.release k := rfl
  have length : (s.release k).length = s.handles.length := List.length_modify ..
  refine ⟨fun x h found' => ?_, fun c mem => ?_, fun a same => ?_, fun x mem => ?_, fun q mem => ?_⟩
  · rw [handles, release, List.getElem?_modify] at found'
    obtain ⟨h', old, rfl⟩ := Option.map_eq_some_iff.1 found'
    have before := sound.counts x h' old
    have after := inFlight_signed found signature x
    split
    case isTrue same =>
      rw [if_pos same] at after
      exact (Nat.zero_max _).trans (by omega)
    case isFalse other =>
      rw [if_neg other] at after
      exact before.trans after.symm
  · rcases List.mem_or_eq_of_mem_set mem with old | rfl
    · exact (sound.made c old).trans_eq length.symm
    · exact made.trans_eq length.symm
  · obtain ⟨h', old, up⟩ := sound.active a same
    rw [handles, release, List.getElem?_modify, old]
    refine ⟨_, rfl, ?_⟩
    split
    · exact up
    · exact up
  · obtain ⟨lt, away, idle⟩ := sound.gone x mem
    refine ⟨lt.trans_eq length.symm, away, fun intime => ?_⟩
    have none := idle intime
    have after := inFlight_signed found signature x
    omega
  · have old := sound.leaves q mem
    cases q with
    | provisioning k' => exact old.trans_eq length.symm
    | draining k' n i d => exact ⟨old.1.trans_eq length.symm, old.2⟩
    | polling | retiring k' n d | notifying | finished => trivial

/-- A key whose retirement is asked for. -/
lemma Sound.retire (sound : s.Sound) {old_handle : ℕ} (made : old_handle < s.handles.length)
    (left : s.active_handle ≠ some old_handle) {late : List ℕ}
    (idle : old_handle ∉ s.timedOut ++ late → s.inFlight old_handle = 0) :
    { s with retired := s.retired ++ [old_handle], timedOut := s.timedOut ++ late }.Sound := by
  refine ⟨sound.counts, sound.made, sound.active, forall_snoc (fun x mem => ?_) ⟨made, left, idle⟩, sound.leaves⟩
  obtain ⟨lt, away, before⟩ := sound.gone x mem
  exact ⟨lt, away, fun intime => before fun late => intime (List.mem_append_left _ late)⟩

/-- A key is drained, or its time is over. -/
lemma Sound.drain (sound : s.Sound) {old_handle : ℕ} (made : old_handle < s.handles.length)
    (left : s.active_handle ≠ some old_handle) (new_handle initial_count : ℕ) (deadline now : ℤ) :
    (s.drain j old_handle new_handle initial_count deadline now).Sound := by
  rw [Handler.drain]
  split
  case isTrue none =>
    have idle := @Sound.retire s sound old_handle made left [] fun _ => (sound.pending made).symm.trans none
    rw [List.append_nil] at idle
    exact idle.await trivial
  case isFalse =>
    split
    case isTrue =>
      have forced := @Sound.retire s sound old_handle made left [old_handle] fun intime =>
        absurd (List.mem_append_right _ (List.mem_singleton_self old_handle)) intime
      exact forced.await trivial
    case isFalse => exact sound.await ⟨made, left⟩

/-- A new key takes over. -/
lemma Sound.join (sound : s.Sound) (key : NewKey) :
    { s with handles := s.handles ++ [key.handle], active_handle := some s.handles.length }.Sound := by
  have length : (s.handles ++ [key.handle]).length = s.handles.length + 1 := List.length_append
  refine ⟨fun x h found => ?_, fun c mem => ?_, fun a same => ?_, fun x mem => ?_, fun q mem => ?_⟩
  · rw [List.getElem?_append] at found
    split at found
    case isTrue lt => exact sound.counts x h found
    case isFalse ge =>
      have here : h = key.handle := List.mem_singleton.1 (List.mem_of_getElem? found)
      -- no call has a key that was not made before it
      have unused : s.inFlight x = 0 := List.countP_eq_zero.2 fun c mem both => by
        have lt := sound.made c mem
        have same : c.handle = x := of_decide_eq_true (Bool.and_eq_true_iff.1 both).2
        omega
      rw [here]
      exact unused.symm
  · have lt := sound.made c mem
    exact (lt.trans (Nat.lt_succ_self _)).trans_eq length.symm
  · cases same
    exact ⟨key.handle, List.getElem?_concat_length, rfl⟩
  · obtain ⟨lt, away, idle⟩ := sound.gone x mem
    refine ⟨(lt.trans (Nat.lt_succ_self _)).trans_eq length.symm, fun same => ?_, idle⟩
    cases same
    exact Nat.lt_irrefl _ lt
  · have old := sound.leaves q mem
    cases q with
    | provisioning k' => exact (Nat.lt_succ_of_lt old).trans_eq length.symm
    | draining k' n i d =>
      refine ⟨(Nat.lt_succ_of_lt old.1).trans_eq length.symm, fun same => ?_⟩
      cases same
      exact Nat.lt_irrefl _ old.1
    | polling | retiring k' n d | notifying | finished => trivial

/-- A change of what was there stays in front of what is added. -/
lemma modify_append {α : Type} {xs : List α} {k : ℕ} (lt : k < xs.length) (f : α → α) (y : α) :
    (xs ++ [y]).modify k f = xs.modify k f ++ [y] := by
  induction xs generalizing k with
  | nil => cases lt
  | cons x xs ih =>
    cases k with
    | zero => rfl
    | succ k => rw [List.cons_append, List.modify_succ_cons, ih (Nat.lt_of_succ_lt_succ lt), List.modify_succ_cons,
        List.cons_append]

/-- The new key takes the place of the old one. -/
lemma Sound.swap (sound : s.Sound) {old_handle : ℕ} (made : old_handle < s.handles.length) (key : NewKey) :
    (s.swap old_handle key).Sound := by
  have joined := (sound.join key).modify old_handle (f := fun h => { h with is_active := false }) (fun _ => rfl)
    fun h same => by
      cases same
      exact absurd made (Nat.lt_irrefl _)
  rw [Handler.swap, ← modify_append made]
  exact joined

/-- A key was made, or was not. -/
lemma Sound.provisioned (sound : s.Sound) {old_handle : ℕ} (made : old_handle < s.handles.length)
    (key : Except String NewKey) (now later : ℤ) : (s.provisioned config j old_handle key now later).Sound := by
  cases key with
  | error error => exact sound.rotationFailed old_handle error
  | ok key =>
    have length : (s.swap old_handle key).handles.length = s.handles.length + 1 := by
      rw [Handler.swap, List.length_append, List.length_modify]
      rfl
    refine (sound.swap made key).drain ((Nat.lt_succ_of_lt made).trans_eq length.symm) (fun same => ?_) _ _ _ _
    cases same
    exact Nat.lt_irrefl _ made

/-- Each step keeps soundness. -/
lemma Sound.step (sound : s.Sound) {e : Event} {t : Handler} (step : Step config s e t) : t.Sound := by
  have halted : { s with running := false }.Sound :=
    ⟨sound.counts, sound.made, sound.active, sound.gone, sound.leaves⟩
  cases step with
  | start => exact ⟨sound.counts, sound.made, sound.active, sound.gone, sound.leaves⟩
  | launch => exact sound.launch
  | started key =>
    cases key with
    | none => exact ⟨sound.counts, sound.made, sound.active, sound.gone, sound.leaves⟩
    | some key =>
      have joined := sound.join key
      exact Sound.launch ⟨joined.counts, joined.made, joined.active, joined.gone, joined.leaves⟩
  | sign active => exact sound.sign (sound.get_active_handle.symm.trans active)
  | signed signature found => exact sound.signed found signature
  | @poll j now phase found quiet rotates =>
    refine sound.await ?_
    cases phase with
    | provisioning k =>
      obtain ⟨h, there, -⟩ := sound.active k (rotates k rfl)
      exact (List.getElem?_eq_some_iff.1 there).1
    | draining => cases quiet
    | polling | retiring | notifying | finished => trivial
  | provisioned key now later found =>
    exact sound.provisioned (sound.leaves _ (List.mem_of_getElem? found)) key now later
  | drain now found =>
    obtain ⟨made, left⟩ := sound.leaves _ (List.mem_of_getElem? found)
    exact sound.drain made left _ _ _ now
  | retired error =>
    cases error with
    | some error => exact sound.rotationFailed _ error
    | none => exact sound.record _
  | notified => exact sound.await trivial
  | halt => exact halted
  | stop => exact halted.await trivial

end Steps

/-! ### Orderly runs -/

/-- The keys that are drained. -/
def drainingKeys (s : Handler) : List ℕ := s.schedulers.filterMap drainingKey

/-- The handler is only started when it is stopped, and only stopped when no rotation is under way. -/
def Orderly (s : Handler) : Event → Prop
  | .start => s.starts = 0 ∧ ∀ p ∈ s.schedulers, p = .finished
  | .stop => ∀ p ∈ s.schedulers, p = .polling ∨ p = .notifying ∨ p = .finished
  | _ => True

/-- The schedulers that go on. -/
def live (s : Handler) : ℕ := s.schedulers.countP fun p => decide (p ≠ .finished)

/-- In an orderly run one scheduler goes on, and it retires the keys in their order. -/
structure Ordered (s : Handler) : Prop where
  single : s.starts + s.live ≤ 1
  waits : s.starts ≠ 0 → s.active_handle = none
  empty : s.active_handle = none → s.handles = [] ∧ s.retired = [] ∧ s.drainingKeys = []
  rotates : ∀ p ∈ s.schedulers, ∀ k, p = .provisioning k → s.active_handle = some k
  order : s.retired ++ (s.drainingKeys ++ s.active_handle.toList) = List.range s.handles.length

section Ordered
variable {s : Handler} {config : Config} {j : ℕ} {p p' : Scheduler}

/-- A new handler has retired nothing. -/
lemma Ordered.new : Ordered Handler.new :=
  ⟨Nat.zero_le 1, fun waits => absurd rfl waits, fun _ => ⟨rfl, rfl, rfl⟩, nofun, rfl⟩

/-- Only the scheduler that goes on drains a key. -/
lemma alone (single : s.starts + s.live ≤ 1) (found : s.schedulers[j]? = some p) (goes : p ≠ .finished) :
    s.starts = 0 ∧ s.drainingKeys = (drainingKey p).toList ∧
      ∀ p', (s.schedulers.set j p').filterMap drainingKey = (drainingKey p').toList ∧
        (s.schedulers.set j p').countP (fun p => decide (p ≠ .finished)) ≤ 1 ∧
        ∀ q ∈ s.schedulers.set j p', q = p' ∨ q = .finished := by
  obtain ⟨pre, post, eq, set⟩ := split_set found
  have here : decide (p ≠ Scheduler.finished) = true := decide_eq_true goes
  rw [live, eq, List.countP_append, List.countP_cons, if_pos here] at single
  have ended : ∀ qs : List Scheduler, qs.countP (fun p => decide (p ≠ .finished)) = 0 → ∀ q ∈ qs, q = .finished :=
    fun qs none q mem => by
      by_contra going
      exact List.countP_eq_zero.1 none q mem (decide_eq_true going)
  have before := ended pre (by omega)
  have behind := ended post (by omega)
  have quiet : ∀ qs : List Scheduler, (∀ q ∈ qs, q = .finished) → qs.filterMap drainingKey = [] := fun qs all =>
    List.filterMap_eq_nil_iff.2 fun q mem => all q mem ▸ rfl
  have keys : ∀ p', (pre ++ p' :: post).filterMap drainingKey = (drainingKey p').toList := fun p' => by
    rw [List.filterMap_append, quiet pre before, List.nil_append, List.filterMap_cons, quiet post behind]
    cases drainingKey p' with
    | none => rfl
    | some k => rfl
  refine ⟨by omega, by rw [drainingKeys, eq, keys], fun p' => ⟨by rw [set, keys], ?_, fun q mem => ?_⟩⟩
  · rw [set, List.countP_append, List.countP_cons]
    split
    · omega
    · omega
  · rw [set, List.mem_append, List.mem_cons] at mem
    obtain left | same | right := mem
    · exact .inr (before q left)
    · exact .inl same
    · exact .inr (behind q right)

/-- The scheduler goes on, and drains what it drained. -/
lemma Ordered.await (ordered : s.Ordered) (found : s.schedulers[j]? = some p) (goes : p ≠ .finished)
    (same : drainingKey p' = drainingKey p) (rotates : ∀ k, p' = .provisioning k → s.active_handle = some k) :
    (s.await j p').Ordered := by
  obtain ⟨none, keys, next⟩ := alone ordered.single found goes
  obtain ⟨keys', count, all⟩ := next p'
  have kept : (s.await j p').drainingKeys = s.drainingKeys := by rw [drainingKeys, Handler.await, keys', same, keys]
  refine ⟨?_, ordered.waits, fun empty => ?_, fun q mem k eq => ?_, ?_⟩
  · rw [live, Handler.await, none, Nat.zero_add]
    exact count
  · rw [kept]
    exact ordered.empty empty
  · obtain rfl | ended := all q mem
    · exact rotates k eq
    · cases ended.symm.trans eq
  · rw [kept]
    exact ordered.order

/-- A change of the handles that keeps their number. -/
lemma Ordered.modify (ordered : s.Ordered) {handles : List KeyHandle} (length : handles.length = s.handles.length) :
    { s with handles := handles }.Ordered := by
  refine ⟨ordered.single, ordered.waits, fun empty => ?_, ordered.rotates, ?_⟩
  · obtain ⟨no, rest⟩ := ordered.empty empty
    rw [no] at length
    exact ⟨List.eq_nil_of_length_eq_zero length, rest⟩
  · exact ordered.order.trans (congrArg List.range length.symm)

/-- A rotation is recorded. -/
lemma Ordered.record (ordered : s.Ordered) (found : s.schedulers[j]? = some p) (goes : p ≠ .finished)
    (none : drainingKey p = none) (event : RotationEvent) : (s.record config j event).Ordered := by
  have noted : { s with rotation_history := s.rotation_history ++ [event] }.Ordered :=
    ⟨ordered.single, ordered.waits, ordered.empty, ordered.rotates, ordered.order⟩
  refine noted.await found goes ?_ fun k eq => ?_
  · rw [none]
    split
    · rfl
    · rfl
  · split at eq
    · cases eq
    · cases eq

/-- A rotation fails. -/
lemma Ordered.rotationFailed (ordered : s.Ordered) (found : s.schedulers[j]? = some p) (goes : p ≠ .finished)
    (none : drainingKey p = none) (old_handle : ℕ) (error : String) :
    (s.rotationFailed config j old_handle error).Ordered := by
  have length : (if s.active_handle = some old_handle then
      s.handles.modify old_handle fun h => { h with is_active := true } else s.handles).length = s.handles.length := by
    split
    · exact List.length_modify ..
    · rfl
  exact (ordered.modify length).record found goes none _

/-- The key that comes next is drained, or retired. -/
lemma Ordered.leave (single : s.starts + s.live ≤ 1) (found : s.schedulers[j]? = some p) (goes : p ≠ .finished)
    {active : ℕ} (up : s.active_handle = some active) (kept : ∀ k, p' ≠ .provisioning k)
    {retired timedOut : List ℕ}
    (order : retired ++ ((drainingKey p').toList ++ [active]) = List.range s.handles.length) :
    ({ s with retired := retired, timedOut := timedOut }.await j p').Ordered := by
  obtain ⟨none, -, next⟩ := alone single found goes
  obtain ⟨keys, count, all⟩ := next p'
  refine ⟨?_, fun waits => absurd none waits, fun empty => ?_, fun q mem k eq => ?_, ?_⟩
  · show s.starts + _ ≤ 1
    rw [none, Nat.zero_add]
    exact count
  · cases up.symm.trans empty
  · obtain rfl | ended := all q mem
    · exact absurd eq (kept k)
    · cases ended.symm.trans eq
  · show retired ++ (drainingKeys _ ++ s.active_handle.toList) = _
    rw [drainingKeys, Handler.await, keys, up]
    exact order

/-- A turn of `_drain` over the key that comes next. -/
lemma Ordered.drain (single : s.starts + s.live ≤ 1) (found : s.schedulers[j]? = some p) (goes : p ≠ .finished)
    {old_handle active : ℕ} (up : s.active_handle = some active)
    (order : s.retired ++ ([old_handle] ++ [active]) = List.range s.handles.length)
    (new_handle initial_count : ℕ) (deadline now : ℤ) :
    (s.drain j old_handle new_handle initial_count deadline now).Ordered := by
  rw [Handler.drain]
  split
  · exact Ordered.leave single found goes up (fun _ eq => by cases eq) ((List.append_assoc ..).trans order)
  · split
    · exact Ordered.leave single found goes up (fun _ eq => by cases eq) ((List.append_assoc ..).trans order)
    · exact Ordered.leave single found goes up (fun _ eq => by cases eq) order

/-- The cut-over, whose next key is the active one. -/
lemma Ordered.provisioned (ordered : s.Ordered) {old_handle : ℕ}
    (found : s.schedulers[j]? = some (.provisioning old_handle)) (key : Except String NewKey) (now later : ℤ) :
    (s.provisioned config j old_handle key now later).Ordered := by
  cases key with
  | error error => exact ordered.rotationFailed found nofun rfl old_handle error
  | ok key =>
    have up := ordered.rotates _ (List.mem_of_getElem? found) old_handle rfl
    obtain ⟨-, keys, -⟩ := alone ordered.single found nofun
    have order := ordered.order
    rw [up, keys] at order
    have swapped : (s.swap old_handle key).handles.length = s.handles.length + 1 := by
      rw [Handler.swap, List.length_append, List.length_modify]
      rfl
    have next : s.retired ++ ([old_handle] ++ [s.handles.length]) =
        List.range (s.swap old_handle key).handles.length := by
      rw [swapped, List.range_succ, ← order, List.append_assoc]
      rfl
    exact @Ordered.drain (s.swap old_handle key) j _ ordered.single found nofun _ _ rfl next _ _ _ _

/-- The only scheduler is launched. -/
lemma Ordered.launch (ordered : s.Ordered) (none : s.starts = 0) (ended : ∀ p ∈ s.schedulers, p = .finished) :
    s.launch.Ordered := by
  have keys : s.launch.drainingKeys = s.drainingKeys := held_snoc rfl
  refine ⟨?_, ordered.waits, fun empty => ?_, forall_snoc ordered.rotates nofun, ?_⟩
  · have quiet : s.schedulers.countP (fun p => decide (p ≠ .finished)) = 0 :=
      List.countP_eq_zero.2 fun p mem going => of_decide_eq_true going (ended p mem)
    show s.starts + List.countP _ (s.schedulers ++ [.polling]) ≤ 1
    rw [List.countP_append, quiet, none]
    exact Nat.le_refl 1
  · rw [keys]
    exact ordered.empty empty
  · rw [keys]
    exact ordered.order

/-- The first key. -/
lemma Ordered.started (ordered : s.Ordered) (waiting : s.starts ≠ 0) (key : Option NewKey) :
    (s.started key).Ordered := by
  have single := ordered.single
  have absent := ordered.waits waiting
  obtain ⟨handles, retired, keys⟩ := ordered.empty absent
  have none : s.live = 0 := by omega
  cases key with
  | none =>
    refine ⟨?_, fun _ => absent, ordered.empty, ordered.rotates, ordered.order⟩
    show s.starts - 1 + s.live ≤ 1
    omega
  | some key =>
    have ended : ∀ p ∈ s.schedulers, p = .finished := fun p mem => by
      by_contra going
      exact List.countP_eq_zero.1 none p mem (decide_eq_true going)
    refine Ordered.launch ⟨?_, fun some => ?_, nofun, fun p mem k eq => ?_, ?_⟩ ?_ ended
    · show s.starts - 1 + s.live ≤ 1
      omega
    · exact absurd some (by show ¬(s.starts - 1 ≠ 0); omega)
    · cases (ended p mem).symm.trans eq
    · show s.retired ++ (s.drainingKeys ++ [s.handles.length]) = List.range (s.handles ++ [key.handle]).length
      rw [retired, keys, handles]
      rfl
    · show s.starts - 1 = 0
      omega

/-- Each orderly step keeps the order. -/
lemma Ordered.step (ordered : s.Ordered) {e : Event} (orderly : s.Orderly e) {t : Handler}
    (step : Step config s e t) : t.Ordered := by
  have halted : { s with running := false }.Ordered :=
    ⟨ordered.single, ordered.waits, ordered.empty, ordered.rotates, ordered.order⟩
  cases step with
  | start absent =>
    obtain ⟨none, ended⟩ := orderly
    have quiet : s.live = 0 := List.countP_eq_zero.2 fun p mem going => of_decide_eq_true going (ended p mem)
    refine ⟨?_, fun _ => absent, ordered.empty, ordered.rotates, ordered.order⟩
    show s.starts + 1 + s.live ≤ 1
    omega
  | launch => exact ordered.launch orderly.1 orderly.2
  | started key waiting => exact ordered.started waiting key
  | @sign k =>
    have counted := @Ordered.modify s ordered (s.handles.modify k fun h =>
      { h with pending_tx_count := h.pending_tx_count + 1 }) (List.length_modify ..)
    exact ⟨counted.single, counted.waits, counted.empty, counted.rotates, counted.order⟩
  | @signed i k =>
    have counted := @Ordered.modify s ordered (s.release k) (List.length_modify ..)
    exact ⟨counted.single, counted.waits, counted.empty, counted.rotates, counted.order⟩
  | poll found quiet rotates => exact ordered.await found nofun quiet rotates
  | provisioned key now later found => exact ordered.provisioned found key now later
  | drain now found =>
    obtain ⟨-, keys, -⟩ := alone ordered.single found nofun
    have order := ordered.order
    cases up : s.active_handle with
    | none =>
      obtain ⟨-, -, idle⟩ := ordered.empty up
      cases keys.symm.trans idle
    | some active =>
      rw [keys, up] at order
      exact Ordered.drain ordered.single found nofun up order _ _ _ _
  | retired error found =>
    cases error with
    | some error => exact ordered.rotationFailed found nofun rfl _ error
    | none => exact ordered.record found nofun rfl _
  | notified found => exact ordered.await found nofun rfl nofun
  | halt => exact halted
  | @stop j =>
    cases found : s.schedulers[j]? with
    | none =>
      rw [Handler.await, List.set_eq_of_length_le (List.getElem?_eq_none_iff.1 found)]
      exact halted
    | some p =>
      have quiet := orderly p (List.mem_of_getElem? found)
      by_cases goes : p = .finished
      · obtain ⟨pre, post, eq, set⟩ := split_set found
        rw [Handler.await, set, ← goes, ← eq]
        exact halted
      · refine halted.await found goes ?_ nofun
        obtain rfl | rfl | rfl := quiet
        · rfl
        · rfl
        · rfl

end Ordered

section Retired
variable {s t : Handler} {config : Config} {k : ℕ}

end Retired

section Begun
variable {s t : Handler} {config : Config}

/-- A handler that has a key has an active one. -/
def Begun (s : Handler) : Prop := s.handles ≠ [] → s.active_handle ≠ none

/-- Changes that leave the keys and the active one alone, or only update a key. -/
lemma Begun.of_length (begun : s.Begun) (length : t.handles.length = s.handles.length)
    (active : t.active_handle = s.active_handle) : t.Begun := by
  intro has
  rw [active]
  refine begun fun empty => has ?_
  rw [← List.length_eq_zero_iff, length, empty]
  rfl

/-- A turn of the drain changes no key. -/
lemma Begun.drain (begun : s.Begun) (j old_handle new_handle initial_count : ℕ) (deadline now : ℤ) :
    (s.drain j old_handle new_handle initial_count deadline now).Begun := by
  rw [Handler.drain]
  split
  · exact begun.of_length rfl rfl
  · split
    · exact begun.of_length rfl rfl
    · exact begun.of_length rfl rfl

/-- A rotation that failed may make a key active again, and loses none. -/
lemma Begun.rotationFailed (begun : s.Begun) (j old_handle : ℕ) (error : String) :
    (s.rotationFailed config j old_handle error).Begun := by
  refine begun.of_length ?_ rfl
  show (if s.active_handle = some old_handle then _ else s.handles).length = _
  split
  · exact List.length_modify ..
  · rfl

/-- The first key becomes the active one, and from then on one takes the place of the other. -/
lemma Begun.step (begun : s.Begun) {e : Event} (step : Step config s e t) : t.Begun := by
  cases step with
  | started key =>
    cases key with
    | none => exact begun.of_length rfl rfl
    | some key => exact fun _ => Option.some_ne_none _
  | sign => exact begun.of_length (List.length_modify ..) rfl
  | signed => exact begun.of_length (List.length_modify ..) rfl
  | @provisioned j old_handle key =>
    cases key with
    | error error => exact begun.rotationFailed _ _ _
    | ok key =>
      have swapped : (s.swap old_handle key).Begun := fun _ => Option.some_ne_none _
      exact swapped.drain _ _ _ _ _ _
  | drain => exact begun.drain _ _ _ _ _ _
  | retired error =>
    cases error with
    | some error => exact begun.rotationFailed _ _ _
    | none => exact begun.of_length rfl rfl
  | start | launch | poll | notified | halt | stop => exact begun.of_length rfl rfl

end Begun

end Handler

open Handler

end StellarFlow.KeyRotation
