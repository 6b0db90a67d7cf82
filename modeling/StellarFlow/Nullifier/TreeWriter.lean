import StellarFlow.Vault.OperationLock

/-!
# Writes to the nullifier tree

Model of `NullifierTreeLock` in `app/services/nullifier_lock.py` and of `NullifierTreeWriter.write_atomically` in
`app/services/nullifier_tree_writer.py` for one tree: any number of calls over one Redis. The SET, the release script,
the start and the end of a transaction are steps of their own. A call is known by its number, which stands for its
random token. Times are in milliseconds of one clock.

Nothing renews the lease while a write operation runs: `writes_exclusive_iff` says that the writes of a run are
serialised exactly when none starts beside one, either of them past its lease.
-/

open Machine

namespace StellarFlow.Nullifier
open Lease
open Vault (Outcome)

structure NullifierLockSettings where
  leaseMs : ℕ := 15000
  waitTimeoutMs : ℕ := 2000
  retryIntervalMs : ℕ := 50
  leasePos : 0 < leaseMs := by decide

/-- Where a call of `write_atomically` stands: before it, at the test of the loop in `acquire`, before the SET, in the
sleep, past `acquire` with the time of its SET, in its transaction, before the release script, or after it. -/
inductive Phase where
  | idle
  | trying (deadline : ℚ)
  | setting (deadline : ℚ)
  | sleeping (deadline wakeTime : ℚ)
  | acquired (since : ℚ)
  | writing (since : ℚ)
  | releasing
  | finished
  deriving DecidableEq

/-- The time, the key of the tree, and the calls. -/
structure System where
  now : ℚ
  key : Option (Key ℚ ℕ)
  calls : ℕ → Phase

/-- Time passes, or a call goes on: `begin` enters the transaction or fails, `finish` commits it or rolls it back. -/
inductive Move where
  | wait (delay : ℚ)
  | writeAtomically (call : ℕ)
  | test (call : ℕ)
  | set (call : ℕ) (outcome : Outcome)
  | wake (call : ℕ)
  | begin (call : ℕ) (entered : Bool)
  | finish (call : ℕ)
  | release (call : ℕ) (outcome : Outcome)
  | crash (call : ℕ)

/-- The call that moves. -/
def Move.call : Move → Option ℕ
  | .wait _ => none
  | .writeAtomically call => some call
  | .test call => some call
  | .set call _ => some call
  | .wake call => some call
  | .begin call _ => some call
  | .finish call => some call
  | .release call _ => some call
  | .crash call => some call

namespace System
variable (settings : NullifierLockSettings) (s : System)

def setPhase (call : ℕ) (phase : Phase) : System := { s with calls := Function.update s.calls call phase }

/-- `client.set(self.key, token, nx=True, px=self.settings.lease_ms)`. -/
def setResult (call : ℕ) : Bool × Option (Key ℚ ℕ) := setNx s.now (s.now + settings.leaseMs) call s.key

/-- The key after a command, which took effect or did not. -/
def keyAfter (outcome : Outcome) (key : Option (Key ℚ ℕ)) : Option (Key ℚ ℕ) :=
  if outcome.tookEffect then key else s.key

/-- `acquire` after the SET. -/
def afterSet (deadline : ℚ) (outcome : Outcome) (acquired : Bool) : Phase :=
  match outcome with
  | .raised _ => .finished
  | .answered => if acquired then .acquired s.now else .sleeping deadline (s.now + settings.retryIntervalMs)

def step : Move → Option System
  | .wait delay => if 0 ≤ delay then some { s with now := s.now + delay } else none
  | .writeAtomically call =>
    match s.calls call with
    | .idle => some (s.setPhase call (.trying (s.now + settings.waitTimeoutMs)))
    | _ => none
  | .test call =>
    match s.calls call with
    | .trying deadline => some (s.setPhase call (if s.now < deadline then .setting deadline else .finished))
    | _ => none
  | .set call outcome =>
    match s.calls call with
    | .setting deadline =>
      let (acquired, key) := s.setResult settings call
      some ({ s with key := s.keyAfter outcome key }.setPhase call (s.afterSet settings deadline outcome acquired))
    | _ => none
  | .wake call =>
    match s.calls call with
    | .sleeping deadline wakeTime => if wakeTime ≤ s.now then some (s.setPhase call (.trying deadline)) else none
    | _ => none
  | .begin call entered =>
    match s.calls call with
    | .acquired since => some (s.setPhase call (if entered then .writing since else .releasing))
    | _ => none
  | .finish call =>
    match s.calls call with
    | .writing _ => some (s.setPhase call .releasing)
    | _ => none
  | .release call outcome =>
    match s.calls call with
    | .releasing =>
      some ({ s with key := s.keyAfter outcome (deleteOwn s.now call s.key) }.setPhase call .finished)
    | _ => none
  | .crash call => some (s.setPhase call .finished)

/-- No calls yet, and any key. -/
def initial (now : ℚ) (key : Option (Key ℚ ℕ)) : System := ⟨now, key, fun _ => .idle⟩

/-- A write operation of the call is running, its lock set at this time. -/
def Writes (call : ℕ) (since : ℚ) : Prop := s.calls call = .writing since

/-- At most one write operation is running. -/
def IsSerialised : Prop := ∀ i j since since', s.Writes i since → s.Writes j since' → i = j

/-- No step of a call touches a key that exists and has the token of another call. -/
def IsRespectful : Prop :=
  ∀ m call t, m.call = some call → s.step settings m = some t →
    ∀ key, live s.now s.key = some key → key.holder ≠ call → live t.now t.key = some key

/-- A write that starts beside another one: both are within their leases. -/
def Timely : Move → Prop
  | .begin call true =>
    ∀ other since since', other ≠ call → s.calls call = .acquired since → s.Writes other since' →
      s.now < since + settings.leaseMs ∧ s.now < since' + settings.leaseMs
  | _ => True

/-- What a call has after its SET: the key, for the lease. -/
def Keeps (call : ℕ) : Phase → Prop
  | .acquired since => Holds s.now (since + settings.leaseMs) call s.key
  | .writing since => Holds s.now (since + settings.leaseMs) call s.key
  | _ => True

def Sound : Prop := ∀ call, s.Keeps settings call (s.calls call)

end System

/-- The moves of the system, case by case. -/
inductive Step (settings : NullifierLockSettings) (s : System) : Move → System → Prop where
  | wait {delay : ℚ} (later : 0 ≤ delay) : Step settings s (.wait delay) { s with now := s.now + delay }
  | writeAtomically {call : ℕ} {deadline : ℚ} :
      Step settings s (.writeAtomically call) (s.setPhase call (.trying deadline))
  | test {call : ℕ} {deadline : ℚ} : Step settings s (.test call) (s.setPhase call (.setting deadline))
  | timeout {call : ℕ} : Step settings s (.test call) (s.setPhase call .finished)
  | set {call : ℕ} {deadline : ℚ} (outcome : Outcome) :
      Step settings s (.set call outcome)
        ({ s with key := s.keyAfter outcome (s.setResult settings call).2 }.setPhase call
          (s.afterSet settings deadline outcome (s.setResult settings call).1))
  | wake {call : ℕ} {deadline : ℚ} : Step settings s (.wake call) (s.setPhase call (.trying deadline))
  | begin {call : ℕ} {since : ℚ} (acquired : s.calls call = .acquired since) :
      Step settings s (.begin call true) (s.setPhase call (.writing since))
  | refused {call : ℕ} : Step settings s (.begin call false) (s.setPhase call .releasing)
  | finish {call : ℕ} : Step settings s (.finish call) (s.setPhase call .releasing)
  | release {call : ℕ} (outcome : Outcome) :
      Step settings s (.release call outcome)
        ({ s with key := s.keyAfter outcome (deleteOwn s.now call s.key) }.setPhase call .finished)
  | crash {call : ℕ} : Step settings s (.crash call) (s.setPhase call .finished)

variable {settings : NullifierLockSettings} {s t : System} {m : Move}

/-- Each step of the model is one of those named. -/
lemma step_cases (taken : s.step settings m = some t) : Step settings s m t := by
  cases m with
  | wait delay =>
    rw [System.step] at taken
    split at taken
    case isTrue later => cases taken; exact .wait later
    case isFalse => cases taken
  | writeAtomically call =>
    rw [System.step] at taken
    split at taken
    case h_1 => cases taken; exact .writeAtomically
    case h_2 => cases taken
  | test call =>
    rw [System.step] at taken
    split at taken
    case h_1 =>
      cases taken
      split
      case isTrue => exact .test
      case isFalse => exact .timeout
    case h_2 => cases taken
  | set call outcome =>
    rw [System.step] at taken
    split at taken
    case h_1 => cases taken; exact .set outcome
    case h_2 => cases taken
  | wake call =>
    rw [System.step] at taken
    split at taken
    case h_1 =>
      split at taken
      case isTrue => cases taken; exact .wake
      case isFalse => cases taken
    case h_2 => cases taken
  | begin call entered =>
    rw [System.step] at taken
    split at taken
    case h_1 acquired =>
      cases taken
      cases entered with
      | true => exact .begin acquired
      | false => exact .refused
    case h_2 => cases taken
  | finish call =>
    rw [System.step] at taken
    split at taken
    case h_1 => cases taken; exact .finish
    case h_2 => cases taken
  | release call outcome =>
    rw [System.step] at taken
    split at taken
    case h_1 => cases taken; exact .release outcome
    case h_2 => cases taken
  | crash call =>
    cases taken
    exact .crash

namespace System
variable {call other : ℕ} {phase : Phase} {since bound : ℚ} {outcome : Outcome} {key : Option (Key ℚ ℕ)}

/-- A phase is set for one call. -/
lemma calls_setPhase : (s.setPhase call phase).calls other = if other = call then phase else s.calls other :=
  Function.update_apply ..

/-- A key that changes so that a call's key is left alone. -/
lemma holds_keyAfter (change : Holds s.now bound other s.key → Holds s.now bound other key)
    (held : Holds s.now bound other s.key) : Holds s.now bound other (s.keyAfter outcome key) := by
  rw [keyAfter]
  split
  · exact change held
  · exact held

/-- A call moves, and what the others hold they hold on. -/
lemma sound_setPhase (sound : s.Sound settings) (calls : t.calls = s.calls)
    (holds : ∀ other ≠ call, ∀ bound, Holds s.now bound other s.key → Holds t.now bound other t.key)
    (own : t.Keeps settings call phase) : (t.setPhase call phase).Sound settings := by
  intro other
  rw [calls_setPhase]
  split
  case isTrue same =>
    rw [same]
    cases phase <;> exact own
  case isFalse ne =>
    rw [calls]
    have keeps := sound other
    cases at_ : s.calls other with
    | acquired since =>
      rw [at_] at keeps
      exact holds other ne _ keeps
    | writing since =>
      rw [at_] at keeps
      exact holds other ne _ keeps
    | _ => trivial

/-- A phase that holds nothing. -/
lemma sound_drop (sound : s.Sound settings) (nothing : s.Keeps settings call phase) :
    (s.setPhase call phase).Sound settings :=
  sound_setPhase sound rfl (fun _ _ _ held => held) nothing

/-- Each step keeps soundness. -/
lemma sound_step (sound : s.Sound settings) (step : Step settings s m t) : t.Sound settings := by
  cases step with
  | wait later =>
    intro call
    have keeps := sound call
    show System.Keeps settings _ call (s.calls call)
    cases at_ : s.calls call with
    | acquired since =>
      rw [at_] at keeps
      exact Holds.mono keeps (le_add_of_nonneg_right later)
    | writing since =>
      rw [at_] at keeps
      exact Holds.mono keeps (le_add_of_nonneg_right later)
    | _ => trivial
  | @set call deadline outcome =>
    refine sound_setPhase sound rfl (fun other _ bound => holds_keyAfter fun held => held.setNx) ?_
    cases outcome with
    | raised tookEffect => trivial
    | answered =>
      rw [afterSet]
      split
      case isTrue acquired => exact holds_of_setNx acquired le_rfl
      case isFalse => trivial
  | @begin call since acquired =>
    have keeps := sound call
    rw [acquired] at keeps
    exact sound_drop sound keeps
  | release outcome =>
    exact sound_setPhase sound rfl (fun other ne bound => holds_keyAfter fun held => held.deleteOwn ne) trivial
  | _ => exact sound_drop sound trivial

/-- A step that starts no write. -/
lemma writes_of_setPhase (none : ∀ since, phase ≠ .writing since) (calls : t.calls = s.calls)
    (writes : (t.setPhase call phase).Writes other since) : s.Writes other since := by
  rw [Writes, calls_setPhase] at writes
  split at writes
  · exact absurd writes (none since)
  · rw [Writes, ← calls, writes]

/-- A call that does not write leaves the writes apart. -/
lemma isSerialised_of_setPhase (serialised : s.IsSerialised) (none : ∀ since, phase ≠ .writing since)
    (calls : t.calls = s.calls) : (t.setPhase call phase).IsSerialised :=
  fun i j _ _ first second =>
    serialised i j _ _ (writes_of_setPhase none calls first) (writes_of_setPhase none calls second)

/-- A write that starts is alone exactly when it starts beside none outside the leases. -/
lemma isSerialised_begin_iff (sound : s.Sound settings) (acquired : s.calls call = .acquired since) :
    (s.setPhase call (.writing since)).IsSerialised ↔ s.Timely settings (.begin call true) := by
  have own : (s.setPhase call (.writing since)).Writes call since := by
    rw [Writes, calls_setPhase, if_pos rfl]
  constructor
  · intro serialised other _ since' ne _ writes
    refine absurd (serialised other call since' since ?_ own) ne
    rw [Writes, calls_setPhase, if_neg ne]
    exact writes
  · intro timely
    -- two calls within their leases would both have the key
    have alone : ∀ other since', other ≠ call → ¬s.Writes other since' := by
      intro other since' ne writes
      obtain ⟨early, early'⟩ := timely other since since' ne acquired writes
      have keeps := sound call
      have keeps' := sound other
      rw [acquired] at keeps
      rw [writes] at keeps'
      exact ne (Holds.unique keeps keeps' early early').symm
    have only : ∀ other since', (s.setPhase call (.writing since)).Writes other since' → other = call := by
      intro other since' writes
      by_contra ne
      rw [Writes, calls_setPhase, if_neg ne] at writes
      exact alone other since' ne writes
    exact fun i j _ _ first second => (only i _ first).trans (only j _ second).symm

/-- A step keeps the writes apart just where it is timely. -/
lemma isSerialised_step_iff (sound : s.Sound settings) (serialised : s.IsSerialised) (step : Step settings s m t) :
    t.IsSerialised ↔ s.Timely settings m := by
  cases step with
  | begin acquired => exact isSerialised_begin_iff sound acquired
  | wait => exact iff_of_true serialised trivial
  | @set call deadline outcome =>
    refine iff_of_true (isSerialised_of_setPhase serialised (fun since => ?_) rfl) trivial
    cases outcome with
    | raised tookEffect => simp [afterSet]
    | answered =>
      rw [afterSet]
      split <;> simp
  | _ => exact iff_of_true (isSerialised_of_setPhase serialised (by simp) rfl) trivial

/-- A command leaves a key that exists where it would leave it. -/
lemma live_keyAfter {found : Key ℚ ℕ} (there : live s.now s.key = some found) (same : key = s.key) :
    live s.now (s.keyAfter outcome key) = some found := by
  rw [keyAfter, same, ite_self, there]

/-- The service respects the lock. -/
lemma respectful (s : System) : s.IsRespectful settings := by
  intro m call t mover taken key there foreign
  cases step_cases taken with
  | wait => cases mover
  | set outcome =>
    cases mover
    exact live_keyAfter there (by rw [setResult, setNx_of_live there])
  | release outcome =>
    cases mover
    exact live_keyAfter there (deleteOwn_of_live there foreign)
  | _ => exact there

/-- The writes of a run are serialised exactly when none starts beside another one, either of them past its lease; and
in every run no call touches the lock of another. -/
theorem writes_exclusive_iff (settings : NullifierLockSettings) (now : ℚ) (key : Option (Key ℚ ℕ)) {trace : List Move}
    {last : System} (run : exec (step settings) (initial now key) trace = some last) :
    (Always (step settings) IsSerialised (initial now key) trace ↔
        Guarded (step settings) (Timely settings) (initial now key) trace) ∧
      Always (step settings) (IsRespectful settings) (initial now key) trace := by
  constructor
  · refine always_iff_guarded (I := Sound settings) (fun call => show Keeps settings _ call .idle from trivial) ?_
      (fun _ _ _ sound _ taken => sound_step sound (step_cases taken))
      (fun _ _ _ sound serialised taken => isSerialised_step_iff sound serialised (step_cases taken)) run
    intro i j since since' writes
    cases writes
  · exact fun pre s _ _ => respectful s

/-- The steps of a call up to its transaction. -/
def startWrite (call : ℕ) : List Move := [.writeAtomically call, .test call, .set call .answered, .begin call true]

def overlappingTrace : List Move := startWrite 0 ++ [.wait 15000] ++ startWrite 1

/-- Two calls write at the same time. -/
lemma overlappingTrace_writes :
    ∃ s, exec (step {}) (initial 0 none) overlappingTrace = some s ∧ s.Writes 0 0 ∧ s.Writes 1 15000 := by
  have phases : (exec (step {}) (initial 0 none) overlappingTrace).map (fun s => (s.calls 0, s.calls 1)) =
      some (.writing 0, .writing 15000) := by decide +kernel
  obtain ⟨s, run, both⟩ := Option.map_eq_some_iff.1 phases
  exact ⟨s, run, Prod.mk.inj both⟩

/-- The first write takes longer than its lease, and the second starts. -/
theorem overlapping_run :
    ∃ s, exec (step {}) (initial 0 none) overlappingTrace = some s ∧ ¬s.IsSerialised := by
  obtain ⟨s, run, first, second⟩ := overlappingTrace_writes
  exact ⟨s, run, fun serialised => absurd (serialised 0 1 0 15000 first second) (by decide)⟩

/-- The second of these writes does not start in time. -/
theorem writes_exclusive_overlapping :
    ¬Guarded (step {}) (Timely {}) (initial 0 none) overlappingTrace := by
  obtain ⟨s, run, first, second⟩ := overlappingTrace_writes
  intro timely
  have serialised := (writes_exclusive_iff {} 0 none run).1.2 timely overlappingTrace s (List.prefix_refl _) run
  exact absurd (serialised 0 1 0 15000 first second) (by decide)

end System

end StellarFlow.Nullifier
