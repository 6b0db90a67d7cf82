import StellarFlow.Lib.AtomicFile
import StellarFlow.Lib.Machine
import StellarFlow.Lib.PyJson

/-!
# The register of worker flags

Model of `StateRegister` in `src/utils/state.py` where `fcntl` is there: calls of any processes and threads, the file
they share and the lock on the file beside it. A call may raise, its process may be killed between any two system calls,
and the power may fail.

The register that is meant performs the calls one after the other (`replay`); `log` has them in the order in which they
took effect. Keys are sequences of characters, and a file that was not written by the register is left out.
-/

open AtomicFile Machine

namespace StellarFlow.StateRegister

abbrev Flags := Dict String Bool

/-- The functions that run under the lock; `release` is `deactivate`, and `guard` calls `activate` and `deactivate`. -/
inductive Command where
  | init_file
  | is_active (key : String)
  | activate (key : String)
  | try_acquire (key : String)
  | deactivate (key : String)
  | clear (key : String)
  | snapshot
  deriving DecidableEq

/-- What a call returns. -/
inductive Answer where
  | nothing
  | flag (b : Bool)
  | flags (flags : Flags)

/-- `flags.get(key, False)`. -/
def is_set (flags : Flags) (key : String) : Bool := (flags.get? key).getD false

/-- What a function does with the flags it has loaded: the flags that it writes, if it does, and its result.
`_init_file` does not load them. -/
def body : Command → Flags → Option Flags × Answer
  | .init_file, _ => (none, .nothing)
  | .is_active key, flags => (none, .flag (is_set flags key))
  | .activate key, flags => (some (flags.set key true), .nothing)
  | .try_acquire key, flags =>
    if is_set flags key then (none, .flag false) else (some (flags.set key true), .flag true)
  | .deactivate key, flags => (some (flags.set key false), .nothing)
  | .clear key, flags => (some (flags.pop key), .nothing)
  | .snapshot, flags => (none, .flags flags)

/-- `json.dump`. -/
def dumps (flags : Flags) : List Char := PyJson.dumps flags.entries

/-- The flags of a JSON object. -/
def ofFields (fields : List (String × Js.Value)) : Flags :=
  (fields.filterMap fun f => match f.2 with
    | .bool b => some (f.1, b)
    | _ => none).foldl (fun flags f => flags.set f.1 f.2) Dict.empty

/-- `_load_state_unsafe`, where the file can be read. -/
def load : Option (List Char) → Flags
  | none => Dict.empty
  | some text =>
    if Json.skip text = [] then Dict.empty
    else match Json.parse (String.ofList text) with
      | some (.object fields) => ofFields fields
      | _ => Dict.empty

/-- A call that took effect: `readable` says whether it could read the file. -/
structure Entry where
  call : ℕ
  command : Command
  readable : Bool
  answer : Answer

/-- A call on the register that is meant; one that could not read the file takes it for empty. -/
def Entry.apply (e : Entry) (flags : Flags) : Flags × Answer :=
  match body e.command (if e.readable then flags else Dict.empty) with
  | (none, answer) => (flags, answer)
  | (some written, answer) => (written, answer)

/-- The calls one after the other. -/
def replay (log : List Entry) : Flags := log.foldl (fun flags e => (e.apply flags).1) Dict.empty

/-- Every call has got the result that it has at its place. -/
def Answered (log : List Entry) : Prop :=
  ∀ before e after, log = before ++ e :: after → (e.apply (replay before)).2 = e.answer

/-- What a call is going to write, to which file, and what it will return. -/
structure Update where
  file : ℕ
  flags : Flags
  readable : Bool
  answer : Answer

/-- How far a call is: before the lock, under the lock, with the temporary file that `rest` is not yet in, with the file
synced, on its way out, or at its end. -/
inductive Phase where
  | waiting
  | locked
  | writing (update : Update) (rest : List Char)
  | synced (update : Update)
  | leaving (answer : Answer)
  | returned (answer : Answer)
  | raised
  | dead

structure Call where
  command : Command
  phase : Phase

/-- The file, with the log at the time of each replacement; the lock; the calls; and the log. -/
structure Register where
  volume : Volume Char (List Entry)
  lock : Option ℕ
  calls : List Call
  log : List Entry

/-- What happens. -/
inductive Event where
  | call (command : Command)
  | lock (i : ℕ)
  | load (i : ℕ) (readable : Bool)
  | write (i : ℕ) (n : ℕ)
  | sync (i : ℕ)
  | replace (i : ℕ)
  | unlock (i : ℕ)
  | fail (i : ℕ)
  | kill (i : ℕ)
  | commit
  | powerLoss (pick : ℕ) (lost : ℕ → List Char)

namespace Register

/-- An empty directory. -/
def new : Register where
  volume := ⟨[], ⟨none, []⟩, []⟩
  lock := none
  calls := []
  log := []

/-- A call goes on. -/
def setPhase (s : Register) (i : ℕ) (phase : Phase) : Register :=
  { s with calls := s.calls.modify i fun call => { call with phase } }

/-- A call that has nothing to write takes effect. -/
def answer (s : Register) (i : ℕ) (e : Entry) : Register :=
  { s with log := s.log ++ [e] }.setPhase i (.leaving e.answer)

/-- `_write_state_unsafe`, up to `mkstemp`. -/
def begin (s : Register) (i : ℕ) (flags : Flags) (readable : Bool) (answer : Answer) : Register :=
  { s with volume := s.volume.create }.setPhase i
    (.writing ⟨s.volume.files.length, flags, readable, answer⟩ (dumps flags))

/-- What a call does once it has the lock. Of a file it may not stat, `os.path.exists` says `False` to `_init_file`,
which then writes the empty register over it; this is left out. -/
def loaded (s : Register) (i : ℕ) (command : Command) (readable : Bool) : Register :=
  if command = .init_file then
    if s.volume.current.file.isSome then s.answer i ⟨i, command, true, .nothing⟩ else s.begin i Dict.empty true .nothing
  else
    match body command (if readable then load s.volume.read else Dict.empty) with
    | (none, answer) => s.answer i ⟨i, command, readable, answer⟩
    | (some flags, answer) => s.begin i flags readable answer

/-- The file takes the place of the old one. -/
def replaced (s : Register) (i : ℕ) (command : Command) (u : Update) : Register :=
  let log := s.log ++ [⟨i, command, u.readable, u.answer⟩]
  { s with volume := s.volume.replace u.file log, log }.setPhase i (.leaving u.answer)

/-- The lock is given up, by the call or because its file is closed. -/
def unlock (s : Register) (i : ℕ) : Register := if s.lock = some i then { s with lock := none } else s

/-- One step; `none` is one that cannot happen. -/
def step (s : Register) : Event → Option Register
  | .call command => some { s with calls := s.calls ++ [⟨command, .waiting⟩] }
  | .lock i =>
    match s.calls[i]?, s.lock with
    | some ⟨_, .waiting⟩, none => some ({ s with lock := some i }.setPhase i .locked)
    | _, _ => none
  | .load i readable =>
    match s.calls[i]? with
    | some ⟨command, .locked⟩ => some (s.loaded i command readable)
    | _ => none
  | .write i n =>
    match s.calls[i]? with
    | some ⟨_, .writing u rest⟩ =>
      some ({ s with volume := s.volume.write u.file (rest.take n) }.setPhase i (.writing u (rest.drop n)))
    | _ => none
  | .sync i =>
    match s.calls[i]? with
    | some ⟨_, .writing u []⟩ => some ({ s with volume := s.volume.sync u.file }.setPhase i (.synced u))
    | _ => none
  | .replace i =>
    match s.calls[i]? with
    | some ⟨command, .synced u⟩ => some (s.replaced i command u)
    | _ => none
  | .unlock i =>
    match s.calls[i]? with
    | some ⟨_, .leaving answer⟩ => some ((s.unlock i).setPhase i (.returned answer))
    | _ => none
  | .fail i =>
    match s.calls[i]? with
    | some ⟨_, .waiting⟩ | some ⟨_, .locked⟩ | some ⟨_, .writing _ _⟩ | some ⟨_, .synced _⟩ =>
      some ((s.unlock i).setPhase i .raised)
    | _ => none
  | .kill i => some ((s.unlock i).setPhase i .dead)
  | .commit => some { s with volume := s.volume.commit }
  | .powerLoss pick lost =>
    some {
      volume := s.volume.powerLoss pick lost
      lock := none
      calls := s.calls.map fun call => { call with phase := .dead }
      log := (s.volume.powerLoss pick lost).current.note }

end Register

/-! ### The text of the flags -/

/-- What is dumped is loaded. -/
lemma load_dumps (flags : Flags) : load (some (dumps flags)) = flags := by
  have ink : Json.skip (dumps flags) ≠ [] := by
    rw [dumps, PyJson.dumps, Json.skip_cons (by decide)]
    exact List.cons_ne_nil _ _
  have parsed := PyJson.parse_dumps flags.nodup
  have fields : (flags.entries.map fun f => (f.1, Js.Value.bool f.2)).filterMap (fun f => match f.2 with
      | .bool b => some (f.1, b)
      | _ => none) = flags.entries := by
    rw [List.filterMap_map]
    exact List.filterMap_some
  have same : (ofFields (flags.entries.map fun f => (f.1, Js.Value.bool f.2))).entries = flags.entries := by
    rw [ofFields, fields]
    exact @Dict.entries_foldl_set _ _ _ Dict.empty _ flags.nodup
  rw [load, if_neg ink, dumps, parsed]
  cases flags with
  | mk entries nodup =>
    show ofFields _ = _
    cases read : ofFields (entries.map fun f => (f.1, Js.Value.bool f.2)) with
    | mk entries' nodup' =>
      rw [read] at same
      cases same
      rfl

/-- The contents of a file that has the flags; there is none where nothing was written. -/
def Matches (flags : Flags) (text : Option (List Char)) : Prop :=
  text = some (dumps flags) ∨ text = none ∧ flags = Dict.empty

/-- A file that matches is loaded as its flags. -/
lemma Matches.load {flags : Flags} {text : Option (List Char)} (same : Matches flags text) : load text = flags := by
  obtain rfl | ⟨rfl, rfl⟩ := same
  · exact load_dumps flags
  · rfl

/-- The replay of one more call. -/
lemma replay_snoc (log : List Entry) (e : Entry) : replay (log ++ [e]) = (e.apply (replay log)).1 :=
  List.foldl_concat ..

/-- One more call has to be answered as it was. -/
lemma Answered.snoc {log : List Entry} (answered : Answered log) {e : Entry}
    (last : (e.apply (replay log)).2 = e.answer) : Answered (log ++ [e]) := by
  intro before x after eq
  rcases List.eq_nil_or_concat after with rfl | ⟨after, y, rfl⟩
  · obtain ⟨rfl, same⟩ := List.append_inj' eq rfl
    cases same
    exact last
  · rw [List.concat_eq_append, ← List.cons_append, ← List.append_assoc] at eq
    obtain ⟨rfl, -⟩ := List.append_inj' eq rfl
    exact answered before x after rfl

/-- The calls before were answered as they were. -/
lemma Answered.of_prefix {log log' : List Entry} (answered : Answered log) (le : log' <+: log) : Answered log' := by
  obtain ⟨rest, rfl⟩ := le
  intro before e after eq
  exact answered before e (after ++ rest) (by rw [eq, List.append_assoc]; rfl)

/-! ### The invariant -/

namespace Register

/-- The call took effect, with the result. -/
def Logged (s : Register) (i : ℕ) (command : Command) (answer : Answer) : Prop :=
  ∃ e ∈ s.log, e.call = i ∧ e.command = command ∧ e.answer = answer

/-- The call did not take effect. -/
def Unlogged (s : Register) (i : ℕ) : Prop := ∀ e ∈ s.log, e.call ≠ i

/-- What a call is going to write is what comes of the flags that are in the file. -/
def Ready (s : Register) (i : ℕ) (command : Command) (u : Update) : Prop :=
  s.volume.Free u.file ∧ Entry.apply ⟨i, command, u.readable, u.answer⟩ (replay s.log) = (u.flags, u.answer)

/-- What holds of a call between its steps. -/
def Fine (s : Register) (i : ℕ) (command : Command) : Phase → Prop
  | .waiting | .raised => s.Unlogged i
  | .locked => s.lock = some i ∧ s.Unlogged i
  | .writing u rest => (s.lock = some i ∧ s.Unlogged i) ∧ s.Ready i command u ∧
      ∃ text synced, s.volume.files[u.file]? = some ⟨text, synced⟩ ∧ text ++ rest = dumps u.flags
  | .synced u => (s.lock = some i ∧ s.Unlogged i) ∧ s.Ready i command u ∧
      s.volume.files[u.file]? = some ⟨dumps u.flags, true⟩
  | .leaving answer => s.lock = some i ∧ s.Logged i command answer
  | .returned answer => s.Logged i command answer
  | .dead => True

/-- The invariant: whatever entry there is after a power loss, its file has the flags of a prefix of the log; the call
that has the lock writes what comes of the whole log. -/
structure Sound (s : Register) : Prop where
  solid : s.volume.Solid fun note text => Matches (replay note) text
  notes : ∀ link ∈ s.volume.links, link.note <+: s.log
  current : replay s.log = replay s.volume.current.note
  answered : Answered s.log
  distinct : (s.log.map Entry.call).Nodup
  known : ∀ e ∈ s.log, e.call < s.calls.length
  fine : ∀ i command phase, s.calls[i]? = some ⟨command, phase⟩ → s.Fine i command phase

section Steps
variable {s t : Register} {i j : ℕ} {command : Command} {phase : Phase}

/-- A phase is set for one call. -/
lemma getElem?_setPhase (s : Register) (i j : ℕ) (phase : Phase) :
    (s.setPhase i phase).calls[j]? =
      s.calls[j]?.map fun call => if i = j then { call with phase } else call := by
  rw [setPhase, List.getElem?_modify]
  rfl

/-- A new register is sound. -/
lemma Sound.new : Sound Register.new := by
  refine ⟨fun link mem => ?_, fun link mem => ?_, rfl, fun before e after eq => ?_, List.nodup_nil, nofun,
    fun i c p found => ?_⟩
  · rw [List.mem_singleton.1 mem]
    exact .inl ⟨rfl, .inr ⟨rfl, rfl⟩⟩
  · rw [List.mem_singleton.1 mem]
    exact List.nil_prefix
  · exact absurd eq.symm (List.append_ne_nil_of_right_ne_nil before (List.cons_ne_nil e after))
  · cases found

/-- The file has the flags of the log. -/
lemma Sound.matches (sound : s.Sound) : Matches (replay s.log) s.volume.read := by
  rw [sound.current]
  exact sound.solid.read

/-- A call goes on, and nothing else happens. -/
lemma Sound.move (sound : s.Sound) (found : ∀ c p, s.calls[i]? = some ⟨c, p⟩ → s.Fine i c phase) :
    (s.setPhase i phase).Sound := by
  have length : (s.setPhase i phase).calls.length = s.calls.length := List.length_modify ..
  refine ⟨sound.solid, sound.notes, sound.current, sound.answered, sound.distinct,
    fun e mem => (sound.known e mem).trans_eq length.symm, fun j c p at_j => ?_⟩
  rw [getElem?_setPhase] at at_j
  obtain ⟨⟨c', p'⟩, was, eq⟩ := Option.map_eq_some_iff.1 at_j
  split at eq
  case isTrue same =>
    cases same
    cases eq
    exact found _ _ was
  case isFalse =>
    cases eq
    exact sound.fine j c p was

/-- The calls that do not have the lock do not see what the one that has it does. -/
lemma Fine.other (fine : s.Fine j command phase) (apart : i ≠ j) (owner : s.lock ≠ some j)
    (log : t.log = s.log ∨ ∃ e : Entry, e.call = i ∧ t.log = s.log ++ [e]) : t.Fine j command phase := by
  have unlogged : s.Unlogged j → t.Unlogged j := fun none e mem => by
    obtain same | ⟨x, here, more⟩ := log
    · exact none e (same ▸ mem)
    · rw [more] at mem
      rcases List.mem_append.1 mem with old | new
      · exact none e old
      · rw [List.mem_singleton.1 new, here]
        exact apart
  have logged : ∀ a, s.Logged j command a → t.Logged j command a := by
    rintro a ⟨e, mem, holds⟩
    obtain same | ⟨x, -, more⟩ := log
    · exact ⟨e, same ▸ mem, holds⟩
    · exact ⟨e, more ▸ List.mem_append_left _ mem, holds⟩
  cases phase with
  | waiting => exact unlogged fine
  | raised => exact unlogged fine
  | locked => exact absurd fine.1 owner
  | writing u rest => exact absurd fine.1.1 owner
  | synced u => exact absurd fine.1.1 owner
  | leaving a => exact absurd fine.1 owner
  | returned a => exact logged a fine
  | dead => trivial

/-- A step of the call that has the lock, or takes it. -/
lemma Sound.own (sound : s.Sound) (owner : s.lock = none ∨ s.lock = some i) (calls : t.calls = s.calls)
    (solid : t.volume.Solid fun note text => Matches (replay note) text)
    (notes : ∀ link ∈ t.volume.links, link.note <+: t.log) (current : replay t.log = replay t.volume.current.note)
    (log : t.log = s.log ∨ ∃ e : Entry, e.call = i ∧ t.log = s.log ++ [e] ∧ (i < s.calls.length ∧ s.Unlogged i) ∧
      (e.apply (replay s.log)).2 = e.answer)
    (fine : ∀ c p, s.calls[i]? = some ⟨c, p⟩ → t.Fine i c phase) : (t.setPhase i phase).Sound := by
  have length : (t.setPhase i phase).calls.length = s.calls.length := by
    rw [setPhase, calls]
    exact List.length_modify ..
  refine ⟨solid, notes, current, ?_, ?_, fun e mem => ?_, fun j c p at_j => ?_⟩
  · obtain same | ⟨e, -, more, -, last⟩ := log
    · exact same ▸ sound.answered
    · show Answered t.log
      rw [more]
      exact sound.answered.snoc last
  · obtain same | ⟨e, here, more, ⟨-, none⟩, -⟩ := log
    · exact same ▸ sound.distinct
    · show (t.log.map Entry.call).Nodup
      rw [more, List.map_append, List.map_singleton, ← List.concat_eq_append, List.nodup_concat]
      refine ⟨fun mem => ?_, sound.distinct⟩
      obtain ⟨x, old, same⟩ := List.mem_map.1 mem
      exact none x old (same.trans here)
  · rw [length]
    obtain same | ⟨x, here, more, ⟨lt, -⟩, -⟩ := log
    · exact sound.known e (same ▸ mem)
    · rcases List.mem_append.1 (more ▸ mem : e ∈ s.log ++ [x]) with old | new
      · exact sound.known e old
      · rw [List.mem_singleton.1 new, here]
        exact lt
  · rw [getElem?_setPhase, calls] at at_j
    obtain ⟨⟨c', p'⟩, was, eq⟩ := Option.map_eq_some_iff.1 at_j
    split at eq
    case isTrue same =>
      cases same
      cases eq
      exact fine _ _ was
    case isFalse apart =>
      cases eq
      have free : s.lock ≠ some j := by
        rcases owner with none | some
        · rw [none]
          nofun
        · rw [some]
          exact fun same => apart (Option.some.inj same)
      exact Fine.other (sound.fine j c p was) apart free (log.imp id fun ⟨e, here, more, _⟩ => ⟨e, here, more⟩)

/-- The lock is given up by a call that is through, or does not have it. -/
lemma Sound.release (sound : s.Sound)
    (found : ∀ c p, s.calls[i]? = some ⟨c, p⟩ → { s with lock := none }.Fine i c phase)
    (kept : ∀ c, { s with lock := none }.Fine i c phase → s.Fine i c phase) :
    ((s.unlock i).setPhase i phase).Sound := by
  rw [unlock]
  split
  case isTrue owner =>
    exact sound.own (t := { s with lock := none }) (.inr owner) rfl sound.solid sound.notes sound.current (.inl rfl)
      found
  case isFalse => exact sound.move fun c p at_i => kept c (found c p at_i)

/-- A call that has nothing to write. -/
lemma Sound.answer (sound : s.Sound) (found : s.calls[i]? = some ⟨command, .locked⟩) {readable : Bool} {a : Answer}
    (result : Entry.apply ⟨i, command, readable, a⟩ (replay s.log) = (replay s.log, a)) :
    (s.answer i ⟨i, command, readable, a⟩).Sound := by
  obtain ⟨owner, none⟩ := sound.fine i command _ found
  have lt : i < s.calls.length := (List.getElem?_eq_some_iff.1 found).1
  have same : replay (s.log ++ [⟨i, command, readable, a⟩]) = replay s.log := by rw [replay_snoc, result]
  refine sound.own (t := { s with log := s.log ++ [⟨i, command, readable, a⟩] }) (.inr owner) rfl sound.solid
    (fun link mem => (sound.notes link mem).trans (List.prefix_append _ _)) (same.trans sound.current)
    (.inr ⟨_, rfl, rfl, ⟨lt, none⟩, congrArg Prod.snd result⟩) fun c p at_i => ?_
  cases found.symm.trans at_i
  exact ⟨owner, _, List.mem_append_right _ (List.mem_singleton_self _), rfl, rfl, rfl⟩

/-- A call that makes a temporary file. -/
lemma Sound.begin (sound : s.Sound) (found : s.calls[i]? = some ⟨command, .locked⟩) {flags : Flags} {readable : Bool}
    {a : Answer} (result : Entry.apply ⟨i, command, readable, a⟩ (replay s.log) = (flags, a)) :
    (s.begin i flags readable a).Sound := by
  obtain ⟨owner, none⟩ := sound.fine i command _ found
  refine sound.own (t := { s with volume := s.volume.create }) (.inr owner) rfl sound.solid.create sound.notes
    sound.current (.inl rfl) fun c p at_i => ?_
  cases found.symm.trans at_i
  exact ⟨⟨owner, none⟩, ⟨free_create sound.solid, result⟩, [], false, List.getElem?_concat_length, rfl⟩

/-- The functions under the lock do on the file what they do on the flags of the log. -/
lemma Sound.loaded (sound : s.Sound) (found : s.calls[i]? = some ⟨command, .locked⟩) (readable : Bool) :
    (s.loaded i command readable).Sound := by
  rw [Register.loaded]
  split
  case isTrue init =>
    cases init
    split
    case isTrue => exact sound.answer found rfl
    case isFalse absent =>
      have empty : replay s.log = Dict.empty := by
        have names : s.volume.current.file = none := Option.not_isSome_iff_eq_none.1 absent
        have nothing : s.volume.read = none := by rw [Volume.read, Volume.readLink, names, Option.bind_none]
        rw [← sound.matches.load, nothing, load]
      refine sound.begin found ?_
      rw [empty]
      rfl
  case isFalse other =>
    have seen : (if readable then load s.volume.read else Dict.empty) =
        if readable then replay s.log else Dict.empty := by
      rw [sound.matches.load]
    rw [seen]
    cases result : body command (if readable then replay s.log else Dict.empty) with
    | mk written a =>
      cases written with
      | none => exact sound.answer found (by rw [Entry.apply, result])
      | some flags => exact sound.begin found (by rw [Entry.apply, result])

/-- The call that has the lock writes to its own file. -/
lemma Sound.write (sound : s.Sound) {u : Update} {rest : List Char}
    (found : s.calls[i]? = some ⟨command, .writing u rest⟩) (n : ℕ) :
    ({ s with volume := s.volume.write u.file (rest.take n) }.setPhase i (.writing u (rest.drop n))).Sound := by
  obtain ⟨⟨owner, none⟩, ⟨free, result⟩, text, synced, file, whole⟩ := sound.fine i command _ found
  refine sound.own (t := { s with volume := s.volume.write u.file (rest.take n) }) (.inr owner) rfl
    (sound.solid.write free _) sound.notes sound.current (.inl rfl) fun c p at_i => ?_
  cases found.symm.trans at_i
  refine ⟨⟨owner, none⟩, ⟨free, result⟩, text ++ rest.take n, false, ?_, ?_⟩
  · show (s.volume.files.modify u.file _)[u.file]? = _
    rw [List.getElem?_modify, file]
    exact congrArg some (if_pos rfl)
  · rw [List.append_assoc, List.take_append_drop, whole]

/-- A new file that is synced keeps the register sound. -/
lemma Sound.sync (sound : s.Sound) {u : Update} (found : s.calls[i]? = some ⟨command, .writing u []⟩) :
    ({ s with volume := s.volume.sync u.file }.setPhase i (.synced u)).Sound := by
  obtain ⟨⟨owner, none⟩, ⟨free, result⟩, text, synced, file, whole⟩ := sound.fine i command _ found
  refine sound.own (t := { s with volume := s.volume.sync u.file }) (.inr owner) rfl (sound.solid.sync free) sound.notes
    sound.current (.inl rfl) fun c p at_i => ?_
  cases found.symm.trans at_i
  refine ⟨⟨owner, none⟩, ⟨free, result⟩, ?_⟩
  show (s.volume.files.modify u.file _)[u.file]? = _
  rw [List.append_nil] at whole
  rw [List.getElem?_modify, file, ← whole]
  exact congrArg some (if_pos rfl)

/-- The new file has the flags of the longer log. -/
lemma Sound.replaced (sound : s.Sound) {u : Update} (found : s.calls[i]? = some ⟨command, .synced u⟩) :
    (s.replaced i command u).Sound := by
  obtain ⟨⟨owner, none⟩, ⟨free, result⟩, file⟩ := sound.fine i command _ found
  have lt : i < s.calls.length := (List.getElem?_eq_some_iff.1 found).1
  have flags : replay (s.log ++ [⟨i, command, u.readable, u.answer⟩]) = u.flags := by rw [replay_snoc, result]
  refine sound.own (t := { s with
      volume := s.volume.replace u.file (s.log ++ [⟨i, command, u.readable, u.answer⟩])
      log := s.log ++ [⟨i, command, u.readable, u.answer⟩] }) (.inr owner) rfl
    (sound.solid.replace file (.inl (by rw [flags]))) (fun link mem => ?_) rfl
    (.inr ⟨_, rfl, rfl, ⟨lt, none⟩, congrArg Prod.snd result⟩) fun c p at_i => ?_
  · rcases List.mem_append.1 mem with old | new
    · exact (sound.notes link old).trans (List.prefix_append _ _)
    · rw [List.mem_singleton.1 new]
      exact List.prefix_refl _
  · cases found.symm.trans at_i
    exact ⟨owner, _, List.mem_append_right _ (List.mem_singleton_self _), rfl, rfl, rfl⟩

/-- Bringing the directory to the disk keeps the register sound. -/
lemma Sound.commit (sound : s.Sound) : { s with volume := s.volume.commit }.Sound := by
  have links : ∀ link ∈ s.volume.commit.links, link ∈ s.volume.links := fun link mem => by
    rw [List.mem_singleton.1 mem]
    exact mem_links_current
  refine ⟨sound.solid.commit, fun link mem => sound.notes link (links link mem), sound.current, sound.answered,
    sound.distinct, sound.known, fun i c p found => ?_⟩
  have fine := sound.fine i c p found
  cases p with
  | writing u rest => exact ⟨fine.1, ⟨fun link mem => fine.2.1.1 link (links link mem), fine.2.1.2⟩, fine.2.2⟩
  | synced u => exact ⟨fine.1, ⟨fun link mem => fine.2.1.1 link (links link mem), fine.2.1.2⟩, fine.2.2⟩
  | waiting | raised | locked | leaving a | returned a | dead => exact fine

/-- After a power loss the log is one that the file had. -/
lemma Sound.powerLoss (sound : s.Sound) {pick : ℕ} {lost : ℕ → List Char}
    (taken : s.step (.powerLoss pick lost) = some t) : t.Sound := by
  cases taken
  have le := sound.notes _ (mem_links_powerLoss pick lost)
  refine ⟨sound.solid.powerLoss pick lost, fun link mem => ?_, rfl, sound.answered.of_prefix le,
    sound.distinct.sublist (le.sublist.map _), fun e mem => ?_, fun i c p found => ?_⟩
  · rw [links_powerLoss] at mem
    rw [List.mem_singleton.1 mem]
  · rw [List.length_map]
    exact sound.known e (le.subset mem)
  · rw [List.getElem?_map] at found
    obtain ⟨call, -, eq⟩ := Option.map_eq_some_iff.1 found
    cases eq
    trivial

/-- A call that is made keeps the register sound. -/
lemma Sound.call (sound : s.Sound) : Register.Sound { s with calls := s.calls ++ [⟨command, .waiting⟩] } := by
  refine ⟨sound.solid, sound.notes, sound.current, sound.answered, sound.distinct, fun e mem => ?_,
    fun i c p found => ?_⟩
  · rw [List.length_append]
    exact Nat.lt_add_right 1 (sound.known e mem)
  · rw [List.getElem?_append] at found
    split at found
    case isTrue => exact sound.fine i c p found
    case isFalse ge =>
      cases List.mem_singleton.1 (List.mem_of_getElem? found)
      exact fun e mem same => ge (same ▸ sound.known e mem)

/-- Each step keeps soundness. -/
lemma Sound.step (sound : s.Sound) {e : Event} (taken : s.step e = some t) : t.Sound := by
  cases e with
  | call command =>
    cases taken
    exact sound.call
  | lock i =>
    rw [Register.step] at taken
    split at taken
    case h_1 command found free =>
      cases taken
      have fine := sound.fine i _ _ found
      refine sound.own (t := { s with lock := some i }) (.inl free) rfl sound.solid sound.notes sound.current (.inl rfl)
        fun c p at_i => ?_
      cases found.symm.trans at_i
      exact ⟨rfl, fine⟩
    case h_2 => cases taken
  | load i readable =>
    rw [Register.step] at taken
    split at taken
    case h_1 command found =>
      cases taken
      exact sound.loaded found readable
    case h_2 => cases taken
  | write i n =>
    rw [Register.step] at taken
    split at taken
    case h_1 command u rest found =>
      cases taken
      exact sound.write found n
    case h_2 => cases taken
  | sync i =>
    rw [Register.step] at taken
    split at taken
    case h_1 command u found =>
      cases taken
      exact sound.sync found
    case h_2 => cases taken
  | replace i =>
    rw [Register.step] at taken
    split at taken
    case h_1 command u found =>
      cases taken
      exact sound.replaced found
    case h_2 => cases taken
  | unlock i =>
    rw [Register.step] at taken
    split at taken
    case h_1 command a found =>
      cases taken
      refine sound.release (fun c p at_i => ?_) fun _ fine => fine
      cases found.symm.trans at_i
      exact (sound.fine i _ _ found).2
    case h_2 => cases taken
  | fail i =>
    rw [Register.step] at taken
    split at taken
    case h_1 command found =>
      cases taken
      exact sound.release (fun c p at_i => sound.fine i _ _ found) fun _ fine => fine
    case h_2 command found =>
      cases taken
      exact sound.release (fun c p at_i => (sound.fine i _ _ found).2) fun _ fine => fine
    case h_3 command u rest found | h_4 command u found =>
      cases taken
      exact sound.release (fun c p at_i => (sound.fine i _ _ found).1.2) fun _ fine => fine
    case h_5 => cases taken
  | kill i =>
    cases taken
    exact sound.release (fun _ _ _ => trivial) fun _ _ => trivial
  | commit =>
    cases taken
    exact sound.commit
  | powerLoss pick lost => exact sound.powerLoss taken

/-- Giving up the lock changes nothing else. -/
lemma log_unlock (s : Register) (i : ℕ) : (s.unlock i).log = s.log ∧ (s.unlock i).volume = s.volume := by
  rw [unlock]
  split
  · exact ⟨rfl, rfl⟩
  · exact ⟨rfl, rfl⟩

/-- What a step does to the log and the entries of the file: the log gets longer by a call at most, and an entry is an
old one or has the new log; or the power fails, and the log is that of an old entry. -/
lemma step_cases {e : Event} (taken : s.step e = some t) :
    (∃ more, t.log = s.log ++ more) ∧ (∀ link ∈ t.volume.links, link ∈ s.volume.links ∨ link.note = t.log) ∨
      (∃ pick lost, e = .powerLoss pick lost) ∧
        ∃ link ∈ s.volume.links, t.log = link.note ∧ t.volume.links = [link] := by
  have keeps : ∀ u : Register, u.log = s.log ∧ (∀ link ∈ u.volume.links, link ∈ s.volume.links) →
      (∃ more, u.log = s.log ++ more) ∧ (∀ link ∈ u.volume.links, link ∈ s.volume.links ∨ link.note = u.log) :=
    fun u same => ⟨⟨[], same.1.trans (List.append_nil _).symm⟩, fun link mem => .inl (same.2 link mem)⟩
  have releases : ∀ i, (s.unlock i).log = s.log ∧ (∀ link ∈ (s.unlock i).volume.links, link ∈ s.volume.links) :=
    fun i => ⟨(log_unlock s i).1, fun link mem => (log_unlock s i).2 ▸ mem⟩
  cases e with
  | call command =>
    cases taken
    exact .inl (keeps _ ⟨rfl, fun _ mem => mem⟩)
  | lock i | write i n | sync i =>
    rw [Register.step] at taken
    split at taken
    · cases taken
      exact .inl (keeps _ ⟨rfl, fun _ mem => mem⟩)
    · cases taken
  | load i readable =>
    rw [Register.step] at taken
    split at taken
    · cases taken
      rw [Register.loaded]
      split
      · split
        · exact .inl ⟨⟨_, rfl⟩, fun _ mem => .inl mem⟩
        · exact .inl (keeps _ ⟨rfl, fun _ mem => mem⟩)
      · split
        · exact .inl ⟨⟨_, rfl⟩, fun _ mem => .inl mem⟩
        · exact .inl (keeps _ ⟨rfl, fun _ mem => mem⟩)
    · cases taken
  | replace i =>
    rw [Register.step] at taken
    split at taken
    · cases taken
      refine .inl ⟨⟨_, rfl⟩, fun link mem => ?_⟩
      rcases List.mem_append.1 mem with old | new
      · exact .inl old
      · rw [List.mem_singleton.1 new]
        exact .inr rfl
    · cases taken
  | unlock i =>
    rw [Register.step] at taken
    split at taken
    · cases taken
      exact .inl (keeps _ (releases i))
    · cases taken
  | fail i =>
    rw [Register.step] at taken
    split at taken
    case h_1 | h_2 | h_3 | h_4 =>
      cases taken
      exact .inl (keeps _ (releases i))
    case h_5 => cases taken
  | kill i =>
    cases taken
    exact .inl (keeps _ (releases i))
  | commit =>
    cases taken
    refine .inl (keeps _ ⟨rfl, fun link mem => ?_⟩)
    rw [List.mem_singleton.1 mem]
    exact mem_links_current
  | powerLoss pick lost =>
    cases taken
    exact .inr ⟨⟨pick, lost, rfl⟩, _, mem_links_powerLoss pick lost, rfl, links_powerLoss pick lost⟩

/-- Some calls are in the log, and in that of every entry of the file. -/
def Retains (kept : List Entry) (s : Register) : Prop := kept <+: s.log ∧ ∀ link ∈ s.volume.links, kept <+: link.note

/-- They stay there, whatever happens. -/
lemma Retains.step {kept : List Entry} (retains : s.Retains kept) {e : Event} (taken : s.step e = some t) :
    t.Retains kept := by
  obtain ⟨⟨more, longer⟩, links⟩ | ⟨-, link, mem, log, only⟩ := step_cases taken
  · have log : kept <+: t.log := by
      rw [longer]
      exact retains.1.trans (List.prefix_append _ _)
    refine ⟨log, fun link mem => ?_⟩
    rcases links link mem with old | new
    · exact retains.2 link old
    · rw [new]
      exact log
  · refine ⟨log ▸ retains.2 link mem, fun link' mem' => ?_⟩
    rw [only, List.mem_singleton] at mem'
    rw [mem']
    exact retains.2 link mem

end Steps

end Register

/-! ### The flags as locks -/

/-- The call has got the flag. -/
def Entry.acquires (key : String) (e : Entry) : Prop := e.command = .try_acquire key ∧ e.answer = .flag true

/-- The call gives the flag up, or cannot read the file and takes all flags for unset. -/
def Entry.frees (key : String) (e : Entry) : Prop :=
  e.command = .deactivate key ∨ e.command = .clear key ∨ e.readable = false

/-- Setting a flag changes that flag. -/
lemma is_set_set (flags : Flags) (key key' : String) (b : Bool) :
    is_set (flags.set key b) key' = if key' = key then b else is_set flags key' := by
  rw [is_set, Dict.get?_set]
  split
  · rfl
  · rfl

/-- Removing a flag changes that flag. -/
lemma is_set_pop (flags : Flags) (key key' : String) :
    is_set (flags.pop key) key' = if key' = key then false else is_set flags key' := by
  rw [is_set, Dict.get?_pop]
  split
  · rfl
  · rfl

/-- Only where the flag is not set is it acquired, and then it is set. -/
lemma apply_acquires {key : String} {e : Entry} (acquires : e.acquires key) {flags : Flags}
    (answered : (e.apply flags).2 = e.answer) :
    is_set (if e.readable then flags else Dict.empty) key = false ∧ is_set (e.apply flags).1 key = true := by
  obtain ⟨command, answer⟩ := acquires
  rw [answer, Entry.apply, command, body] at answered
  rw [Entry.apply, command, body]
  cases taken : is_set (if e.readable then flags else Dict.empty) key with
  | true =>
    rw [taken] at answered
    cases answered
  | false => exact ⟨rfl, (is_set_set ..).trans (if_pos rfl)⟩

/-- Nobody else unsets it. -/
lemma apply_keeps {key : String} {e : Entry} (keeps : ¬e.frees key) {flags : Flags} (set : is_set flags key = true) :
    is_set (e.apply flags).1 key = true := by
  obtain ⟨notDeactivate, notClear, readable⟩ :
      e.command ≠ .deactivate key ∧ e.command ≠ .clear key ∧ e.readable = true := by
    rw [Entry.frees, not_or, not_or] at keeps
    exact ⟨keeps.1, keeps.2.1, Bool.eq_true_of_not_eq_false keeps.2.2⟩
  rw [Entry.apply, readable, if_pos rfl]
  cases command : e.command with
  | init_file | is_active key' | snapshot => exact set
  | activate key' =>
    refine (is_set_set ..).trans ?_
    split
    · rfl
    · exact set
  | try_acquire key' =>
    rw [body]
    cases is_set flags key' with
    | true => exact set
    | false =>
      refine (is_set_set ..).trans ?_
      split
      · rfl
      · exact set
  | deactivate key' =>
    refine (is_set_set ..).trans ?_
    rw [if_neg fun same => notDeactivate (by rw [command, same])]
    exact set
  | clear key' =>
    refine (is_set_pop ..).trans ?_
    rw [if_neg fun same => notClear (by rw [command, same])]
    exact set

/-- Between two calls that get the same flag, it is given up. -/
lemma Answered.exclusive {log : List Entry} (answered : Answered log) {key : String} {before between after : List Entry}
    {e e' : Entry} (eq : log = before ++ e :: (between ++ e' :: after)) (first : e.acquires key)
    (second : e'.acquires key) : ∃ x ∈ between ++ [e'], x.frees key := by
  by_contra none
  have keeps : ∀ x ∈ between ++ [e'], ¬x.frees key := fun x mem frees => none ⟨x, mem, frees⟩
  have start : is_set (replay (before ++ [e])) key = true := by
    rw [replay_snoc]
    exact (apply_acquires first (answered before e _ eq)).2
  have held : ∀ xs, xs <+: between → is_set (replay (before ++ e :: xs)) key = true := by
    intro xs
    induction xs using List.reverseRecOn with
    | nil => exact fun _ => start
    | append_singleton xs x ih =>
      intro le
      have mem : x ∈ between := le.subset (List.mem_append_right _ (List.mem_singleton_self x))
      rw [← List.cons_append, ← List.append_assoc, replay_snoc]
      exact apply_keeps (keeps x (List.mem_append_left _ mem)) (ih ((List.prefix_append _ _).trans le))
  have split : log = (before ++ e :: between) ++ e' :: after := by
    rw [eq, List.append_assoc]
    rfl
  have free := (apply_acquires second (answered _ e' after split)).1
  have readable : e'.readable = true := Bool.eq_true_of_not_eq_false fun no =>
    keeps e' (List.mem_append_right _ (List.mem_singleton_self e')) (.inr (.inr no))
  rw [readable, if_pos rfl, held between (List.prefix_refl _)] at free
  cases free

open Register

/-- In every run, however calls, errors and kills interleave and wherever the power fails: the file is whole and has the
flags of the log; each call that returned is in the log once, with the result that it has at its place there, and one
that raised is not; later calls come behind in it, until the power fails; and between two calls that get the same flag
it is given up, or a call could not read the file. -/
theorem register_atomic {trace : List Event} {s : Register} (run : exec step Register.new trace = some s) :
    Matches (replay s.log) s.volume.read ∧ Answered s.log ∧ (s.log.map Entry.call).Nodup ∧
      (∀ i command answer, s.calls[i]? = some ⟨command, .returned answer⟩ → s.Logged i command answer) ∧
      (∀ i command, s.calls[i]? = some ⟨command, .raised⟩ → s.Unlogged i) ∧
      (∀ more t, exec step s more = some t → (∀ e ∈ more, ∀ pick lost, e ≠ .powerLoss pick lost) → s.log <+: t.log) ∧
      (∀ key before e between e' after, s.log = before ++ e :: (between ++ e' :: after) →
        e.acquires key → e'.acquires key → ∃ x ∈ between ++ [e'], x.frees key) := by
  have sound : s.Sound := exec_invariant Sound.new (fun _ _ _ sound taken => sound.step taken) run
  refine ⟨sound.matches, sound.answered, sound.distinct, fun i command answer found => sound.fine i _ _ found,
    fun i command found => sound.fine i _ _ found, fun more t later powered => ?_,
    fun key before e between e' after eq first second => sound.answered.exclusive eq first second⟩
  have guarded : Guarded step (fun _ e => ∀ pick lost, e ≠ .powerLoss pick lost) s more :=
    fun pre e _ le _ => powered e (le.subset (List.mem_append_right pre (List.mem_singleton_self e)))
  have longer : Always step (fun u => s.log <+: u.log) s more := by
    refine always_of_guarded (I := fun u => s.log <+: u.log) (List.prefix_refl s.log)
      (fun u e v le ok taken => ?_) guarded
    obtain ⟨⟨tail, behind⟩, -⟩ | ⟨⟨pick, lost, off⟩, -⟩ := step_cases taken
    · rw [behind]
      exact le.trans (List.prefix_append _ _)
    · exact absurd off (ok pick lost)
  exact longer more t (List.prefix_refl more) later

/-- The calls of a process that makes the file and gets a flag. -/
def sampleRun : List Event :=
  [.call .init_file, .lock 0, .load 0 true, .write 0 2, .sync 0, .replace 0, .unlock 0,
    .call (.try_acquire "NGN/XLM"), .lock 1, .load 1 true, .write 1 7, .write 1 30, .sync 1, .replace 1, .unlock 1]

/-- A process makes the file and gets a flag. -/
theorem register_atomic_sample :
    ∃ s, exec step Register.new sampleRun = some s ∧ Matches (replay s.log) s.volume.read ∧ Answered s.log := by
  obtain ⟨s, run⟩ := Option.isSome_iff_exists.1
    (show (exec step Register.new sampleRun).isSome = true by decide +kernel)
  obtain ⟨same, answered, -⟩ := register_atomic run
  exact ⟨s, run, same, answered⟩

/-- Whatever happens after the directory has reached the disk, also when the power fails again and again: the file has
the flags of a log that begins with calls that give the flags of then. -/
theorem committed_flags_survive {trace more : List Event} {s t : Register} (run : exec step Register.new trace = some s)
    (later : exec step s (.commit :: more) = some t) :
    ∃ kept, kept <+: s.log ∧ replay kept = replay s.log ∧ kept <+: t.log ∧ Matches (replay t.log) t.volume.read := by
  have preserved : ∀ s e t, Sound s → step s e = some t → Sound t := fun _ _ _ sound taken => sound.step taken
  have sound : s.Sound := exec_invariant Sound.new preserved run
  have whole : t.Sound := exec_invariant sound preserved later
  have kept : s.volume.current.note <+: s.log := sound.notes _ mem_links_current
  obtain ⟨u, committed, later⟩ := Option.bind_eq_some_iff.1 ((exec_cons s .commit more).symm.trans later)
  cases committed
  have retains : Retains s.volume.current.note t := by
    refine exec_invariant ⟨kept, fun link mem => ?_⟩ (fun _ _ _ retains taken => retains.step taken) later
    rw [List.mem_singleton.1 mem]
    exact List.prefix_refl _
  exact ⟨_, kept, sound.current.symm, retains.1, whole.matches⟩

/-- A killed call and a power loss after a commit. -/
theorem committed_flags_survive_sample :
    ∃ s t kept, exec step Register.new sampleRun = some s ∧
      exec step s [.commit, .call (.clear "NGN/XLM"), .lock 2, .load 2 true, .kill 2, .powerLoss 1 fun _ => ['{']] =
        some t ∧
      kept <+: t.log ∧ replay kept = replay s.log := by
  obtain ⟨t, run⟩ := Option.isSome_iff_exists.1 (show (exec step Register.new (sampleRun ++ [.commit,
    .call (.clear "NGN/XLM"), .lock 2, .load 2 true, .kill 2, .powerLoss 1 fun _ => ['{']])).isSome = true by
      decide +kernel)
  rw [exec_append] at run
  obtain ⟨s, first, later⟩ := Option.bind_eq_some_iff.1 run
  obtain ⟨kept, -, same, le, -⟩ := committed_flags_survive first later
  exact ⟨s, t, kept, first, later, le, same⟩

end StellarFlow.StateRegister
