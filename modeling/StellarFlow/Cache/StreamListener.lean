import Mathlib.Logic.Function.Basic
import StellarFlow.Lib.Dict
import StellarFlow.Lib.JavaScript
import StellarFlow.Lib.Machine

/-!
# The stream listener of the cache invalidation manager

Model of `streamLoop`, `ensureStream` and `getSubscribedStreams` in `src/cache/CacheInvalidationManager.ts`. The loop
checks its own stream, reads all streams it subscribes to (XREAD BLOCK) and hands the messages to `onStreamEvent` one
after the other; anybody publishes in between. Redis answers a read at once with what lies behind the cursors of the
streams; where nothing does, with the first message that is added to one of them. A message is known by its place in
its stream, counted from 1.

A stream has a cursor once a message of it was received. Until then each read asks for what is added after its own
start, and what is added between two reads, or by a read whose answer is lost, is never seen.
-/

namespace StellarFlow.Listener

/-- The fields of a message. -/
abbrev Message := List (String × String)

structure Entry where
  stream : String
  id : ℕ
  message : Message
  deriving DecidableEq

/-- What XREAD gets for a stream: `$` or the id of a message. -/
inductive Cursor where
  | newest
  | after (id : ℕ)
  deriving DecidableEq

/-- Where the loop stands: at its top, before the marker is added, before a read, in a read that waits, in one that
Redis has answered, among the messages of an answer. -/
inductive Phase where
  | top
  | absent
  | ready
  | blocked (streams : List String)
  | answered (response : List Entry)
  | handling (response : List Entry)

/-- The messages of the last answer that are still to be handled. -/
def Phase.response : Phase → List Entry
  | .answered response => response
  | .handling response => response
  | _ => []

/-- The streams a waiting read waits for. -/
def Phase.awaited : Phase → List String
  | .blocked streams => streams
  | _ => []

/-- The streams of Redis, the manager, and what happened: whether a read has begun, which messages `onStreamEvent` got
and which were published to subscribed streams since. -/
structure System where
  streams : String → List Message
  rules : Dict String (List String)
  lastStreamIds : Dict String Cursor
  phase : Phase
  begun : Bool
  processed : List Entry
  due : List Entry

/-- How a call ends: it raises before or after it took effect. -/
inductive Outcome where
  | done
  | raised
  | raisedAfter

inductive Move where
  | publish (stream : String) (message : Message)
  | registerRule (domain : String) (patterns : List String)
  | wait
  | checkStream (raises : Bool)
  | xAdd (outcome : Outcome)
  | xRead
  | timeout
  | readFails
  | receive
  | onStreamEvent
  | next

def cacheInvalidationStream : String := "events:cache-invalidation"

def streamReadCount : ℕ := 20

/-- `domain.startsWith("events:")`. -/
def isEventStream (domain : String) : Bool := "events:".toList.isPrefixOf domain.toList

/-- `getSubscribedStreams`. -/
def subscribedStreams (rules : Dict String (List String)) : List String :=
  let suffixes := rules.keys.filter fun domain => domain.toList.contains '-' && !isEventStream domain
  Js.sortedSet
    (cacheInvalidationStream :: rules.keys.filter isEventStream ++ suffixes.map fun domain => "events:" ++ domain)

/-- The messages of a stream behind the first `id`. -/
def entriesFrom (stream : String) : ℕ → List Message → List Entry
  | _, [] => []
  | id, message :: messages => ⟨stream, id + 1, message⟩ :: entriesFrom stream (id + 1) messages

/-- `this.lastStreamIds.get(stream) ?? "$"`. -/
def System.cursor (s : System) (stream : String) : Cursor := (s.lastStreamIds.get? stream).getD .newest

/-- What a read that starts now finds in a stream. -/
def System.available (s : System) (stream : String) : List Entry :=
  match s.cursor stream with
  | .newest => []
  | .after id => entriesFrom stream id ((s.streams stream).drop id)

/-- XADD. -/
def System.append (s : System) (stream : String) (message : Message) : System :=
  { s with streams := Function.update s.streams stream (s.streams stream ++ [message]) }

/-- The entry a message published now becomes. -/
def System.newEntry (s : System) (stream : String) (message : Message) : Entry :=
  ⟨stream, (s.streams stream).length + 1, message⟩

/-- The message is published to a subscribed stream after the first read has begun. -/
def System.isDue (s : System) (stream : String) : Bool := s.begun && stream ∈ subscribedStreams s.rules

/-- A message that arrives answers the read that waits for it. -/
def System.publish (s : System) (stream : String) (message : Message) : System :=
  { s.append stream message with
    phase := if stream ∈ s.phase.awaited then .answered [s.newEntry stream message] else s.phase
    due := if s.isDue stream then s.due ++ [s.newEntry stream message] else s.due }

/-- What a read that starts now finds. -/
def System.response (s : System) : List Entry :=
  (subscribedStreams s.rules).flatMap fun stream => (s.available stream).take streamReadCount

/-- The start of a read. -/
def System.xRead (s : System) : System :=
  { s with
    phase := if s.response = [] then .blocked (subscribedStreams s.rules) else .answered s.response
    begun := true }

/-- `this.lastStreamIds.set(stream, id)`. -/
def System.setCursor (s : System) (stream : String) (cursor : Cursor) : System :=
  { s with lastStreamIds := s.lastStreamIds.set stream cursor }

/-- The message that marks a stream as initialized. -/
def marker : Message := [("initialized", "1")]

/-- The loop takes the next message of an answer. -/
def System.handle (s : System) (e : Entry) (response : List Entry) : System :=
  { s.setCursor e.stream (.after e.id) with
    phase := .handling response
    processed := s.processed ++ [e] }

/-- How the loop goes on from the creation of its stream. -/
def System.create (s : System) : Outcome → System
  | .done =>
    { (s.append cacheInvalidationStream marker).setCursor cacheInvalidationStream .newest with phase := .ready }
  | .raised => { s with phase := .ready }
  | .raisedAfter => { s.append cacheInvalidationStream marker with phase := .ready }

def System.step (s : System) : Move → Option System
  | .publish stream message => some (s.publish stream message)
  | .registerRule domain patterns => some { s with rules := s.rules.set domain patterns }
  | .wait =>
    match s.phase with
    | .top => some s
    | _ => none
  | .checkStream raises =>
    match s.phase with
    | .top =>
      some { s with
        phase := if !raises && s.streams cacheInvalidationStream = [] then .absent else .ready }
    | _ => none
  | .xAdd outcome =>
    match s.phase with
    | .absent => some (s.create outcome)
    | _ => none
  | .xRead =>
    match s.phase with
    | .ready => some s.xRead
    | _ => none
  | .timeout =>
    match s.phase with
    | .blocked _ => some { s with phase := .top }
    | _ => none
  | .readFails =>
    match s.phase with
    | .ready => some { s with phase := .top }
    | .blocked _ => some { s with phase := .top }
    | .answered _ => some { s with phase := .top }
    | _ => none
  | .receive =>
    match s.phase with
    | .answered response => some { s with phase := .handling response }
    | _ => none
  | .onStreamEvent =>
    match s.phase with
    | .handling (e :: response) => some (s.handle e response)
    | _ => none
  | .next =>
    match s.phase with
    | .handling [] => some { s with phase := .top }
    | _ => none

/-- Redis with any streams, and a manager that starts. -/
def System.initial (streams : String → List Message) (rules : Dict String (List String)) : System where
  streams := streams
  rules := rules
  lastStreamIds := Dict.empty
  phase := .top
  begun := false
  processed := []
  due := []

/-- How many messages of a stream a read that starts now has behind it. -/
def System.readFrom (s : System) (stream : String) : ℕ :=
  match s.cursor stream with
  | .newest => (s.streams stream).length
  | .after id => id

/-- How many messages of a stream the loop has behind it: the present answer or the next read goes on from there. -/
def System.position (s : System) (stream : String) : ℕ :=
  match s.phase.response.find? fun e => e.stream = stream with
  | some e => e.id - 1
  | none => s.readFrom stream

/-- Each message that is due has been processed once where the loop has it behind itself, and not yet otherwise. -/
def Accounted (s : System) : Prop :=
  ∀ e ∈ s.due, s.processed.count e = if e.id ≤ s.position e.stream then 1 else 0

/-- The next read of the stream goes on from a message, or the present one sees what comes. -/
def System.isFollowed (s : System) (stream : String) : Bool :=
  s.cursor stream ≠ .newest || stream ∈ s.phase.awaited || s.phase.response.any fun e => e.stream = stream

/-- A message that is due comes to a stream that is followed, and an answer that is lost is read again. -/
def System.isSafe (s : System) : Move → Bool
  | .publish stream _ => !s.isDue stream || s.isFollowed stream
  | .readFails => s.phase.response.all fun e => s.cursor e.stream ≠ .newest
  | _ => true

/-- The entry is in its stream. -/
def System.Holds (s : System) (e : Entry) : Prop := ∃ k, e.id = k + 1 ∧ (s.streams e.stream)[k]? = some e.message

/-- What every run keeps. The messages of an answer go on from the position of their stream, and those of a stream
without a cursor are due. -/
structure Sound (s : System) : Prop where
  cursor : ∀ stream id, s.cursor stream = .after id → id ≤ (s.streams stream).length ∧ 1 ≤ id ∧ s.position stream = id
  holds : ∀ e, e ∈ s.phase.response ∨ e ∈ s.due ∨ e ∈ s.processed → s.Holds e
  consecutive : ∀ stream, ∃ n,
    (s.phase.response.filter fun e => e.stream = stream).map (·.id) = List.range' (s.position stream + 1) n
  unread : ∀ e ∈ s.phase.response, s.cursor e.stream = .newest → e ∈ s.due
  absent : s.phase = .absent → s.cursor cacheInvalidationStream = .newest
  awaited : ∀ stream ∈ s.phase.awaited, s.isDue stream = true ∧ s.position stream = (s.streams stream).length
  subscribed : ∀ e ∈ s.due, e.stream ∈ subscribedStreams s.rules

variable {s s' : System} {stream stream' : String} {message : Message} {e : Entry} {m : Move}

/-- The moves of the manager and of those who publish, case by case. -/
inductive Step (s : System) : Move → System → Prop where
  | publish {stream : String} {message : Message} : Step s (.publish stream message) (s.publish stream message)
  | registerRule {domain : String} {patterns : List String} :
      Step s (.registerRule domain patterns) { s with rules := s.rules.set domain patterns }
  | wait : Step s .wait s
  | missing {raises : Bool} (top : s.phase = .top) (empty : s.streams cacheInvalidationStream = []) :
      Step s (.checkStream raises) { s with phase := .absent }
  | found {raises : Bool} (top : s.phase = .top) : Step s (.checkStream raises) { s with phase := .ready }
  | xAdd {outcome : Outcome} (absent : s.phase = .absent) : Step s (.xAdd outcome) (s.create outcome)
  | xRead (ready : s.phase = .ready) : Step s .xRead s.xRead
  | timeout {streams : List String} (blocked : s.phase = .blocked streams) : Step s .timeout { s with phase := .top }
  | readFails : Step s .readFails { s with phase := .top }
  | receive {response : List Entry} (answered : s.phase = .answered response) :
      Step s .receive { s with phase := .handling response }
  | onStreamEvent {e : Entry} {response : List Entry} (handling : s.phase = .handling (e :: response)) :
      Step s .onStreamEvent (s.handle e response)
  | next (handling : s.phase = .handling []) : Step s .next { s with phase := .top }

/-- Each step of the model is one of those named. -/
lemma step_cases (taken : s.step m = some s') : Step s m s' := by
  cases m with
  | publish stream message => cases taken; exact .publish
  | registerRule domain patterns => cases taken; exact .registerRule
  | wait =>
    rw [System.step] at taken
    split at taken
    case h_1 => cases taken; exact .wait
    case h_2 => cases taken
  | checkStream raises =>
    rw [System.step] at taken
    split at taken
    case h_1 top =>
      cases taken
      split
      case isTrue missing => exact .missing top (of_decide_eq_true (Bool.and_eq_true_iff.1 missing).2)
      case isFalse => exact .found top
    case h_2 => cases taken
  | xAdd outcome =>
    rw [System.step] at taken
    split at taken
    case h_1 absent => cases taken; exact .xAdd absent
    case h_2 => cases taken
  | xRead =>
    rw [System.step] at taken
    split at taken
    case h_1 ready => cases taken; exact .xRead ready
    case h_2 => cases taken
  | timeout =>
    rw [System.step] at taken
    split at taken
    case h_1 blocked => cases taken; exact .timeout blocked
    case h_2 => cases taken
  | readFails =>
    rw [System.step] at taken
    split at taken
    case h_4 => cases taken
    all_goals
      cases taken
      exact .readFails
  | receive =>
    rw [System.step] at taken
    split at taken
    case h_1 answered => cases taken; exact .receive answered
    case h_2 => cases taken
  | onStreamEvent =>
    rw [System.step] at taken
    split at taken
    case h_1 handling => cases taken; exact .onStreamEvent handling
    case h_2 => cases taken
  | next =>
    rw [System.step] at taken
    split at taken
    case h_1 handling => cases taken; exact .next handling
    case h_2 => cases taken

/-- The entries after an id, in the terms of the messages. -/
lemma mem_entriesFrom {id : ℕ} {messages : List Message} :
    e ∈ entriesFrom stream id messages ↔
      e.stream = stream ∧ ∃ k, e.id = id + k + 1 ∧ messages[k]? = some e.message := by
  induction messages generalizing id with
  | nil => simp [entriesFrom]
  | cons message messages ih =>
    rw [entriesFrom, List.mem_cons, ih]
    constructor
    · rintro (rfl | ⟨same, k, place, found⟩)
      · exact ⟨rfl, 0, rfl, rfl⟩
      · exact ⟨same, k + 1, by omega, found⟩
    · rintro ⟨same, k, place, found⟩
      cases k with
      | zero =>
        refine .inl ?_
        obtain ⟨_, _, _⟩ := e
        cases found
        cases same
        cases place
        rfl
      | succ k => exact .inr ⟨same, k, by omega, found⟩

/-- The ids of the entries follow one another. -/
lemma map_id_entriesFrom {id : ℕ} {messages : List Message} :
    (entriesFrom stream id messages).map (·.id) = List.range' (id + 1) messages.length := by
  induction messages generalizing id with
  | nil => rfl
  | cons message messages ih =>
    rw [entriesFrom, List.map_cons, ih, List.length_cons, List.range'_succ]

/-- A stream is subscribed to once. -/
lemma nodup_subscribedStreams (rules : Dict String (List String)) : (subscribedStreams rules).Nodup :=
  Js.nodup_sortedSet _

/-- The streams are that of the cache and those of the domains that have rules. -/
lemma mem_subscribedStreams {rules : Dict String (List String)} :
    stream ∈ subscribedStreams rules ↔ stream = cacheInvalidationStream ∨ ∃ domain ∈ rules.keys,
      isEventStream domain = true ∧ stream = domain ∨
        (domain.toList.contains '-' && !isEventStream domain) = true ∧ stream = "events:" ++ domain := by
  rw [subscribedStreams, Js.mem_sortedSet, List.cons_append, List.mem_cons, List.mem_append, List.mem_filter,
    List.mem_map]
  refine or_congr_right ?_
  constructor
  · rintro (⟨rule, event⟩ | ⟨domain, suffix, rfl⟩)
    · exact ⟨stream, rule, .inl ⟨event, rfl⟩⟩
    · exact ⟨domain, (List.mem_filter.1 suffix).1, .inr ⟨(List.mem_filter.1 suffix).2, rfl⟩⟩
  · rintro ⟨domain, rule, ⟨event, rfl⟩ | ⟨suffix, rfl⟩⟩
    · exact .inl ⟨rule, event⟩
    · exact .inr ⟨domain, List.mem_filter.2 ⟨rule, suffix⟩, rfl⟩

/-- Rules are only added. -/
lemma subscribedStreams_mono {rules : Dict String (List String)} {domain : String} {patterns : List String}
    (mem : stream ∈ subscribedStreams rules) : stream ∈ subscribedStreams (rules.set domain patterns) := by
  rw [mem_subscribedStreams] at mem ⊢
  refine mem.imp_right ?_
  rintro ⟨domain', rule, here⟩
  exact ⟨domain', Dict.mem_keys_set.2 (.inr rule), here⟩

/-- Setting a cursor moves that of one stream. -/
lemma cursor_setCursor {cursor : Cursor} :
    (s.setCursor stream cursor).cursor stream' = if stream' = stream then cursor else s.cursor stream' := by
  rw [System.cursor, System.setCursor, Dict.get?_set]
  split
  · rfl
  · rfl

/-- Without messages of the stream in an answer, the cursor says how far the loop is. -/
lemma position_of_no_entry (none : ∀ e ∈ s.phase.response, e.stream ≠ stream) :
    s.position stream = s.readFrom stream := by
  have found : (s.phase.response.find? fun e => e.stream = stream) = .none := by
    rw [List.find?_eq_none]
    exact fun e mem => by simp [none e mem]
  rw [System.position, found]

/-- A cursor that stands at an id reads from there. -/
lemma readFrom_of_after {id : ℕ} (cursor : s.cursor stream = .after id) : s.readFrom stream = id := by
  rw [System.readFrom, cursor]

/-- A cursor at `$` reads from the end of the stream. -/
lemma readFrom_of_newest (cursor : s.cursor stream = .newest) : s.readFrom stream = (s.streams stream).length := by
  rw [System.readFrom, cursor]

/-- No position lies beyond the end of its stream. -/
lemma position_le (sound : Sound s) : s.position stream ≤ (s.streams stream).length := by
  rw [System.position]
  split
  case h_1 e found =>
    obtain ⟨k, place, there⟩ := sound.holds e (.inl (List.mem_of_find?_eq_some found))
    have same : e.stream = stream := by simpa using List.find?_some found
    rw [same] at there
    have := (List.getElem?_eq_some_iff.1 there).1
    omega
  case h_2 =>
    rw [System.readFrom]
    split
    case h_1 => exact le_rfl
    case h_2 id cursor => exact (sound.cursor stream id cursor).1

/-- A stream keeps its entries. -/
lemma holds_append (holds : s.Holds e) : (s.append stream message).Holds e := by
  obtain ⟨k, place, there⟩ := holds
  refine ⟨k, place, ?_⟩
  show (Function.update s.streams stream (s.streams stream ++ [message]) e.stream)[k]? = some e.message
  by_cases same : e.stream = stream
  · rw [same] at there
    rw [same, Function.update_self, List.getElem?_append_left (List.getElem?_eq_some_iff.1 there).1, there]
  · rw [Function.update_of_ne same, there]

/-- The new entry is there. -/
lemma holds_newEntry : (s.append stream message).Holds (s.newEntry stream message) := by
  refine ⟨(s.streams stream).length, rfl, ?_⟩
  show (Function.update s.streams stream (s.streams stream ++ [message]) stream)[(s.streams stream).length]? = _
  rw [Function.update_self, List.getElem?_concat_length]
  rfl

/-- An id is at most the length of its stream. -/
lemma id_le_of_holds (holds : s.Holds e) : e.id ≤ (s.streams e.stream).length := by
  obtain ⟨k, place, there⟩ := holds
  have := (List.getElem?_eq_some_iff.1 there).1
  omega

/-- Publishing keeps the entries. -/
lemma holds_publish (holds : s.Holds e) : (s.publish stream message).Holds e := holds_append holds

/-- Publishing adds to one stream. -/
lemma streams_publish : (s.publish stream message).streams stream' =
    if stream' = stream then s.streams stream ++ [message] else s.streams stream' := by
  show Function.update s.streams stream (s.streams stream ++ [message]) stream' = _
  by_cases same : stream' = stream
  · rw [same, Function.update_self, if_pos rfl]
  · rw [Function.update_of_ne same, if_neg same]

/-- A blocked read has no answer yet. -/
lemma phase_of_awaited (mem : stream ∈ s.phase.awaited) : s.phase.response = [] := by
  cases phase : s.phase with
  | blocked streams => rfl
  | _ =>
    rw [phase] at mem
    cases mem

/-- A message on an awaited stream answers the read. -/
lemma phase_publish_of_awaited (awaited : stream ∈ s.phase.awaited) :
    (s.publish stream message).phase = .answered [s.newEntry stream message] := if_pos awaited

/-- One on another stream does not. -/
lemma phase_publish_of_not_awaited (awaited : stream ∉ s.phase.awaited) :
    (s.publish stream message).phase = s.phase := if_neg awaited

/-- A stream that is not followed stands at its end. -/
lemma position_of_unfollowed (unfollowed : s.isFollowed stream = false) :
    s.position stream = (s.streams stream).length := by
  simp only [System.isFollowed, Bool.or_eq_false_iff, List.any_eq_false, decide_eq_false_iff_not, not_not,
    decide_eq_true_iff] at unfollowed
  obtain ⟨⟨newest, -⟩, none⟩ := unfollowed
  rw [position_of_no_entry none, readFrom_of_newest newest]

/-- A message moves a stream that is not followed behind the loop. -/
lemma position_publish (sound : Sound s) : (s.publish stream message).position stream' =
    if stream' = stream ∧ s.isFollowed stream = false then (s.streams stream).length + 1 else s.position stream' := by
  by_cases awaited : stream ∈ s.phase.awaited
  · have followed : s.isFollowed stream = true := by simp [System.isFollowed, awaited]
    have response : (s.publish stream message).phase.response = [s.newEntry stream message] := by
      rw [phase_publish_of_awaited awaited, Phase.response]
    rw [if_neg (by simp [followed])]
    by_cases same : stream' = stream
    · rw [System.position, response, List.find?_cons_of_pos (by simp [same, System.newEntry]), same,
        (sound.awaited stream awaited).2]
      rfl
    · rw [position_of_no_entry (by rw [response]; simpa [System.newEntry] using Ne.symm same),
        position_of_no_entry (by rw [phase_of_awaited awaited]; simp), System.readFrom, streams_publish, if_neg same]
      rfl
  · have phase : (s.publish stream message).phase = s.phase := phase_publish_of_not_awaited awaited
    have cursor : (s.publish stream message).cursor stream' = s.cursor stream' := rfl
    rw [System.position, phase, System.readFrom, cursor, streams_publish, System.position, System.readFrom]
    by_cases same : stream' = stream
    · subst same
      cases found : s.phase.response.find? fun e => e.stream = stream' with
      | some e =>
        have any : (s.phase.response.any fun e => e.stream = stream') = true :=
          List.any_eq_true.2 ⟨e, List.mem_of_find?_eq_some found, by simpa using List.find?_some found⟩
        simp [System.isFollowed, any]
      | none =>
        have all : ¬∃ e ∈ s.phase.response, e.stream = stream' := by
          simpa using found
        cases cursor : s.cursor stream' with
        | after id => simp [System.isFollowed, cursor]
        | newest => simp [System.isFollowed, cursor, awaited, all]
    · simp [same]

/-- The manager leaves what it did, or goes on without an answer. -/
lemma sound_leave {phase : Phase} (sound : Sound s) (response : phase.response = []) (awaited : phase.awaited = [])
    (absent : phase = .absent → s.cursor cacheInvalidationStream = .newest) : Sound { s with phase := phase } where
  cursor stream id cursor := by
    have before := sound.cursor stream id cursor
    refine ⟨before.1, before.2.1, ?_⟩
    have now : ({ s with phase := phase } : System).cursor stream = .after id := cursor
    rw [position_of_no_entry (by simp [response]), readFrom_of_after now]
  holds e mem := sound.holds e (mem.imp_left fun none => by simp [response] at none)
  consecutive stream := ⟨0, by simp [response]⟩
  unread e mem := by simp [response] at mem
  absent := absent
  awaited stream mem := by simp [awaited] at mem
  subscribed := sound.subscribed

/-- What is due stays due. -/
lemma due_publish (mem : e ∈ s.due) : e ∈ (s.publish stream message).due := by
  show e ∈ if s.isDue stream then s.due ++ [s.newEntry stream message] else s.due
  split
  · exact List.mem_append_left _ mem
  · exact mem

/-- Only the new entry may become due. -/
lemma mem_due_publish (mem : e ∈ (s.publish stream message).due) :
    e ∈ s.due ∨ s.isDue stream = true ∧ e = s.newEntry stream message := by
  simp only [System.publish] at mem
  split at mem
  case isTrue isDue => exact (List.mem_append.1 mem).imp_right fun new => ⟨isDue, List.mem_singleton.1 new⟩
  case isFalse => exact .inl mem

/-- Only the new entry may answer the read. -/
lemma mem_response_publish (mem : e ∈ (s.publish stream message).phase.response) :
    e ∈ s.phase.response ∨ stream ∈ s.phase.awaited ∧ e = s.newEntry stream message := by
  by_cases awaited : stream ∈ s.phase.awaited
  · rw [phase_publish_of_awaited awaited] at mem
    exact .inr ⟨awaited, List.mem_singleton.1 mem⟩
  · rw [phase_publish_of_not_awaited awaited] at mem
    exact .inl mem

/-- Streams only grow. -/
lemma length_le_publish :
    (s.streams stream').length ≤ ((s.publish stream message).streams stream').length := by
  rw [streams_publish]
  split
  case isTrue same => simp [same]
  case isFalse => exact le_rfl

/-- The answer of a read that has waited is the message alone; another answer stays as it is. -/
lemma consecutive_publish (sound : Sound s) : ∃ n,
    ((s.publish stream message).phase.response.filter fun e => e.stream = stream').map (·.id) =
      List.range' ((s.publish stream message).position stream' + 1) n := by
  by_cases awaited : stream ∈ s.phase.awaited
  · have response : (s.publish stream message).phase.response = [s.newEntry stream message] := by
      rw [phase_publish_of_awaited awaited, Phase.response]
    have followed : s.isFollowed stream = true := by simp [System.isFollowed, awaited]
    rw [response, position_publish sound, if_neg (by simp [followed])]
    by_cases same : stream' = stream
    · exact ⟨1, by simp [same, System.newEntry, (sound.awaited stream awaited).2]⟩
    · exact ⟨0, by simp [System.newEntry, Ne.symm same]⟩
  · rw [phase_publish_of_not_awaited awaited, position_publish sound]
    split
    case isTrue unfollowed =>
      obtain ⟨rfl, unfollowed⟩ := unfollowed
      refine ⟨0, ?_⟩
      simp only [System.isFollowed, Bool.or_eq_false_iff, List.any_eq_false] at unfollowed
      rw [List.filter_eq_nil_iff.2 unfollowed.2]
      rfl
    case isFalse => exact sound.consecutive stream'

/-- Publishing keeps soundness. -/
lemma sound_publish (sound : Sound s) : Sound (s.publish stream message) where
  cursor stream' id cursor := by
    have before := sound.cursor stream' id cursor
    refine ⟨before.1.trans length_le_publish, before.2.1, ?_⟩
    rw [position_publish sound, if_neg, before.2.2]
    rintro ⟨rfl, unfollowed⟩
    have cursor' : s.cursor stream' = .after id := cursor
    simp [System.isFollowed, cursor'] at unfollowed
  holds e mem := by
    have old_or_new : s.Holds e ∨ e = s.newEntry stream message := by
      rcases mem with mem | mem | mem
      · exact (mem_response_publish mem).imp (fun old => sound.holds e (.inl old)) And.right
      · exact (mem_due_publish mem).imp (fun old => sound.holds e (.inr (.inl old))) And.right
      · exact .inl (sound.holds e (.inr (.inr mem)))
    rcases old_or_new with old | rfl
    · exact holds_publish old
    · exact holds_newEntry
  consecutive _ := consecutive_publish sound
  unread e mem newest := by
    rcases mem_response_publish mem with old | ⟨awaited, rfl⟩
    · exact due_publish (sound.unread e old newest)
    · have isDue := (sound.awaited stream awaited).1
      show s.newEntry stream message ∈ if s.isDue stream then s.due ++ [s.newEntry stream message] else s.due
      rw [if_pos isDue]
      exact List.mem_append_right _ List.mem_cons_self
  absent absent := by
    by_cases awaited : stream ∈ s.phase.awaited
    · rw [phase_publish_of_awaited awaited] at absent
      cases absent
    · rw [phase_publish_of_not_awaited awaited] at absent
      exact sound.absent absent
  awaited stream' mem := by
    by_cases awaited : stream ∈ s.phase.awaited
    · rw [phase_publish_of_awaited awaited] at mem
      cases mem
    · rw [phase_publish_of_not_awaited awaited] at mem
      have other : stream' ≠ stream := by
        rintro rfl
        exact awaited mem
      rw [position_publish sound, if_neg (fun both => other both.1), streams_publish, if_neg other]
      exact sound.awaited stream' mem
  subscribed e mem := by
    rcases mem_due_publish mem with old | ⟨isDue, rfl⟩
    · exact sound.subscribed e old
    · exact of_decide_eq_true (Bool.and_eq_true_iff.1 isDue).2

/-- A stream without a cursor gets a marker. -/
lemma sound_append (sound : Sound s) (response : s.phase.response = []) (awaited : s.phase.awaited = [])
    (newest : s.cursor stream = .newest) : Sound (s.append stream message) where
  cursor stream' id cursor := by
    have before := sound.cursor stream' id cursor
    have other : stream' ≠ stream := by
      rintro rfl
      rw [show s.cursor stream' = .after id from cursor] at newest
      cases newest
    have same : (s.append stream message).streams stream' = s.streams stream' := Function.update_of_ne other ..
    rw [same]
    refine ⟨before.1, before.2.1, ?_⟩
    rw [position_of_no_entry (by simp [System.append, response]), readFrom_of_after cursor]
  holds e mem := holds_append (sound.holds e mem)
  consecutive stream := ⟨0, by simp [System.append, response]⟩
  unread e mem := by simp [System.append, response] at mem
  absent := sound.absent
  awaited stream mem := by simp [System.append, awaited] at mem
  subscribed := sound.subscribed

/-- The cursor of a stream that has none stays so. -/
lemma cursor_setCursor_newest (newest : s.cursor stream = .newest) :
    (s.setCursor stream .newest).cursor stream' = s.cursor stream' := by
  rw [cursor_setCursor]
  split
  case isTrue same => rw [same, newest]
  case isFalse => rfl

/-- Setting a cursor to `$` that is there already moves nothing. -/
lemma position_setCursor_newest (newest : s.cursor stream = .newest) :
    (s.setCursor stream .newest).position stream' = s.position stream' := by
  rw [System.position, System.position, System.readFrom, cursor_setCursor_newest newest]
  rfl

/-- Setting a cursor to `$` that is there already keeps soundness. -/
lemma sound_setCursor_newest (sound : Sound s) (newest : s.cursor stream = .newest) :
    Sound (s.setCursor stream .newest) := by
  refine ⟨fun stream' id there => ?_, sound.holds, fun stream' => ?_, fun e mem there => ?_, fun absent => ?_,
    fun stream' mem => ?_, sound.subscribed⟩
  · rw [position_setCursor_newest newest]
    exact sound.cursor stream' id (by rwa [cursor_setCursor_newest newest] at there)
  · rw [position_setCursor_newest newest]
    exact sound.consecutive stream'
  · exact sound.unread e mem (by rwa [cursor_setCursor_newest newest] at there)
  · rw [cursor_setCursor_newest newest]
    exact sound.absent absent
  · rw [position_setCursor_newest newest]
    exact sound.awaited stream' mem

/-- An answer has the messages of its streams in order. -/
lemma filter_flatMap {streams : List String} (nodup : streams.Nodup) {f : String → List Entry}
    (own : ∀ stream, ∀ e ∈ f stream, e.stream = stream) :
    (streams.flatMap f).filter (fun e => e.stream = stream) = if stream ∈ streams then f stream else [] := by
  induction streams with
  | nil => rfl
  | cons first streams ih =>
    obtain ⟨new, rest⟩ := List.nodup_cons.1 nodup
    rw [List.flatMap_cons, List.filter_append, ih rest]
    by_cases same : stream = first
    · subst same
      have all : (f stream).filter (fun e => e.stream = stream) = f stream :=
        List.filter_eq_self.2 fun e mem => by simp [own stream e mem]
      rw [all, if_neg new, if_pos List.mem_cons_self, List.append_nil]
    · have none : (f first).filter (fun e => e.stream = stream) = [] :=
        List.filter_eq_nil_iff.2 fun e mem => by simp [own first e mem, Ne.symm same]
      rw [none, List.nil_append]
      simp [same]

/-- What a read finds in a stream. -/
lemma mem_available (mem : e ∈ s.available stream) :
    e.stream = stream ∧ s.Holds e ∧ ∃ id, s.cursor stream = .after id := by
  rw [System.available] at mem
  cases cursor : s.cursor stream with
  | newest =>
    rw [cursor] at mem
    cases mem
  | after id =>
    rw [cursor] at mem
    obtain ⟨rfl, k, place, there⟩ := mem_entriesFrom.1 mem
    rw [List.getElem?_drop] at there
    exact ⟨rfl, ⟨id + k, place, there⟩, id, rfl⟩

/-- What a read finds goes on from the cursor. -/
lemma map_id_available {id : ℕ} (cursor : s.cursor stream = .after id) :
    (s.available stream).map (·.id) = List.range' (id + 1) ((s.streams stream).length - id) := by
  rw [System.available, cursor]
  show (entriesFrom stream id ((s.streams stream).drop id)).map (·.id) = _
  rw [map_id_entriesFrom, List.length_drop]

/-- A read that finds entries answers with them. -/
lemma response_xRead : s.xRead.phase.response = s.response := by
  by_cases none : s.response = []
  · rw [show s.xRead.phase = .blocked _ from if_pos none, none]
    rfl
  · rw [show s.xRead.phase = .answered s.response from if_neg none]
    rfl

/-- What a read answers is in a stream that has a cursor. -/
lemma mem_response (mem : e ∈ s.response) : s.Holds e ∧ ∃ id, s.cursor e.stream = .after id := by
  obtain ⟨stream, -, found⟩ := List.mem_flatMap.1 mem
  obtain ⟨rfl, holds, cursor⟩ := mem_available (List.mem_of_mem_take found)
  exact ⟨holds, cursor⟩

/-- An answer goes on from the cursor of each stream, and has something of every stream that has something. -/
lemma map_id_response {id : ℕ} (cursor : s.cursor stream = .after id) :
    ∃ n, (s.response.filter fun e => e.stream = stream).map (·.id) = List.range' (id + 1) n ∧
      (stream ∈ subscribedStreams s.rules → id < (s.streams stream).length → 0 < n) := by
  have own : ∀ stream, ∀ e ∈ (s.available stream).take streamReadCount, e.stream = stream :=
    fun stream e mem => (mem_available (List.mem_of_mem_take mem)).1
  rw [System.response, filter_flatMap (nodup_subscribedStreams s.rules) own]
  by_cases mem : stream ∈ subscribedStreams s.rules
  · rw [if_pos mem, List.map_take, map_id_available cursor]
    rcases Nat.le_total ((s.streams stream).length - id) streamReadCount with few | many
    · exact ⟨_, List.take_range'_of_length_le few, fun _ more => Nat.sub_pos_of_lt more⟩
    · exact ⟨_, List.take_range'_of_length_ge many, fun _ _ => by decide⟩
  · rw [if_neg mem]
    exact ⟨0, rfl, fun subscribed => absurd subscribed mem⟩

/-- The start of a read moves no stream. -/
lemma position_xRead (response : s.phase.response = []) : s.xRead.position stream = s.position stream := by
  rw [position_of_no_entry (s := s) (by simp [response]), System.position, response_xRead]
  cases found : s.response.find? fun e => e.stream = stream with
  | none => rfl
  | some e =>
    have same : e.stream = stream := by simpa using List.find?_some found
    obtain ⟨-, id, cursor⟩ := mem_response (List.mem_of_find?_eq_some found)
    rw [same] at cursor
    obtain ⟨n, ids, -⟩ := map_id_response cursor
    have head : ((s.response.filter fun e => e.stream = stream).map (·.id)).head? = some e.id := by
      rw [List.head?_map, List.head?_filter, found]
      rfl
    rw [ids, List.head?_range'] at head
    split at head
    · cases head
    · show e.id - 1 = s.readFrom stream
      rw [readFrom_of_after cursor, ← Option.some.inj head]
      exact Nat.add_sub_cancel ..

/-- Nothing lies behind the cursor of a stream that a read waits for. -/
lemma position_of_blocked (sound : Sound s) (response : s.phase.response = []) (none : s.response = [])
    (subscribed : stream ∈ subscribedStreams s.rules) : s.position stream = (s.streams stream).length := by
  cases cursor : s.cursor stream with
  | newest =>
    rw [position_of_no_entry (by simp [response])]
    exact readFrom_of_newest cursor
  | after id =>
    have before := sound.cursor stream id cursor
    obtain ⟨n, ids, some⟩ := map_id_response cursor
    rw [none] at ids
    rw [before.2.2]
    refine le_antisymm before.1 (Nat.not_lt.1 fun more => ?_)
    have length := congrArg List.length ids
    rw [List.length_range'] at length
    exact absurd length (some subscribed more).ne

/-- Of each stream a read answers with the entries right after its position. -/
lemma consecutive_xRead (sound : Sound s) : ∃ n,
    (s.response.filter fun e => e.stream = stream).map (·.id) = List.range' (s.position stream + 1) n := by
  cases cursor : s.cursor stream with
  | newest =>
    refine ⟨0, ?_⟩
    rw [List.filter_eq_nil_iff.2]
    · rfl
    · intro e mem same
      obtain ⟨-, id, cursor'⟩ := mem_response mem
      rw [of_decide_eq_true same, cursor] at cursor'
      cases cursor'
  | after id =>
    obtain ⟨n, ids, -⟩ := map_id_response cursor
    exact ⟨n, by rw [ids, (sound.cursor stream id cursor).2.2]⟩

/-- A read keeps soundness. -/
lemma sound_xRead (sound : Sound s) (response : s.phase.response = []) : Sound s.xRead where
  cursor stream id cursor := by
    rw [position_xRead response]
    exact sound.cursor stream id cursor
  holds e mem := by
    rw [response_xRead] at mem
    rcases mem with new | old
    · exact (mem_response new).1
    · exact sound.holds e (.inr old)
  consecutive stream := by
    rw [response_xRead, position_xRead response]
    exact consecutive_xRead sound
  unread e mem newest := by
    rw [response_xRead] at mem
    obtain ⟨-, id, cursor⟩ := mem_response mem
    rw [show s.cursor e.stream = .newest from newest] at cursor
    cases cursor
  absent absent := by
    exfalso
    simp only [System.xRead] at absent
    split at absent
    · cases absent
    · cases absent
  awaited stream mem := by
    by_cases none : s.response = []
    · rw [show s.xRead.phase = .blocked _ from if_pos none] at mem
      have subscribed : stream ∈ subscribedStreams s.rules := mem
      refine ⟨decide_eq_true subscribed, ?_⟩
      rw [position_xRead response]
      exact position_of_blocked sound response none subscribed
    · rw [show s.xRead.phase = .answered s.response from if_neg none] at mem
      cases mem
  subscribed := sound.subscribed

/-- The first message of an answer is the next one of its stream, and what follows goes on from it. -/
lemma consecutive_cons {response : List Entry} (sound : Sound s) (phase : s.phase = .handling (e :: response)) :
    e.id = s.position e.stream + 1 ∧
      ∃ n, (response.filter fun e' => e'.stream = e.stream).map (·.id) = List.range' (e.id + 1) n := by
  obtain ⟨n, ids⟩ := sound.consecutive e.stream
  rw [phase, Phase.response, List.filter_cons_of_pos (by simp), List.map_cons] at ids
  cases n with
  | zero => cases ids
  | succ n =>
    rw [List.range'_succ] at ids
    obtain ⟨first, rest⟩ := List.cons.inj ids
    exact ⟨first, n, by rw [first]; exact rest⟩

/-- Handling an entry moves the position of its stream to it. -/
lemma position_handle {response : List Entry} (sound : Sound s) (phase : s.phase = .handling (e :: response)) :
    (s.handle e response).position stream = if stream = e.stream then e.id else s.position stream := by
  have cursor : (s.handle e response).cursor stream = if stream = e.stream then .after e.id else s.cursor stream :=
    cursor_setCursor
  show (match response.find? fun e' => e'.stream = stream with
    | some e => e.id - 1
    | none => (s.handle e response).readFrom stream) = _
  by_cases same : stream = e.stream
  · rw [if_pos same] at cursor
    rw [if_pos same, readFrom_of_after cursor, same]
    obtain ⟨-, n, ids⟩ := consecutive_cons sound phase
    cases found : response.find? fun e' => e'.stream = e.stream with
    | none => rfl
    | some next =>
      have head : ((response.filter fun e' => e'.stream = e.stream).map (·.id)).head? = some next.id := by
        rw [List.head?_map, List.head?_filter, found]
        rfl
      rw [ids, List.head?_range'] at head
      split at head
      · cases head
      · show next.id - 1 = e.id
        rw [← Option.some.inj head]
        exact Nat.add_sub_cancel ..
  · rw [if_neg same] at cursor
    rw [if_neg same, System.position, phase, Phase.response, List.find?_cons_of_neg (by simpa using Ne.symm same),
      System.readFrom, cursor]
    rfl

/-- Handling the first entry of the answer keeps soundness. -/
lemma sound_handle {response : List Entry} (sound : Sound s) (phase : s.phase = .handling (e :: response)) :
    Sound (s.handle e response) := by
  have holds : s.Holds e := sound.holds e (.inl (by rw [phase]; exact List.mem_cons_self))
  have cursor : ∀ stream, (s.handle e response).cursor stream =
      if stream = e.stream then .after e.id else s.cursor stream := fun stream => cursor_setCursor
  refine ⟨fun stream id cursor' => ?_, fun e' mem => ?_, fun stream => ?_, fun e' mem newest => ?_, nofun, nofun,
    sound.subscribed⟩
  · rw [cursor] at cursor'
    rw [position_handle sound phase]
    split at cursor'
    case isTrue same =>
      cases cursor'
      rw [if_pos same, same]
      exact ⟨id_le_of_holds holds, by rw [(consecutive_cons sound phase).1]; exact Nat.le_add_left .., rfl⟩
    case isFalse other =>
      rw [if_neg other]
      exact sound.cursor stream id cursor'
  · rcases mem with later | due | mem
    · exact sound.holds e' (.inl (by rw [phase]; exact List.mem_cons_of_mem _ later))
    · exact sound.holds e' (.inr (.inl due))
    · rcases List.mem_append.1 mem with old | now
      · exact sound.holds e' (.inr (.inr old))
      · rw [List.mem_singleton.1 now]
        exact holds
  · rw [position_handle sound phase]
    split
    case isTrue same =>
      rw [same]
      exact (consecutive_cons sound phase).2
    case isFalse other =>
      obtain ⟨n, ids⟩ := sound.consecutive stream
      rw [phase, Phase.response, List.filter_cons_of_neg (by simpa using Ne.symm other)] at ids
      exact ⟨n, ids⟩
  · rw [cursor] at newest
    split at newest
    · cases newest
    · exact sound.unread e' (by rw [phase]; exact List.mem_cons_of_mem _ mem) newest

/-- Taking the answer moves no position. -/
lemma position_receive {response : List Entry} (answered : s.phase = .answered response) :
    ({ s with phase := .handling response } : System).position stream = s.position stream := by
  rw [System.position, System.position, answered]
  rfl

/-- Taking the answer keeps soundness. -/
lemma sound_receive {response : List Entry} (sound : Sound s) (answered : s.phase = .answered response) :
    Sound { s with phase := .handling response } := by
  have same : s.phase.response = response := by rw [answered, Phase.response]
  refine ⟨fun stream id cursor => ?_, fun e mem => ?_, fun stream => ?_, fun e mem newest => ?_, nofun, nofun,
    sound.subscribed⟩
  · rw [position_receive answered]
    exact sound.cursor stream id cursor
  · rw [show Phase.response (.handling response) = s.phase.response from same.symm] at mem
    exact sound.holds e mem
  · rw [position_receive answered, show Phase.response (.handling response) = s.phase.response from same.symm]
    exact sound.consecutive stream
  · rw [show Phase.response (.handling response) = s.phase.response from same.symm] at mem
    exact sound.unread e mem newest

/-- A new rule moves no cursor. -/
lemma sound_registerRule {domain : String} {patterns : List String} (sound : Sound s) :
    Sound { s with rules := s.rules.set domain patterns } := by
  refine ⟨sound.cursor, sound.holds, sound.consecutive, sound.unread, sound.absent, fun stream mem => ?_,
    fun e mem => subscribedStreams_mono (sound.subscribed e mem)⟩
  obtain ⟨due, position⟩ := sound.awaited stream mem
  obtain ⟨begun, subscribed⟩ := Bool.and_eq_true_iff.1 due
  refine ⟨Bool.and_eq_true_iff.2 ⟨begun, decide_eq_true ?_⟩, position⟩
  exact subscribedStreams_mono (of_decide_eq_true subscribed)

/-- A stream without messages has no cursor. -/
lemma cursor_of_empty (sound : Sound s) (empty : s.streams stream = []) : s.cursor stream = .newest := by
  cases cursor : s.cursor stream with
  | newest => rfl
  | after id =>
    have before := sound.cursor _ id cursor
    rw [empty] at before
    exact absurd (before.2.1.trans before.1) (by decide)

/-- The stream of the loop gets its marker. -/
lemma sound_marked (sound : Sound s) (absent : s.phase = .absent) :
    Sound (s.append cacheInvalidationStream marker) :=
  sound_append sound (by simp [absent, Phase.response]) (by simp [absent, Phase.awaited]) (sound.absent absent)

/-- The creation of the stream keeps soundness. -/
lemma sound_create {outcome : Outcome} (sound : Sound s) (absent : s.phase = .absent) : Sound (s.create outcome) := by
  have marked := sound_marked sound absent
  cases outcome with
  | done => exact sound_leave (sound_setCursor_newest marked (sound.absent absent)) rfl rfl nofun
  | raised => exact sound_leave sound rfl rfl nofun
  | raisedAfter => exact sound_leave marked rfl rfl nofun

/-- Each step keeps soundness. -/
lemma sound_step (sound : Sound s) (taken : s.step m = some s') : Sound s' := by
  cases step_cases taken with
  | publish => exact sound_publish sound
  | registerRule => exact sound_registerRule sound
  | wait => exact sound
  | missing _ empty => exact sound_leave sound rfl rfl fun _ => cursor_of_empty sound empty
  | found => exact sound_leave sound rfl rfl nofun
  | xAdd absent => exact sound_create sound absent
  | xRead ready => exact sound_xRead sound (by simp [ready, Phase.response])
  | timeout => exact sound_leave sound rfl rfl nofun
  | readFails => exact sound_leave sound rfl rfl nofun
  | receive answered => exact sound_receive sound answered
  | onStreamEvent handling => exact sound_handle sound handling
  | next => exact sound_leave sound rfl rfl nofun

/-- What was accounted for stays so where the loop has no more and no less of it behind itself. -/
lemma accounted_congr (due : s'.due = s.due) (processed : s'.processed = s.processed)
    (same : ∀ e ∈ s.due, e.id ≤ s'.position e.stream ↔ e.id ≤ s.position e.stream) : Accounted s' ↔ Accounted s := by
  rw [Accounted, Accounted, due, processed]
  refine forall₂_congr fun e mem => ?_
  simp only [same e mem]

/-- The manager goes on without an answer: nothing is lost where the answer comes again. -/
lemma accounted_leave {phase : Phase} (sound : Sound s) (accounted : Accounted s) (response : phase.response = []) :
    Accounted { s with phase := phase } ↔ ∀ e ∈ s.phase.response, s.cursor e.stream ≠ .newest := by
  have readFrom : ∀ stream, ({ s with phase := phase } : System).position stream = s.readFrom stream :=
    fun stream => position_of_no_entry (by simp [response])
  constructor
  · intro accounted' e mem newest
    -- a message that was to be handled is behind the loop now
    have due := sound.unread e mem newest
    have holds := sound.holds e (.inl mem)
    have behind : e.id ≤ s.readFrom e.stream := by
      rw [readFrom_of_newest newest]
      exact id_le_of_holds holds
    have ahead : ¬e.id ≤ s.position e.stream := by
      obtain ⟨n, ids⟩ := sound.consecutive e.stream
      have mem' : e.id ∈ (s.phase.response.filter fun e' => e'.stream = e.stream).map (·.id) :=
        List.mem_map_of_mem (List.mem_filter.2 ⟨mem, decide_eq_true rfl⟩)
      rw [ids, List.mem_range'_1] at mem'
      omega
    have before := accounted e due
    have after := accounted' e due
    rw [if_neg ahead] at before
    rw [readFrom, if_pos behind] at after
    exact absurd (before.symm.trans after) (by decide)
  · intro cursors
    refine (@accounted_congr s { s with phase := phase } rfl rfl fun e due => ?_).2 accounted
    rw [readFrom]
    cases found : s.phase.response.find? fun e' => e'.stream = e.stream with
    | none =>
      rw [System.position, found]
    | some next =>
      have same : next.stream = e.stream := by simpa using List.find?_some found
      have cursor := cursors next (List.mem_of_find?_eq_some found)
      rw [same] at cursor
      cases here : s.cursor e.stream with
      | newest => exact absurd here cursor
      | after id => rw [readFrom_of_after here, (sound.cursor _ id here).2.2]

/-- A message on a stream that is due is accounted for where the stream is followed. -/
lemma accounted_publish (sound : Sound s) (accounted : Accounted s) :
    Accounted (s.publish stream message) ↔ s.isDue stream = false ∨ s.isFollowed stream = true := by
  have unprocessed : s.processed.count (s.newEntry stream message) = 0 := by
    refine List.count_eq_zero.2 fun mem => ?_
    have := id_le_of_holds (sound.holds _ (.inr (.inr mem)))
    exact absurd this (Nat.not_succ_le_self _)
  -- what was due before is behind the loop or ahead of it as before
  have old : ∀ e ∈ s.due, (s.publish stream message).processed.count e =
      if e.id ≤ (s.publish stream message).position e.stream then 1 else 0 := by
    intro e due
    have same : e.id ≤ (s.publish stream message).position e.stream ↔ e.id ≤ s.position e.stream := by
      rw [position_publish sound]
      by_cases moved : e.stream = stream ∧ s.isFollowed stream = false
      · have here := id_le_of_holds (sound.holds e (.inr (.inl due)))
        rw [if_pos moved, moved.1, position_of_unfollowed moved.2]
        rw [moved.1] at here
        exact iff_of_true (here.trans (Nat.le_succ _)) here
      · rw [if_neg moved]
    simp only [same]
    exact accounted e due
  by_cases isDue : s.isDue stream = true
  · have due : (s.publish stream message).due = s.due ++ [s.newEntry stream message] := if_pos isDue
    have position : (s.publish stream message).position stream =
        if s.isFollowed stream = false then (s.streams stream).length + 1 else s.position stream := by
      rw [position_publish sound]
      simp only [true_and]
    constructor
    · intro accounted'
      refine .inr (Bool.eq_true_of_not_eq_false fun unfollowed => ?_)
      have new := accounted' (s.newEntry stream message) (by rw [due]; exact List.mem_append_right _ List.mem_cons_self)
      rw [show (s.publish stream message).processed = s.processed from rfl, unprocessed, if_pos] at new
      · cases new
      · show (s.streams stream).length + 1 ≤ (s.publish stream message).position stream
        rw [position, if_pos unfollowed]
    · intro safe
      have followed := safe.resolve_left (by rw [isDue]; decide)
      intro e mem
      rw [due] at mem
      rcases List.mem_append.1 mem with before | now
      · exact old e before
      · rw [List.mem_singleton.1 now]
        refine unprocessed.trans (if_neg ?_).symm
        show ¬(s.streams stream).length + 1 ≤ (s.publish stream message).position stream
        rw [position, if_neg (by simp [followed])]
        exact Nat.not_le.2 (Nat.lt_succ_of_le (position_le sound))
  · have due : (s.publish stream message).due = s.due := if_neg isDue
    refine iff_of_true (fun e mem => ?_) (.inl (Bool.eq_false_of_not_eq_true isDue))
    rw [due] at mem
    exact old e mem

/-- Handling accounts for what it moves past. -/
lemma accounted_handle {response : List Entry} (sound : Sound s) (accounted : Accounted s)
    (phase : s.phase = .handling (e :: response)) : Accounted (s.handle e response) := by
  obtain ⟨next, -⟩ := consecutive_cons sound phase
  intro e' due
  rw [position_handle sound phase]
  show (s.processed ++ [e]).count e' = _
  rw [List.count_append, List.count_singleton, accounted e' due]
  by_cases same : e'.stream = e.stream
  · rw [if_pos same, same]
    by_cases here : e = e'
    · subst here
      rw [next, if_neg (Nat.not_succ_le_self _), if_pos le_rfl]
      simp
    · -- another message has another place
      have places : e'.id ≠ e.id := by
        intro places
        obtain ⟨k, place, there⟩ := sound.holds e' (.inr (.inl due))
        obtain ⟨k', place', there'⟩ := sound.holds e (.inl (by rw [phase]; exact List.mem_cons_self))
        obtain rfl : k = k' := by omega
        rw [same, there'] at there
        obtain ⟨_, _, _⟩ := e
        obtain ⟨_, _, _⟩ := e'
        cases there
        cases same
        cases places
        exact here rfl
      have shift : e'.id ≤ e.id ↔ e'.id ≤ s.position e.stream := by omega
      simp only [shift, beq_iff_eq, if_neg here, Nat.add_zero]
  · have other : e ≠ e' := by
      rintro rfl
      exact same rfl
    rw [if_neg same]
    simp only [beq_iff_eq, if_neg other, Nat.add_zero]

/-- A message behind a cursor at `$` is accounted for. -/
lemma accounted_append (sound : Sound s) (accounted : Accounted s) (response : s.phase.response = [])
    (newest : s.cursor stream = .newest) : Accounted (s.append stream message) := by
  refine (@accounted_congr s (s.append stream message) rfl rfl fun e due => ?_).2 accounted
  rw [position_of_no_entry (s := s.append stream message) (by simp [System.append, response]),
    position_of_no_entry (by simp [response])]
  by_cases same : e.stream = stream
  · have here := id_le_of_holds (sound.holds e (.inr (.inl due)))
    rw [same] at here ⊢
    rw [readFrom_of_newest newest, readFrom_of_newest (s := s.append stream message) newest]
    refine iff_of_true (here.trans ?_) here
    show _ ≤ (Function.update s.streams stream (s.streams stream ++ [message]) stream).length
    rw [Function.update_self, List.length_append]
    exact Nat.le_add_right ..
  · have streams : (s.append stream message).streams e.stream = s.streams e.stream := Function.update_of_ne same ..
    rw [System.readFrom, streams, System.readFrom]
    rfl

/-- A move that has no answer to lose. -/
lemma accounted_go {phase : Phase} (sound : Sound s) (accounted : Accounted s) (none : s.phase.response = [])
    (response : phase.response = []) : Accounted { s with phase := phase } :=
  (accounted_leave sound accounted response).2 (by simp [none])

/-- The creation of the stream accounts for what it moves past. -/
lemma accounted_create {outcome : Outcome} (sound : Sound s) (accounted : Accounted s) (absent : s.phase = .absent) :
    Accounted (s.create outcome) := by
  have newest := sound.absent absent
  have response : s.phase.response = [] := by simp [absent, Phase.response]
  have marked := sound_marked sound absent
  have appended : Accounted (s.append cacheInvalidationStream marker) :=
    accounted_append sound accounted response newest
  cases outcome with
  | done =>
    refine accounted_go (sound_setCursor_newest marked newest) (fun e due => ?_) response rfl
    rw [@position_setCursor_newest (s.append cacheInvalidationStream marker) _ _ newest]
    exact appended e due
  | raised => exact accounted_go sound accounted response rfl
  | raisedAfter => exact accounted_go marked appended response rfl

/-- Where nothing moves, nothing is lost. -/
lemma accounted_of_position (accounted : Accounted s) (due : s'.due = s.due) (processed : s'.processed = s.processed)
    (position : ∀ stream, s'.position stream = s.position stream) : Accounted s' :=
  (accounted_congr due processed fun e _ => by rw [position]).2 accounted

/-- A step keeps the property exactly where it is safe. -/
lemma accounted_step_iff (sound : Sound s) (accounted : Accounted s) (taken : s.step m = some s') :
    Accounted s' ↔ s.isSafe m = true := by
  cases step_cases taken with
  | publish => rw [accounted_publish sound accounted, System.isSafe, Bool.or_eq_true, Bool.not_eq_true']
  | registerRule => exact iff_of_true accounted rfl
  | wait => exact iff_of_true accounted rfl
  | missing top => exact iff_of_true (accounted_go sound accounted (by simp [top, Phase.response]) rfl) rfl
  | found top => exact iff_of_true (accounted_go sound accounted (by simp [top, Phase.response]) rfl) rfl
  | xAdd absent => exact iff_of_true (accounted_create sound accounted absent) rfl
  | xRead ready =>
    have response : s.phase.response = [] := by simp [ready, Phase.response]
    exact iff_of_true (accounted_of_position accounted rfl rfl fun _ => position_xRead response) rfl
  | timeout blocked => exact iff_of_true (accounted_go sound accounted (by simp [blocked, Phase.response]) rfl) rfl
  | readFails =>
    rw [accounted_leave sound accounted rfl, System.isSafe, List.all_eq_true]
    simp only [decide_eq_true_iff]
  | receive answered =>
    exact iff_of_true (accounted_of_position accounted rfl rfl fun _ => position_receive answered) rfl
  | onStreamEvent handling => exact iff_of_true (accounted_handle sound accounted handling) rfl
  | next handling => exact iff_of_true (accounted_go sound accounted (by simp [handling, Phase.response]) rfl) rfl

/-- At the start nothing was read. -/
lemma sound_initial {streams : String → List Message} {rules : Dict String (List String)} :
    Sound (System.initial streams rules) where
  cursor stream id cursor := by cases cursor
  holds e mem := by rcases mem with mem | mem | mem <;> cases mem
  consecutive stream := ⟨0, rfl⟩
  unread e mem := by cases mem
  absent := nofun
  awaited stream mem := by cases mem
  subscribed e mem := by cases mem

/-- A read that starts now has at least as much behind it. -/
lemma position_le_readFrom (sound : Sound s) : s.position stream ≤ s.readFrom stream := by
  cases cursor : s.cursor stream with
  | newest =>
    rw [readFrom_of_newest cursor]
    exact position_le sound
  | after id => rw [readFrom_of_after cursor, (sound.cursor stream id cursor).2.2]

/-- No position falls when an answer is dropped. -/
lemma position_leave {phase : Phase} (sound : Sound s) (response : phase.response = []) :
    s.position stream ≤ ({ s with phase := phase } : System).position stream := by
  rw [position_of_no_entry (s := { s with phase := phase }) (by simp [response])]
  exact position_le_readFrom sound

/-- The end of an iteration. -/
def Move.isNext : Move → Bool
  | .next => true
  | _ => false

/-- After `n` ends of iterations that the stream has waited for, each but the last has moved it; the present answer
moves it where it has messages of it, and no read waits. -/
def Phase.Keeps (stream : String) (start n position : ℕ) : Phase → Prop
  | .blocked _ => False
  | .answered response => start + n ≤ position + if response.any fun e => e.stream = stream then 1 else 0
  | .handling response => start + n ≤ position + if response.any fun e => e.stream = stream then 1 else 0
  | _ => start + n ≤ position + 1

/-- The message is behind the loop, or the stream has moved with each iteration but the last. -/
structure Moving (stream : String) (id start n : ℕ) (s : System) : Prop where
  start_le : start ≤ s.position stream
  id_le : id ≤ (s.streams stream).length
  subscribed : stream ∈ subscribedStreams s.rules
  moved : id ≤ s.position stream ∨ n = 0 ∨ s.phase.Keeps stream start n (s.position stream)

variable {start n id : ℕ}

/-- The entries counted lie at or below the position. -/
lemma Phase.Keeps.le {phase : Phase} {position : ℕ} (keeps : phase.Keeps stream start n position) :
    start + n ≤ position + 1 := by
  have entry : ∀ response : List Entry, (if response.any fun e => e.stream = stream then 1 else 0) ≤ 1 := by
    intro response
    split
    · exact le_rfl
    · exact Nat.zero_le 1
  cases phase with
  | blocked streams => exact absurd keeps id
  | answered response => exact keeps.trans (Nat.add_le_add_left (entry response) position)
  | handling response => exact keeps.trans (Nat.add_le_add_left (entry response) position)
  | _ => exact keeps

/-- A later position keeps the count. -/
lemma Phase.Keeps.mono {phase : Phase} {position position' : ℕ} (keeps : phase.Keeps stream start n position)
    (le : position ≤ position') : phase.Keeps stream start n position' := by
  cases phase with
  | blocked streams => exact keeps
  | answered response => exact keeps.trans (Nat.add_le_add_right le _)
  | handling response => exact keeps.trans (Nat.add_le_add_right le _)
  | _ => exact keeps.trans (Nat.add_le_add_right le 1)

/-- The manager goes on without an answer. -/
lemma moving_leave {phase : Phase} (sound : Sound s) (moving : Moving stream id start n s)
    (response : phase.response = [])
    (keeps : ∀ position, start + n ≤ position + 1 → phase.Keeps stream start n position) :
    Moving stream id start n { s with phase := phase } := by
  have le : s.position stream ≤ ({ s with phase := phase } : System).position stream := position_leave sound response
  refine ⟨moving.start_le.trans le, moving.id_le, moving.subscribed, ?_⟩
  rcases moving.moved with behind | none | kept
  · exact .inl (behind.trans le)
  · exact .inr (.inl none)
  · exact .inr (.inr (keeps _ (kept.le.trans (Nat.add_le_add_right le 1))))

/-- A new message keeps the count of the steps made. -/
lemma moving_append (sound : Sound s) (response : s.phase.response = []) (moving : Moving stream id start n s) :
    Moving stream id start n (s.append stream' message) := by
  have streams : (s.streams stream).length ≤ ((s.append stream' message).streams stream).length := length_le_publish
  have le : s.position stream ≤ (s.append stream' message).position stream := by
    rw [position_of_no_entry (s := s.append stream' message) (by simp [System.append, response])]
    refine (position_le_readFrom sound).trans ?_
    cases cursor : s.cursor stream with
    | newest =>
      rw [readFrom_of_newest cursor, readFrom_of_newest (s := s.append stream' message) cursor]
      exact streams
    | after id => rw [readFrom_of_after cursor, readFrom_of_after (s := s.append stream' message) cursor]
  refine ⟨moving.start_le.trans le, moving.id_le.trans streams, moving.subscribed, ?_⟩
  rcases moving.moved with behind | none | kept
  · exact .inl (behind.trans le)
  · exact .inr (.inl none)
  · exact .inr (.inr (kept.mono le))

/-- A message that may answer the read keeps the count of the steps made. -/
lemma moving_publish (sound : Sound s) (moving : Moving stream id start n s) :
    Moving stream id start n (s.publish stream' message) := by
  have le : s.position stream ≤ (s.publish stream' message).position stream := by
    rw [position_publish sound]
    split
    case isTrue moved => rw [moved.1]; exact (position_le sound).trans (Nat.le_succ _)
    case isFalse => exact le_rfl
  refine ⟨moving.start_le.trans le, moving.id_le.trans length_le_publish, moving.subscribed, ?_⟩
  rcases moving.moved with behind | none | kept
  · exact .inl (behind.trans le)
  · exact .inr (.inl none)
  · refine .inr (.inr ?_)
    rw [phase_publish_of_not_awaited]
    · exact kept.mono le
    · intro awaited
      cases phase : s.phase with
      | blocked streams =>
        rw [phase] at kept
        exact kept
      | _ =>
        rw [phase] at awaited
        cases awaited

/-- A read finds a message that is not behind the loop. -/
lemma moving_xRead (ready : s.phase = .ready) (moving : Moving stream id start n s) :
    Moving stream id start n s.xRead := by
  have response : s.phase.response = [] := by simp [ready, Phase.response]
  have position : s.xRead.position stream = s.position stream := position_xRead response
  refine ⟨moving.start_le.trans_eq position.symm, moving.id_le, moving.subscribed, ?_⟩
  rw [position]
  rcases moving.moved with behind | none | kept
  · exact .inl behind
  · exact .inr (.inl none)
  · rcases Nat.lt_or_ge (s.position stream) id with ahead | behind
    · refine .inr (.inr ?_)
      have here : s.position stream = s.readFrom stream := position_of_no_entry (by simp [response])
      cases cursor : s.cursor stream with
      | newest =>
        rw [readFrom_of_newest cursor] at here
        exact absurd (here ▸ ahead) (Nat.not_lt.2 moving.id_le)
      | after at' =>
        rw [readFrom_of_after cursor] at here
        obtain ⟨k, ids, some⟩ := map_id_response cursor
        have more := some moving.subscribed (here ▸ ahead.trans_le moving.id_le)
        have found : (s.response.filter fun e => e.stream = stream) ≠ [] := by
          intro none
          rw [none, List.map_nil] at ids
          have length := congrArg List.length ids
          rw [List.length_range'] at length
          exact absurd length more.ne
        obtain ⟨e, mem⟩ := List.exists_mem_of_ne_nil _ found
        obtain ⟨mem, same⟩ := List.mem_filter.1 mem
        have any : (s.response.any fun e => e.stream = stream) = true := List.any_eq_true.2 ⟨e, mem, same⟩
        rw [show s.xRead.phase = .answered s.response from if_neg (List.ne_nil_of_mem mem)]
        show start + n ≤ s.position stream + if s.response.any fun e => e.stream = stream then 1 else 0
        rw [if_pos any]
        exact kept.le
    · exact .inl behind

/-- Handling an entry makes one step of the count. -/
lemma moving_handle {response : List Entry} (sound : Sound s) (phase : s.phase = .handling (e :: response))
    (moving : Moving stream id start n s) : Moving stream id start n (s.handle e response) := by
  have position : (s.handle e response).position stream = if stream = e.stream then e.id else s.position stream :=
    position_handle sound phase
  obtain ⟨next, -⟩ := consecutive_cons sound phase
  by_cases same : stream = e.stream
  · rw [if_pos same, next, ← same] at position
    refine ⟨moving.start_le.trans ?_, moving.id_le, moving.subscribed, ?_⟩
    · rw [position]
      exact Nat.le_succ _
    · rw [position]
      rcases moving.moved with behind | none | kept
      · exact .inl (behind.trans (Nat.le_succ _))
      · exact .inr (.inl none)
      · exact .inr (.inr (kept.le.trans (Nat.le_add_right _ _)))
  · rw [if_neg same] at position
    refine ⟨moving.start_le.trans_eq position.symm, moving.id_le, moving.subscribed, ?_⟩
    rw [position]
    refine moving.moved.imp_right (Or.imp_right fun kept => ?_)
    rw [phase] at kept
    have kept : start + n ≤ s.position stream + if (e :: response).any fun e => e.stream = stream then 1 else 0 := kept
    rw [List.any_cons, decide_eq_false (Ne.symm same), Bool.false_or] at kept
    exact kept

/-- An iteration ends: the stream has moved if it had to. -/
lemma moving_next (sound : Sound s) (phase : s.phase = .handling []) (moving : Moving stream id start n s) :
    Moving stream id start (n + 1) { s with phase := .top } := by
  have le : s.position stream ≤ ({ s with phase := .top } : System).position stream := position_leave sound rfl
  refine ⟨moving.start_le.trans le, moving.id_le, moving.subscribed, ?_⟩
  rcases moving.moved with behind | rfl | kept
  · exact .inl (behind.trans le)
  · exact .inr (.inr (Nat.succ_le_succ (moving.start_le.trans le)))
  · rw [phase] at kept
    have kept : start + n ≤ s.position stream := kept
    exact .inr (.inr (Nat.succ_le_succ (kept.trans le)))

/-- The creation of the stream makes none. -/
lemma moving_create {outcome : Outcome} (sound : Sound s) (absent : s.phase = .absent)
    (moving : Moving stream id start n s) : Moving stream id start n (s.create outcome) := by
  have newest := sound.absent absent
  have marked := sound_marked sound absent
  have appended : Moving stream id start n (s.append cacheInvalidationStream marker) :=
    moving_append sound (by simp [absent, Phase.response]) moving
  cases outcome with
  | done =>
    refine moving_leave (sound_setCursor_newest marked newest) ⟨?_, appended.id_le, appended.subscribed, ?_⟩ rfl
      fun _ kept => kept
    · rw [@position_setCursor_newest (s.append cacheInvalidationStream marker) _ _ newest]
      exact appended.start_le
    · rw [@position_setCursor_newest (s.append cacheInvalidationStream marker) _ _ newest]
      exact appended.moved
  | raised => exact moving_leave sound moving rfl fun _ kept => kept
  | raisedAfter => exact moving_leave marked appended rfl fun _ kept => kept

/-- Taking the answer makes none. -/
lemma moving_receive {response : List Entry} (answered : s.phase = .answered response)
    (moving : Moving stream id start n s) : Moving stream id start n { s with phase := .handling response } := by
  have moved := moving.moved
  rw [answered] at moved
  refine ⟨?_, moving.id_le, moving.subscribed, ?_⟩
  · rw [position_receive answered]
    exact moving.start_le
  · rw [position_receive answered]
    exact moved

/-- Each step of the loop moves on by one entry. -/
lemma moving_step (sound : Sound s) (moving : Moving stream id start n s) (taken : s.step m = some s') :
    Moving stream id start (n + if m.isNext then 1 else 0) s' := by
  cases step_cases taken with
  | publish => exact moving_publish sound moving
  | registerRule =>
    exact ⟨moving.start_le, moving.id_le, subscribedStreams_mono moving.subscribed, moving.moved⟩
  | wait => exact moving
  | missing => exact moving_leave sound moving rfl fun _ kept => kept
  | found => exact moving_leave sound moving rfl fun _ kept => kept
  | xAdd absent => exact moving_create sound absent moving
  | xRead ready => exact moving_xRead ready moving
  | timeout => exact moving_leave sound moving rfl fun _ kept => kept
  | readFails => exact moving_leave sound moving rfl fun _ kept => kept
  | receive answered => exact moving_receive answered moving
  | onStreamEvent handling => exact moving_handle sound handling moving
  | next handling => exact moving_next sound handling moving

variable {streams : String → List Message} {rules : Dict String (List String)}

/-- Every run keeps soundness. -/
lemma sound_exec {trace : List Move} (sound : Sound s) (run : Machine.exec System.step s trace = some s') : Sound s' :=
  Machine.exec_invariant sound (fun _ _ _ inv taken => sound_step inv taken) run

/-- A run has moved on by as many entries as it has steps of the loop. -/
lemma moving_exec {trace : List Move} (sound : Sound s) (moving : Moving stream id start 0 s)
    (run : Machine.exec System.step s trace = some s') : Moving stream id start (trace.countP Move.isNext) s' := by
  induction trace using List.reverseRecOn generalizing s' with
  | nil =>
    cases run
    exact moving
  | append_singleton trace m ih =>
    obtain ⟨u, first, last⟩ := Machine.exec_snoc.1 run
    rw [List.countP_append, List.countP_singleton]
    exact moving_step (sound_exec sound first) (ih first) last

/-- What is due stays so. -/
lemma due_step (taken : s.step m = some s') (mem : e ∈ s.due) : e ∈ s'.due := by
  cases step_cases taken with
  | publish => exact due_publish mem
  | @xAdd outcome _ => cases outcome <;> exact mem
  | _ => exact mem

/-- Throughout a run each message that is due is processed exactly once, where the loop has it behind itself, if and
only if each step is safe. Then a message that is due at some time has been processed, exactly once, as soon as the
loop has ended more iterations than there are messages up to this one. -/
theorem accounted_iff_safe {trace : List Move} (run : Machine.exec System.step (System.initial streams rules) trace =
    some s') :
    (Machine.Always System.step Accounted (System.initial streams rules) trace ↔
      Machine.Guarded System.step (fun s m => s.isSafe m = true) (System.initial streams rules) trace) ∧
    (Machine.Guarded System.step (fun s m => s.isSafe m = true) (System.initial streams rules) trace →
      ∀ earlier later s, trace = earlier ++ later →
        Machine.exec System.step (System.initial streams rules) earlier = some s →
        ∀ e ∈ s.due, s'.processed.count e ≤ 1 ∧
          (e.id - s.position e.stream < later.countP Move.isNext → s'.processed.count e = 1)) := by
  have exact_run : Machine.Always System.step Accounted (System.initial streams rules) trace ↔
      Machine.Guarded System.step (fun s m => s.isSafe m = true) (System.initial streams rules) trace :=
    Machine.always_iff_guarded (I := Sound) sound_initial (fun e mem => absurd mem List.not_mem_nil)
      (fun s m s' sound _ taken => sound_step sound taken)
      (fun s m s' sound accounted taken => accounted_step_iff sound accounted taken) run
  refine ⟨exact_run, fun safe earlier later s split first e due => ?_⟩
  have accounted : Accounted s' := exact_run.2 safe trace s' (List.prefix_refl trace) run
  rw [split, Machine.exec_append, first] at run
  have sound := sound_exec sound_initial first
  have due' : e ∈ s'.due :=
    Machine.exec_invariant (I := fun s => e ∈ s.due) due (fun _ _ _ mem taken => due_step taken mem) run
  have moving : Moving e.stream e.id (s.position e.stream) 0 s :=
    ⟨le_rfl, id_le_of_holds (sound.holds e (.inr (.inl due))), sound.subscribed e due, .inr (.inl rfl)⟩
  rw [accounted e due']
  refine ⟨?_, fun enough => if_pos ?_⟩
  · split
    · exact le_rfl
    · exact Nat.zero_le 1
  · have after := moving_exec sound moving run
    rcases after.moved with behind | none | kept
    · exact behind
    · omega
    · have := kept.le
      omega

/-- A manager without rules; its stream exists and holds a message. -/
def sample : System := System.initial (fun _ => [[("payload", "{}")]]) Dict.empty

/-- The first read begins, a message comes, and the loop handles it. -/
def sampleTrace : List Move :=
  [.checkStream false, .xRead, .publish cacheInvalidationStream [("payload", "{}")], .receive, .onStreamEvent, .next]

/-- A run whose messages are all published while their stream is followed. -/
theorem accounted_iff_safe_sample : Machine.Always System.step Accounted sample sampleTrace := by
  have run : (Machine.exec System.step sample sampleTrace).isSome = true := by decide +kernel
  obtain ⟨s, reached⟩ := Option.isSome_iff_exists.1 run
  exact (accounted_iff_safe reached).1.2 (by decide +kernel)

/-- The first read times out, and a message comes before the second one begins. -/
def missedTrace : List Move :=
  [.checkStream false, .xRead, .timeout, .publish cacheInvalidationStream [("payload", "{}")], .checkStream false,
    .xRead, .timeout]

/-- The message is due, both reads are over and nothing was processed. -/
theorem missed_between_reads : ¬Machine.Always System.step Accounted sample missedTrace := by
  intro always
  have run : (Machine.exec System.step sample missedTrace).map (fun s =>
      (s.due, s.processed, s.position cacheInvalidationStream)) =
        some ([⟨cacheInvalidationStream, 2, [("payload", "{}")]⟩], [], 2) := by decide +kernel
  obtain ⟨s, reached, facts⟩ := Option.map_eq_some_iff.1 run
  obtain ⟨due, facts⟩ := Prod.mk.inj facts
  obtain ⟨processed, position⟩ := Prod.mk.inj facts
  have once := always _ s (List.prefix_refl _) reached _ (by rw [due]; exact List.mem_cons_self)
  rw [processed, position] at once
  exact absurd once (by decide)

end StellarFlow.Listener
