import StellarFlow.Queue.DeadLetter

/-!
# Payloads that are processed again

When the processor has succeeded on a payload, the entries of the attempts that failed before are still in the
dead-letter queue, and a replay request processes them again. A history records the attempts that have failed, by their
numbers in their loops, and how many of the entries have left the list. `processed_once_iff` says of which attempts a
run must be free for a processed payload to have no pending entry and never to be run again.
-/

open Machine

namespace StellarFlow.DeadLetter
namespace System
variable (config : Config) (s : System)

/-- The payload was submitted once, and the processor has succeeded on it. -/
def Done (payload : Payload) : Prop := s.submitted.count payload = 1 ∧ payload ∈ s.processed

/-- The payload has no pending entry. -/
def NonePending (payload : Payload) : Prop :=
  ∀ e, Item.entry e ∈ s.queue → e.payload = some payload → e.permanentlyFailed = true

/-- No payload that is done has a pending entry. -/
def NoneLeft : Prop := ∀ payload, s.Done payload → s.NonePending payload

/-- The retry is on a payload that was submitted once and processed before the request read its entries. -/
def RunsAgain (replay : Replay) (retry : Retry) : Prop :=
  retry.payload ∈ replay.before ∧ s.submitted.count retry.payload = 1

/-- No request runs the processor on a payload that was done when it read its entries. -/
def NoneAgain : Prop :=
  ∀ task ∈ s.tasks, ∀ replay entry retry rest, task.point = .replaying replay entry retry rest →
    (∃ attempt, retry.state = .processing attempt) → ¬s.RunsAgain replay retry

instance (payload : Payload) : Decidable (s.Done payload) := inferInstanceAs (Decidable (_ ∧ _))

end System

/-! ## The attempts that have failed -/

/-- What has been appended to the list: the entry of an attempt that failed, by its number in its loop; or what was
there to begin with or came from another producer. -/
inductive Record where
  | attempt (payload : Payload) (number : ℕ)
  | given (item : Item)

/-- The item is a pending entry of the payload. -/
def Item.leaves (payload : Payload) : Item → Bool
  | .entry e => e.payload = some payload && !e.permanentlyFailed
  | .unreadable _ => false

/-- The entry of an attempt is pending unless the attempt was the last one of its loop. -/
def Record.leaves (config : Config) (payload : Payload) : Record → Bool
  | .attempt payload' number => payload' = payload && !config.exhausted number
  | .given item => item.leaves payload

/-- The failed attempt whose entry a step of a retry appends. -/
def Retry.appended (retry : Retry) (event : Event) : List Record :=
  match retry.state with
  | .pushing attempt _ => if event.executed then [.attempt retry.payload attempt] else []
  | _ => []

/-- What a move appends to the list. -/
def System.appended (s : System) : Move → List Record
  | .produce item => [.given item]
  | .advance k event =>
    match s.tasks[k]?.bind fun task => task.point.retry? with
    | some retry => retry.appended event
    | none => []
  | _ => []

/-- Whether a move deletes the list. -/
def System.purges (s : System) : Move → Bool
  | .advance k event =>
    match s.tasks[k]?.map Task.point with
    | some (.deleting ..) => event.executed
    | _ => false
  | _ => false

/-- The system and all that was ever appended to its list; the first `dropped` of these have left it. -/
structure History where
  system : System
  records : List Record
  dropped : ℕ

/-- How many of `length` records have left the list when LTRIM leaves the last `max_size` ones. -/
def Config.trimmed (config : Config) (length dropped : ℕ) : ℕ :=
  if config.maxSize = 0 then dropped else max dropped (length - config.maxSize)

/-- How many records have left the list after a move that appends `appended`. -/
def Config.gone (config : Config) (records appended : List Record) (purges : Bool) (dropped : ℕ) : ℕ :=
  if purges then (records ++ appended).length
  else if appended.isEmpty then dropped
  else config.trimmed (records ++ appended).length dropped

namespace History
variable (config : Config) (h : History)

def init (queue : List Item) : History := ⟨.init queue, queue.map .given, 0⟩

/-- A move of the system, with what it appends and drops. -/
def step (m : Move) : Option History :=
  (h.system.step config m).map fun system =>
    { system
      records := h.records ++ h.system.appended m
      dropped := config.gone h.records (h.system.appended m) (h.system.purges m) h.dropped }

/-- Each attempt on the payload that failed was the last one of its loop, or its entry has left the list by now. -/
def cleared (payload : Payload) : Bool := (h.records.drop h.dropped).all fun record => !record.leaves config payload

/-- The processor succeeds on a payload that was submitted once only where its failed attempts are cleared, and an
attempt on a payload that is done fails only where it is the last one of its loop. -/
def carefulRetry (retry : Retry) (event : Event) : Bool :=
  match retry.state, event with
  | .processing _, .processed none => h.system.submitted.count retry.payload ≠ 1 || h.cleared config retry.payload
  | .pushing attempt _, event => !event.executed || !decide (h.system.Done retry.payload) || config.exhausted attempt
  | _, _ => true

/-- A request for a single entry, which may be permanently failed, does not read one of a payload that is done. -/
def carefulRead (entryId : ℤ) : Bool :=
  (getEntry h.system.queue entryId).all fun entry =>
    entry.payload.all fun payload => config.maxAttempts < 1 || !decide (h.system.Done payload)

/-- What the step of a task does is careful. -/
def carefulPoint (point : Point) (event : Event) : Bool :=
  match point, event with
  | .retrying retry, event => h.carefulRetry config retry event
  | .replaying _ _ retry _, event => h.carefulRetry config retry event
  | .reading (some entryId) _, .ok => h.carefulRead config entryId
  | _, _ => true

/-- The retries and the requests for a single entry are careful. -/
def careful : Move → Bool
  | .advance k event => h.system.tasks[k]?.all fun task => h.carefulPoint config task.point event
  | _ => true

end History

/-- The payloads a task holds. -/
def Point.payloads : Point → List Payload
  | .retrying retry => [retry.payload]
  | .replaying _ _ retry rest => retry.payload :: rest.filterMap (·.payload)
  | _ => []

/-- Every payload was submitted. -/
structure Known (s : System) : Prop where
  queue : ∀ item ∈ s.queue, ∀ payload, item.payload = some payload → payload ∈ s.submitted
  processed : s.processed ⊆ s.submitted
  tasks : ∀ task ∈ s.tasks, task.point.payloads ⊆ s.submitted

variable {config : Config} {s t : System} {m : Move}

/-- A retry holds its payload at most. -/
lemma payloads_retryWithBackoff (payload : Payload) (source : String) :
    (config.retryWithBackoff payload source).payloads ⊆ [payload] := by
  rw [Config.retryWithBackoff, Config.attempt]
  split
  · exact List.Subset.refl _
  · exact List.nil_subset _

/-- A replay that goes on holds the payloads of the entries left. -/
lemma payloads_goOn (replay : Replay) (entries : List DLQEntry) :
    (replay.goOn config entries).payloads ⊆ entries.filterMap (·.payload) := by
  induction entries generalizing replay with
  | nil =>
    rw [Replay.goOn, Replay.finish]
    split <;> exact List.nil_subset _
  | cons entry rest ih =>
    rw [Replay.goOn]
    split
    · exact List.nil_subset _
    · rename_i payload there
      rw [List.filterMap_cons_some there]
      split
      · exact List.Subset.refl _
      · exact List.Subset.trans (ih _) (List.subset_cons_self _ _)
      · exact List.nil_subset _

/-- A retry holds its own payload after a step. -/
lemma payloads_after (retry : Retry) (progress : Progress) : (retry.after progress).payloads ⊆ [retry.payload] := by
  cases progress with
  | going state => exact List.Subset.refl _
  | _ => exact List.nil_subset _

/-- A replay whose retry makes a step holds its payload and those left. -/
lemma payloads_replay_after (replay : Replay) (entry : DLQEntry) (retry : Retry) (rest : List DLQEntry)
    (progress : Progress) :
    (replay.after config entry retry rest progress).payloads ⊆ retry.payload :: rest.filterMap (·.payload) := by
  cases progress with
  | going state => exact List.Subset.refl _
  | returned success => exact List.Subset.trans (payloads_goOn _ rest) (List.subset_cons_self _ _)
  | raised => exact List.nil_subset _

/-- What a step of a retry has done: it pushes the entry of an attempt, or the processor succeeds, or neither. -/
inductive Turn (config : Config) (retry : Retry) : Event → Effect → Prop where
  | pushed {attempt : ℕ} {exc : Error} {event : Event} {entry : DLQEntry} (state : retry.state = .pushing attempt exc)
      (executed : event.executed = true) (carries : entry.payload = some retry.payload)
      (final : entry.permanentlyFailed = config.exhausted attempt) : Turn config retry event (.pushed entry)
  | succeeded {attempt : ℕ} (state : retry.state = .processing attempt) :
      Turn config retry (.processed none) .succeeded
  | quiet {event : Event} {effect : Effect} (kind : effect = .nothing ∨ effect = .numbered)
      (appends : retry.appended event = []) (careful : ∀ h : History, h.carefulRetry config retry event = true) :
      Turn config retry event effect

/-- A step of a retry, case by case. -/
lemma turn_of_next {seq : ℕ} {retry : Retry} {event : Event} {progress : Progress} {effect : Effect}
    (next : retry.next config seq event = some (progress, effect)) : Turn config retry event effect := by
  obtain ⟨payload, source, state⟩ := retry
  cases state with
  | processing attempt =>
    cases event with
    | processed exc =>
      cases exc with
      | none =>
        cases next
        exact .succeeded rfl
      | some exc =>
        cases next
        exact .quiet (.inl rfl) rfl fun _ => rfl
    | _ => cases next
  | pushing attempt exc =>
    cases event with
    | processed exc => cases next
    | ok =>
      cases next
      exact .pushed rfl rfl rfl rfl
    | failed executed =>
      cases executed with
      | false =>
        cases next
        exact .quiet (.inr rfl) rfl fun _ => rfl
      | true =>
        cases next
        exact .pushed rfl rfl rfl rfl
  | sleeping attempt =>
    cases event with
    | ok =>
      cases next
      exact .quiet (.inl rfl) rfl fun _ => rfl
    | _ => cases next

/-- An entry that is pushed carries the payload. -/
lemma Turn.carries {retry : Retry} {event : Event} {entry : DLQEntry} (turn : Turn config retry event (.pushed entry)) :
    entry.payload = some retry.payload := by
  cases turn with
  | pushed state executed carries final => exact carries
  | quiet kind => simp at kind

/-- No effect submits a payload. -/
lemma submitted_apply (process : ℕ) (payload : Payload) (effect : Effect) :
    (s.apply config process payload effect).submitted = s.submitted := by
  cases effect <;> rfl

/-- A step of a retry on a payload that was submitted. -/
lemma Known.apply {process : ℕ} {payload : Payload} {effect : Effect} (known : Known s)
    (submitted : payload ∈ s.submitted) (carries : ∀ entry, effect = .pushed entry → entry.payload = some payload) :
    Known (s.apply config process payload effect) := by
  cases effect with
  | nothing => exact known
  | numbered => exact ⟨known.queue, known.processed, known.tasks⟩
  | succeeded =>
    refine ⟨known.queue, ?_, known.tasks⟩
    exact List.append_subset.2 ⟨known.processed, List.cons_subset.2 ⟨submitted, List.nil_subset _⟩⟩
  | pushed entry =>
    refine ⟨fun item mem found there => ?_, known.processed, known.tasks⟩
    obtain old | rfl := mem_push mem
    · exact known.queue item old found there
    · cases (carries entry rfl).symm.trans there
      exact submitted

/-- A task may hold what was submitted. -/
lemma Known.move {k : ℕ} {task : Task} {point : Point} (known : Known s) (held : point.payloads ⊆ s.submitted) :
    Known (s.move k task point) := by
  refine ⟨known.queue, known.processed, fun other mem => ?_⟩
  obtain mem | rfl := List.mem_or_eq_of_mem_set mem
  · exact known.tasks other mem
  · exact held

/-- What was submitted is still. -/
lemma Known.more (known : Known s) (more : List Payload) : Known { s with submitted := s.submitted ++ more } :=
  ⟨fun item mem payload there => List.mem_append_left _ (known.queue item mem payload there),
    List.Subset.trans known.processed (List.subset_append_left _ _),
    fun task mem => List.Subset.trans (known.tasks task mem) (List.subset_append_left _ _)⟩

/-- A new task may hold what was submitted. -/
lemma Known.snoc {task : Task} (known : Known s) (held : task.point.payloads ⊆ s.submitted) :
    Known { s with tasks := s.tasks ++ [task] } := by
  refine ⟨known.queue, known.processed, fun other mem => ?_⟩
  obtain mem | rfl := (List.mem_append.1 mem).imp_right List.mem_singleton.1
  · exact known.tasks other mem
  · exact held

/-- What a request reads is in the list. -/
lemma Known.read (known : Known s) (entryId : Option ℤ) (purgeOnSuccess : Bool) :
    (s.read config entryId purgeOnSuccess).payloads ⊆ s.submitted := by
  have held : ∀ entries : List DLQEntry, (∀ e ∈ entries, Item.entry e ∈ s.queue) →
      entries.filterMap (·.payload) ⊆ s.submitted := by
    intro entries listed payload mem
    obtain ⟨e, there, carries⟩ := List.mem_filterMap.1 mem
    exact known.queue _ (listed e there) payload carries
  cases entryId with
  | none => exact List.Subset.trans (payloads_goOn _ _) (held _ fun e mem => (mem_listPending mem).1)
  | some id =>
    cases found : getEntry s.queue id with
    | none =>
      simp only [System.read, found]
      exact List.nil_subset _
    | some entry =>
      simp only [System.read, found]
      refine List.Subset.trans (payloads_goOn _ _) (held [entry] fun e mem => ?_)
      rw [List.mem_singleton.1 mem]
      exact mem_of_read (List.mem_of_find?_eq_some found)

/-- Each step holds only what was submitted. -/
lemma Known.step (known : Known s) (step : Step config s m t) : Known t := by
  cases step with
  | submit process payload source =>
    refine (known.more [payload]).snoc (List.Subset.trans (payloads_retryWithBackoff payload source) ?_)
    exact List.subset_append_right _ _
  | replay => exact known.snoc (List.nil_subset _)
  | produce item =>
    refine ⟨fun x mem payload there => ?_, (known.more _).processed, (known.more _).tasks⟩
    obtain old | rfl := mem_push mem
    · exact List.mem_append_left _ (known.queue x old payload there)
    · exact List.mem_append_right _ (Option.mem_toList.2 there)
  | @retry k task retry event progress effect at_ point next =>
    have held := known.tasks task (List.mem_of_getElem? at_)
    rw [point] at held
    have mem : retry.payload ∈ s.submitted := held (List.mem_singleton_self _)
    refine (known.apply mem fun entry pushed => (pushed ▸ turn_of_next next).carries).move ?_
    rw [submitted_apply]
    exact List.Subset.trans (payloads_after retry progress) (List.cons_subset.2 ⟨mem, List.nil_subset _⟩)
  | @replaying k task replay entry retry rest event progress effect at_ point next =>
    have held := known.tasks task (List.mem_of_getElem? at_)
    rw [point] at held
    refine (known.apply (held List.mem_cons_self) fun entry pushed => (pushed ▸ turn_of_next next).carries).move ?_
    rw [submitted_apply]
    exact List.Subset.trans (payloads_replay_after _ entry retry rest progress) held
  | read => exact known.move (known.read _ _)
  | count => exact known.move (List.nil_subset _)
  | purge at_ point executed response =>
    have empty : Known { s with queue := [] } :=
      ⟨fun item mem => absurd mem List.not_mem_nil, known.processed, known.tasks⟩
    refine empty.move ?_
    cases response <;> exact List.nil_subset _
  | failed => exact known.move (List.nil_subset _)
  | cancel => exact known.move (List.nil_subset _)

/-! ## What the list holds -/

/-- The list holds the entries of the records that have not left it. -/
structure Logged (config : Config) (records : List Record) (dropped : ℕ) (queue : List Item) : Prop where
  bound : dropped ≤ records.length
  same : ∀ payload, (records.drop dropped).map (Record.leaves config payload) = queue.map (Item.leaves payload)

/-- As many records are left as the list has items. -/
lemma Logged.length {records : List Record} {dropped : ℕ} {queue : List Item}
    (logged : Logged config records dropped queue) : queue.length = records.length - dropped := by
  have lengths := congrArg List.length (logged.same [])
  simpa using lengths.symm

/-- RPUSH and LTRIM leave the entries of the last `max_size` records. -/
lemma Logged.push {records : List Record} {dropped : ℕ} {queue : List Item} {record : Record} {item : Item}
    (logged : Logged config records dropped queue)
    (same : ∀ payload, record.leaves config payload = item.leaves payload) :
    Logged config (records ++ [record]) (config.trimmed (records ++ [record]).length dropped)
      (config.push queue item).2 := by
  have bound := logged.bound
  have length := logged.length
  have trimmed : config.trimmed (records ++ [record]).length dropped = dropped + config.excess (queue ++ [item]) := by
    rw [Config.trimmed, Config.excess, List.length_append, List.length_append, List.length_singleton,
      List.length_singleton]
    split <;> omega
  have fits : config.excess (queue ++ [item]) ≤ queue.length + 1 := by
    rw [Config.excess, List.length_append, List.length_singleton]
    split <;> omega
  refine ⟨?_, fun payload => ?_⟩
  · rw [trimmed, List.length_append, List.length_singleton]
    omega
  · have pushed : (config.push queue item).2 = (queue ++ [item]).drop (config.excess (queue ++ [item])) := rfl
    rw [trimmed, pushed, ← List.drop_drop, List.drop_append_of_le_length bound, List.map_drop, List.map_drop,
      List.map_append, List.map_append, logged.same payload, List.map_singleton, List.map_singleton, same payload]

/-- The failed attempts on a payload are cleared exactly when no pending entry of it is in the list. -/
lemma cleared_iff {h : History} (logged : Logged config h.records h.dropped h.system.queue) (payload : Payload) :
    h.cleared config payload = true ↔ h.system.NonePending payload := by
  have all : h.cleared config payload = (h.system.queue.map (Item.leaves payload)).all (!·) := by
    rw [← logged.same payload, List.all_map]
    rfl
  rw [all, List.all_eq_true]
  constructor
  · intro cleared e mem carries
    have kept := cleared _ (List.mem_map_of_mem mem)
    simpa [Item.leaves, carries] using kept
  · intro none b mem
    obtain ⟨item, there, rfl⟩ := List.mem_map.1 mem
    cases item with
    | unreadable text => rfl
    | entry e =>
      by_cases carries : e.payload = some payload
      · simp [Item.leaves, none e there carries]
      · simp [Item.leaves, carries]

/-- What a retry appends to the list is what the record says. -/
lemma Logged.turn {records : List Record} {dropped process : ℕ} {retry : Retry} {event : Event} {effect : Effect}
    (logged : Logged config records dropped s.queue) (turn : Turn config retry event effect) :
    Logged config (records ++ retry.appended event) (config.gone records (retry.appended event) false dropped)
      (s.apply config process retry.payload effect).queue := by
  cases turn with
  | @pushed attempt exc event entry state executed carries final =>
    have appended : retry.appended event = [.attempt retry.payload attempt] := by
      rw [Retry.appended, state]
      exact if_pos executed
    rw [appended]
    refine logged.push fun payload => ?_
    simp [Record.leaves, Item.leaves, carries, final]
  | succeeded state =>
    have appended : retry.appended (.processed none) = [] := by
      rw [Retry.appended, state]
    rw [appended, List.append_nil]
    exact logged
  | quiet kind appends =>
    rw [appends, List.append_nil]
    obtain rfl | rfl := kind <;> exact logged

/-- A task in a retry appends what the retry does. -/
lemma appended_of_retry {k : ℕ} {task : Task} {retry : Retry} {event : Event} (at_ : s.tasks[k]? = some task)
    (here : task.point.retry? = some retry) : s.appended (.advance k event) = retry.appended event := by
  rw [System.appended, at_, Option.bind_some, here]

/-- A task that is in no retry appends nothing. -/
lemma appended_of_none {k : ℕ} {task : Task} {event : Event} (at_ : s.tasks[k]? = some task)
    (none : task.point.retry? = none) : s.appended (.advance k event) = [] := by
  rw [System.appended, at_, Option.bind_some, none]

/-- A step that is not the DEL of a purge deletes nothing. -/
lemma purges_eq_false {k : ℕ} {task : Task} {event : Event} (at_ : s.tasks[k]? = some task)
    (kept : event.executed = true → ∀ replay count, task.point ≠ .deleting replay count) :
    s.purges (.advance k event) = false := by
  rw [System.purges, at_, Option.map_some]
  split
  · rename_i replay count point
    cases executed : event.executed with
    | false => rfl
    | true => exact absurd (Option.some.inj point) (kept executed replay count)
  · rfl

/-- A step that appends nothing and deletes nothing. -/
lemma Logged.idle {records appended : List Record} {dropped : ℕ} {queue : List Item} {purges : Bool}
    (logged : Logged config records dropped queue) (nothing : appended = []) (kept : purges = false) :
    Logged config (records ++ appended) (config.gone records appended purges dropped) queue := by
  subst nothing kept
  rw [List.append_nil]
  exact logged

/-- Each step keeps the list that of the records. -/
lemma Logged.step {records : List Record} {dropped : ℕ} (logged : Logged config records dropped s.queue)
    (step : Step config s m t) :
    Logged config (records ++ s.appended m) (config.gone records (s.appended m) (s.purges m) dropped) t.queue := by
  cases step with
  | submit => exact logged.idle rfl rfl
  | replay => exact logged.idle rfl rfl
  | produce item => exact logged.push fun payload => rfl
  | retry at_ point next =>
    rw [appended_of_retry at_ (by rw [point]; rfl), purges_eq_false at_ (by simp [point])]
    exact logged.turn (turn_of_next next)
  | replaying at_ point next =>
    rw [appended_of_retry at_ (by rw [point]; rfl), purges_eq_false at_ (by simp [point])]
    exact logged.turn (turn_of_next next)
  | read at_ point =>
    exact logged.idle (appended_of_none at_ (by rw [point]; rfl)) (purges_eq_false at_ (by simp [point]))
  | count at_ point =>
    exact logged.idle (appended_of_none at_ (by rw [point]; rfl)) (purges_eq_false at_ (by simp [point]))
  | @purge k count task replay event at_ point executed response =>
    have purges : s.purges (.advance k event) = true := by
      rw [System.purges, at_, Option.map_some, point]
      exact executed
    rw [purges]
    refine ⟨Nat.le_refl _, fun payload => ?_⟩
    rw [Config.gone, if_pos rfl, List.drop_length]
    rfl
  | failed at_ none skipped => exact logged.idle (appended_of_none at_ none) (purges_eq_false at_ skipped)
  | cancel => exact logged.idle rfl rfl

/-! ## No entry is left -/

/-- A payload that was processed and is submitted again has been submitted twice. -/
lemma done_of_more {more : List Payload} {payload : Payload} (known : Known s)
    (once : (s.submitted ++ more).count payload = 1) (processed : payload ∈ s.processed) :
    s.Done payload ∧ payload ∉ more := by
  have there : 0 < s.submitted.count payload := List.count_pos_iff.2 (known.processed processed)
  rw [List.count_append] at once
  have none : more.count payload = 0 := by omega
  exact ⟨⟨by omega, processed⟩, List.count_eq_zero.1 none⟩

/-- What a step of a retry does to the payloads that are done. -/
lemma noneLeft_apply_iff {h : History} {process : ℕ} {retry : Retry} {event : Event} {effect : Effect}
    (logged : Logged config h.records h.dropped h.system.queue) (left : h.system.NoneLeft)
    (turn : Turn config retry event effect) :
    (h.system.apply config process retry.payload effect).NoneLeft ↔ h.carefulRetry config retry event = true := by
  cases turn with
  | succeeded state =>
    have careful : h.carefulRetry config retry (.processed none) = true ↔
        (h.system.submitted.count retry.payload = 1 → h.system.NonePending retry.payload) := by
      rw [History.carefulRetry.eq_def, state, ← cleared_iff logged]
      simp [imp_iff_not_or]
    rw [careful]
    constructor
    · exact fun left once =>
        left retry.payload ⟨once, List.mem_append_right _ (List.mem_singleton_self retry.payload)⟩
    · rintro none other ⟨once, processed⟩
      obtain old | new := List.mem_append.1 processed
      · exact left other ⟨once, old⟩
      · obtain rfl := List.mem_singleton.1 new
        exact none once
  | @pushed attempt exc event entry state executed carries final =>
    have careful : h.carefulRetry config retry event = true ↔
        (h.system.Done retry.payload → entry.permanentlyFailed = true) := by
      rw [History.carefulRetry.eq_def, state, final]
      simp [executed, imp_iff_not_or]
    rw [careful]
    constructor
    · exact fun left done => left retry.payload done entry (self_mem_push _ _) carries
    · intro last other done e mem there
      obtain old | new := mem_push mem
      · exact left other done e old there
      · cases new
        cases carries.symm.trans there
        exact last done
  | quiet kind appends careful =>
    refine iff_of_true ?_ (careful h)
    obtain rfl | rfl := kind <;> exact left

/-- An advance is careful where its task is. -/
lemma careful_advance {h : History} {k : ℕ} {task : Task} {event : Event} (at_ : h.system.tasks[k]? = some task) :
    h.careful config (.advance k event) = h.carefulPoint config task.point event := by
  rw [History.careful, at_, Option.all_some]

/-- A careful step leaves no pending entry of a payload that is done. -/
lemma noneLeft_step {h : History} (known : Known h.system)
    (logged : Logged config h.records h.dropped h.system.queue) (left : h.system.NoneLeft)
    (careful : h.careful config m = true) (step : Step config h.system m t) : t.NoneLeft := by
  cases step with
  | submit process payload source =>
    intro other done
    exact left other (done_of_more known done.1 done.2).1
  | replay => exact left
  | produce item =>
    intro other done e mem there
    obtain ⟨before, fresh⟩ := done_of_more known done.1 done.2
    obtain old | new := mem_push mem
    · exact left other before e old there
    · -- the payload of what is pushed is submitted again
      subst new
      exact absurd (Option.mem_toList.2 there) fresh
  | retry at_ point next =>
    rw [careful_advance at_, point] at careful
    exact (noneLeft_apply_iff logged left (turn_of_next next)).2 careful
  | replaying at_ point next =>
    rw [careful_advance at_, point] at careful
    exact (noneLeft_apply_iff logged left (turn_of_next next)).2 careful
  | read => exact left
  | count => exact left
  | purge => exact fun other done e mem => absurd mem List.not_mem_nil
  | failed => exact left
  | cancel => exact left

/-! ## No request runs a payload again -/

/-- What a request holds was not done when it read it. -/
def Fresh (s : System) : Point → Prop
  | .replaying replay _ retry rest =>
    ∀ payload ∈ retry.payload :: rest.filterMap (·.payload), payload ∈ replay.before → 2 ≤ s.submitted.count payload
  | _ => True

/-- No task holds a payload that was done when it was read. -/
def AllFresh (s : System) : Prop := ∀ task ∈ s.tasks, Fresh s task.point

/-- What is gone on with was not done when it was read. -/
lemma fresh_goOn {replay : Replay} {entries : List DLQEntry}
    (fresh : 1 ≤ config.maxAttempts → ∀ payload ∈ entries.filterMap (·.payload), payload ∈ replay.before →
      2 ≤ s.submitted.count payload) : Fresh s (replay.goOn config entries) := by
  induction entries generalizing replay with
  | nil =>
    rw [Replay.goOn, Replay.finish]
    split <;> trivial
  | cons entry rest ih =>
    rw [Replay.goOn]
    split
    · trivial
    · rename_i payload there
      rw [List.filterMap_cons_some there] at fresh
      split
      · rename_i state going
        have runs : 1 ≤ config.maxAttempts := by
          by_contra few
          rw [Config.attempt, Nat.cast_one, if_neg few] at going
          cases going
        exact fresh runs
      · exact ih fun runs payload mem => fresh runs payload (List.mem_cons_of_mem _ mem)
      · trivial

/-- Payloads stay submitted as often. -/
lemma Fresh.mono {point : Point} (fresh : Fresh s point)
    (more : ∀ payload, s.submitted.count payload ≤ t.submitted.count payload) : Fresh t point := by
  cases point with
  | replaying replay entry retry rest =>
    exact fun payload mem before => (fresh payload mem before).trans (more payload)
  | _ => trivial

/-- A task may move to what is fresh. -/
lemma AllFresh.move {k : ℕ} {task : Task} {point : Point} (all : AllFresh s) (fresh : Fresh s point) :
    AllFresh (s.move k task point) := by
  intro other mem
  obtain mem | rfl := List.mem_or_eq_of_mem_set mem
  · exact (all other mem).mono fun _ => Nat.le_refl _
  · exact fresh.mono fun _ => Nat.le_refl _

/-- An effect does nothing that was read. -/
lemma AllFresh.apply {process : ℕ} {payload : Payload} {effect : Effect} (all : AllFresh s) :
    AllFresh (s.apply config process payload effect) := by
  cases effect <;> exact fun task mem => (all task mem).mono fun _ => Nat.le_refl _

/-- A replay records a result and goes on with what is left. -/
lemma fresh_record {replay : Replay} {entry : DLQEntry} {retry : Retry} {rest : List DLQEntry} {progress : Progress}
    {effect : Effect} (fresh : Fresh s (.replaying replay entry retry rest)) :
    Fresh s ((replay.record retry.payload effect).after config entry retry rest progress) := by
  have same : (replay.record retry.payload effect).before = replay.before := by
    cases effect <;> rfl
  cases progress with
  | going state =>
    intro payload mem before
    rw [same] at before
    exact fresh payload mem before
  | returned success =>
    refine fresh_goOn fun _ payload mem before => ?_
    change payload ∈ (replay.record retry.payload effect).before at before
    rw [same] at before
    exact fresh payload (List.mem_cons_of_mem _ mem) before
  | raised => trivial

/-- What is processed and not done was submitted more than once. -/
lemma two_le_of_not_done (known : Known s) {payload : Payload} (processed : payload ∈ s.processed)
    (undone : ¬s.Done payload) : 2 ≤ s.submitted.count payload := by
  have submitted : 0 < s.submitted.count payload := List.count_pos_iff.2 (known.processed processed)
  by_contra few
  exact undone ⟨by omega, processed⟩

/-- The pending entries are of payloads that are not done, and so is what a careful request for a single one reads. -/
lemma fresh_read {h : History} (known : Known h.system) (left : h.system.NoneLeft) (entryId : Option ℤ)
    (purgeOnSuccess : Bool) (careful : h.carefulPoint config (.reading entryId purgeOnSuccess) .ok = true) :
    Fresh h.system (h.system.read config entryId purgeOnSuccess) := by
  cases entryId with
  | none =>
    refine fresh_goOn fun _ payload mem before => two_le_of_not_done known before fun done => ?_
    obtain ⟨e, listed, carries⟩ := List.mem_filterMap.1 mem
    obtain ⟨there, pending⟩ := mem_listPending listed
    have failed := left payload done e there carries
    rw [pending] at failed
    cases failed
  | some id =>
    cases found : getEntry h.system.queue id with
    | none =>
      simp only [System.read, found]
      trivial
    | some entry =>
      simp only [System.read, found]
      refine fresh_goOn fun runs payload mem before => two_le_of_not_done known before fun done => ?_
      obtain ⟨e, there, carries⟩ := List.mem_filterMap.1 mem
      rw [List.mem_singleton.1 there] at carries
      simp only [History.carefulPoint, History.carefulRead, found, Option.all_some, carries, Bool.or_eq_true,
        decide_eq_true_eq, Bool.not_eq_true', decide_eq_false_iff_not] at careful
      obtain few | undone := careful
      · omega
      · exact undone done

/-- A careful step reads nothing that was done. -/
lemma AllFresh.step {h : History} (all : AllFresh h.system) (known : Known h.system)
    (left : h.system.NoneLeft) (careful : h.careful config m = true) (step : Step config h.system m t) :
    AllFresh t := by
  cases step with
  | submit process payload source =>
    intro task mem
    have more : ∀ other, h.system.submitted.count other ≤ (h.system.submitted ++ [payload]).count other :=
      fun other => by
        rw [List.count_append]
        omega
    obtain mem | rfl := (List.mem_append.1 mem).imp_right List.mem_singleton.1
    · exact (all task mem).mono more
    · dsimp only [Config.retryWithBackoff, Config.attempt]
      split <;> trivial
  | replay =>
    intro task mem
    obtain mem | rfl := (List.mem_append.1 mem).imp_right List.mem_singleton.1
    · exact (all task mem).mono fun _ => Nat.le_refl _
    · trivial
  | produce item =>
    refine fun task mem => (all task mem).mono fun other => ?_
    rw [List.count_append]
    omega
  | retry at_ point next =>
    refine all.apply.move ?_
    dsimp only [Retry.after]
    split <;> trivial
  | @replaying k task replay entry retry rest event progress effect at_ point next =>
    have fresh := all task (List.mem_of_getElem? at_)
    rw [point] at fresh
    refine all.apply.move ((fresh_record fresh).mono fun other => ?_)
    rw [submitted_apply]
  | read at_ point =>
    rw [careful_advance at_, point] at careful
    exact all.move (fresh_read known left _ _ careful)
  | count => exact all.move trivial
  | purge at_ point executed response =>
    have empty : AllFresh { h.system with queue := [] } :=
      fun task mem => (all task mem).mono fun _ => Nat.le_refl _
    refine empty.move ?_
    cases response <;> trivial
  | failed => exact all.move trivial
  | cancel => exact all.move trivial

/-- A request that holds no payload that was done runs none. -/
lemma AllFresh.noneAgain (all : AllFresh s) : s.NoneAgain := by
  intro task mem replay entry retry rest point _ again
  have fresh := all task mem
  rw [point] at fresh
  have twice := fresh _ List.mem_cons_self again.1
  rw [again.2] at twice
  exact absurd twice (by decide)

/-- A request that reads an entry of a payload that is done runs the processor on it. -/
lemma again_of_read {h : History} {k : ℕ} {task : Task} {id : ℤ} {purgeOnSuccess : Bool}
    (at_ : h.system.tasks[k]? = some task) (careless : h.carefulRead config id = false) :
    ¬(h.system.move k task (h.system.read config (some id) purgeOnSuccess)).NoneAgain := by
  intro none
  rw [History.carefulRead, Option.all_eq_false] at careless
  obtain ⟨entry, found, careless⟩ := careless
  rw [Option.all_eq_false] at careless
  obtain ⟨payload, carries, careless⟩ := careless
  simp only [Bool.or_eq_false_iff, decide_eq_false_iff_not, not_lt, Bool.not_eq_false', decide_eq_true_eq] at careless
  obtain ⟨runs, done⟩ := careless
  obtain ⟨lt, -⟩ := List.getElem?_eq_some_iff.1 at_
  have first : config.attempt 1 = .going (.processing 1) := by
    rw [Config.attempt, Nat.cast_one, if_pos runs]
  have point : h.system.read config (some id) purgeOnSuccess =
      .replaying ⟨some id, purgeOnSuccess, [], [entry], [], [], h.system.processed⟩ entry
        ⟨payload, entry.source, .processing 1⟩ [] := by
    simp only [System.read, found, Replay.goOn, carries, first]
  exact none _ (List.mem_set lt _) _ _ _ _ point ⟨1, rfl⟩ ⟨done.2, done.1⟩

/-- A step that is not careful leaves a pending entry of a payload that is done, or runs such a payload again. -/
lemma broken_of_careless {h : History} (logged : Logged config h.records h.dropped h.system.queue)
    (left : h.system.NoneLeft) (careless : ¬h.careful config m = true) (step : Step config h.system m t) :
    ¬(t.NoneLeft ∧ t.NoneAgain) := by
  cases step with
  | submit => exact absurd rfl careless
  | replay => exact absurd rfl careless
  | produce => exact absurd rfl careless
  | retry at_ point next =>
    rw [careful_advance at_, point] at careless
    exact fun kept => careless ((noneLeft_apply_iff logged left (turn_of_next next)).1 kept.1)
  | replaying at_ point next =>
    rw [careful_advance at_, point] at careless
    exact fun kept => careless ((noneLeft_apply_iff logged left (turn_of_next next)).1 kept.1)
  | @read k task entryId purgeOnSuccess at_ point =>
    rw [careful_advance at_, point] at careless
    cases entryId with
    | none => exact absurd rfl careless
    | some id => exact fun kept => again_of_read at_ (eq_false_of_ne_true careless) kept.2
  | count at_ point =>
    rw [careful_advance at_, point] at careless
    exact absurd rfl careless
  | purge at_ point =>
    rw [careful_advance at_, point] at careless
    exact absurd rfl careless
  | @failed k task executed at_ none =>
    rw [careful_advance at_] at careless
    obtain ⟨process, point⟩ := task
    cases point with
    | retrying => cases none
    | replaying => cases none
    | reading entryId => cases entryId <;> exact absurd rfl careless
    | _ => exact absurd rfl careless
  | cancel => exact absurd rfl careless

namespace History

/-- A run of histories is a run of the system. -/
theorem exec_system (config : Config) (h : History) (trace : List Move) :
    (exec (step config) h trace).map History.system = exec (System.step config) h.system trace := by
  induction trace generalizing h with
  | nil => rfl
  | cons m trace ih =>
    rw [exec_cons, exec_cons, step]
    cases h.system.step config m with
    | none => rfl
    | some t => exact ih _

/-- At the start the list holds what was submitted. -/
lemma known_init (queue : List Item) : Known (System.init queue) where
  queue := fun item mem _ there => List.mem_filterMap.2 ⟨item, mem, there⟩
  processed := List.nil_subset _
  tasks := fun _ mem => absurd mem List.not_mem_nil

/-- What holds along the runs whose steps are careful. -/
structure Kept (config : Config) (h : History) : Prop where
  known : Known h.system
  logged : Logged config h.records h.dropped h.system.queue
  left : h.system.NoneLeft
  fresh : AllFresh h.system

/-- At the start all of it holds. -/
lemma kept_init (queue : List Item) : (init queue).Kept config where
  known := known_init queue
  logged := ⟨Nat.zero_le _, fun _ => by rw [init, List.drop_zero, List.map_map]; rfl⟩
  left := fun _ done => absurd done.2 List.not_mem_nil
  fresh := fun _ mem => absurd mem List.not_mem_nil

/-- A move of a history is one of its system. -/
lemma step_of_next {h h' : History} (next : h.step config m = some h') :
    Step config h.system m h'.system ∧ h'.records = h.records ++ h.system.appended m ∧
      h'.dropped = config.gone h.records (h.system.appended m) (h.system.purges m) h.dropped := by
  obtain ⟨t, taken, rfl⟩ := Option.map_eq_some_iff.1 next
  exact ⟨step_cases taken, rfl, rfl⟩

/-- A careful step keeps it. -/
lemma Kept.step {h h' : History} (kept : h.Kept config) (careful : h.careful config m = true)
    (next : h.step config m = some h') : h'.Kept config := by
  obtain ⟨taken, records, dropped⟩ := step_of_next next
  refine ⟨kept.known.step taken, ?_, noneLeft_step kept.known kept.logged kept.left careful taken,
    kept.fresh.step kept.known kept.left careful taken⟩
  rw [records, dropped]
  exact kept.logged.step taken

/-- In a run no payload that is done has a pending entry, nor does a request run it again, exactly when the attempts of
every call and the requests for a single entry are careful. -/
theorem processed_once_iff (config : Config) (queue : List Item) {trace : List Move} {last : History}
    (run : exec (step config) (init queue) trace = some last) :
    Always (step config) (fun h => h.system.NoneLeft ∧ h.system.NoneAgain) (init queue) trace ↔
      Guarded (step config) (fun h m => h.careful config m = true) (init queue) trace := by
  refine always_iff_guarded_of_entails (kept_init queue) (fun h kept => ⟨kept.left, kept.fresh.noneAgain⟩)
    (fun h m h' kept careful next => kept.step careful next) (fun h m h' kept careless next => ?_) run
  exact broken_of_careless kept.logged kept.left careless (step_of_next next).1

/-- The first attempt on a payload fails and the second succeeds. -/
def secondAttemptTrace : List Move :=
  [.submit 0 [7] "ingestion-pipeline", .advance 0 (.processed (some ⟨"ValueError", "boom"⟩)), .advance 0 .ok,
    .advance 0 .ok, .advance 0 (.processed none)]

/-- The entry of the first attempt is pending, and a request for all pending entries runs the processor again. -/
theorem reprocessed_run :
    ∃ h h', exec (step {}) (init []) secondAttemptTrace = some h ∧ ¬h.system.NoneLeft ∧
      exec (step {}) (init []) (secondAttemptTrace ++ [.replay 0 none false, .advance 1 .ok]) = some h' ∧
        ¬h'.system.NoneAgain := by
  refine ⟨_, _, rfl, fun left => ?_, rfl, fun none => ?_⟩
  · have failed := left [7] ⟨by decide, by decide⟩ _ List.mem_cons_self rfl
    exact absurd failed (by decide)
  · exact none _ (List.mem_cons_of_mem _ List.mem_cons_self) _ _ _ _ rfl ⟨1, rfl⟩ ⟨by decide, by decide⟩

/-- Two payloads whose first attempts fail, in a list of one entry: the second one's entry evicts the first one's, a
request runs both attempts on the second one to its permanently failed entry, both are processed by their own calls, and
a later request finds nothing pending. -/
def evictedTrace : List Move :=
  let failed : Event := .processed (some ⟨"ValueError", "boom"⟩)
  [.submit 0 [7] "ingestion-pipeline", .advance 0 failed, .advance 0 .ok,
    .submit 0 [8] "ingestion-pipeline", .advance 1 failed, .advance 1 .ok,
    .advance 0 .ok, .advance 0 (.processed none),
    .replay 0 none false, .advance 2 .ok, .advance 2 failed, .advance 2 .ok, .advance 2 .ok, .advance 2 failed,
    .advance 2 .ok,
    .advance 1 .ok, .advance 1 (.processed none),
    .replay 0 none false, .advance 3 .ok]

/-- The run of `evictedTrace` is careful: both payloads are done, and neither is left or run again. -/
theorem processed_once_evicted :
    ∃ last, exec (step ⟨2, 1⟩) (init []) evictedTrace = some last ∧
      last.system.Done [7] ∧ last.system.Done [8] ∧
        Always (step ⟨2, 1⟩) (fun h => h.system.NoneLeft ∧ h.system.NoneAgain) (init []) evictedTrace :=
  ⟨_, rfl, by decide +kernel, by decide +kernel, (processed_once_iff ⟨2, 1⟩ [] rfl).2 (by decide +kernel)⟩

end History

end StellarFlow.DeadLetter
