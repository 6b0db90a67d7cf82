import StellarFlow.Queue.DeadLetter

/-!
# What a purging replay removes

A request with `purge_on_success` deletes the whole list once all its retries have succeeded, also what it has not read:
permanently failed entries, texts that are not entries, entries after the first hundred, and what others have pushed
since it read. `purges_processed_iff` says in which runs such requests remove only entries whose payload they have
processed.
-/

open Machine

namespace StellarFlow.DeadLetter

/-- The item is an entry whose payload the request has processed. -/
def Replay.Processed (replay : Replay) (item : Item) : Prop :=
  ∃ payload, item.payload = some payload ∧ payload ∈ replay.processed

/-- The request of a task, after it has read. -/
def Point.replay? : Point → Option Replay
  | .replaying replay _ _ _ => some replay
  | .counting replay => some replay
  | .deleting replay _ => some replay
  | _ => none

/-- The entry a retry is about to push. -/
def Retry.pushes (config : Config) (seq : ℕ) (retry : Retry) : Option DLQEntry :=
  match retry.state with
  | .pushing attempt exc => some (config.create (seq + 1) retry.payload (some exc) retry.source attempt)
  | _ => none

def Retry.isPushing (retry : Retry) : Bool :=
  match retry.state with
  | .pushing .. => true
  | _ => false

namespace System
variable (config : Config) (s : System)

/-- What the next step of a task removes from the list, where its command is executed. -/
def removed (task : Task) (event : Event) : List Item :=
  if event.executed then
    match task.point with
    | .replaying _ _ retry _ =>
      match retry.pushes config (s.seq task.process) with
      | some entry => (config.push s.queue (.entry entry)).1
      | none => []
    | .deleting _ _ => s.queue
    | _ => []
  else []

/-- In this step a purging request removes only what it has processed. -/
def OnlyProcessed : Move → Prop
  | .advance k event =>
    ∀ task replay, s.tasks[k]? = some task → task.point.replay? = some replay → replay.purgeOnSuccess = true →
      ∀ item ∈ s.removed config task event, replay.Processed item
  | _ => True

/-- When `purge` deletes the list, each item that the request has neither read nor pushed carries a payload it has
processed; when a push of the request finds the list full, so do the oldest items. -/
def CarefulRemoval (replay : Replay) : Point → Prop
  | .replaying _ _ retry _ =>
    retry.isPushing = true → config.maxSize ≠ 0 →
      ∀ item ∈ s.queue.take (s.queue.length + 1 - config.maxSize), replay.Processed item
  | .deleting _ _ =>
    ∀ item ∈ s.queue, item ∉ replay.listed.map Item.entry → item ∉ replay.pushed.map Item.entry →
      replay.Processed item
  | _ => True

def CarefulPurge : Move → Prop
  | .advance k event =>
    ∀ task replay, s.tasks[k]? = some task → task.point.replay? = some replay → replay.purgeOnSuccess = true →
      event.executed = true → s.CarefulRemoval config replay task.point
  | _ => True

end System

variable {config : Config} {s t : System} {m : Move}

/-- What a step of a retry that pushes drops and leaves. -/
lemma queue_apply {process seq : ℕ} {retry : Retry} {event : Event} {progress : Progress} {effect : Effect}
    (next : retry.next config seq event = some (progress, effect)) :
    match retry.pushes config seq with
    | some entry =>
      (s.apply config process retry.payload effect).queue =
        if event.executed then (config.push s.queue (.entry entry)).2 else s.queue
    | none => (s.apply config process retry.payload effect).queue = s.queue := by
  obtain ⟨payload, source, state⟩ := retry
  cases state with
  | processing attempt =>
    cases event with
    | processed exc => cases exc <;> (cases next; rfl)
    | _ => cases next
  | pushing attempt exc =>
    cases event with
    | processed exc => cases next
    | ok =>
      cases next
      rfl
    | failed executed => cases executed <;> (cases next; rfl)
  | sleeping attempt =>
    cases event with
    | ok =>
      cases next
      rfl
    | _ => cases next

/-- A step of a request takes from the left of the list what it removes. -/
lemma queue_step {k : ℕ} {task : Task} {event : Event} (at_ : s.tasks[k]? = some task) {replay : Replay}
    (request : task.point.replay? = some replay) (step : Step config s (.advance k event) t) :
    ∃ added, s.removed config task event ++ t.queue = s.queue ++ added := by
  cases step with
  | @retry _ task' retry _ progress effect at' point next =>
    cases at_.symm.trans at'
    rw [point] at request
    cases request
  | @replaying _ task' replay' entry retry rest _ progress effect at' point next =>
    cases at_.symm.trans at'
    have queue := @queue_apply config s task.process _ _ _ _ _ next
    show ∃ added, _ ++ (s.apply config task.process retry.payload effect).queue = _
    rw [System.removed, point]
    cases pushes : retry.pushes config (s.seq task.process) with
    | none =>
      rw [pushes] at queue
      refine ⟨[], ?_⟩
      simp [pushes, queue]
    | some pushed =>
      rw [pushes] at queue
      cases executed : event.executed with
      | false =>
        refine ⟨[], ?_⟩
        simp [executed, queue]
      | true =>
        refine ⟨[.entry pushed], ?_⟩
        simp only [executed, queue, pushes, if_true]
        exact push_split _ _
  | read at' point =>
    cases at_.symm.trans at'
    rw [point] at request
    cases request
  | count at' point =>
    cases at_.symm.trans at'
    refine ⟨[], ?_⟩
    rw [System.removed, point]
    exact (List.append_nil _).symm
  | purge at' point executed =>
    cases at_.symm.trans at'
    refine ⟨[], ?_⟩
    rw [System.removed, point, if_pos executed]
    rfl
  | @failed _ _ executed at' none skipped =>
    cases at_.symm.trans at'
    refine ⟨[], ?_⟩
    have nothing : s.removed config task (.failed executed) = [] := by
      rw [System.removed]
      split
      · rename_i executed
        split
        · rename_i point
          rw [point] at none
          cases none
        · rename_i point
          exact absurd point (skipped executed _ _)
        · rfl
      · rfl
    rw [nothing]
    exact (List.append_nil _).symm

/-- What a request has read it has processed or still holds, and what it has pushed carries a payload it has processed
or holds, as long as its retries succeed. -/
def Point.Kept : Point → Prop
  | .replaying replay entry retry rest =>
    entry.payload = some retry.payload ∧
      (replay.results.all (·.2) = true →
        (∀ e ∈ replay.listed, e ∈ entry :: rest ∨ replay.Processed (.entry e)) ∧
          ∀ e ∈ replay.pushed, e.payload = some retry.payload ∨ replay.Processed (.entry e))
  | .counting replay | .deleting replay _ =>
    (∀ e ∈ replay.listed, replay.Processed (.entry e)) ∧ ∀ e ∈ replay.pushed, replay.Processed (.entry e)
  | _ => True

/-- Without another attempt a retry returns failure. -/
lemma attempt_returned {attempt : ℕ} {success : Bool} (returned : config.attempt attempt = .returned success) :
    success = false := by
  rw [Config.attempt] at returned
  split at returned <;> cases returned
  rfl

/-- A result that is not a success. -/
lemma not_all_add {replay : Replay} {entry : DLQEntry} : (replay.add entry false).results.all (·.2) ≠ true := by
  simp [Replay.add]

/-- A replay that goes on with entries that were read keeps them. -/
lemma kept_goOn {replay : Replay} {entries : List DLQEntry}
    (kept : replay.results.all (·.2) = true →
      (∀ e ∈ replay.listed, e ∈ entries ∨ replay.Processed (.entry e)) ∧
        ∀ e ∈ replay.pushed, replay.Processed (.entry e)) : (replay.goOn config entries).Kept := by
  induction entries generalizing replay with
  | nil =>
    rw [Replay.goOn, Replay.finish]
    split
    · rename_i purges
      rw [Bool.and_eq_true] at purges
      obtain ⟨listed, pushed⟩ := kept purges.2
      exact ⟨fun e mem => (listed e mem).resolve_left List.not_mem_nil, pushed⟩
    · trivial
  | cons entry rest ih =>
    rw [Replay.goOn]
    split
    · trivial
    · rename_i payload there
      split
      · exact ⟨there, fun all => ⟨(kept all).1, fun e mem => .inr ((kept all).2 e mem)⟩⟩
      · rename_i success returned
        cases attempt_returned returned
        exact ih fun all => absurd all not_all_add
      · trivial

/-- A replay whose retry makes a step keeps what it has read. -/
lemma kept_after {seq : ℕ} {replay : Replay} {entry : DLQEntry} {retry : Retry} {rest : List DLQEntry} {event : Event}
    {progress : Progress} {effect : Effect} (kept : (Point.replaying replay entry retry rest).Kept)
    (next : retry.next config seq event = some (progress, effect)) :
    ((replay.record retry.payload effect).after config entry retry rest progress).Kept := by
  obtain ⟨payload, source, state⟩ := retry
  obtain ⟨carries, kept⟩ := kept
  cases state with
  | processing attempt =>
    cases event with
    | processed exc =>
      cases exc with
      | none =>
        cases next
        refine kept_goOn fun all => ?_
        have before : replay.results.all (·.2) = true := by
          rw [Replay.add, List.all_append, Bool.and_eq_true] at all
          exact all.1
        obtain ⟨listed, pushed⟩ := kept before
        have now : ∀ e : DLQEntry, e.payload = some payload ∨ replay.Processed (.entry e) →
            ((replay.record payload .succeeded).add entry true).Processed (.entry e) := by
          rintro e (same | ⟨old, there, mem⟩)
          · exact ⟨payload, same, List.mem_append_right _ (List.mem_singleton_self payload)⟩
          · exact ⟨old, there, List.mem_append_left _ mem⟩
        refine ⟨fun e mem => ?_, fun e mem => now e (pushed e mem)⟩
        obtain held | old := listed e mem
        · obtain rfl | later := List.mem_cons.1 held
          · exact .inr (now e (.inl carries))
          · exact .inl later
        · exact .inr (now e (.inr old))
      | some exc =>
        cases next
        exact ⟨carries, kept⟩
    | _ => cases next
  | pushing attempt exc =>
    cases event with
    | processed exc => cases next
    | ok =>
      cases next
      split
      · exact kept_goOn fun all => absurd all not_all_add
      · refine ⟨carries, fun all => ⟨(kept all).1, fun e mem => ?_⟩⟩
        obtain old | new := List.mem_append.1 mem
        · exact (kept all).2 e old
        · rw [List.mem_singleton.1 new]
          exact .inl rfl
    | failed executed =>
      cases next
      trivial
  | sleeping attempt =>
    cases event with
    | ok =>
      cases next
      cases next : config.attempt (attempt + 1) with
      | going state => exact ⟨carries, kept⟩
      | returned success =>
        cases attempt_returned next
        exact kept_goOn fun all => absurd all not_all_add
      | raised => trivial
    | _ => cases next

def AllKept (s : System) : Prop := ∀ task ∈ s.tasks, task.point.Kept

/-- A task may move to where it keeps what it has read. -/
lemma AllKept.move {k : ℕ} {task : Task} {point : Point} (all : AllKept s) (kept : point.Kept) :
    AllKept (s.move k task point) := by
  intro other mem
  obtain mem | rfl := List.mem_or_eq_of_mem_set mem
  · exact all other mem
  · exact kept

/-- An effect takes nothing from the tasks. -/
lemma AllKept.apply {process : ℕ} {payload : Payload} {effect : Effect} (all : AllKept s) :
    AllKept (s.apply config process payload effect) := by
  cases effect <;> exact all

/-- A replay that has just read holds what it read. -/
lemma kept_read (entryId : Option ℤ) (purgeOnSuccess : Bool) : (s.read config entryId purgeOnSuccess).Kept := by
  cases entryId with
  | none => exact kept_goOn fun _ => ⟨fun e mem => .inl mem, fun e mem => absurd mem List.not_mem_nil⟩
  | some id =>
    cases found : getEntry s.queue id with
    | none =>
      simp only [System.read, found]
      trivial
    | some entry =>
      simp only [System.read, found]
      exact kept_goOn fun _ => ⟨fun e mem => .inl mem, fun e mem => absurd mem List.not_mem_nil⟩

/-- Each step keeps what was read. -/
lemma AllKept.step (all : AllKept s) (step : Step config s m t) : AllKept t := by
  cases step with
  | submit process payload source =>
    intro task mem
    obtain mem | rfl := (List.mem_append.1 mem).imp_right List.mem_singleton.1
    · exact all task mem
    · dsimp only [Config.retryWithBackoff, Config.attempt]
      split <;> trivial
  | replay =>
    intro task mem
    obtain mem | rfl := (List.mem_append.1 mem).imp_right List.mem_singleton.1
    · exact all task mem
    · trivial
  | produce => exact all
  | retry at_ point next =>
    refine all.apply.move ?_
    dsimp only [Retry.after]
    split <;> trivial
  | @replaying k task replay entry retry rest event progress effect at_ point next =>
    have kept := all task (List.mem_of_getElem? at_)
    rw [point] at kept
    exact all.apply.move (kept_after kept next)
  | read => exact all.move (kept_read _ _)
  | @count k task replay at_ point =>
    have kept := all task (List.mem_of_getElem? at_)
    rw [point] at kept
    exact all.move kept
  | purge at_ point executed response =>
    have same : AllKept { s with queue := [] } := all
    refine same.move ?_
    cases response <;> trivial
  | failed => exact all.move trivial
  | cancel => exact all.move trivial

/-- What a push drops are the oldest items of a full list. -/
lemma dropped_eq (queue : List Item) (item : Item) :
    (config.push queue item).1 =
      if config.maxSize = 0 then [] else queue.take (queue.length + 1 - config.maxSize) := by
  rw [Config.push, Config.excess, List.length_append, List.length_singleton]
  split
  · rfl
  · exact List.take_append_of_le_length (by omega)

/-- A retry that pushes removes what is too much at the front. -/
lemma removed_replaying {process : ℕ} {replay : Replay} {entry : DLQEntry} {retry : Retry} {rest : List DLQEntry}
    {event : Event} (executed : event.executed = true) :
    s.removed config ⟨process, .replaying replay entry retry rest⟩ event =
      if retry.isPushing = true ∧ config.maxSize ≠ 0 then s.queue.take (s.queue.length + 1 - config.maxSize)
      else [] := by
  obtain ⟨payload, source, state⟩ := retry
  rw [System.removed, if_pos executed]
  cases state with
  | pushing attempt exc =>
    refine (dropped_eq _ _).trans ?_
    by_cases unbounded : config.maxSize = 0
    · rw [if_pos unbounded, if_neg fun both => both.2 unbounded]
    · rw [if_neg unbounded, if_pos ⟨rfl, unbounded⟩]
  | _ => rfl

/-- A purging request removes only what it has processed exactly when it is careful. -/
lemma onlyProcessed_iff (all : AllKept s) : s.OnlyProcessed config m ↔ s.CarefulPurge config m := by
  cases m with
  | advance k event =>
    refine forall₅_congr fun task replay at_ request _ => ?_
    cases executed : event.executed with
    | false => simp [System.removed, executed]
    | true =>
      have kept := all task (List.mem_of_getElem? at_)
      obtain ⟨process, point⟩ := task
      rw [forall_prop_of_true (rfl : true = true)]
      cases point with
      | replaying replay' entry retry rest =>
        cases request
        rw [removed_replaying executed]
        constructor
        · intro only pushing bounded
          rwa [if_pos ⟨pushing, bounded⟩] at only
        · intro careful item mem
          split at mem
          · rename_i both
            exact careful both.1 both.2 item mem
          · cases mem
      | deleting replay' count =>
        cases request
        rw [System.removed, if_pos executed]
        refine ⟨fun only item mem _ _ => only item mem, fun careful item mem => ?_⟩
        -- what it has read or pushed it has processed
        by_cases listed : item ∈ replay.listed.map Item.entry
        · obtain ⟨e, there, rfl⟩ := List.mem_map.1 listed
          exact kept.1 e there
        · by_cases pushed : item ∈ replay.pushed.map Item.entry
          · obtain ⟨e, there, rfl⟩ := List.mem_map.1 pushed
            exact kept.2 e there
          · exact careful item mem listed pushed
      | counting replay' =>
        rw [System.removed, if_pos executed]
        exact iff_of_true (fun item mem => absurd mem List.not_mem_nil) trivial
      | _ => cases request
  | _ => exact Iff.rfl

namespace System

/-- In a run the requests with `purge_on_success` remove only entries whose payload they have processed exactly when
each step of these requests is careful. -/
theorem purges_processed_iff (config : Config) (queue : List Item) {trace : List Move} {last : System}
    (run : exec (step config) (init queue) trace = some last) :
    Guarded (step config) (OnlyProcessed config) (init queue) trace ↔
      Guarded (step config) (CarefulPurge config) (init queue) trace := by
  have kept : Always (step config) AllKept (init queue) trace :=
    always_of_invariant (fun _ mem => absurd mem List.not_mem_nil)
      (fun _ _ _ all next => all.step (step_cases next)) trace
  exact guarded_congr run kept fun _ _ _ all _ => onlyProcessed_iff all

/-- An entry that has failed for good. -/
def failedEntry : DLQEntry := Config.create {} 1 [7] (some ⟨"ValueError", "boom"⟩) "ingestion-pipeline" 3

def purgeTrace : List Move := [.replay 0 none true, .advance 0 .ok, .advance 0 .ok]

/-- There is nothing to replay, and the entry is deleted. -/
theorem purging_run :
    ∃ s t, exec (step {}) (init [.entry failedEntry]) purgeTrace = some s ∧ ¬s.OnlyProcessed {} (.advance 0 .ok) ∧
      s.step {} (.advance 0 .ok) = some t ∧ s.queue = [.entry failedEntry] ∧ t.queue = [] ∧ t.processed = [] := by
  refine ⟨_, _, rfl, fun only => ?_, rfl, rfl, rfl, rfl⟩
  obtain ⟨payload, -, processed⟩ := only _ _ rfl rfl rfl _ List.mem_cons_self
  cases processed

/-- An entry that is pending. -/
def pendingEntry : DLQEntry := Config.create {} 1 [7] (some ⟨"ValueError", "boom"⟩) "ingestion-pipeline" 1

/-- The request has read the only entry, and its processor succeeds. -/
theorem purges_processed_one_entry :
    Guarded (step {}) (OnlyProcessed {}) (init [.entry pendingEntry])
      [.replay 0 none true, .advance 0 .ok, .advance 0 (.processed none), .advance 0 .ok, .advance 0 .ok] := by
  refine (@purges_processed_iff {} [.entry pendingEntry] _ _ rfl).2 ?_
  refine guarded_cons.2 ⟨trivial, fun s first => ?_⟩
  cases first
  refine guarded_cons.2 ⟨fun task replay at_ request => ?_, fun s first => ?_⟩
  · cases at_
    cases request
  cases first
  refine guarded_cons.2 ⟨fun task replay at_ request _ executed => absurd executed (by decide), fun s first => ?_⟩
  cases first
  refine guarded_cons.2 ⟨fun task replay at_ request _ _ => ?_, fun s first => ?_⟩
  · cases at_
    trivial
  cases first
  refine guarded_cons.2 ⟨fun task replay at_ request _ _ => ?_, fun _ _ => guarded_nil⟩
  cases at_
  cases request
  intro item mem unread
  exact absurd mem unread

end System

end StellarFlow.DeadLetter
