import Mathlib.Data.List.Count
import StellarFlow.Governance.Ticks

/-!
# Submission of proposals by overlapping ticks

A tick submits the proposals that its SELECT returned, and marks each one only when the network has answered. Two
ticks that hold the same proposal both submit it. Where the SELECT of a tick returns no proposal that another tick
still holds, and each successful submission is marked, a proposal is submitted by one tick at a time and never again
after a success.
-/

namespace StellarFlow.Governance

/-- The proposal of a call, from its submission to the UPDATE. -/
def Phase.proposals : Phase → List TimelockedProposal
  | .ready => []
  | .calling p => [p]
  | .called p _ => [p]

/-- The proposals that a run of `checkAndExecute` holds. -/
def Task.held : Task → List String
  | .cleaning _ _ _ => []
  | .executing pending phase => (phase.proposals ++ pending).map TimelockedProposal.proposalId

/-- Those for which a call is still to be made or to be answered. -/
def Task.waiting : Task → List String
  | .executing pending (.calling p) => (p :: pending).map TimelockedProposal.proposalId
  | .executing pending _ => pending.map TimelockedProposal.proposalId
  | .cleaning _ _ _ => []

/-- A call for the proposal is outstanding. -/
def Task.isCalling (pid : String) : Task → Bool
  | .executing _ (.calling p) => p.proposalId = pid
  | _ => false

/-- The proposal whose call has succeeded and whose UPDATE is still to come. -/
def Task.marking : Task → Option String
  | .executing _ (.called p _) => some p.proposalId
  | _ => none

/-- The proposals that the runs of `checkAndExecute` hold. -/
def Service.held (s : Service) : List String := s.tasks.flatMap Task.held

/-- The number of outstanding calls for a proposal. -/
def Service.outstanding (s : Service) (pid : String) : ℕ := (s.tasks.filter (Task.isCalling pid)).length

/-- No call was made for a proposal after one had succeeded. -/
def InOrder (calls : List Call) : Prop :=
  calls.Pairwise fun a b => ∀ contractId pid status, a = .succeeded pid → b ≠ .made contractId pid status

/-- A proposal has one outstanding call at most, and none is made after one has succeeded. -/
def SubmittedOnce (s : Service) : Prop := (∀ pid, s.outstanding pid ≤ 1) ∧ InOrder s.calls

/-- No SELECT returns a proposal that another run holds, and an UPDATE fails only where it has nothing to do. -/
def Separate (cfg : Settings) (s : Service) : Move → Prop
  | .check ledgerTimestamp now => ∀ p ∈ s.dueProposals cfg ledgerTimestamp now, p.proposalId ∉ s.held
  | .update i false => ∀ pid ∈ s.tasks[i]?.bind Task.marking, ∀ l ∈ s.table pid, l.status ≠ .queued
  | _ => True

instance decidableSeparate (cfg : Settings) (s : Service) : (m : Move) → Decidable (Separate cfg s m)
  | .check ledgerTimestamp now =>
    inferInstanceAs (Decidable (∀ p ∈ s.dueProposals cfg ledgerTimestamp now, p.proposalId ∉ s.held))
  | .update i false =>
    inferInstanceAs (Decidable (∀ pid ∈ s.tasks[i]?.bind Task.marking, ∀ l ∈ s.table pid, l.status ≠ .queued))
  | .update _ true => isTrue trivial
  | .wait _ => isTrue trivial
  | .index _ _ => isTrue trivial
  | .notify _ => isTrue trivial
  | .clean _ _ => isTrue trivial
  | .expire _ _ _ => isTrue trivial
  | .next _ => isTrue trivial
  | .settle _ _ => isTrue trivial

/-- The row of a proposal is not queued any more. -/
def Service.Done (s : Service) (pid : String) : Prop := ∃ l, s.table pid = some l ∧ l.status ≠ .queued

/-- The runs hold different proposals, whose rows exist. One that was submitted with success is not waiting, and is
marked or about to be. -/
structure Apart (s : Service) : Prop where
  nodup : s.held.Nodup
  rows : ∀ pid ∈ s.held, ∃ l, s.table pid = some l
  idle : ∀ pid, .succeeded pid ∈ s.calls → ∀ t ∈ s.tasks, pid ∉ t.waiting
  marked : ∀ pid, .succeeded pid ∈ s.calls → (∃ t ∈ s.tasks, t.marking = some pid) ∨ s.Done pid
  order : InOrder s.calls

variable {cfg : Settings} {s s' : Service} {m : Move} {t t' : Task}

/-- A tick holds what it has still to submit. -/
lemma Task.mem_held_of_waiting {pid : String} (waiting : pid ∈ t.waiting) : pid ∈ t.held := by
  cases t with
  | cleaning => exact waiting
  | executing pending phase =>
    cases phase with
    | ready => exact waiting
    | calling p => exact waiting
    | called p hash => exact List.mem_cons_of_mem _ waiting

/-- A tick holds what it is marking. -/
lemma Task.mem_held_of_marking {pid : String} (called : t.marking = some pid) : pid ∈ t.held := by
  cases t with
  | cleaning => cases called
  | executing pending phase =>
    cases phase with
    | ready => cases called
    | calling p => cases called
    | called p hash => exact Option.some.inj called ▸ List.mem_cons_self

/-- What a tick holds, the service holds. -/
lemma mem_held {pid : String} (task : t ∈ s.tasks) (held : pid ∈ t.held) : pid ∈ s.held :=
  List.mem_flatMap.2 ⟨t, task, held⟩

/-- What is outstanding is held. -/
lemma outstanding_le_count (s : Service) (pid : String) : s.outstanding pid ≤ s.held.count pid := by
  rw [Service.outstanding, Service.held]
  induction s.tasks with
  | nil => exact le_rfl
  | cons t tasks ih =>
    rw [List.flatMap_cons, List.count_append]
    by_cases calling : t.isCalling pid = true
    · have one : 1 ≤ t.held.count pid := by
        rw [Nat.one_le_iff_ne_zero, ← Nat.pos_iff_ne_zero, List.count_pos_iff]
        cases t with
        | cleaning => cases calling
        | executing pending phase =>
          cases phase with
          | ready => cases calling
          | calling p => exact of_decide_eq_true calling ▸ List.mem_cons_self
          | called p hash => cases calling
      rw [List.filter_cons_of_pos calling, List.length_cons]
      omega
    · rw [List.filter_cons_of_neg calling]
      omega

/-- Where no two ticks hold the same proposal, each is submitted once. -/
lemma Apart.submittedOnce (inv : Apart s) : SubmittedOnce s :=
  ⟨fun pid => (outstanding_le_count s pid).trans (List.nodup_iff_count_le_one.1 inv.nodup pid), inv.order⟩

/-- A move that starts no run and is no success keeps the runs apart. -/
lemma Apart.go_on (inv : Apart s) {extra : List Call} (held : s'.held.Sublist s.held)
    (rows : ∀ pid l, s.table pid = some l →
      ∃ l', s'.table pid = some l' ∧ (l.status ≠ .queued → l'.status ≠ .queued))
    (waiting : ∀ t' ∈ s'.tasks, ∀ pid ∈ t'.waiting, ∃ t ∈ s.tasks, pid ∈ t.waiting)
    (called : ∀ t ∈ s.tasks, ∀ pid, t.marking = some pid →
      (∃ t' ∈ s'.tasks, t'.marking = some pid) ∨ s'.Done pid)
    (calls : s'.calls = s.calls ++ extra) (ordered : InOrder extra)
    (noSuccess : ∀ pid, .succeeded pid ∉ extra)
    (made : ∀ contractId pid status, .made contractId pid status ∈ extra → ∃ t ∈ s.tasks, pid ∈ t.waiting) :
    Apart s' := by
  have old : ∀ pid, .succeeded pid ∈ s'.calls → .succeeded pid ∈ s.calls := by
    intro pid mem
    rw [calls] at mem
    exact (List.mem_append.1 mem).resolve_right (noSuccess pid)
  refine ⟨inv.nodup.sublist held, ?_, ?_, ?_, ?_⟩
  · intro pid mem
    obtain ⟨l, found⟩ := inv.rows pid (held.subset mem)
    obtain ⟨l', after, -⟩ := rows pid l found
    exact ⟨l', after⟩
  · intro pid success t' task' mem
    obtain ⟨t, task, mem⟩ := waiting t' task' pid mem
    exact inv.idle pid (old pid success) t task mem
  · intro pid success
    rcases inv.marked pid (old pid success) with ⟨t, task, was⟩ | ⟨l, found, done⟩
    · exact called t task pid was
    · obtain ⟨l', after, kept⟩ := rows pid l found
      exact .inr ⟨l', after, kept done⟩
  · rw [calls]
    refine List.pairwise_append.2 ⟨inv.order, ordered, ?_⟩
    rintro a before b after contractId pid status rfl rfl
    obtain ⟨t, task, mem⟩ := made contractId pid status after
    exact inv.idle pid before t task mem

/-- A task goes on without new proposals; one that was called is still called, or its row is marked. -/
lemma Apart.replaced (inv : Apart s) {i : ℕ} {extra : List Call} (found : s.tasks[i]? = some t)
    (tasks : s'.tasks = s.tasks.set i t')
    (rows : ∀ pid l, s.table pid = some l →
      ∃ l', s'.table pid = some l' ∧ (l.status ≠ .queued → l'.status ≠ .queued))
    (held : t'.held.Sublist t.held) (waiting : ∀ pid ∈ t'.waiting, pid ∈ t.waiting)
    (called : ∀ pid, t.marking = some pid → s'.Done pid)
    (calls : s'.calls = s.calls ++ extra) (ordered : InOrder extra) (noSuccess : ∀ pid, .succeeded pid ∉ extra)
    (made : ∀ contractId pid status, .made contractId pid status ∈ extra → pid ∈ t.waiting) : Apart s' := by
  have task := List.mem_of_getElem? found
  refine inv.go_on ?_ rows ?_ ?_ calls ordered noSuccess fun c pid status mem => ⟨t, task, made c pid status mem⟩
  · obtain ⟨pre, post, before, after⟩ := Machine.split_set found
    rw [Service.held, Service.held, tasks, after, before, List.flatMap_append, List.flatMap_append, List.flatMap_cons,
      List.flatMap_cons]
    exact (List.Sublist.refl _).append (held.append (List.Sublist.refl _))
  · intro u mem pid waits
    rw [tasks] at mem
    rcases List.mem_or_eq_of_mem_set mem with old | rfl
    · exact ⟨u, old, waits⟩
    · exact ⟨t, task, waiting pid waits⟩
  · intro u mem pid was
    rcases Machine.mem_set_or_eq found t' mem with rfl | kept
    · exact .inr (called pid was)
    · exact .inl ⟨u, tasks ▸ kept, was⟩

/-- A task goes on, and no call is made or answered. -/
lemma Apart.resumed (inv : Apart s) {i : ℕ} (found : s.tasks[i]? = some t) (tasks : s'.tasks = s.tasks.set i t')
    (rows : ∀ pid l, s.table pid = some l →
      ∃ l', s'.table pid = some l' ∧ (l.status ≠ .queued → l'.status ≠ .queued))
    (held : t'.held.Sublist t.held) (waiting : ∀ pid ∈ t'.waiting, pid ∈ t.waiting)
    (called : ∀ pid, t.marking = some pid → s'.Done pid) (calls : s'.calls = s.calls) : Apart s' :=
  inv.replaced found tasks rows held waiting called (calls.trans (List.append_nil _).symm) List.Pairwise.nil
    (fun _ => List.not_mem_nil) fun _ _ _ mem => absurd mem List.not_mem_nil

/-- The tables change, and the tasks do not. -/
lemma Apart.rewritten (inv : Apart s) (tasks : s'.tasks = s.tasks) (calls : s'.calls = s.calls)
    (rows : ∀ pid l, s.table pid = some l →
      ∃ l', s'.table pid = some l' ∧ (l.status ≠ .queued → l'.status ≠ .queued)) : Apart s' := by
  refine inv.go_on ?_ rows ?_ ?_ (calls.trans (List.append_nil _).symm) List.Pairwise.nil
    (fun _ => List.not_mem_nil) fun _ _ _ mem => absurd mem List.not_mem_nil
  · rw [Service.held, Service.held, tasks]
  · exact fun t mem pid waits => ⟨t, tasks ▸ mem, waits⟩
  · exact fun t mem pid was => .inl ⟨t, tasks ▸ mem, was⟩

/-- A row that is not queued stays so. -/
lemma step_rows (taken : s.step cfg m = some s') (pid : String) (l : Lifecycle) (found : s.table pid = some l) :
    ∃ l', s'.table pid = some l' ∧ (l.status ≠ .queued → l'.status ≠ .queued) := by
  obtain ⟨l', after, same | queued | ⟨executed, -⟩⟩ := step_status taken found
  · exact ⟨l', after, fun was => same ▸ was⟩
  · exact ⟨l', after, fun was => absurd queued was⟩
  · refine ⟨l', after, fun _ => ?_⟩
    rw [executed]
    exact (nomatch ·)

/-- The UPDATE of `checkAndExecute` leaves no queued row. -/
lemma execute_done (rt : Runtime) {table : String → Option Lifecycle} {pid : String} {l : Lifecycle} (hash : String)
    (now : ℤ) (found : table pid = some l) :
    ∃ l', (Action.execute pid hash now).effect rt table pid = some l' ∧ l'.status ≠ .queued := by
  rw [Action.effect, Function.update_self, found]
  by_cases queued : l.status = .queued
  · refine ⟨_, congrArg some (if_pos queued), fun same => ?_⟩
    cases same
  · exact ⟨_, congrArg some (if_neg queued), queued⟩

/-- After a success the proposal is held by the run that submitted it, and by no other. -/
lemma apart_succeed (inv : Apart s) {i : ℕ} {p : TimelockedProposal} {pending : List TimelockedProposal} {hash : String}
    (task : s.tasks[i]? = some (.executing pending (.calling p))) :
    Apart { s with
      tasks := s.tasks.set i (.executing pending (.called p hash))
      calls := s.calls ++ [.succeeded p.proposalId] } := by
  obtain ⟨pre, post, before, after⟩ := Machine.split_set task
  have held : s.held = pre.flatMap Task.held ++ p.proposalId :: (pending.map TimelockedProposal.proposalId ++
      post.flatMap Task.held) := by
    rw [Service.held, before, List.flatMap_append, List.flatMap_cons]
    rfl
  have alone : p.proposalId ∉ pre.flatMap Task.held ∧
      p.proposalId ∉ pending.map TimelockedProposal.proposalId ++ post.flatMap Task.held := by
    have nodup := inv.nodup
    rw [held, List.nodup_middle, List.nodup_cons, List.mem_append, not_or] at nodup
    exact nodup.1
  have split (pid : String) : .succeeded pid ∈ s.calls ++ [.succeeded p.proposalId] ↔
      .succeeded pid ∈ s.calls ∨ pid = p.proposalId := by
    rw [List.mem_append, List.mem_singleton, Call.succeeded.injEq]
  refine ⟨?_, ?_, ?_, ?_, ?_⟩
  · show ((s.tasks.set i _).flatMap Task.held).Nodup
    rw [after, List.flatMap_append, List.flatMap_cons]
    exact held ▸ inv.nodup
  · intro pid mem
    apply inv.rows pid
    rw [held]
    change pid ∈ (s.tasks.set i _).flatMap Task.held at mem
    rw [after, List.flatMap_append, List.flatMap_cons] at mem
    exact mem
  · intro pid success u mem waits
    rcases (split pid).1 success with earlier | rfl
    · rcases List.mem_or_eq_of_mem_set mem with old | rfl
      · exact inv.idle pid earlier u old waits
      · exact inv.idle pid earlier _ (List.mem_of_getElem? task) (List.mem_cons_of_mem _ waits)
    · change u ∈ s.tasks.set i _ at mem
      rw [after, List.mem_append, List.mem_cons] at mem
      rcases mem with left | rfl | right
      · exact alone.1 (List.mem_flatMap.2 ⟨u, left, Task.mem_held_of_waiting waits⟩)
      · exact alone.2 (List.mem_append_left _ waits)
      · exact alone.2 (List.mem_append_right _ (List.mem_flatMap.2 ⟨u, right, Task.mem_held_of_waiting waits⟩))
  · intro pid success
    rcases (split pid).1 success with earlier | rfl
    · rcases inv.marked pid earlier with ⟨u, mem, was⟩ | done
      · rcases Machine.mem_set_or_eq task (.executing pending (.called p hash)) mem with rfl | kept
        · cases was
        · exact .inl ⟨u, kept, was⟩
      · exact .inr done
    · refine .inl ⟨.executing pending (.called p hash), ?_, rfl⟩
      exact after _ ▸ List.mem_append_right _ List.mem_cons_self
  · refine List.pairwise_append.2 ⟨inv.order, List.pairwise_singleton _ _, ?_⟩
    rintro a _ b last contractId pid status - rfl
    cases List.mem_singleton.1 last

/-- A SELECT returns nothing that was submitted with success. -/
lemma apart_check (inv : Apart s) {ledgerTimestamp now : ℤ}
    (separate : ∀ p ∈ s.dueProposals cfg ledgerTimestamp now, p.proposalId ∉ s.held) :
    Apart { s with tasks := s.tasks ++ [.executing (s.dueProposals cfg ledgerTimestamp now) .ready] } := by
  have rows : ∀ p ∈ s.dueProposals cfg ledgerTimestamp now,
      ∃ l, s.table p.proposalId = some l ∧ l.status = .queued := by
    intro p selected
    rw [Service.dueProposals] at selected
    obtain ⟨row, found, queued, -⟩ := mem_selectQueued selected
    exact ⟨row.lifecycle, congrArg (Option.map _) found, queued⟩
  have held : Service.held
      { s with tasks := s.tasks ++ [.executing (s.dueProposals cfg ledgerTimestamp now) .ready] } =
      s.held ++ (s.dueProposals cfg ledgerTimestamp now).map TimelockedProposal.proposalId := by
    rw [Service.held, List.flatMap_append, List.flatMap_singleton]
    rfl
  refine ⟨?_, ?_, ?_, ?_, inv.order⟩
  · rw [held]
    refine List.nodup_append.2 ⟨inv.nodup, nodup_selectQueued _ _, ?_⟩
    rintro pid old _ new rfl
    obtain ⟨p, selected, rfl⟩ := List.mem_map.1 new
    exact separate p selected old
  · intro pid mem
    rw [held] at mem
    rcases List.mem_append.1 mem with old | new
    · exact inv.rows pid old
    · obtain ⟨p, selected, rfl⟩ := List.mem_map.1 new
      obtain ⟨l, found, -⟩ := rows p selected
      exact ⟨l, found⟩
  · intro pid success u mem waits
    rcases List.mem_append.1 mem with old | new
    · exact inv.idle pid success u old waits
    · -- the row of a selected proposal is queued, so the success is not marked yet and its run holds the proposal
      rw [List.mem_singleton.1 new] at waits
      obtain ⟨p, selected, rfl⟩ := List.mem_map.1 waits
      obtain ⟨l, found, queued⟩ := rows p selected
      rcases inv.marked _ success with ⟨t, task, called⟩ | ⟨l', found', done⟩
      · exact separate p selected (mem_held task (Task.mem_held_of_marking called))
      · rw [found] at found'
        cases found'
        exact done queued
  · intro pid success
    refine (inv.marked pid success).imp_left ?_
    rintro ⟨t, task, called⟩
    exact ⟨t, List.mem_append_left _ task, called⟩

/-- A step of ticks that stay separate keeps them apart. -/
lemma apart_step (inv : Apart s) (separate : Separate cfg s m) (taken : s.step cfg m = some s') : Apart s' := by
  have rows := step_rows taken
  cases Service.step_cases taken with
  | wait ms => exact ⟨inv.nodup, inv.rows, inv.idle, inv.marked, inv.order⟩
  | index turn event => exact inv.rewritten rfl rfl rows
  | notify pid => exact inv.rewritten rfl rfl rows
  | @clean g now past =>
    have held : Service.held { s with tasks := s.tasks ++ [.cleaning g now (s.expiredProposals g now)] } = s.held := by
      rw [Service.held, List.flatMap_append, List.flatMap_singleton]
      exact List.append_nil _
    refine ⟨held ▸ inv.nodup, fun pid mem => inv.rows pid (held ▸ mem), ?_, ?_, inv.order⟩
    · intro pid success u mem
      rcases List.mem_append.1 mem with old | new
      · exact inv.idle pid success u old
      · rw [List.mem_singleton.1 new]
        exact List.not_mem_nil
    · intro pid success
      refine (inv.marked pid success).imp_left ?_
      rintro ⟨t, task, called⟩
      exact ⟨t, List.mem_append_left _ task, called⟩
  | expire task => exact inv.resumed task rfl rows (List.Sublist.refl _) (fun _ => id) (fun _ => (nomatch ·)) rfl
  | expireFails task => exact inv.resumed task rfl rows (List.Sublist.refl _) (fun _ => id) (fun _ => (nomatch ·)) rfl
  | check past => exact apart_check inv separate
  | skip task =>
    exact inv.resumed task rfl rows (List.sublist_cons_self _ _) (fun _ => List.mem_cons_of_mem _)
      (fun _ => (nomatch ·)) rfl
  | @call i p pending contractId task inTime =>
    refine inv.replaced task rfl rows (List.Sublist.refl _) (fun _ => id) (fun _ => (nomatch ·)) rfl
      (List.pairwise_singleton _ _) ?_ ?_
    · intro pid mem
      cases List.mem_singleton.1 mem
    · intro c pid status mem
      cases List.mem_singleton.1 mem
      exact List.mem_cons_self
  | succeed task => exact apart_succeed inv task
  | fail task =>
    refine inv.replaced task rfl rows (List.sublist_cons_self _ _) (fun _ => List.mem_cons_of_mem _)
      (fun _ => (nomatch ·)) rfl (List.pairwise_singleton _ _) ?_ ?_
    · intro pid mem
      cases List.mem_singleton.1 mem
    · intro c pid status mem
      cases List.mem_singleton.1 mem
  | @update i p pending hash task =>
    refine inv.resumed task rfl rows (List.sublist_cons_self _ _) (fun _ => id) ?_ rfl
    intro pid called
    cases called
    obtain ⟨l, found⟩ := inv.rows p.proposalId (mem_held (List.mem_of_getElem? task) (Task.mem_held_of_marking rfl))
    obtain ⟨l', after, done⟩ := execute_done cfg.rt hash s.clock found
    exact ⟨l', (congrFun (lifecycles_act cfg.rt cfg.contractId s.indexer _) _).trans after, done⟩
  | updateFails task =>
    refine inv.resumed task rfl rows (List.sublist_cons_self _ _) (fun _ => id) ?_ rfl
    intro pid called
    obtain ⟨l, found⟩ := inv.rows pid (mem_held (List.mem_of_getElem? task) (Task.mem_held_of_marking called))
    refine ⟨l, found, separate pid ?_ l found⟩
    rw [task]
    exact called

/-- In a run whose SELECTs return no proposal that another run holds, and whose successful submissions are marked,
every proposal is submitted by one tick at a time, and not after a success. -/
theorem submitted_once {clock : ℤ} {indexer : Indexer} {trace : List Move}
    (separate : Machine.Guarded (Service.step cfg) (Separate cfg) (Service.initial clock indexer) trace) :
    Machine.Always (Service.step cfg) SubmittedOnce (Service.initial clock indexer) trace := by
  have init : Apart (Service.initial clock indexer) :=
    ⟨List.nodup_nil, fun _ mem => absurd mem List.not_mem_nil, fun _ mem => absurd mem List.not_mem_nil,
      fun _ mem => absurd mem List.not_mem_nil, List.Pairwise.nil⟩
  have inv := Machine.always_of_guarded init (fun _ _ _ inv met taken => apart_step inv met taken) separate
  exact fun pre t le reached => (inv pre t le reached).submittedOnce

/-- A proposal is submitted, and the next tick finds nothing to do. -/
theorem submitted_once_sample :
    Machine.Always (Service.step sampleSettings) SubmittedOnce (sampleService 5)
      [.check 5 5, .next 0, .settle 0 (some "tx"), .update 0 true, .check 5 5] := by
  exact submitted_once (by decide +kernel)

/-- Two ticks that overlap submit the same proposal; both calls are outstanding, and both succeed. -/
theorem submitted_twice :
    let run := fun (trace : List Move) => Machine.exec (Service.step sampleSettings) (sampleService 5) trace
    (run [.check 5 5, .next 0, .check 5 5, .next 1]).map (·.outstanding "p") = some 2 ∧
      (run [.check 5 5, .check 5 5, .next 0, .settle 0 (some "tx"), .next 1, .settle 1 (some "ty")]).map Service.calls =
        some [.made "c" "p" (some .queued), .succeeded "p", .made "c" "p" (some .queued), .succeeded "p"] := by
  decide +kernel

end StellarFlow.Governance
