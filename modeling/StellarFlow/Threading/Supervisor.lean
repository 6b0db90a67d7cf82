import StellarFlow.Threading.StealingPool

/-!
# The supervisor of the pool

Model of `_supervisor` and of `DynamicThreadingPool.start` in `src/utils/threading_pool.py` over the work-stealing pool:
the supervisor counts workers in `state.worker_count`, adds one when it starts a worker, and takes one off when it has
put a sentinel into a queue. The pool is not stopped.

`Balanced` extends the equation between the count, the loops and the queued sentinels to the middle of a tick.
-/

open Machine

namespace StellarFlow.Threading

/-- `MIN_WORKERS`. -/
def minWorkers : ℕ := 4

/-- `MAX_WORKERS`. -/
def maxWorkers : ℕ := 16

/-- Where the starting thread or the supervisor is: in `start` with some workers still to make or one to start, between
two ticks, before `thread_factory`, before `new_thread.start`, before the count goes up, in
`enqueue_scale_down_sentinel`. -/
inductive SupervisorPoint where
  | booting (left : ℕ)
  | bootStarting (left worker : ℕ)
  | idle
  | scaling
  | starting (worker : ℕ)
  | counting
  | enqueueing (call : ℕ)
  deriving DecidableEq

structure PoolSystem where
  pool : Pool
  supervisor : SupervisorPoint
  workerCount : ℕ

/-- The supervisor moves, or a thread that submits, or a worker. -/
inductive SystemMove where
  | supervise
  | submit
  | advance (call : ℕ)
  | work (worker : ℕ)
  | finish (worker : ℕ) (outcome : Outcome)

namespace Pool
variable (s : Pool)

/-- `_WorkStealingTaskQueue.qsize`. -/
def qsize : ℕ :=
  (s.workers.map fun w => w.deque.length).sum

/-- The number of worker loops that run. -/
def running : ℕ :=
  (s.workers.map fun w => if w.point.looping then 1 else 0).sum

/-- The number of sentinels queued for a running worker. -/
def queued : ℕ :=
  (s.workers.map fun w => if w.point.looping then w.deque.count .sentinel else 0).sum

/-- Each sentinel is put into the queue of a running worker, no thief pops one that is queued for a running worker,
and a worker that takes one, or is ended by a task, has no other and one in its queue. -/
def Orderly : PoolMove → Prop
  | .advance k =>
    ∀ c ∈ s.calls[k]?, c.item = .sentinel →
      (c.point = .snapshot → s.snapshotActiveQueues ≠ []) ∧
        ∀ target ∈ c.target, ∀ w ∈ s.workers[target]?, w.point.looping = true
  | .work i =>
    ∀ w ∈ s.workers[i]?,
      (w.point = .popLeft → w.deque.head? = some .sentinel → w.deque.count .sentinel = 1) ∧
        ∀ j ∈ w.point.victim i, ∀ v ∈ s.workers[j]?,
          v.deque.getLast? = some .sentinel → v.point.looping = false
  | .finish i .baseException => ∀ w ∈ s.workers[i]?, w.deque.count .sentinel = 1
  | _ => True

instance : (move : PoolMove) → Decidable (s.Orderly move)
  | .advance k =>
    inferInstanceAs (Decidable (∀ c ∈ s.calls[k]?, c.item = .sentinel →
      (c.point = .snapshot → s.snapshotActiveQueues ≠ []) ∧
        ∀ target ∈ c.target, ∀ w ∈ s.workers[target]?, w.point.looping = true))
  | .work i =>
    inferInstanceAs (Decidable (∀ w ∈ s.workers[i]?,
      (w.point = .popLeft → w.deque.head? = some .sentinel → w.deque.count .sentinel = 1) ∧
        ∀ j ∈ w.point.victim i, ∀ v ∈ s.workers[j]?,
          v.deque.getLast? = some .sentinel → v.point.looping = false))
  | .finish i .baseException => inferInstanceAs (Decidable (∀ w ∈ s.workers[i]?, w.deque.count .sentinel = 1))
  | .finish _ .returned | .finish _ .exception | .register | .start _ | .submit | .scaleDown | .stop => isTrue trivial

variable {s} {t : Pool} {i : ℕ} {w : Worker} {f : Worker → Worker}

/-- Changing a worker changes whether it runs. -/
lemma running_alter (found : s.workers[i]? = some w) (f : Worker → Worker) :
    (s.alter i f).running + (if w.point.looping then 1 else 0) =
      s.running + if (f w).point.looping then 1 else 0 :=
  sum_modify (fun w => if w.point.looping then 1 else 0) f found

/-- Changing a worker changes the sentinels in its deque. -/
lemma queued_alter (found : s.workers[i]? = some w) (f : Worker → Worker) :
    (s.alter i f).queued + (if w.point.looping then w.deque.count .sentinel else 0) =
      s.queued + if (f w).point.looping then (f w).deque.count .sentinel else 0 :=
  sum_modify (fun w => if w.point.looping then w.deque.count .sentinel else 0) f found

/-- Moving on within the loop changes neither number. -/
lemma levels_goto (point : WorkerPoint) (found : s.workers[i]? = some w) (loops : w.point.looping = true)
    (goes : point.looping = true) :
    (s.goto i point).running = s.running ∧ (s.goto i point).queued = s.queued := by
  have running := running_alter found fun w => { w with point }
  have queued := queued_alter found fun w => { w with point }
  simp only [loops, goes, if_true] at running queued
  exact ⟨Nat.add_right_cancel running, Nat.add_right_cancel queued⟩

/-- A thief pops from the right of another queue and goes on. -/
lemma levels_popRight {j : ℕ} {victim : Worker} {item : Item} (point : WorkerPoint)
    (found : s.workers[i]? = some w) (loops : w.point.looping = true) (goes : point.looping = true)
    (other : s.workers[j]? = some victim) (last : victim.deque.getLast? = some item) :
    let t := (s.alter j fun v => { v with deque := v.deque.dropLast }).goto i point
    t.running = s.running ∧ t.queued + (if victim.point.looping ∧ item = .sentinel then 1 else 0) = s.queued := by
  have running := running_alter other fun v => { v with deque := v.deque.dropLast }
  have queued := queued_alter other fun v => { v with deque := v.deque.dropLast }
  obtain ⟨w', found', same⟩ := found_alter found j fun v => { v with deque := v.deque.dropLast }
  have loops' : w'.point.looping = true := by rcases same with rfl | rfl <;> exact loops
  obtain ⟨running', queued'⟩ := levels_goto point found' loops' goes
  intro t
  rw [count_dropLast last] at queued
  refine ⟨running'.trans (Nat.add_right_cancel running), ?_⟩
  rw [queued']
  split at queued
  · simp_all
    omega
  · simp_all

/-- The two numbers change by as much. -/
def Level (s t : Pool) : Prop :=
  t.queued + s.running = s.queued + t.running

/-- The level is kept where as many workers stop as sentinels go. -/
lemma level_iff {a b c d : ℕ} (running : t.running + a = s.running + b) (queued : t.queued + c = s.queued + d) :
    Level s t ↔ a + d = b + c := by
  rw [Level]
  omega

/-- A step is orderly that takes no other's sentinel. -/
lemma orderly_work (found : s.workers[i]? = some w)
    (sentinel : w.point = .popLeft → w.deque.head? = some .sentinel → w.deque.count .sentinel = 1)
    (victim : ∀ j ∈ w.point.victim i, ∀ v ∈ s.workers[j]?,
      v.deque.getLast? = some .sentinel → v.point.looping = false) : s.Orderly (.work i) := by
  intro w' found'
  cases found.symm.trans found'
  exact ⟨sentinel, victim⟩

/-- A step of a worker keeps level exactly when it is orderly. -/
lemma level_work_iff (going : s.stopped = false) (next : Step s (.work i) t) :
    Level s t ↔ s.Orderly (.work i) := by
  cases next with
  | turn found loops goes idle missed =>
    obtain ⟨running, queued⟩ := levels_goto _ found loops goes
    refine iff_of_true (by rw [Level, running, queued]) (orderly_work found ?_ ?_)
    · intro at_ first
      rw [idle at_] at first
      cases first
    · intro j aim v other last
      rw [missed j aim v other] at last
      cases last
  | stopping found at_ stopped => exact absurd (going.symm.trans stopped) (by simp)
  | @takeSentinel i w rest found at_ deque =>
    have running := running_alter found fun w => { w with deque := rest, point := .leaving }
    have queued := queued_alter found fun w => { w with deque := rest, point := .leaving }
    simp only [at_, deque, WorkerPoint.looping, if_true, Bool.false_eq_true, if_false, List.count_cons_self]
      at running queued
    refine (level_iff running queued).trans ⟨fun level => ?_, fun orderly => ?_⟩
    · refine orderly_work found (fun _ _ => ?_) (by simp [at_, WorkerPoint.victim])
      rw [deque, List.count_cons_self]
      omega
    · have single := (orderly w found).1 at_ (by rw [deque]; rfl)
      rw [deque, List.count_cons_self] at single
      omega
  | @takeTask i w rest id found at_ deque =>
    have running := running_alter found fun w => { w with deque := rest, point := .running id }
    have queued := queued_alter found fun w => { w with deque := rest, point := .running id }
    have other : (Item.task id :: rest).count .sentinel = rest.count .sentinel := List.count_cons_of_ne (by simp)
    simp only [at_, deque, WorkerPoint.looping, if_true, other] at running queued
    refine iff_of_true ?_ (orderly_work found ?_ (by simp [at_, WorkerPoint.victim]))
    · exact (level_iff running queued).2 rfl
    · intro _ first
      rw [deque] at first
      cases first
  | @dropSentinel i w victim queues offset found at_ other last =>
    obtain ⟨running, queued⟩ := levels_popRight _ found (by rw [at_]; rfl) (looping_nextOffset queues offset) other last
    rw [Level, running]
    constructor
    · intro level
      refine orderly_work found (by simp [at_]) fun j aim v other' _ => ?_
      rw [at_] at aim
      cases aim
      cases other.symm.trans other'
      cases loops : victim.point.looping with
      | false => rfl
      | true =>
        rw [if_pos ⟨loops, rfl⟩] at queued
        omega
    · intro orderly
      have away := (orderly w found).2 _ (by rw [at_]; rfl) victim other last
      rw [if_neg (by simp [away])] at queued
      omega
  | @stealTask i w victim queues offset id found at_ other last =>
    obtain ⟨running, queued⟩ := levels_popRight (.running id) found (by rw [at_]; rfl) rfl other last
    rw [if_neg (by simp)] at queued
    refine iff_of_true ?_ (orderly_work found (by simp [at_]) fun j aim v other' last' => ?_)
    · exact (level_iff (congrArg (· + 0) running) queued).2 rfl
    · rw [at_] at aim
      cases aim
      cases other.symm.trans other'
      cases last.symm.trans last'
  | @deactivate i w found at_ =>
    have running := running_alter found fun w => { w with active := false, point := .exited }
    have queued := queued_alter found fun w => { w with active := false, point := .exited }
    simp only [at_, WorkerPoint.looping, Bool.false_eq_true, if_false] at running queued
    exact iff_of_true ((level_iff running queued).2 rfl)
      (orderly_work found (by simp [at_]) (by simp [at_, WorkerPoint.victim]))

/-- The end of a task keeps level exactly when it is orderly. -/
lemma level_finish_iff {outcome : Outcome} (next : Step s (.finish i outcome) t) :
    Level s t ↔ s.Orderly (.finish i outcome) := by
  cases next with
  | finish found at_ ends =>
    obtain ⟨running, queued⟩ := levels_goto .top found (by rw [at_]; rfl) rfl
    refine iff_of_true (by rw [Level, running, queued]) ?_
    cases outcome with
    | returned => trivial
    | exception => trivial
    | baseException => exact absurd rfl ends
  | @kill i id w found at_ =>
    have running := running_alter found fun w => { w with point := .killed }
    have queued := queued_alter found fun w => { w with point := .killed }
    simp only [at_, WorkerPoint.looping, if_true, Bool.false_eq_true, if_false] at running queued
    refine (level_iff running queued).trans ⟨fun level w' found' => ?_, fun orderly => ?_⟩
    · cases found.symm.trans found'
      omega
    · have single := orderly w found
      omega

end Pool

namespace PoolSystem

/-- A pool made with `min_workers`, before `start`. -/
def init (workers : ℕ) : PoolSystem :=
  { pool := .empty, supervisor := .booting workers, workerCount := workers }

variable (s : PoolSystem)

/-- The reading of the depth and the count at a tick, and what follows from it. The ratio is not computed: it is above
`_SCALE_UP_RATIO` or below `_SCALE_DOWN_RATIO` when these comparisons hold. -/
def tick : Option PoolSystem :=
  let depth := s.pool.qsize
  let current := s.workerCount
  if (current = 0 ∨ depth > 2 * current) ∧ current < maxWorkers then some { s with supervisor := .scaling }
  else if (current ≠ 0 ∧ 2 * depth < current) ∧ current > minWorkers then
    (s.pool.step .scaleDown).map fun pool => { s with pool, supervisor := .enqueueing s.pool.calls.length }
  else some s

/-- A section of `start` or of `_supervisor`. -/
def supervise : Option PoolSystem :=
  match s.supervisor with
  | .booting 0 => some { s with supervisor := .idle }
  | .booting (left + 1) =>
    (s.pool.step .register).map fun pool =>
      { s with pool, supervisor := .bootStarting left s.pool.workers.length }
  | .bootStarting left worker =>
    (s.pool.step (.start worker)).map fun pool => { s with pool, supervisor := .booting left }
  | .idle => s.tick
  | .scaling =>
    (s.pool.step .register).map fun pool => { s with pool, supervisor := .starting s.pool.workers.length }
  | .starting worker =>
    (s.pool.step (.start worker)).map fun pool => { s with pool, supervisor := .counting }
  | .counting => some { s with workerCount := s.workerCount + 1, supervisor := .idle }
  | .enqueueing call =>
    if (s.pool.calls[call]?).map (·.point) = some .returned then
      some { s with workerCount := s.workerCount - 1, supervisor := .idle }
    else none

def step : SystemMove → Option PoolSystem
  | .supervise => s.supervise
  | .submit => (s.pool.step .submit).map fun pool => { s with pool }
  | .advance k => (s.pool.step (.advance k)).map fun pool => { s with pool }
  | .work i => (s.pool.step (.work i)).map fun pool => { s with pool }
  | .finish i outcome => (s.pool.step (.finish i outcome)).map fun pool => { s with pool }

/-- Between two ticks the count is the number of running loops less the sentinels queued for them. -/
def Truthful : Prop :=
  s.supervisor = .idle → (s.workerCount : ℤ) = s.pool.running - s.pool.queued

/-- The condition on a step: the pool's steps are orderly. -/
def Orderly : SystemMove → Prop
  | .supervise | .submit => True
  | .advance k => s.pool.Orderly (.advance k)
  | .work i => s.pool.Orderly (.work i)
  | .finish i outcome => s.pool.Orderly (.finish i outcome)

instance : (move : SystemMove) → Decidable (s.Orderly move)
  | .supervise | .submit => isTrue trivial
  | .advance k => inferInstanceAs (Decidable (s.pool.Orderly (.advance k)))
  | .work i => inferInstanceAs (Decidable (s.pool.Orderly (.work i)))
  | .finish i outcome => inferInstanceAs (Decidable (s.pool.Orderly (.finish i outcome)))

/-- Workers that run and are not in the count yet. -/
def started : ℕ :=
  match s.supervisor with
  | .counting => 1
  | _ => 0

/-- Workers in the count that do not run yet, or whose sentinel is already queued. -/
def owed : ℕ :=
  match s.supervisor with
  | .booting left => left
  | .bootStarting left _ => left + 1
  | .enqueueing call => if (s.pool.calls[call]?).map (·.point) = some .returned then 1 else 0
  | _ => 0

/-- The equation at any moment. -/
def Balanced : Prop :=
  s.workerCount + s.pool.queued + s.started = s.pool.running + s.owed

/-- A created worker has no sentinel waiting. -/
def Fresh (w : Worker) : Prop :=
  w.point = .created → .sentinel ∉ w.deque

/-- What holds besides: no sentinel waits for a worker that is not started, the only call that may put one is the
supervisor's, and the supervisor makes it with more than the least number of workers. -/
structure Inv : Prop where
  going : s.pool.stopped = false
  fresh : ∀ w ∈ s.pool.workers, Fresh w
  solo : ∀ (k : ℕ) (c : Call), s.pool.calls[k]? = some c → c.item = .sentinel →
    c.point = .returned ∨ s.supervisor = .enqueueing k
  own : ∀ k, s.supervisor = .enqueueing k →
    minWorkers < s.workerCount ∧ ∃ c, s.pool.calls[k]? = some c ∧ c.item = .sentinel

variable {s} {t : PoolSystem}

/-- The sections of the starting thread and of the supervisor. -/
inductive Supervised (s : PoolSystem) : PoolSystem → Prop where
  | booted (at_ : s.supervisor = .booting 0) : Supervised s { s with supervisor := .idle }
  | bootRegister {left : ℕ} {pool : Pool} (at_ : s.supervisor = .booting (left + 1))
    (next : s.pool.step .register = some pool) :
    Supervised s { s with pool, supervisor := .bootStarting left s.pool.workers.length }
  | bootStart {left worker : ℕ} {pool : Pool} (at_ : s.supervisor = .bootStarting left worker)
    (next : s.pool.step (.start worker) = some pool) : Supervised s { s with pool, supervisor := .booting left }
  | scaleUp (at_ : s.supervisor = .idle) : Supervised s { s with supervisor := .scaling }
  | scaleDown {pool : Pool} (at_ : s.supervisor = .idle) (ample : minWorkers < s.workerCount)
    (next : s.pool.step .scaleDown = some pool) :
    Supervised s { s with pool, supervisor := .enqueueing s.pool.calls.length }
  | steady (at_ : s.supervisor = .idle) : Supervised s s
  | register {pool : Pool} (at_ : s.supervisor = .scaling) (next : s.pool.step .register = some pool) :
    Supervised s { s with pool, supervisor := .starting s.pool.workers.length }
  | start {worker : ℕ} {pool : Pool} (at_ : s.supervisor = .starting worker)
    (next : s.pool.step (.start worker) = some pool) : Supervised s { s with pool, supervisor := .counting }
  | countUp (at_ : s.supervisor = .counting) :
    Supervised s { s with workerCount := s.workerCount + 1, supervisor := .idle }
  | countDown {call : ℕ} (at_ : s.supervisor = .enqueueing call)
    (returned : (s.pool.calls[call]?).map (·.point) = some .returned) :
    Supervised s { s with workerCount := s.workerCount - 1, supervisor := .idle }

/-- A turn of the supervisor is one of those named. -/
lemma supervise_cases (next : s.supervise = some t) : Supervised s t := by
  unfold supervise at next
  split at next
  · cases next
    exact .booted ‹_›
  · obtain ⟨pool, made, rfl⟩ := Option.map_eq_some_iff.1 next
    exact .bootRegister ‹_› made
  · obtain ⟨pool, made, rfl⟩ := Option.map_eq_some_iff.1 next
    exact .bootStart ‹_› made
  · simp only [tick] at next
    split at next
    · cases next
      exact .scaleUp ‹_›
    · split at next
      · rename_i down
        obtain ⟨pool, made, rfl⟩ := Option.map_eq_some_iff.1 next
        exact .scaleDown ‹_› down.2 made
      · cases next
        exact .steady ‹_›
  · obtain ⟨pool, made, rfl⟩ := Option.map_eq_some_iff.1 next
    exact .register ‹_› made
  · obtain ⟨pool, made, rfl⟩ := Option.map_eq_some_iff.1 next
    exact .start ‹_› made
  · cases next
    exact .countUp ‹_›
  · split at next
    · cases next
      exact .countDown ‹_› ‹_›
    · cases next

/-- The equation is kept by a step that keeps level and leaves the supervisor and the calls alone. -/
lemma balanced_iff_level {pool : Pool} (balanced : s.Balanced) (calls : pool.calls = s.pool.calls) :
    Balanced { s with pool } ↔ s.pool.Level pool := by
  have started : started { s with pool } = s.started := rfl
  have owed : owed { s with pool } = s.owed := by
    simp only [PoolSystem.owed, calls]
  rw [Balanced] at balanced
  rw [Balanced, started, owed, Pool.Level]
  dsimp only
  omega

/-- While it enqueues, it owes a sentinel from when the call has returned. -/
lemma owed_of_enqueueing {k : ℕ} (at_ : s.supervisor = .enqueueing k) :
    s.owed = if (s.pool.calls[k]?).map (·.point) = some .returned then 1 else 0 := by
  rw [owed, at_]

/-- A call goes on: a scale-down is owed from the moment the supervisor's call returns. -/
lemma owed_callGoto {k : ℕ} {c : Call} (point : CallPoint) (pool : Pool) (found : s.pool.calls[k]? = some c)
    (before : c.point ≠ .returned) (calls : pool.calls = s.pool.calls.modify k fun c => { c with point }) :
    owed { s with pool } = s.owed + if s.supervisor = .enqueueing k ∧ point = .returned then 1 else 0 := by
  cases at_ : s.supervisor with
  | enqueueing k' =>
    rw [owed_of_enqueueing at_, owed]
    simp only [SupervisorPoint.enqueueing.injEq]
    rw [calls, List.getElem?_modify]
    by_cases same : k = k'
    · subst same
      rw [found]
      simp [before]
    · have other : ¬(k' = k ∧ point = .returned) := fun both => same both.1.symm
      simp only [if_neg same, id_map', if_neg other, Nat.add_zero]
  | _ => simp [owed, at_]

/-- What a call puts keeps the equation exactly where it is no sentinel, or its target goes on. -/
lemma balanced_put_iff {k target : ℕ} {c : Call} {w : Worker} (inv : s.Inv) (balanced : s.Balanced)
    (found : s.pool.calls[k]? = some c) (at_ : c.point = .put target) (other : s.pool.workers[target]? = some w) :
    Balanced { s with
      pool := (s.pool.alter target fun w => { w with deque := w.deque ++ [c.item] }).callGoto k .returned } ↔
        (c.item = .sentinel → w.point.looping = true) := by
  have owed := owed_callGoto .returned
    ((s.pool.alter target fun w => { w with deque := w.deque ++ [c.item] }).callGoto k .returned)
    found (by simp [at_]) rfl
  have running := Pool.running_alter other fun w => { w with deque := w.deque ++ [c.item] }
  have queued := Pool.queued_alter other fun w => { w with deque := w.deque ++ [c.item] }
  have running' := Nat.add_right_cancel running
  rw [Balanced] at balanced ⊢
  rw [owed]
  change s.workerCount + Pool.queued (Pool.alter _ _ _) + s.started = Pool.running (Pool.alter _ _ _) + _ ↔ _
  rw [running']
  by_cases item : c.item = .sentinel
  · have mine := (inv.solo k c found item).resolve_left (by simp [at_])
    rw [if_pos ⟨mine, rfl⟩]
    rw [item] at queued ⊢
    cases loops : w.point.looping with
    | true =>
      simp only [loops, if_true, List.count_append, List.count_singleton_self] at queued
      exact iff_of_true (by omega) fun _ => rfl
    | false =>
      simp only [loops, Bool.false_eq_true, if_false] at queued
      exact iff_of_false (by omega) fun goes => absurd (goes rfl) (by simp)
  · have task : (w.deque ++ [c.item]).count .sentinel = w.deque.count .sentinel := by
      rw [List.count_append, List.count_singleton, if_neg (by simpa using item), Nat.add_zero]
    have notMine : ¬(s.supervisor = .enqueueing k ∧ CallPoint.returned = .returned) := by
      rintro ⟨mine, -⟩
      obtain ⟨-, c', found', item'⟩ := inv.own k mine
      cases found.symm.trans found'
      exact item item'
    rw [if_neg notMine]
    simp only [task] at queued
    exact iff_of_true (by omega) fun item' => absurd item' item

/-- A step of a call keeps the equation exactly when it is orderly. -/
lemma balanced_advance_iff {k : ℕ} {pool : Pool} (inv : s.Inv) (balanced : s.Balanced)
    (next : s.pool.Step (.advance k) pool) : Balanced { s with pool } ↔ s.pool.Orderly (.advance k) := by
  cases next with
  | @callTurn k c point found before after notPut aimed =>
    have owed := owed_callGoto point (s.pool.callGoto k point) found before rfl
    rw [if_neg fun both => after both.2] at owed
    refine iff_of_true ?_ ?_
    · rw [Balanced, owed]
      exact balanced
    · intro c' found' sentinel
      cases found.symm.trans found'
      refine ⟨aimed sentinel, fun target aim => ?_⟩
      rw [notPut] at aim
      cases aim
  | @callNowhere k c found at_ item none =>
    -- the supervisor's call finds no queue
    have mine := (inv.solo k c found item).resolve_left (by simp [at_])
    have owed := owed_callGoto .returned (s.pool.callGoto k .returned) found (by simp [at_]) rfl
    rw [if_pos ⟨mine, rfl⟩] at owed
    refine iff_of_false ?_ fun orderly => (orderly c found item).1 at_ none
    rw [Balanced] at balanced ⊢
    rw [owed]
    change s.workerCount + s.pool.queued + s.started ≠ s.pool.running + (s.owed + 1)
    omega
  | @put k target c w found at_ other =>
    have aim : c.target = some target := by rw [Call.target, at_]
    rw [balanced_put_iff inv balanced found at_ other]
    constructor
    · intro goes c' found' item
      cases found.symm.trans found'
      refine ⟨by simp [at_], fun target' aim' w' other' => ?_⟩
      cases aim.symm.trans aim'
      cases other.symm.trans other'
      exact goes item
    · exact fun orderly item => (orderly c found item).2 target aim w other

/-- A worker that has been started. -/
lemma fresh_of_ne {w : Worker} (started : w.point ≠ .created) : Fresh w :=
  fun created => absurd created started

/-- The steps of workers leave the queues of created workers alone, but for thieves. -/
lemma fresh_step {pool pool' : Pool} {move : PoolMove} (fresh : ∀ w ∈ pool.workers, Fresh w)
    (orderly : pool.Orderly move) (next : pool.Step move pool') : ∀ w ∈ pool'.workers, Fresh w := by
  have steal (i j : ℕ) (w victim : Worker) (point : WorkerPoint) (found : pool.workers[i]? = some w)
      (other : pool.workers[j]? = some victim) (goes : point ≠ .created) :
      ∀ w ∈ ((pool.alter j fun v => { v with deque := v.deque.dropLast }).goto i point).workers, Fresh w := by
    have popped : ∀ w ∈ (pool.alter j fun v => { v with deque := v.deque.dropLast }).workers, Fresh w :=
      (forall_modify other fresh).2 fun created mem =>
        fresh victim (List.mem_of_getElem? other) created (List.dropLast_subset _ mem)
    obtain ⟨w', found', -⟩ := Pool.found_alter found j fun v => { v with deque := v.deque.dropLast }
    exact (forall_modify found' popped).2 (fresh_of_ne goes)
  cases next with
  | register => exact Machine.forall_snoc fresh (by simp [Fresh])
  | start found created => exact (forall_modify found fresh).2 (fresh_of_ne (by simp))
  | @turn i w point found loops goes idle missed =>
    refine (forall_modify found fresh).2 (fresh_of_ne ?_)
    rintro rfl
    cases goes
  | stopping found at_ stopped => exact (forall_modify found fresh).2 (fresh_of_ne (by simp))
  | takeSentinel found at_ deque => exact (forall_modify found fresh).2 (fresh_of_ne (by simp))
  | takeTask found at_ deque => exact (forall_modify found fresh).2 (fresh_of_ne (by simp))
  | dropSentinel found at_ other last =>
    refine steal _ _ _ _ _ found other ?_
    unfold Pool.nextOffset
    split <;> simp
  | stealTask found at_ other last => exact steal _ _ _ _ _ found other (by simp)
  | deactivate found at_ => exact (forall_modify found fresh).2 (fresh_of_ne (by simp))
  | finish found at_ ends => exact (forall_modify found fresh).2 (fresh_of_ne (by simp))
  | kill found at_ => exact (forall_modify found fresh).2 (fresh_of_ne (by simp))
  | submit => exact fresh
  | scaleDown => exact fresh
  | callTurn found before after notPut aimed => exact fresh
  | callNowhere found at_ item none => exact fresh
  | @put k target c w found at_ other =>
    refine (forall_modify other fresh).2 fun created mem => ?_
    rcases List.mem_append.1 mem with old | new
    · exact fresh w (List.mem_of_getElem? other) created old
    · -- the sentinel goes to a running worker
      have loops := (orderly c found (List.mem_singleton.1 new).symm).2 target (by rw [Call.target, at_]; rfl) w other
      simp only at created
      rw [created] at loops
      cases loops
  | stop => exact fresh

/-- Only `stop` stops the pool. -/
lemma stopped_step {pool pool' : Pool} {move : PoolMove} (going : pool.stopped = false)
    (next : pool.Step move pool') (running : move ≠ .stop) : pool'.stopped = false := by
  cases next <;> first | exact going | exact absurd rfl running

/-- A call that goes on keeps its item. -/
lemma sentinel_callGoto {pool : Pool} {k : ℕ} {c : Call} (point : CallPoint) (found : pool.calls[k]? = some c)
    (before : c.point ≠ .returned) (j : ℕ) :
    (∀ c', (pool.callGoto k point).calls[j]? = some c' → c'.item = .sentinel →
      ∃ c, pool.calls[j]? = some c ∧ c.item = .sentinel ∧ (c = c' ∨ c.point ≠ .returned)) ∧
    ∀ c, pool.calls[j]? = some c → c.item = .sentinel →
      ∃ c', (pool.callGoto k point).calls[j]? = some c' ∧ c'.item = .sentinel := by
  rw [Pool.callGoto, List.getElem?_modify]
  by_cases same : k = j
  · subst same
    rw [found]
    refine ⟨fun c' found' item => ⟨c, rfl, ?_, .inr before⟩, fun c' found' item => ⟨_, rfl, ?_⟩⟩
    · simp only [Option.map_eq_map, Option.map_some, Option.some.injEq, if_true] at found'
      rw [← found'] at item
      exact item
    · cases found'
      simp only [if_true]
      exact item
  · simp only [if_neg same, id_map']
    exact ⟨fun c' found' item => ⟨c', found', item, .inl rfl⟩, fun c found' item => ⟨c, found', item⟩⟩

/-- The calls that carry a sentinel are the same after a step that begins none. -/
lemma sentinel_step {pool pool' : Pool} {move : PoolMove} (next : pool.Step move pool') (other : move ≠ .scaleDown)
    (j : ℕ) :
    (∀ c', pool'.calls[j]? = some c' → c'.item = .sentinel →
      ∃ c, pool.calls[j]? = some c ∧ c.item = .sentinel ∧ (c = c' ∨ c.point ≠ .returned)) ∧
    ∀ c, pool.calls[j]? = some c → c.item = .sentinel → ∃ c', pool'.calls[j]? = some c' ∧ c'.item = .sentinel := by
  cases next with
  | submit =>
    constructor
    · intro c' found' item
      rw [List.getElem?_append] at found'
      split at found'
      · exact ⟨c', found', item, .inl rfl⟩
      · rw [List.getElem?_singleton] at found'
        split at found'
        · cases found'
          cases item
        · cases found'
    · intro c found item
      obtain ⟨lt, -⟩ := List.getElem?_eq_some_iff.1 found
      exact ⟨c, (List.getElem?_append_left lt).trans found, item⟩
  | scaleDown => exact absurd rfl other
  | callTurn found before after notPut aimed => exact sentinel_callGoto _ found before j
  | callNowhere found at_ item none => exact sentinel_callGoto _ found (by simp [at_]) j
  | put found at_ other => exact @sentinel_callGoto (Pool.alter _ _ _) _ _ _ found (by simp [at_]) j
  | _ => exact ⟨fun c' found item => ⟨c', found, item, .inl rfl⟩, fun c found item => ⟨c, found, item⟩⟩

/-- The steps of the pool that are not the supervisor's keep the invariant when they are orderly. -/
lemma Inv.pool_step {pool : Pool} {move : PoolMove} (inv : s.Inv) (orderly : s.pool.Orderly move)
    (next : s.pool.Step move pool) (notDown : move ≠ .scaleDown) (notStop : move ≠ .stop) :
    Inv { s with pool } where
  going := stopped_step inv.going next notStop
  fresh := fresh_step inv.fresh orderly next
  solo k c found item := by
    obtain ⟨c', found', item', rfl | before⟩ := (sentinel_step next notDown k).1 c found item
    · exact inv.solo k c' found' item
    · exact .inr ((inv.solo k c' found' item').resolve_left before)
  own k at_ := by
    obtain ⟨ample, c, found, item⟩ := inv.own k at_
    exact ⟨ample, (sentinel_step next notDown k).2 c found item⟩

/-- The supervisor goes on to a point outside `enqueue_scale_down_sentinel`. -/
lemma Inv.advance (inv : s.Inv) (point : SupervisorPoint) (workerCount : ℕ) (away : ∀ k, point ≠ .enqueueing k)
    (done : ∀ k, s.supervisor = .enqueueing k → (s.pool.calls[k]?).map (·.point) = some .returned) :
    Inv { s with supervisor := point, workerCount } where
  going := inv.going
  fresh := inv.fresh
  solo k c found item := by
    rcases inv.solo k c found item with returned | mine
    · exact .inl returned
    · have last := done k mine
      rw [found] at last
      exact .inl (Option.some.inj last)
  own k at_ := absurd at_ (away k)

/-- The supervisor keeps the invariant. -/
lemma Inv.supervised (inv : s.Inv) (next : Supervised s t) : t.Inv := by
  cases next with
  | booted at_ => exact inv.advance .idle _ (by simp) (by simp [at_])
  | @bootRegister left pool at_ next =>
    have registered := inv.pool_step (by exact trivial) (Pool.step_cases next) (by simp) (by simp)
    exact registered.advance (.bootStarting left _) _ (by simp) (by simp [at_])
  | @bootStart left worker pool at_ next =>
    have begun := inv.pool_step (by exact trivial) (Pool.step_cases next) (by simp) (by simp)
    exact begun.advance (.booting left) _ (by simp) (by simp [at_])
  | scaleUp at_ => exact inv.advance .scaling _ (by simp) (by simp [at_])
  | @scaleDown pool at_ ample next =>
    cases next
    refine ⟨inv.going, inv.fresh, fun k c found item => ?_, fun k same => ?_⟩
    · rw [List.getElem?_append] at found
      split at found
      · exact .inl ((inv.solo k c found item).resolve_right (by simp [at_]))
      · rw [List.getElem?_singleton] at found
        split at found
        · exact .inr (congrArg SupervisorPoint.enqueueing (by omega))
        · cases found
    · cases same
      exact ⟨ample, _, List.getElem?_concat_length, rfl⟩
  | steady at_ => exact inv
  | @register pool at_ next =>
    have registered := inv.pool_step (by exact trivial) (Pool.step_cases next) (by simp) (by simp)
    exact registered.advance (.starting _) _ (by simp) (by simp [at_])
  | @start worker pool at_ next =>
    have begun := inv.pool_step (by exact trivial) (Pool.step_cases next) (by simp) (by simp)
    exact begun.advance .counting _ (by simp) (by simp [at_])
  | countUp at_ => exact inv.advance .idle _ (by simp) (by simp [at_])
  | countDown at_ returned =>
    refine inv.advance .idle _ (by simp) fun k mine => ?_
    cases at_.symm.trans mine
    exact returned

/-- The start of a worker with no sentinel waiting. -/
lemma levels_start {pool pool' : Pool} {worker : ℕ} (fresh : ∀ w ∈ pool.workers, Fresh w)
    (next : pool.Step (.start worker) pool') :
    pool'.running = pool.running + 1 ∧ pool'.queued = pool.queued ∧ pool'.calls = pool.calls := by
  cases next with
  | @start i w found created =>
    have running := Pool.running_alter found fun w => { w with point := .top }
    have queued := Pool.queued_alter found fun w => { w with point := .top }
    have none := List.count_eq_zero_of_not_mem (fresh w (List.mem_of_getElem? found) created)
    simp only [created, WorkerPoint.looping, Bool.false_eq_true, if_false, if_true, none] at running queued
    exact ⟨running, queued, rfl⟩

/-- A registration changes neither the workers nor the sentinels. -/
lemma levels_register {pool pool' : Pool} (next : pool.step .register = some pool') :
    pool'.running = pool.running ∧ pool'.queued = pool.queued ∧ pool'.calls = pool.calls := by
  cases next
  refine ⟨?_, ?_, rfl⟩
  · rw [Pool.running, List.map_append, List.sum_append]
    rfl
  · rw [Pool.queued, List.map_append, List.sum_append]
    rfl

/-- The supervisor keeps the equation. -/
lemma balanced_supervised (inv : s.Inv) (balanced : s.Balanced) (next : Supervised s t) : t.Balanced := by
  rw [Balanced] at balanced ⊢
  cases next with
  | booted at_ =>
    rw [started, owed, at_] at balanced
    exact balanced
  | @bootRegister left pool at_ next =>
    obtain ⟨running, queued, -⟩ := levels_register next
    rw [started, owed, at_] at balanced
    dsimp only [started, owed] at balanced ⊢
    omega
  | @bootStart left worker pool at_ next =>
    obtain ⟨running, queued, -⟩ := levels_start inv.fresh (Pool.step_cases next)
    rw [started, owed, at_] at balanced
    dsimp only [started, owed] at balanced ⊢
    omega
  | scaleUp at_ =>
    rw [started, owed, at_] at balanced
    exact balanced
  | @scaleDown pool at_ ample next =>
    cases next
    rw [started, owed, at_] at balanced
    rw [owed_of_enqueueing rfl, List.getElem?_concat_length]
    exact balanced
  | steady at_ => exact balanced
  | @register pool at_ next =>
    obtain ⟨running, queued, -⟩ := levels_register next
    rw [started, owed, at_] at balanced
    dsimp only [started, owed] at balanced ⊢
    omega
  | @start worker pool at_ next =>
    obtain ⟨running, queued, -⟩ := levels_start inv.fresh (Pool.step_cases next)
    rw [started, owed, at_] at balanced
    dsimp only [started, owed] at balanced ⊢
    omega
  | countUp at_ =>
    rw [started, owed, at_] at balanced
    dsimp only [started, owed] at balanced ⊢
    omega
  | @countDown call at_ returned =>
    obtain ⟨ample, -⟩ := inv.own call at_
    rw [owed_of_enqueueing at_, if_pos returned, started, at_] at balanced
    dsimp only [started, owed] at balanced ⊢
    omega

/-- Each step keeps the equation exactly when it is orderly. -/
lemma balanced_step_iff {move : SystemMove} (inv : s.Inv) (balanced : s.Balanced) (next : s.step move = some t) :
    t.Balanced ↔ s.Orderly move := by
  cases move with
  | supervise => exact iff_of_true (balanced_supervised inv balanced (supervise_cases next)) trivial
  | submit =>
    cases next
    refine iff_of_true ?_ trivial
    have owed : owed { s with pool := { s.pool with calls := s.pool.calls ++ [⟨.task s.pool.calls.length, .enter⟩] } } =
        s.owed := by
      cases at_ : s.supervisor with
      | enqueueing k =>
        obtain ⟨-, c, found, -⟩ := inv.own k at_
        obtain ⟨lt, -⟩ := List.getElem?_eq_some_iff.1 found
        rw [owed_of_enqueueing at_, owed_of_enqueueing rfl]
        dsimp only
        rw [List.getElem?_append_left lt]
      | _ => simp only [PoolSystem.owed, at_]
    rw [Balanced, owed]
    exact balanced
  | advance k =>
    obtain ⟨pool, made, rfl⟩ := Option.map_eq_some_iff.1 next
    exact balanced_advance_iff inv balanced (Pool.step_cases made)
  | work i =>
    obtain ⟨pool, made, rfl⟩ := Option.map_eq_some_iff.1 next
    have worked := Pool.step_cases made
    have calls : pool.calls = s.pool.calls := by cases worked <;> rfl
    exact (balanced_iff_level balanced calls).trans (Pool.level_work_iff inv.going worked)
  | finish i outcome =>
    obtain ⟨pool, made, rfl⟩ := Option.map_eq_some_iff.1 next
    have worked := Pool.step_cases made
    have calls : pool.calls = s.pool.calls := by cases worked <;> rfl
    exact (balanced_iff_level balanced calls).trans (Pool.level_finish_iff worked)

/-- Each orderly step keeps the invariant. -/
lemma inv_step {move : SystemMove} (inv : s.Inv) (orderly : s.Orderly move) (next : s.step move = some t) : t.Inv := by
  cases move with
  | supervise => exact inv.supervised (supervise_cases next)
  | submit =>
    cases next
    exact inv.pool_step (by exact trivial) .submit (by simp) (by simp)
  | advance k =>
    obtain ⟨pool, made, rfl⟩ := Option.map_eq_some_iff.1 next
    exact inv.pool_step (by exact orderly) (Pool.step_cases made) (by simp) (by simp)
  | work i =>
    obtain ⟨pool, made, rfl⟩ := Option.map_eq_some_iff.1 next
    exact inv.pool_step (by exact orderly) (Pool.step_cases made) (by simp) (by simp)
  | finish i outcome =>
    obtain ⟨pool, made, rfl⟩ := Option.map_eq_some_iff.1 next
    exact inv.pool_step (by exact orderly) (Pool.step_cases made) (by simp) (by simp)

/-! ## The runs of a pool -/

/-- At the start the pool is going. -/
lemma inv_init (workers : ℕ) : (init workers).Inv where
  going := rfl
  fresh := by rintro w ⟨⟩
  solo k c found := by cases found
  own k at_ := by cases at_

/-- At the start the pool is balanced. -/
lemma balanced_init (workers : ℕ) : (init workers).Balanced :=
  Nat.add_comm workers 0

/-- Between two ticks the equation gives the count. -/
lemma Balanced.truthful (balanced : s.Balanced) : s.Truthful := by
  intro idle
  rw [Balanced, started, owed, idle] at balanced
  dsimp only at balanced
  omega

/-- The count is truthful in the runs whose steps are orderly, and these are the runs that keep the equation at all
times. -/
theorem count_truthful {workers : ℕ} {trace : List SystemMove} (run : exec step (init workers) trace = some s) :
    (Guarded step Orderly (init workers) trace → Always step Truthful (init workers) trace) ∧
      (Always step Balanced (init workers) trace ↔ Guarded step Orderly (init workers) trace) := by
  have exact_ : Always step Balanced (init workers) trace ↔ Guarded step Orderly (init workers) trace :=
    always_iff_guarded (inv_init workers) (balanced_init workers)
      (fun _ _ _ inv orderly next => inv_step inv orderly next)
      (fun _ _ _ inv balanced next => balanced_step_iff inv balanced next) run
  exact ⟨fun orderly pre t le reached => (exact_.2 orderly pre t le reached).truthful, exact_⟩

/-- Five workers; the second looks at the last queue of its round before the supervisor puts a sentinel there, and pops
it. -/
def droppingTrace : List SystemMove :=
  List.replicate 11 SystemMove.supervise ++ List.replicate 10 (SystemMove.work 1) ++
    (SystemMove.supervise :: List.replicate 8 (.advance 0)) ++ [SystemMove.work 1, .supervise]

/-- The count is four and all five loops run. -/
theorem dropping_run :
    ∃ s, exec step (init 5) droppingTrace = some s ∧ s.supervisor = .idle ∧ s.workerCount = 4 ∧
      s.pool.running = 5 ∧ s.pool.queued = 0 ∧ ¬s.Truthful := by
  refine ⟨_, rfl, rfl, rfl, rfl, rfl, fun truthful => ?_⟩
  exact absurd (truthful rfl) (by decide)

/-- A scale-down whose sentinel reaches the worker. -/
theorem count_truthful_one_scale_down :
    Always step Truthful (init 5)
      (List.replicate 11 SystemMove.supervise ++ (SystemMove.supervise :: List.replicate 8 (.advance 0)) ++
        [SystemMove.supervise] ++ List.replicate 3 (SystemMove.work 0)) :=
  (count_truthful (s := _) rfl).1 (by decide)

end PoolSystem

end StellarFlow.Threading
