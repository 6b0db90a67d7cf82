import Mathlib.Algebra.Ring.Nat
import Mathlib.Data.List.Count
import Mathlib.Logic.Basic
import StellarFlow.Lib.Machine

/-!
# The work-stealing pool

Model of `_WorkerTaskQueue`, `_WorkStealingTaskQueue` and `_worker_with_sentinel` in `src/utils/threading_pool.py`. Any
number of workers, of threads that submit and of scale-downs move in any order; each section under a lock is one step.
A worker is kept together with the queue it owns. The waiting for work and its notifications only take time and are
left out, so is the affinity to cores.
-/

open Machine

namespace StellarFlow.Threading

/-- The sum over the workers when one of them changes. -/
lemma sum_modify {τ : Type} {xs : List τ} {i : ℕ} {x : τ} (g : τ → ℕ) (f : τ → τ) (found : xs[i]? = some x) :
    ((xs.modify i f).map g).sum + g x = (xs.map g).sum + g (f x) := by
  obtain ⟨pre, post, rfl, modify⟩ := split_modify found
  rw [modify, List.map_append, List.map_append, List.sum_append, List.sum_append, List.map_cons, List.map_cons,
    List.sum_cons, List.sum_cons]
  omega

/-- What is in a queue: a task, known by the number of the call that submitted it, or `_SCALE_DOWN_SENTINEL`. -/
inductive Item where
  | task (id : ℕ)
  | sentinel
  deriving DecidableEq

/-- Where `_worker_with_sentinel` is: not started, at the head of the loop, before `pop_left`, in `steal_task` before
the snapshot, before `peek_right` or before `pop_right` at an offset into the snapshot, in a task, past the loop, past
`deactivate_worker`, or ended by an exception that is no `Exception`. -/
inductive WorkerPoint where
  | created
  | top
  | popLeft
  | snapshot
  | peekRight (queues offset : ℕ)
  | popRight (queues offset : ℕ)
  | running (id : ℕ)
  | leaving
  | exited
  | killed
  deriving DecidableEq

/-- In the loop. -/
def WorkerPoint.looping : WorkerPoint → Bool
  | .top | .popLeft | .snapshot | .peekRight .. | .popRight .. | .running _ => true
  | .created | .leaving | .exited | .killed => false

def WorkerPoint.hasExited : WorkerPoint → Bool
  | .exited | .killed => true
  | _ => false

/-- The queue worker `i` is about to pop from the right of. -/
def WorkerPoint.victim (i : ℕ) : WorkerPoint → Option ℕ
  | .popRight queues offset => some ((i + offset) % queues)
  | _ => none

/-- A worker and its `_WorkerTaskQueue`. -/
structure Worker where
  deque : List Item
  active : Bool
  point : WorkerPoint
  deriving DecidableEq

/-- Where a call of `submit` or `enqueue_scale_down_sentinel` is: before the test of the stop event, before the
snapshot, measuring the rest of the snapshot with the shortest queue and its size so far, before `put`. -/
inductive CallPoint where
  | enter
  | snapshot
  | measuring (rest : List ℕ) (best : Option (ℕ × ℕ))
  | put (target : ℕ)
  | returned
  | raised
  deriving DecidableEq

structure Call where
  item : Item
  point : CallPoint
  deriving DecidableEq

/-- The queue a call is about to put its item into. -/
def Call.target (call : Call) : Option ℕ :=
  match call.point with
  | .put target => some target
  | _ => none

/-- The pool; `taken` records which worker took which task. -/
structure Pool where
  workers : List Worker
  calls : List Call
  stopped : Bool
  taken : List (ℕ × ℕ)
  deriving DecidableEq

/-- How a task ends: it returns, raises an `Exception`, or raises `SystemExit` or another one that is none. -/
inductive Outcome where
  | returned
  | exception
  | baseException

inductive PoolMove where
  | register
  | start (worker : ℕ)
  | work (worker : ℕ)
  | finish (worker : ℕ) (outcome : Outcome)
  | submit
  | scaleDown
  | advance (call : ℕ)
  | stop

namespace Pool

def empty : Pool := { workers := [], calls := [], stopped := false, taken := [] }

variable (s : Pool)

/-- Worker `i` or its queue changes. -/
def alter (i : ℕ) (f : Worker → Worker) : Pool :=
  { s with workers := s.workers.modify i f }

/-- Worker `i` goes on to the next point. -/
def goto (i : ℕ) (point : WorkerPoint) : Pool :=
  s.alter i fun w => { w with point }

/-- Call `k` goes on to the next point. -/
def callGoto (k : ℕ) (point : CallPoint) : Pool :=
  { s with calls := s.calls.modify k fun c => { c with point } }

/-- `_snapshot_active_queues`. -/
def snapshotActiveQueues : List ℕ :=
  (List.range s.workers.length).filter fun j => (s.workers[j]?).any (·.active)

/-- The next turn of the loop in `steal_task`; after the last one the worker waits and starts over. -/
def nextOffset (queues offset : ℕ) : WorkerPoint :=
  if offset + 1 < queues then .peekRight queues (offset + 1) else .top

/-- A section of `_worker_with_sentinel` run by worker `i`. -/
def work (i : ℕ) : Option Pool := do
  let w ← s.workers[i]?
  match w.point with
  | .top => some (s.goto i (if s.stopped then .leaving else .popLeft))
  | .popLeft =>
    match w.deque with
    | [] => some (s.goto i .snapshot)
    | .sentinel :: rest => some (s.alter i fun w => { w with deque := rest, point := .leaving })
    | .task id :: rest =>
      let s := s.alter i fun w => { w with deque := rest, point := .running id }
      some { s with taken := s.taken ++ [(id, i)] }
  | .snapshot =>
    let queues := s.workers.length
    some (s.goto i (if queues ≤ 1 then .top else .peekRight queues 1))
  | .peekRight queues offset =>
    let victim ← s.workers[(i + offset) % queues]?
    if victim.deque.getLast? = some .sentinel then some (s.goto i (nextOffset queues offset))
    else some (s.goto i (.popRight queues offset))
  | .popRight queues offset =>
    let j := (i + offset) % queues
    let victim ← s.workers[j]?
    match victim.deque.getLast? with
    | none => some (s.goto i (nextOffset queues offset))
    | some .sentinel =>
      -- a sentinel that came between the two looks is popped and dropped
      let s := s.alter j fun v => { v with deque := v.deque.dropLast }
      some (s.goto i (nextOffset queues offset))
    | some (.task id) =>
      let s := (s.alter j fun v => { v with deque := v.deque.dropLast }).goto i (.running id)
      some { s with taken := s.taken ++ [(id, i)] }
  | .leaving => some (s.alter i fun w => { w with active := false, point := .exited })
  | .created | .running _ | .exited | .killed => none

/-- A section of call `k` of `submit` or `enqueue_scale_down_sentinel`. -/
def advance (k : ℕ) : Option Pool := do
  let c ← s.calls[k]?
  match c.point with
  | .enter => some (s.callGoto k (if s.stopped then .raised else .snapshot))
  | .snapshot =>
    match s.snapshotActiveQueues with
    | [] => some (s.callGoto k (if c.item = .sentinel then .returned else .raised))
    | queues => some (s.callGoto k (.measuring queues none))
  | .measuring [] none => none
  | .measuring [] (some (target, _)) => some (s.callGoto k (.put target))
  | .measuring (j :: rest) best =>
    let queue ← s.workers[j]?
    let size := queue.deque.length
    match best with
    | none => some (s.callGoto k (.measuring rest (some (j, size))))
    | some (target, least) =>
      some (s.callGoto k (.measuring rest (some (if size < least then (j, size) else (target, least)))))
  | .put target =>
    let _ ← s.workers[target]?
    some ((s.alter target fun w => { w with deque := w.deque ++ [c.item] }).callGoto k .returned)
  | .returned | .raised => none

def step : PoolMove → Option Pool
  | .register => some { s with workers := s.workers ++ [{ deque := [], active := true, point := .created }] }
  | .start i => do
    let w ← s.workers[i]?
    if w.point = .created then some (s.goto i .top) else none
  | .work i => s.work i
  | .finish i outcome => do
    let w ← s.workers[i]?
    match w.point, outcome with
    | .running _, .returned => some (s.goto i .top)
    | .running _, .exception => some (s.goto i .top)
    | .running _, .baseException => some (s.goto i .killed)
    | _, _ => none
  | .submit => some { s with calls := s.calls ++ [{ item := .task s.calls.length, point := .enter }] }
  | .scaleDown => some { s with calls := s.calls ++ [{ item := .sentinel, point := .snapshot }] }
  | .advance k => s.advance k
  | .stop => some { s with stopped := true }

/-! ## What a step can be -/

/-- The steps of the pool. A `turn` is a step of the loop that takes nothing from a queue. -/
inductive Step : PoolMove → Pool → Prop where
  | register : Step .register { s with workers := s.workers ++ [{ deque := [], active := true, point := .created }] }
  | start {i : ℕ} {w : Worker} (found : s.workers[i]? = some w) (created : w.point = .created) :
    Step (.start i) (s.goto i .top)
  | turn {i : ℕ} {w : Worker} {point : WorkerPoint} (found : s.workers[i]? = some w)
    (loops : w.point.looping = true) (goes : point.looping = true) (idle : w.point = .popLeft → w.deque = [])
    (missed : ∀ j ∈ w.point.victim i, ∀ v ∈ s.workers[j]?, v.deque = []) : Step (.work i) (s.goto i point)
  | stopping {i : ℕ} {w : Worker} (found : s.workers[i]? = some w) (at_ : w.point = .top)
    (stopped : s.stopped = true) : Step (.work i) (s.goto i .leaving)
  | takeSentinel {i : ℕ} {w : Worker} {rest : List Item} (found : s.workers[i]? = some w)
    (at_ : w.point = .popLeft) (deque : w.deque = .sentinel :: rest) :
    Step (.work i) (s.alter i fun w => { w with deque := rest, point := .leaving })
  | takeTask {i : ℕ} {w : Worker} {rest : List Item} {id : ℕ} (found : s.workers[i]? = some w)
    (at_ : w.point = .popLeft) (deque : w.deque = .task id :: rest) :
    Step (.work i)
      { s.alter i fun w => { w with deque := rest, point := .running id } with taken := s.taken ++ [(id, i)] }
  | dropSentinel {i : ℕ} {w victim : Worker} {queues offset : ℕ} (found : s.workers[i]? = some w)
    (at_ : w.point = .popRight queues offset) (other : s.workers[(i + offset) % queues]? = some victim)
    (last : victim.deque.getLast? = some .sentinel) :
    Step (.work i)
      ((s.alter ((i + offset) % queues) fun v => { v with deque := v.deque.dropLast }).goto i
        (nextOffset queues offset))
  | stealTask {i : ℕ} {w victim : Worker} {queues offset id : ℕ} (found : s.workers[i]? = some w)
    (at_ : w.point = .popRight queues offset) (other : s.workers[(i + offset) % queues]? = some victim)
    (last : victim.deque.getLast? = some (.task id)) :
    Step (.work i)
      { (s.alter ((i + offset) % queues) fun v => { v with deque := v.deque.dropLast }).goto i (.running id) with
        taken := s.taken ++ [(id, i)] }
  | deactivate {i : ℕ} {w : Worker} (found : s.workers[i]? = some w) (at_ : w.point = .leaving) :
    Step (.work i) (s.alter i fun w => { w with active := false, point := .exited })
  | finish {i id : ℕ} {w : Worker} {outcome : Outcome} (found : s.workers[i]? = some w)
    (at_ : w.point = .running id) (ends : outcome ≠ .baseException) : Step (.finish i outcome) (s.goto i .top)
  | kill {i id : ℕ} {w : Worker} (found : s.workers[i]? = some w) (at_ : w.point = .running id) :
    Step (.finish i .baseException) (s.goto i .killed)
  | submit : Step .submit { s with calls := s.calls ++ [{ item := .task s.calls.length, point := .enter }] }
  | scaleDown : Step .scaleDown { s with calls := s.calls ++ [{ item := .sentinel, point := .snapshot }] }
  | callTurn {k : ℕ} {c : Call} {point : CallPoint} (found : s.calls[k]? = some c) (before : c.point ≠ .returned)
    (after : point ≠ .returned) (notPut : c.target = none)
    (aimed : c.item = .sentinel → c.point = .snapshot → s.snapshotActiveQueues ≠ []) :
    Step (.advance k) (s.callGoto k point)
  | callNowhere {k : ℕ} {c : Call} (found : s.calls[k]? = some c) (at_ : c.point = .snapshot)
    (item : c.item = .sentinel) (none : s.snapshotActiveQueues = []) :
    Step (.advance k) (s.callGoto k .returned)
  | put {k target : ℕ} {c : Call} {w : Worker} (found : s.calls[k]? = some c) (at_ : c.point = .put target)
    (other : s.workers[target]? = some w) :
    Step (.advance k) ((s.alter target fun w => { w with deque := w.deque ++ [c.item] }).callGoto k .returned)
  | stop : Step .stop { s with stopped := true }

variable {s : Pool} {t : Pool} {move : PoolMove}

/-- A worker that looks for a victim is in its loop. -/
lemma looping_nextOffset (queues offset : ℕ) : (nextOffset queues offset).looping = true := by
  unfold nextOffset
  split <;> rfl

/-- A step of a worker is one of those named. -/
lemma work_cases {i : ℕ} (next : s.work i = some t) : Step s (.work i) t := by
  obtain ⟨w, found, next⟩ := Option.bind_eq_some_iff.1 next
  cases at_ : w.point with
  | top =>
    simp only [at_] at next
    cases next
    cases stopped : s.stopped with
    | false => exact .turn found (by rw [at_]; rfl) rfl (by simp [at_]) (by simp [at_, WorkerPoint.victim])
    | true => exact .stopping found at_ stopped
  | popLeft =>
    simp only [at_] at next
    split at next
    · rename_i nothing
      cases next
      exact .turn found (by rw [at_]; rfl) rfl (fun _ => nothing) (by simp [at_, WorkerPoint.victim])
    · cases next
      exact .takeSentinel found at_ ‹_›
    · cases next
      exact .takeTask found at_ ‹_›
  | snapshot =>
    simp only [at_] at next
    cases next
    refine .turn found (by rw [at_]; rfl) ?_ (by simp [at_]) (by simp [at_, WorkerPoint.victim])
    split <;> rfl
  | peekRight queues offset =>
    simp only [at_] at next
    obtain ⟨victim, other, next⟩ := Option.bind_eq_some_iff.1 next
    split at next
    · cases next
      exact .turn found (by rw [at_]; rfl) (looping_nextOffset ..) (by simp [at_]) (by simp [at_, WorkerPoint.victim])
    · cases next
      exact .turn found (by rw [at_]; rfl) rfl (by simp [at_]) (by simp [at_, WorkerPoint.victim])
  | popRight queues offset =>
    simp only [at_] at next
    obtain ⟨victim, other, next⟩ := Option.bind_eq_some_iff.1 next
    split at next
    · rename_i nothing
      cases next
      refine .turn found (by rw [at_]; rfl) (looping_nextOffset ..) (by simp [at_]) ?_
      intro j aim v found'
      rw [at_] at aim
      cases aim
      cases other.symm.trans found'
      exact List.getLast?_eq_none_iff.1 nothing
    · cases next
      exact .dropSentinel found at_ other ‹_›
    · cases next
      exact .stealTask found at_ other ‹_›
  | leaving =>
    simp only [at_] at next
    cases next
    exact .deactivate found at_
  | created | running id | exited | killed => simp [at_] at next

/-- A step of a call is one of those named. -/
lemma advance_cases {k : ℕ} (next : s.advance k = some t) : Step s (.advance k) t := by
  obtain ⟨c, found, next⟩ := Option.bind_eq_some_iff.1 next
  cases at_ : c.point with
  | enter =>
    simp only [at_] at next
    cases next
    refine .callTurn found (by simp [at_]) ?_ (by simp [Call.target, at_]) (by simp [at_])
    split <;> simp
  | snapshot =>
    simp only [at_] at next
    split at next
    · rename_i none
      cases next
      by_cases item : c.item = .sentinel
      · rw [if_pos item]
        exact .callNowhere found at_ item none
      · rw [if_neg item]
        exact .callTurn found (by simp [at_]) (by simp) (by simp [Call.target, at_]) fun item' => absurd item' item
    · rename_i some
      cases next
      exact .callTurn found (by simp [at_]) (by simp) (by simp [Call.target, at_]) fun _ _ none => some none
  | measuring rest best =>
    simp only [at_] at next
    cases rest with
    | nil =>
      cases best with
      | none => cases next
      | some best =>
        cases next
        exact .callTurn found (by simp [at_]) (by simp) (by simp [Call.target, at_]) (by simp [at_])
    | cons j rest =>
      obtain ⟨queue, other, next⟩ := Option.bind_eq_some_iff.1 next
      cases best with
      | none =>
        cases next
        exact .callTurn found (by simp [at_]) (by simp) (by simp [Call.target, at_]) (by simp [at_])
      | some best =>
        cases next
        exact .callTurn found (by simp [at_]) (by simp) (by simp [Call.target, at_]) (by simp [at_])
  | put target =>
    simp only [at_] at next
    obtain ⟨w, other, next⟩ := Option.bind_eq_some_iff.1 next
    cases next
    exact .put found at_ other
  | returned | raised => simp [at_] at next

/-- Each step of the model is one of those named. -/
lemma step_cases (next : s.step move = some t) : Step s move t := by
  cases move with
  | register =>
    cases next
    exact .register
  | start i =>
    obtain ⟨w, found, next⟩ := Option.bind_eq_some_iff.1 next
    split at next
    · cases next
      exact .start found ‹_›
    · cases next
  | work i => exact work_cases next
  | finish i outcome =>
    obtain ⟨w, found, next⟩ := Option.bind_eq_some_iff.1 next
    split at next
    · cases next
      exact .finish found ‹_› (by simp)
    · cases next
      exact .finish found ‹_› (by simp)
    · cases next
      exact .kill found ‹_›
    · cases next
  | submit =>
    cases next
    exact .submit
  | scaleDown =>
    cases next
    exact .scaleDown
  | advance k => exact advance_cases next
  | stop =>
    cases next
    exact .stop

/-! ## Every task is in one place -/

/-- How often the task is in the queues. -/
def copies (s : Pool) (id : ℕ) : ℕ :=
  (s.workers.map fun w => w.deque.count (.task id)).sum

/-- How often the task was taken. -/
def takes (s : Pool) (id : ℕ) : ℕ :=
  (s.taken.map Prod.fst).count id

/-- The call that submits the task has returned without an exception. -/
def Submitted (s : Pool) (id : ℕ) : Prop :=
  s.calls[id]? = some { item := .task id, point := .returned }

instance (s : Pool) (id : ℕ) : Decidable (s.Submitted id) :=
  inferInstanceAs (Decidable (_ = _))

/-- A call submits the task of its own number, and a submitted task is in a queue or taken, and that once. -/
structure Accounted (s : Pool) : Prop where
  named : ∀ (k : ℕ) (c : Call), s.calls[k]? = some c → c.item = .task k ∨ c.item = .sentinel
  counts : ∀ id, s.copies id + s.takes id = if s.Submitted id then 1 else 0

/-- Changing a worker changes the copies in its deque. -/
lemma copies_alter {i : ℕ} {w : Worker} {f : Worker → Worker} (found : s.workers[i]? = some w) (id : ℕ) :
    (s.alter i f).copies id + w.deque.count (.task id) = s.copies id + (f w).deque.count (.task id) :=
  sum_modify (fun w => w.deque.count (.task id)) f found

/-- Where the deque of a worker stays, so do the copies. -/
lemma copies_alter_of_eq {i : ℕ} {f : Worker → Worker} (same : ∀ w, (f w).deque = w.deque) (id : ℕ) :
    (s.alter i f).copies id = s.copies id :=
  congrArg List.sum (map_modify_of_eq fun w => by rw [same])

/-- Going on leaves all copies. -/
@[simp] lemma copies_goto (i : ℕ) (point : WorkerPoint) (id : ℕ) : (s.goto i point).copies id = s.copies id :=
  copies_alter_of_eq (f := fun w => { w with point }) (fun _ => rfl) id

/-- A task that is taken counts once more. -/
@[simp] lemma takes_snoc (s' : Pool) (id id' i : ℕ) :
    ({ s' with taken := s.taken ++ [(id', i)] } : Pool).takes id = s.takes id + if id' = id then 1 else 0 := by
  simp only [takes, List.map_append, List.count_append, List.map_cons, List.map_nil, List.count_singleton,
    beq_iff_eq]

/-- The last item counts for itself. -/
lemma count_dropLast {deque : List Item} {item : Item} (last : deque.getLast? = some item) (x : Item) :
    deque.count x = deque.dropLast.count x + if item = x then 1 else 0 := by
  obtain ⟨init, rfl⟩ := List.getLast?_eq_some_iff.1 last
  rw [List.dropLast_concat, List.count_append, List.count_singleton]
  simp only [beq_iff_eq]

/-- Which calls have submitted their task after one of them went on. -/
lemma submitted_callGoto {k : ℕ} {c : Call} (point : CallPoint) (found : s.calls[k]? = some c) (id : ℕ) :
    (s.callGoto k point).Submitted id ↔
      if id = k then c.item = .task k ∧ point = .returned else s.Submitted id := by
  rw [Submitted, callGoto, List.getElem?_modify]
  by_cases same : id = k
  · subst same
    rw [if_pos rfl, found]
    simp
  · rw [if_neg same]
    simp [Submitted, Ne.symm same]

/-- A call that does not submit a task at its step leaves the submitted tasks as they are. -/
lemma submitted_callGoto_other {k : ℕ} {c : Call} (point : CallPoint) (found : s.calls[k]? = some c)
    (other : c.point ≠ .returned ∧ point ≠ .returned ∨ c.item = .sentinel) (id : ℕ) :
    (s.callGoto k point).Submitted id ↔ s.Submitted id := by
  rw [submitted_callGoto _ found]
  split
  · subst id
    rw [Submitted, found, Option.some.injEq]
    constructor
    · rintro ⟨item, returned⟩
      rcases other with ⟨_, after⟩ | sentinel
      · exact absurd returned after
      · exact absurd (item.symm.trans sentinel) (by simp)
    · rintro rfl
      rcases other with ⟨before, _⟩ | sentinel
      · exact absurd rfl before
      · cases sentinel
  · rfl

/-- A call that goes on still puts what it put. -/
lemma named_callGoto {k : ℕ} {point : CallPoint}
    (named : ∀ (k : ℕ) (c : Call), s.calls[k]? = some c → c.item = .task k ∨ c.item = .sentinel) :
    ∀ (j : ℕ) (c : Call), (s.callGoto k point).calls[j]? = some c → c.item = .task j ∨ c.item = .sentinel := by
  intro j c found
  rw [callGoto, List.getElem?_modify] at found
  obtain ⟨c', found', rfl⟩ := Option.map_eq_some_iff.1 found
  have named := named j c' found'
  split <;> exact named

/-- A step that moves no task and ends no call. -/
lemma Accounted.congr (acc : s.Accounted) (calls : t.calls = s.calls) (taken : t.taken = s.taken)
    (copies : ∀ id, t.copies id = s.copies id) : t.Accounted where
  named := calls ▸ acc.named
  counts id := by
    have submitted : t.Submitted id ↔ s.Submitted id := by rw [Submitted, Submitted, calls]
    rw [copies, takes, taken, if_congr submitted rfl rfl]
    exact acc.counts id

/-- A call that begins has submitted nothing yet. -/
lemma accounted_snoc {call : Call} (acc : s.Accounted) (begins : call.point ≠ .returned)
    (named : call.item = .task s.calls.length ∨ call.item = .sentinel) :
    Accounted { s with calls := s.calls ++ [call] } := by
  have cases_ : ∀ (k : ℕ) (c : Call), (s.calls ++ [call])[k]? = some c →
      s.calls[k]? = some c ∨ k = s.calls.length ∧ call = c := by
    intro k c found
    rw [List.getElem?_append] at found
    split at found
    · exact .inl found
    · rw [List.getElem?_singleton] at found
      split at found
      · exact .inr ⟨by omega, Option.some.inj found⟩
      · cases found
  constructor
  · intro k c found
    rcases cases_ k c found with old | ⟨rfl, rfl⟩
    · exact acc.named k c old
    · exact named
  · intro id
    have same : Submitted { s with calls := s.calls ++ [call] } id ↔ s.Submitted id := by
      constructor
      · intro sub
        rcases cases_ id _ sub with old | ⟨rfl, rfl⟩
        · exact old
        · exact absurd rfl begins
      · intro sub
        obtain ⟨lt, -⟩ := List.getElem?_eq_some_iff.1 sub
        exact (List.getElem?_append_left lt).trans sub
    have counts := acc.counts id
    simp only [same]
    exact counts

/-- The call puts its item into the queue. -/
lemma accounted_put {k target : ℕ} {c : Call} {w : Worker} (acc : s.Accounted) (found : s.calls[k]? = some c)
    (at_ : c.point = .put target) (other : s.workers[target]? = some w) :
    Accounted ((s.alter target fun w => { w with deque := w.deque ++ [c.item] }).callGoto k .returned) := by
  refine ⟨named_callGoto acc.named, fun id => ?_⟩
  have moved := copies_alter other id (f := fun w => { w with deque := w.deque ++ [c.item] })
  rw [List.count_append, List.count_singleton] at moved
  have counts := acc.counts id
  generalize put : s.alter target (fun w => { w with deque := w.deque ++ [c.item] }) = s' at moved ⊢
  have found' : s'.calls[k]? = some c := put ▸ found
  have same : s'.Submitted id ↔ s.Submitted id := by rw [← put]; rfl
  change s'.copies id + s'.takes id = _
  rw [show s'.takes id = s.takes id by rw [← put]; rfl]
  rcases acc.named k c found with task | sentinel
  · have submitted := submitted_callGoto .returned found' id
    by_cases own : id = k
    · -- the task of this call was nowhere before
      subst own
      have before : ¬s.Submitted id := by
        rw [Submitted, found]
        rintro ⟨⟩
        cases at_
      rw [if_neg before] at counts
      rw [if_pos rfl] at submitted
      rw [task, if_pos (beq_self_eq_true _)] at moved
      rw [if_pos (submitted.2 ⟨task, rfl⟩)]
      omega
    · rw [if_neg own, same] at submitted
      rw [task, if_neg (by simpa using Ne.symm own)] at moved
      rw [if_congr submitted rfl rfl]
      omega
  · have submitted := submitted_callGoto_other .returned found' (.inr sentinel) id
    rw [sentinel, if_neg (by simp)] at moved
    rw [if_congr (submitted.trans same) rfl rfl]
    omega

/-- Every step keeps count of the tasks. -/
theorem Accounted.step (acc : s.Accounted) (next : Step s move t) : t.Accounted := by
  cases next with
  | register =>
    refine ⟨acc.named, fun id => ?_⟩
    have counts := acc.counts id
    simp only [copies, List.map_append, List.sum_append]
    exact counts
  | start found created => exact acc.congr rfl rfl fun id => copies_goto ..
  | turn found loops goes idle missed => exact acc.congr rfl rfl fun id => copies_goto ..
  | stopping found at_ stopped => exact acc.congr rfl rfl fun id => copies_goto ..
  | finish found at_ ends => exact acc.congr rfl rfl fun id => copies_goto ..
  | kill found at_ => exact acc.congr rfl rfl fun id => copies_goto ..
  | deactivate found at_ =>
    exact acc.congr rfl rfl
      (copies_alter_of_eq (f := fun w => { w with active := false, point := .exited }) fun _ => rfl)
  | @takeSentinel i w rest found at_ deque =>
    refine acc.congr rfl rfl fun id => ?_
    have moved := copies_alter found id (f := fun w => { w with deque := rest, point := .leaving })
    rw [deque, List.count_cons_of_ne (by simp)] at moved
    exact Nat.add_right_cancel moved
  | @takeTask i w rest id' found at_ deque =>
    refine ⟨acc.named, fun id => ?_⟩
    have moved := copies_alter found id (f := fun w => { w with deque := rest, point := .running id' })
    rw [deque, List.count_cons] at moved
    have counts := acc.counts id
    rw [takes_snoc]
    simp only [beq_iff_eq, Item.task.injEq] at moved
    change copies (s.alter i _) id + _ = if s.Submitted id then 1 else 0
    omega
  | @dropSentinel i w victim queues offset found at_ other last =>
    refine acc.congr rfl rfl fun id => ?_
    have moved := copies_alter other id (f := fun v => { v with deque := v.deque.dropLast })
    rw [count_dropLast last, if_neg (by simp), Nat.add_zero] at moved
    rw [copies_goto]
    exact Nat.add_right_cancel moved
  | @stealTask i w victim queues offset id' found at_ other last =>
    refine ⟨acc.named, fun id => ?_⟩
    have moved := copies_alter other id (f := fun v => { v with deque := v.deque.dropLast })
    rw [count_dropLast last] at moved
    have counts := acc.counts id
    rw [takes_snoc]
    simp only [Item.task.injEq] at moved
    change copies (goto _ i _) id + _ = if s.Submitted id then 1 else 0
    rw [copies_goto]
    omega
  | submit => exact accounted_snoc acc (by simp) (.inl rfl)
  | scaleDown => exact accounted_snoc acc (by simp) (.inr rfl)
  | @callTurn k c point found before after notPut aimed =>
    refine ⟨named_callGoto acc.named, fun id => ?_⟩
    rw [if_congr (submitted_callGoto_other _ found (.inl ⟨before, after⟩) id) rfl rfl]
    exact acc.counts id
  | callNowhere found at_ item none =>
    refine ⟨named_callGoto acc.named, fun id => ?_⟩
    rw [if_congr (submitted_callGoto_other _ found (.inr item) id) rfl rfl]
    exact acc.counts id
  | put found at_ other => exact accounted_put acc found at_ other
  | stop => exact ⟨acc.named, acc.counts⟩

/-! ## Tasks behind which a sentinel stands -/

/-- A task has a sentinel to its right. -/
def stranded : List Item → Bool
  | [] => false
  | .task _ :: rest => decide (.sentinel ∈ rest) || stranded rest
  | .sentinel :: rest => stranded rest

/-- A task at the end strands nothing. -/
lemma stranded_append_task (deque : List Item) (id : ℕ) : stranded (deque ++ [.task id]) = stranded deque := by
  induction deque with
  | nil => rfl
  | cons item deque ih => cases item <;> simp [stranded, ih]

/-- A sentinel at the end strands whatever else is there. -/
lemma stranded_append_sentinel (deque : List Item) :
    stranded (deque ++ [.sentinel]) = true ↔ ∃ item ∈ deque, item ≠ .sentinel := by
  induction deque with
  | nil => simp [stranded]
  | cons item deque ih => cases item <;> simp [stranded, ih]

/-- What is stranded stays so. -/
lemma stranded_append {deque : List Item} (item : Item) (before : stranded deque = true) :
    stranded (deque ++ [item]) = true := by
  induction deque with
  | nil => cases before
  | cons first deque ih =>
    cases first with
    | task id =>
      simp only [List.cons_append, stranded, Bool.or_eq_true, decide_eq_true_eq] at before ⊢
      exact before.imp (List.mem_append_left _) ih
    | sentinel => exact ih before

/-- Taking the last item strands nothing. -/
lemma stranded_dropLast {deque : List Item} (none : stranded deque = false) : stranded deque.dropLast = false := by
  rcases List.eq_nil_or_concat deque with rfl | ⟨init, item, rfl⟩
  · rfl
  · rw [List.concat_eq_append, List.dropLast_concat]
    rw [List.concat_eq_append] at none
    cases before : stranded init with
    | false => rfl
    | true =>
      rw [stranded_append item before] at none
      cases none

/-- No thief is kept from a task in the queue of this worker once the worker is gone. -/
def Visible (w : Worker) : Prop :=
  w.point.hasExited = true → stranded w.deque = false

instance (w : Worker) : Decidable (Visible w) :=
  inferInstanceAs (Decidable (_ → _))

/-- In no queue of an exited worker is there a task with a sentinel to its right. -/
def NoneBuried (s : Pool) : Prop :=
  ∀ w ∈ s.workers, Visible w

/-- The same as long as a worker runs. -/
def NoneStranded (s : Pool) : Prop :=
  (∃ w ∈ s.workers, w.point.looping = true) → s.NoneBuried

instance (s : Pool) : Decidable s.NoneStranded :=
  inferInstanceAs (Decidable (_ → ∀ w ∈ s.workers, _))

/-- No sentinel is put behind a task into the queue of an exited worker, and no worker exits while a sentinel stands
behind a task in its queue. -/
def Careful (s : Pool) : PoolMove → Prop
  | .advance k =>
    ∀ c ∈ s.calls[k]?, c.item = .sentinel → ∀ target ∈ c.target, ∀ w ∈ s.workers[target]?,
      w.point.hasExited = true → ∀ item ∈ w.deque, item = .sentinel
  | .work i => ∀ w ∈ s.workers[i]?, w.point = .leaving → stranded w.deque = false
  | .finish i .baseException => ∀ w ∈ s.workers[i]?, stranded w.deque = false
  | _ => True

instance (s : Pool) : (move : PoolMove) → Decidable (s.Careful move)
  | .advance k =>
    inferInstanceAs (Decidable (∀ c ∈ s.calls[k]?, c.item = .sentinel → ∀ target ∈ c.target,
      ∀ w ∈ s.workers[target]?, w.point.hasExited = true → ∀ item ∈ w.deque, item = .sentinel))
  | .work i => inferInstanceAs (Decidable (∀ w ∈ s.workers[i]?, w.point = .leaving → stranded w.deque = false))
  | .finish i .baseException => inferInstanceAs (Decidable (∀ w ∈ s.workers[i]?, stranded w.deque = false))
  | .finish _ .returned | .finish _ .exception | .register | .start _ | .submit | .scaleDown | .stop => isTrue trivial

/-- A worker is found where it was. -/
lemma found_alter {i : ℕ} {w : Worker} (found : s.workers[i]? = some w) (j : ℕ) (f : Worker → Worker) :
    ∃ w', (s.alter j f).workers[i]? = some w' ∧ (w' = w ∨ w' = f w) := by
  refine ⟨if j = i then f w else w, ?_, ?_⟩
  · rw [alter, List.getElem?_modify, found]
    rfl
  · split
    · exact .inr rfl
    · exact .inl rfl

/-- The work of a worker that has not left the loop is careful. -/
lemma careful_work {i : ℕ} {w : Worker} (found : s.workers[i]? = some w) (loops : w.point ≠ .leaving) :
    s.Careful (.work i) := by
  intro w' found' leaving
  cases found.symm.trans found'
  exact absurd leaving loops

/-- A call that puts no sentinel is careful. -/
lemma careful_advance {k : ℕ} {c : Call} (found : s.calls[k]? = some c)
    (other : c.item = .sentinel → c.target = none) : s.Careful (.advance k) := by
  intro c' found' sentinel target at_
  cases found.symm.trans found'
  rw [other sentinel] at at_
  cases at_

section Exact
variable (before : s.NoneBuried)
include before

/-- A worker that changes and is not gone afterwards. -/
lemma noneBuried_alter {i : ℕ} {w : Worker} {f : Worker → Worker} (found : s.workers[i]? = some w)
    (stays : (f w).point.hasExited = false) : (s.alter i f).NoneBuried :=
  (forall_modify found before).2 fun exited => absurd exited (by simp [stays])

/-- Stealing an item buries none. -/
lemma noneBuried_popRight {i j : ℕ} {w victim : Worker} {point : WorkerPoint} (found : s.workers[i]? = some w)
    (other : s.workers[j]? = some victim) (stays : point.hasExited = false) :
    ((s.alter j fun v => { v with deque := v.deque.dropLast }).goto i point).NoneBuried := by
  have popped : (s.alter j fun v => { v with deque := v.deque.dropLast }).NoneBuried :=
    (forall_modify other before).2 fun exited =>
      stranded_dropLast (before victim (List.mem_of_getElem? other) exited)
  obtain ⟨w', found', -⟩ := found_alter found j fun v => { v with deque := v.deque.dropLast }
  exact noneBuried_alter popped found' stays

/-- A step keeps the tasks of exited workers in sight exactly when it is careful. -/
lemma noneBuried_step_iff (next : Step s move t) : t.NoneBuried ↔ s.Careful move := by
  cases next with
  | register => exact iff_of_true (Machine.forall_snoc before (by simp [Visible, WorkerPoint.hasExited])) trivial
  | start found created => exact iff_of_true (noneBuried_alter before found rfl) trivial
  | @turn i w point found loops goes idle missed =>
    refine iff_of_true (noneBuried_alter before found ?_) (careful_work found ?_)
    · cases point <;> first | rfl | cases goes
    · rintro leaving
      simp [leaving, WorkerPoint.looping] at loops
  | stopping found at_ stopped =>
    exact iff_of_true (noneBuried_alter before found rfl) (careful_work found (by simp [at_]))
  | takeSentinel found at_ deque =>
    exact iff_of_true (noneBuried_alter before found rfl) (careful_work found (by simp [at_]))
  | takeTask found at_ deque =>
    exact iff_of_true (noneBuried_alter before found rfl) (careful_work found (by simp [at_]))
  | dropSentinel found at_ other last =>
    refine iff_of_true (noneBuried_popRight before found other ?_) (careful_work found (by simp [at_]))
    unfold nextOffset
    split <;> rfl
  | stealTask found at_ other last =>
    exact iff_of_true (noneBuried_popRight before found other rfl) (careful_work found (by simp [at_]))
  | @deactivate i w found at_ =>
    refine (forall_modify found before).trans ⟨fun new w' found' _ => ?_, fun careful _ => careful w found at_⟩
    cases found.symm.trans found'
    exact new rfl
  | @finish i id w outcome found at_ ends =>
    refine iff_of_true (noneBuried_alter before found rfl) ?_
    cases outcome with
    | returned => trivial
    | exception => trivial
    | baseException => exact absurd rfl ends
  | @kill i id w found at_ =>
    refine (forall_modify found before).trans ⟨fun new w' found' => ?_, fun careful _ => careful w found⟩
    cases found.symm.trans found'
    exact new rfl
  | submit => exact iff_of_true before trivial
  | scaleDown => exact iff_of_true before trivial
  | callTurn found began after notPut aimed => exact iff_of_true before (careful_advance found fun _ => notPut)
  | callNowhere found at_ item none =>
    exact iff_of_true before (careful_advance found fun _ => by rw [Call.target, at_])
  | @put k target c w found at_ other =>
    have target_ : c.target = some target := by rw [Call.target, at_]
    refine (forall_modify other before).trans ⟨fun new => ?_, fun careful exited => ?_⟩
    · intro c' found' sentinel target' aim w' other' exited item mem
      cases found.symm.trans found'
      cases target_.symm.trans aim
      cases other.symm.trans other'
      by_contra ne
      have hidden := (stranded_append_sentinel w.deque).2 ⟨item, mem, ne⟩
      have visible := new exited
      rw [sentinel, hidden] at visible
      cases visible
    · have visible := before w (List.mem_of_getElem? other) exited
      cases item : c.item with
      | task id => exact (stranded_append_task w.deque id).trans visible
      | sentinel =>
        have all := careful c found item target target_ w other exited
        refine Bool.eq_false_iff.2 fun hidden => ?_
        obtain ⟨item, mem, ne⟩ := (stranded_append_sentinel w.deque).1 hidden
        exact ne (all item mem)
  | stop => exact iff_of_true before trivial

end Exact

/-! ## The runs of a pool -/

/-- An empty pool has no tasks. -/
lemma accounted_empty : empty.Accounted where
  named k c found := by cases found
  counts id := by
    rw [if_neg (by rintro ⟨⟩)]
    rfl

/-- In every run the tasks are accounted for. -/
lemma accounted_of_run {trace : List PoolMove} (run : exec step empty trace = some s) : s.Accounted :=
  exec_invariant accounted_empty (fun _ _ _ acc next => acc.step (step_cases next)) run

/-- No task is taken twice. -/
theorem nodup_taken {trace : List PoolMove} (run : exec step empty trace = some s) :
    (s.taken.map Prod.fst).Nodup := by
  refine List.nodup_iff_count_le_one.2 fun id => ?_
  have counts := (accounted_of_run run).counts id
  rw [takes] at counts
  split at counts <;> omega

/-- A submitted task that no worker took is in one queue, and there once. -/
theorem copies_eq_one {trace : List PoolMove} (run : exec step empty trace = some s) {id : ℕ}
    (submitted : s.Submitted id) (untaken : id ∉ s.taken.map Prod.fst) : s.copies id = 1 := by
  have counts := (accounted_of_run run).counts id
  rwa [takes, List.count_eq_zero_of_not_mem untaken, if_pos submitted] at counts

/-- Tasks are neither lost nor repeated, and none is stranded in the runs whose steps are careful. -/
theorem keeps_tasks {trace : List PoolMove} (run : exec step empty trace = some s) :
    ((s.taken.map Prod.fst).Nodup ∧
      ∀ id, s.Submitted id → id ∉ s.taken.map Prod.fst → s.copies id = 1) ∧
    (Guarded step Careful empty trace → Always step NoneStranded empty trace) ∧
    (Always step NoneBuried empty trace ↔ Guarded step Careful empty trace) := by
  have exact_ : Always step NoneBuried empty trace ↔ Guarded step Careful empty trace :=
    always_iff_guarded (I := fun _ => True) trivial (by rintro w ⟨⟩) (fun _ _ _ _ _ _ => trivial)
      (fun _ _ _ _ before next => noneBuried_step_iff before (step_cases next)) run
  refine ⟨⟨nodup_taken run, fun id => copies_eq_one run⟩, fun careful pre t le reached _ => ?_, exact_⟩
  exact exact_.2 careful pre t le reached

/-- Two workers; a scale-down and two tasks come to the first queue, then another scale-down; the first worker
leaves. -/
def strandingTrace : List PoolMove :=
  [PoolMove.register, .start 0, .register, .start 1] ++
  (PoolMove.scaleDown :: List.replicate 5 (.advance 0)) ++ (PoolMove.submit :: List.replicate 6 (.advance 1)) ++
  (PoolMove.submit :: List.replicate 6 (.advance 2)) ++ (PoolMove.submit :: List.replicate 6 (.advance 3)) ++
  (PoolMove.scaleDown :: List.replicate 5 (.advance 4)) ++ List.replicate 3 (PoolMove.work 0)

/-- The task left in the first queue is behind the second sentinel. -/
theorem stranding_run :
    ∃ s, exec step empty strandingTrace = some s ∧ ¬s.NoneStranded :=
  ⟨_, rfl, by decide⟩

/-- A sentinel that comes alone strands nothing. -/
theorem keeps_tasks_one_scale_down :
    Always step NoneStranded empty
      ([PoolMove.register, .start 0, .register, .start 1] ++ (PoolMove.scaleDown :: List.replicate 5 (.advance 0)) ++
        (PoolMove.submit :: List.replicate 6 (.advance 1)) ++ List.replicate 3 (PoolMove.work 0)) :=
  (keeps_tasks (s := _) rfl).2.1 (by decide)

end Pool

end StellarFlow.Threading
