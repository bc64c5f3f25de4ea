import Smer.Util.ThreadPool

/-!
# The notifications of the worker threads (`Util/inc/ThreadPool.h`)

`enqueue` and the destructor notify the workers after they have given the mutex back. `PoolWakes` is
`PoolRun` with the notifications that are still to come: one `notify_one` for each call of `enqueue`
that has put its task into the queue, and the `notify_all` of the destructor. `notify_one` wakes one
of the workers that wait, which one is open, and none only where none waits. A worker can also wake
for no reason.

While a worker sleeps, each task of the queue has a worker on its way to the test or a notification
that is still to come, and no worker sleeps through the end (`Attended`).
-/

namespace Smer

open Lib

variable {F : Type}

namespace Worker

def isTesting : Worker F → Bool
  | .testing => true
  | .waiting | .running _ | .returned => false

def isWaiting : Worker F → Bool
  | .waiting => true
  | .testing | .running _ | .returned => false

def isRunning (worker : Worker F) : Bool := worker.task.isSome

/-- What `notify_all` makes of a worker. -/
def notified : Worker F → Worker F
  | .waiting => .testing
  | worker => worker

@[simp] theorem notified_task (worker : Worker F) : worker.notified.task = worker.task := by
  cases worker <;> rfl

@[simp] theorem notified_isWaiting (worker : Worker F) : worker.notified.isWaiting = false := by
  cases worker <;> rfl

theorem notified_eq_returned {worker : Worker F} : worker.notified = .returned ↔
    worker = .returned := by
  cases worker <;> simp [notified]

end Worker

/-- The pool with the notifications that are still to come. -/
structure PoolWakes (F : Type) where
  run : PoolRun F
  /-- the calls of `enqueue` that have not notified yet -/
  notifying : Nat
  /-- the destructor has set `stop` and has not notified yet -/
  stopping : Bool

inductive WakeAction (F : Type) where
  | run (a : PoolAction F)
  /-- a call of `enqueue` notifies, and wakes `woken` -/
  | notifyOne (woken : Option Nat)
  /-- the destructor notifies -/
  | notifyAll

namespace PoolWakes

def start : PoolWakes F := ⟨.start, 0, false⟩

/-- The workers that sleep. -/
def waiting (s : PoolWakes F) : Nat := s.run.pool.workers.countP Worker.isWaiting

/-- The workers that are on the way to the test. -/
def testing (s : PoolWakes F) : Nat := s.run.pool.workers.countP Worker.isTesting

/-- The workers that run a task. -/
def busy (s : PoolWakes F) : Nat := s.run.pool.workers.countP Worker.isRunning

/-- The same members, with these workers. -/
def withWorkers (s : PoolWakes F) (workers : List (Worker (Ticket F))) : PoolWakes F :=
  { s with run := { s.run with pool := { s.run.pool with workers := workers } } }

def step (s : PoolWakes F) : WakeAction F → Option (PoolWakes F)
  | .run (.enqueue task) => (s.run.step (.enqueue task)).map fun run =>
    { s with
      run := run
      notifying := if s.run.pool.stop then s.notifying else s.notifying + 1 }
  | .run .stop => (s.run.step .stop).map fun run => { s with run := run, stopping := true }
  | .run a => (s.run.step a).map fun run => { s with run := run }
  | .notifyOne woken =>
    if s.notifying = 0 then none
    else match woken with
      | none => if s.waiting = 0 then some { s with notifying := s.notifying - 1 } else none
      | some i => (s.run.step (.wake i)).map fun run =>
        { s with run := run, notifying := s.notifying - 1 }
  | .notifyAll =>
    if s.stopping then
      some { s.withWorkers (s.run.pool.workers.map Worker.notified) with stopping := false }
    else none

/-! ## What one step does -/

section Step

variable {s s' : PoolWakes F} {i : Nat} {worker : Worker (Ticket F)}

/-- A worker goes on: the numbers change by that worker. -/
theorem counts_set (h : s.run.pool.workers[i]? = some worker) (worker' : Worker (Ticket F)) :
    (s.run.pool.workers.set i worker').countP Worker.isWaiting + worker.isWaiting.toNat =
        s.waiting + worker'.isWaiting.toNat ∧
      (s.run.pool.workers.set i worker').countP Worker.isTesting + worker.isTesting.toNat =
        s.testing + worker'.isTesting.toNat ∧
      (s.run.pool.workers.set i worker').countP Worker.isRunning + worker.isRunning.toNat =
        s.busy + worker'.isRunning.toNat :=
  ⟨countP_set_add _ h worker', countP_set_add _ h worker', countP_set_add _ h worker'⟩

/-- A woken worker is on its way. -/
theorem counts_woken (h : s.run.pool.workers[i]? = some .waiting) :
    (s.run.pool.workers.set i .testing).countP Worker.isWaiting + 1 = s.waiting ∧
      (s.run.pool.workers.set i .testing).countP Worker.isTesting = s.testing + 1 ∧
      (s.run.pool.workers.set i .testing).countP Worker.isRunning = s.busy :=
  counts_set h .testing

/-- A task has ended. -/
theorem counts_finished {task : Ticket F} (h : s.run.pool.workers[i]? = some (.running task)) :
    (s.run.pool.workers.set i .testing).countP Worker.isWaiting = s.waiting ∧
      (s.run.pool.workers.set i .testing).countP Worker.isTesting = s.testing + 1 ∧
      (s.run.pool.workers.set i .testing).countP Worker.isRunning + 1 = s.busy :=
  counts_set h .testing

/-- A worker at the test goes on. -/
theorem counts_turned (h : s.run.pool.workers[i]? = some .testing)
    (worker' : Worker (Ticket F)) :
    (s.run.pool.workers.set i worker').countP Worker.isWaiting =
        s.waiting + worker'.isWaiting.toNat ∧
      (s.run.pool.workers.set i worker').countP Worker.isTesting + 1 =
        s.testing + worker'.isTesting.toNat ∧
      (s.run.pool.workers.set i worker').countP Worker.isRunning =
        s.busy + worker'.isRunning.toNat :=
  counts_set h worker'

/-- What a turn of a worker comes to: it leaves, it falls asleep at an empty queue that is open, or
it takes a task. -/
inductive Turned (s : PoolWakes F) (i : Nat) (s' : PoolWakes F) : Prop where
  | left (stopped : s.run.pool.stop = true) (empty : s.run.pool.tasks = [])
      (workers : s'.run.pool.workers = s.run.pool.workers.set i .returned)
      (tasks : s'.run.pool.tasks = [])
  | slept (opened : s.run.pool.stop = false) (empty : s.run.pool.tasks = [])
      (workers : s'.run.pool.workers = s.run.pool.workers.set i .waiting)
      (tasks : s'.run.pool.tasks = [])
  | took (task : Ticket F) (rest : List (Ticket F)) (front : s.run.pool.tasks = task :: rest)
      (workers : s'.run.pool.workers = s.run.pool.workers.set i (.running task))
      (tasks : s'.run.pool.tasks = rest)

/-- A worker falls asleep at an empty queue that is open. -/
theorem turn_waiting {p : ThreadPool F} {tasks : List F} (h : p.turn = some (.waiting, tasks)) :
    p.stop = false ∧ p.tasks = [] ∧ tasks = [] := by
  obtain ⟨workers, queue, stop⟩ := p
  cases queue with
  | nil =>
    cases stop with
    | false =>
      cases h
      exact ⟨rfl, rfl, rfl⟩
    | true => cases h
  | cons task rest => cases stop <;> cases h

theorem step_turn (h : s.step (.run (.turn i)) = some s') :
    s.run.pool.workers[i]? = some .testing ∧ s.Turned i s' ∧
      s'.run.pool.stop = s.run.pool.stop ∧ s'.run.accepted = s.run.accepted ∧
      s'.notifying = s.notifying ∧ s'.stopping = s.stopping := by
  obtain ⟨run, hrun, rfl⟩ := Option.map_eq_some_iff.mp h
  obtain ⟨htesting, worker, tasks, hturn, rfl⟩ := PoolRun.step_turn hrun
  refine ⟨htesting, ?_, rfl, rfl, rfl, rfl⟩
  rcases ThreadPool.turn_cases hturn with ⟨rfl, stopped, hempty, rfl⟩ | ⟨rfl, -⟩ |
    ⟨task, rfl, hfront⟩
  · exact .left stopped hempty rfl rfl
  · obtain ⟨opened, hempty, rfl⟩ := turn_waiting hturn
    exact .slept opened hempty rfl rfl
  · exact .took task tasks hfront rfl rfl

end Step

/-! ## What every run keeps -/

/-- No worker sleeps while there is something for it to do. -/
structure Attended (s : PoolWakes F) : Prop where
  custody : s.run.Custody
  tasks : s.run.pool.stop = false → 0 < s.waiting →
    s.run.pool.tasks.length ≤ s.testing + s.notifying
  stop : s.run.pool.stop = true → 0 < s.waiting → s.stopping = true

theorem attended_start : Attended (start : PoolWakes F) where
  custody := PoolRun.custody_start
  tasks _ h := absurd h (Nat.lt_irrefl 0)
  stop h := absurd h Bool.false_ne_true

section Attended

variable {s s' : PoolWakes F} {i : Nat}

theorem Attended.turn (att : Attended s) (h : s.step (.run (.turn i)) = some s') :
    Attended s' := by
  have hcustody : s'.run.Custody := by
    obtain ⟨run, hrun, rfl⟩ := Option.map_eq_some_iff.mp h
    exact att.custody.step hrun
  obtain ⟨htesting, turned, hstop, -, hnotifying, hstopping⟩ := step_turn h
  refine ⟨hcustody, fun hopen hwaiting => ?_, fun hstopped hwaiting => ?_⟩
  · rw [hstop] at hopen
    rw [hnotifying]
    cases turned with
    | left stopped =>
      rw [stopped] at hopen
      cases hopen
    | slept opened empty workers tasks =>
      rw [tasks]
      exact Nat.zero_le _
    | took task rest front workers tasks =>
      obtain ⟨hw, ht, -⟩ := counts_turned htesting (.running task)
      rw [waiting, workers, hw] at hwaiting
      have hless := att.tasks hopen hwaiting
      rw [front, List.length_cons, ← show _ = s.testing from ht] at hless
      rw [tasks, testing, workers]
      omega
  · rw [hstop] at hstopped
    rw [hstopping]
    refine att.stop hstopped ?_
    unfold waiting at hwaiting
    cases turned with
    | left stopped empty workers tasks =>
      rwa [workers, (counts_turned htesting .returned).1] at hwaiting
    | slept opened =>
      rw [opened] at hstopped
      cases hstopped
    | took task rest front workers tasks =>
      rwa [workers, (counts_turned htesting (.running task)).1] at hwaiting

/-- A worker comes to the test, woken or from its task. -/
theorem Attended.arrive (att : Attended s) {run : PoolRun F} (hcustody : run.Custody)
    (hstop : run.pool.stop = s.run.pool.stop) (htasks : run.pool.tasks = s.run.pool.tasks)
    {notifying : Nat} (hnotifying : s.notifying ≤ notifying + 1)
    (hwaiting : run.pool.workers.countP Worker.isWaiting ≤ s.waiting)
    (htesting : run.pool.workers.countP Worker.isTesting = s.testing + 1) :
    Attended ⟨run, notifying, s.stopping⟩ := by
  refine ⟨hcustody, fun hopen hpos => ?_, fun hstopped hpos => ?_⟩
  · have hless := att.tasks (hstop ▸ hopen) (Nat.lt_of_lt_of_le hpos hwaiting)
    show run.pool.tasks.length ≤ run.pool.workers.countP Worker.isTesting + notifying
    rw [htasks, htesting]
    omega
  · exact att.stop (hstop ▸ hstopped) (Nat.lt_of_lt_of_le hpos hwaiting)

theorem Attended.wake (att : Attended s) {run : PoolRun F} (h : s.run.step (.wake i) = some run)
    {notifying : Nat} (hnotifying : s.notifying ≤ notifying + 1) :
    Attended ⟨run, notifying, s.stopping⟩ := by
  have hcustody := att.custody.step h
  obtain ⟨hi, rfl⟩ := PoolRun.step_wake h
  obtain ⟨hw, ht, -⟩ := counts_woken hi
  exact att.arrive hcustody rfl rfl hnotifying (Nat.le_trans (Nat.le_succ _) (Nat.le_of_eq hw)) ht

theorem Attended.notifyAll (att : Attended s) :
    Attended { s.withWorkers (s.run.pool.workers.map Worker.notified) with stopping := false } := by
  have hwaiting : (s.run.pool.workers.map Worker.notified).countP Worker.isWaiting = 0 := by
    simp [List.countP_eq_zero]
  have hrunning : held Worker.task (s.run.pool.workers.map Worker.notified) = s.run.running := by
    rw [held, List.filterMap_map]
    exact List.filterMap_congr fun worker _ => worker.notified_task
  refine ⟨⟨att.custody.order, ?_, att.custody.calls, att.custody.called, fun hleft => ?_⟩,
    fun _ hpos => ?_, fun _ hpos => ?_⟩
  · show s.run.dequeued.Perm (held Worker.task (s.run.pool.workers.map Worker.notified) ++ _)
    rw [hrunning]
    exact att.custody.taken
  · obtain ⟨worker, hworker, heq⟩ := List.mem_map.mp hleft
    rw [Worker.notified_eq_returned.mp heq] at hworker
    exact att.custody.left hworker
  · exact absurd hpos (Nat.not_lt.mpr (Nat.le_of_eq hwaiting))
  · exact absurd hpos (Nat.not_lt.mpr (Nat.le_of_eq hwaiting))

theorem Attended.enqueue (att : Attended s) {task : F} {run : PoolRun F}
    (h : s.run.step (.enqueue task) = some run) : Attended { s with
      run := run
      notifying := if s.run.pool.stop then s.notifying else s.notifying + 1 } := by
  have hcustody := att.custody.step h
  cases hstop : s.run.pool.stop with
  | true =>
    rw [PoolRun.step_enqueue_stopped hstop] at h
    cases h
    exact ⟨hcustody, att.tasks, att.stop⟩
  | false =>
    rw [PoolRun.step_enqueue_open hstop] at h
    cases h
    refine ⟨hcustody, fun hopen hpos => ?_, att.stop⟩
    have hless := att.tasks hopen hpos
    show (s.run.pool.tasks ++ [_]).length ≤ s.testing + (s.notifying + 1)
    rw [List.length_append, List.length_singleton]
    omega

/-- **Every step leaves the workers attended.** -/
theorem Attended.step (att : Attended s) {a : WakeAction F} (h : s.step a = some s') :
    Attended s' := by
  cases a with
  | run a =>
    cases a with
    | launch =>
      have hcustody := att.custody.step (a := .launch) rfl
      cases h
      refine att.arrive hcustody rfl rfl (Nat.le_succ _) ?_ ?_
      · simp [ThreadPool.launch, Worker.isWaiting, waiting]
      · simp [ThreadPool.launch, Worker.isTesting, testing]
    | enqueue task =>
      obtain ⟨run, hrun, rfl⟩ := Option.map_eq_some_iff.mp h
      exact att.enqueue hrun
    | turn i => exact att.turn h
    | wake i =>
      obtain ⟨run, hrun, rfl⟩ := Option.map_eq_some_iff.mp h
      exact att.wake hrun (Nat.le_succ _)
    | finish i =>
      obtain ⟨run, hrun, rfl⟩ := Option.map_eq_some_iff.mp h
      have hcustody := att.custody.step hrun
      obtain ⟨task, hi, rfl⟩ := PoolRun.step_finish hrun
      obtain ⟨hw, ht, -⟩ := counts_finished hi
      exact att.arrive hcustody rfl rfl (Nat.le_succ _) (Nat.le_of_eq hw) ht
    | stop =>
      have hcustody := att.custody.step (a := .stop) rfl
      cases h
      exact ⟨hcustody, fun hopen => absurd hopen Bool.noConfusion, fun _ _ => rfl⟩
  | notifyOne woken =>
    cases woken with
    | none =>
      obtain ⟨-, h⟩ := Option.ite_none_left_eq_some.mp h
      obtain ⟨hnone, h⟩ := Option.ite_none_right_eq_some.mp h
      cases h
      refine ⟨att.custody, fun _ hwaiting => ?_, att.stop⟩
      exact absurd hwaiting (Nat.not_lt.mpr (Nat.le_of_eq hnone))
    | some i =>
      obtain ⟨-, h⟩ := Option.ite_none_left_eq_some.mp h
      obtain ⟨run, hrun, rfl⟩ := Option.map_eq_some_iff.mp h
      exact att.wake hrun (by omega)
  | notifyAll =>
    obtain ⟨-, h⟩ := Option.ite_none_right_eq_some.mp h
    cases h
    exact att.notifyAll

theorem attended (reach : Reaches PoolWakes.step (fun _ _ => True) start s) : Attended s :=
  reach.invariant attended_start fun _ _ _ att _ h => att.step h

end Attended

end PoolWakes

end Smer
