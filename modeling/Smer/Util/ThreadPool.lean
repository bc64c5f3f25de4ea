import Smer.Lib.Custody
import Smer.Lib.Run

/-!
# The worker threads (`Util/inc/ThreadPool.h`)

The pool's state is three members: the worker threads, the queue of tasks and the flag `stop`, the
latter two behind one mutex. A step of the system is one stretch between taking the mutex and giving
it back, or the end of a task outside it, so a run interleaves the callers of `enqueue`, the workers
and the destructor in any order.

`condition.wait` gives the mutex back when its test fails. A sleeping worker may be woken at any
time, by `notify_one`, by `notify_all` or for no reason; it then makes the test again.

`PoolRun` is the pool with the history of a run. A task is told from every other by the number of
the call that enqueued it, so "exactly once" is a statement about lists without repetition.
-/

namespace Smer

open Lib

variable {F : Type}

/-- Where a worker's thread stands. -/
inductive Worker (F : Type) where
  /-- before the mutex, on the way to the test of `condition.wait` -/
  | testing
  /-- asleep in `condition.wait` -/
  | waiting
  /-- behind the mutex, with a task to run -/
  | running (task : F)
  /-- out of the loop -/
  | returned

/-- The task a worker has taken. -/
def Worker.task : Worker F → Option F
  | .running task => some task
  | .testing | .waiting | .returned => none

structure ThreadPool (F : Type) where
  workers : List (Worker F)
  tasks : List F
  stop : Bool

namespace ThreadPool

/-- `ThreadPool()`. -/
def new : ThreadPool F := ⟨[], [], false⟩

/-- One turn of the loop in `init`: a thread more. -/
def launch (p : ThreadPool F) : ThreadPool F := { p with workers := p.workers ++ [.testing] }

/-- `init`. -/
def init (p : ThreadPool F) : Nat → ThreadPool F
  | 0 => p
  | threads + 1 => p.launch.init threads

/-- `enqueue`, up to the notification. -/
def enqueue (p : ThreadPool F) (task : F) : Except String (ThreadPool F) :=
  if p.stop then .error "enqueue on stopped ThreadPool"
  else .ok { p with tasks := p.tasks ++ [task] }

/-- A worker's stretch under the mutex: the test of `condition.wait`, the test of the exit, the
front of the queue. It answers what the worker becomes and the queue it leaves. The front of an
empty queue is undefined. -/
def turn (p : ThreadPool F) : Option (Worker F × List F) :=
  if p.stop || !p.tasks.isEmpty then
    if p.stop && p.tasks.isEmpty then some (.returned, p.tasks)
    else
      match p.tasks with
      | [] => none
      | task :: tasks => some (.running task, tasks)
  else some (.waiting, p.tasks)

/-- A turn ends in one of three ways. -/
theorem turn_cases {p : ThreadPool F} {worker : Worker F} {tasks : List F}
    (h : p.turn = some (worker, tasks)) :
    (worker = .returned ∧ p.stop = true ∧ p.tasks = [] ∧ tasks = []) ∨
      (worker = .waiting ∧ tasks = p.tasks) ∨ ∃ task, worker = .running task ∧
        p.tasks = task :: tasks := by
  obtain ⟨workers, queue, stop⟩ := p
  cases queue with
  | nil =>
    cases stop with
    | false =>
      cases h
      exact .inr (.inl ⟨rfl, rfl⟩)
    | true =>
      cases h
      exact .inl ⟨rfl, rfl, rfl, rfl⟩
  | cons task rest =>
    cases stop with
    | false =>
      cases h
      exact .inr (.inr ⟨task, rfl, rfl⟩)
    | true =>
      cases h
      exact .inr (.inr ⟨task, rfl, rfl⟩)

/-- No turn reads the front of an empty queue. -/
theorem turn_defined (p : ThreadPool F) : p.turn.isSome := by
  obtain ⟨workers, queue, stop⟩ := p
  cases queue <;> cases stop <;> rfl

end ThreadPool

/-! ## Runs -/

/-- A task, with the number of the call of `enqueue` that made it. -/
abbrev Ticket (F : Type) := Nat × F

/-- The pool and what has happened to it. -/
structure PoolRun (F : Type) where
  pool : ThreadPool (Ticket F)
  /-- how many calls of `enqueue` there were -/
  calls : Nat
  accepted : List (Ticket F)
  dequeued : List (Ticket F)
  finished : List (Ticket F)
  /-- what the calls that threw have thrown -/
  thrown : List (Nat × String)

inductive PoolAction (F : Type) where
  /-- a turn of the loop in `init` -/
  | launch
  | enqueue (task : F)
  /-- a worker takes the mutex, and gives it back -/
  | turn (worker : Nat)
  /-- a worker is woken -/
  | wake (worker : Nat)
  /-- a worker's task returns -/
  | finish (worker : Nat)
  /-- `~ThreadPool` sets `stop` -/
  | stop

namespace PoolRun

def start : PoolRun F := ⟨.new, 0, [], [], [], []⟩

/-- Worker `i` is now `worker`. -/
def move (s : PoolRun F) (i : Nat) (worker : Worker (Ticket F)) : PoolRun F :=
  { s with pool := { s.pool with workers := s.pool.workers.set i worker } }

def step (s : PoolRun F) : PoolAction F → Option (PoolRun F)
  | .launch => some { s with pool := s.pool.launch }
  | .enqueue task =>
    let s' := { s with calls := s.calls + 1 }
    match s.pool.enqueue (s.calls, task) with
    | .ok pool => some { s' with pool := pool, accepted := s.accepted ++ [(s.calls, task)] }
    | .error what => some { s' with thrown := s.thrown ++ [(s.calls, what)] }
  | .turn i =>
    match s.pool.workers[i]? with
    | some .testing => s.pool.turn.map fun (worker, tasks) =>
      { s with
        pool := { s.pool with workers := s.pool.workers.set i worker, tasks := tasks }
        dequeued := s.dequeued ++ worker.task.toList }
    | _ => none
  | .wake i =>
    match s.pool.workers[i]? with
    | some .waiting => some (s.move i .testing)
    | _ => none
  | .finish i =>
    match s.pool.workers[i]? with
    | some (.running task) => some { s.move i .testing with finished := s.finished ++ [task] }
    | _ => none
  | .stop => some { s with pool := { s.pool with stop := true } }

/-- The tasks that are being run. -/
def running (s : PoolRun F) : List (Ticket F) := held Worker.task s.pool.workers

/-- Every worker has left its loop, which is what the destructor's joins wait for. -/
def Joined (s : PoolRun F) : Prop := ∀ worker ∈ s.pool.workers, worker = .returned

/-! ### What one step does -/

section Steps

variable {s s' : PoolRun F}

/-- A call that finds `stop` throws and changes nothing of the pool. -/
theorem step_enqueue_stopped (stopped : s.pool.stop = true) (task : F) :
    step s (.enqueue task) = some { s with
      calls := s.calls + 1
      thrown := s.thrown ++ [(s.calls, "enqueue on stopped ThreadPool")] } := by
  simp only [step, ThreadPool.enqueue, stopped, if_true]

theorem step_enqueue_open (running : s.pool.stop = false) (task : F) :
    step s (.enqueue task) = some { s with
      calls := s.calls + 1
      pool := { s.pool with tasks := s.pool.tasks ++ [(s.calls, task)] }
      accepted := s.accepted ++ [(s.calls, task)] } := by
  simp only [step, ThreadPool.enqueue, running, Bool.false_eq_true, if_false]

theorem step_turn {i : Nat} (h : step s (.turn i) = some s') :
    s.pool.workers[i]? = some .testing ∧ ∃ worker tasks, s.pool.turn = some (worker, tasks) ∧
      s' = { s with
        pool := { s.pool with workers := s.pool.workers.set i worker, tasks := tasks }
        dequeued := s.dequeued ++ worker.task.toList } := by
  unfold step at h
  dsimp only at h
  split at h
  · rename_i ht
    obtain ⟨⟨worker, tasks⟩, hturn, rfl⟩ := Option.map_eq_some_iff.mp h
    exact ⟨ht, worker, tasks, hturn, rfl⟩
  · cases h

theorem step_wake {i : Nat} (h : step s (.wake i) = some s') :
    s.pool.workers[i]? = some .waiting ∧ s' = s.move i .testing := by
  unfold step at h
  dsimp only at h
  split at h
  · rename_i ht
    cases h
    exact ⟨ht, rfl⟩
  · cases h

theorem step_finish {i : Nat} (h : step s (.finish i) = some s') :
    ∃ task, s.pool.workers[i]? = some (.running task) ∧
      s' = { s.move i .testing with finished := s.finished ++ [task] } := by
  unfold step at h
  dsimp only at h
  split at h
  · rename_i task ht
    cases h
    exact ⟨task, ht, rfl⟩
  · cases h

/-- No thread leaves the vector of workers. -/
theorem workers_length_le {a : PoolAction F} (h : step s a = some s') :
    s.pool.workers.length ≤ s'.pool.workers.length := by
  cases a with
  | launch =>
    cases h
    rw [ThreadPool.launch, List.length_append]
    exact Nat.le_add_right _ _
  | enqueue task =>
    cases hstop : s.pool.stop with
    | true =>
      rw [step_enqueue_stopped hstop] at h
      cases h
      exact Nat.le_refl _
    | false =>
      rw [step_enqueue_open hstop] at h
      cases h
      exact Nat.le_refl _
  | turn i =>
    obtain ⟨-, worker, tasks, -, rfl⟩ := step_turn h
    exact Nat.le_of_eq List.length_set.symm
  | wake i =>
    obtain ⟨-, rfl⟩ := step_wake h
    exact Nat.le_of_eq List.length_set.symm
  | finish i =>
    obtain ⟨task, -, rfl⟩ := step_finish h
    exact Nat.le_of_eq List.length_set.symm
  | stop =>
    cases h
    exact Nat.le_refl _

end Steps

/-! ### What every run keeps -/

/-- Where the tasks are. -/
structure Custody (s : PoolRun F) : Prop where
  /-- the queue holds the accepted tasks that are not dequeued, in order -/
  order : s.accepted = s.dequeued ++ s.pool.tasks
  /-- a dequeued task is being run or is finished -/
  taken : s.dequeued.Perm (s.running ++ s.finished)
  /-- the accepted tasks come from calls that are over, in order -/
  calls : s.accepted.Pairwise fun t u => t.1 < u.1
  called : ∀ t ∈ s.accepted, t.1 < s.calls
  /-- a worker leaves its loop on an empty queue that stays empty -/
  left : .returned ∈ s.pool.workers → s.pool.stop = true ∧ s.pool.tasks = []

theorem custody_start : Custody (start : PoolRun F) where
  order := rfl
  taken := .refl _
  calls := .nil
  called := by
    intro t ht
    cases ht
  left := by
    intro hreturned
    cases hreturned

/-- A worker that has not returned is set: whoever has returned had returned before. -/
theorem returned_of_set {workers : List (Worker (Ticket F))} {i : Nat} (worker : Worker (Ticket F))
    (ne : worker ≠ .returned) (h : .returned ∈ workers.set i worker) : .returned ∈ workers := by
  rcases List.mem_or_eq_of_mem_set h with hmem | heq
  · exact hmem
  · exact absurd heq.symm ne

theorem Custody.enqueue {s s' : PoolRun F} (inv : Custody s) {task : F}
    (h : step s (.enqueue task) = some s') : Custody s' := by
  cases hstop : s.pool.stop with
  | true =>
    rw [step_enqueue_stopped hstop] at h
    cases h
    exact ⟨inv.order, inv.taken, inv.calls, fun t ht => Nat.lt_succ_of_lt (inv.called t ht),
      inv.left⟩
  | false =>
    rw [step_enqueue_open hstop] at h
    cases h
    refine ⟨?_, inv.taken, ?_, ?_, ?_⟩
    · show s.accepted ++ [(s.calls, task)] = s.dequeued ++ (s.pool.tasks ++ [(s.calls, task)])
      rw [inv.order, List.append_assoc]
    · refine List.pairwise_append.mpr ⟨inv.calls, List.pairwise_singleton _ _, ?_⟩
      intro t ht u hu
      rw [List.mem_singleton] at hu
      rw [hu]
      exact inv.called t ht
    · intro t ht
      show t.1 < s.calls + 1
      rcases List.mem_append.mp ht with ht | ht
      · exact Nat.lt_succ_of_lt (inv.called t ht)
      · rw [List.mem_singleton.mp ht]
        exact Nat.lt_succ_self _
    · intro hreturned
      obtain ⟨stopped, -⟩ := inv.left hreturned
      rw [hstop] at stopped
      cases stopped

theorem Custody.turn {s s' : PoolRun F} (inv : Custody s) {i : Nat}
    (h : step s (.turn i) = some s') : Custody s' := by
  obtain ⟨at', worker, tasks, hturn, rfl⟩ := step_turn h
  rcases ThreadPool.turn_cases hturn with
    ⟨rfl, stopped, hempty, rfl⟩ | ⟨rfl, rfl⟩ | ⟨task, rfl, hfront⟩
  · refine ⟨?_, ?_, inv.calls, inv.called, fun _ => ⟨stopped, rfl⟩⟩
    · show s.accepted = s.dequeued ++ [] ++ []
      rw [List.append_nil, List.append_nil, inv.order, hempty, List.append_nil]
    · show (s.dequeued ++ []).Perm (held _ (s.pool.workers.set i .returned) ++ s.finished)
      rw [List.append_nil]
      exact inv.taken.trans ((held_keep Worker.task at' .returned rfl).symm.append_right _)
  · refine ⟨?_, ?_, inv.calls, inv.called, ?_⟩
    · show s.accepted = s.dequeued ++ [] ++ s.pool.tasks
      rw [List.append_nil, inv.order]
    · show (s.dequeued ++ []).Perm (held _ (s.pool.workers.set i .waiting) ++ s.finished)
      rw [List.append_nil]
      exact inv.taken.trans ((held_keep Worker.task at' .waiting rfl).symm.append_right _)
    · intro hreturned
      exact inv.left (returned_of_set .waiting nofun hreturned)
  · refine ⟨?_, ?_, inv.calls, inv.called, ?_⟩
    · show s.accepted = s.dequeued ++ [task] ++ tasks
      rw [inv.order, hfront, List.append_assoc, List.singleton_append]
    · show (s.dequeued ++ [task]).Perm (held _ (s.pool.workers.set i (.running task)) ++ s.finished)
      have htake := held_take Worker.task at' (.running task) rfl rfl
      refine List.perm_append_comm.trans ?_
      exact (inv.taken.cons task).trans (htake.symm.append_right _)
    · intro hreturned
      obtain ⟨-, hempty⟩ := inv.left (returned_of_set (.running task) nofun hreturned)
      rw [hfront] at hempty
      cases hempty

theorem Custody.finish {s s' : PoolRun F} (inv : Custody s) {i : Nat}
    (h : step s (.finish i) = some s') : Custody s' := by
  obtain ⟨task, at', rfl⟩ := step_finish h
  refine ⟨inv.order, ?_, inv.calls, inv.called, ?_⟩
  · show s.dequeued.Perm (held _ (s.pool.workers.set i .testing) ++ (s.finished ++ [task]))
    have hdrop := held_drop Worker.task at' .testing rfl rfl
    refine inv.taken.trans ((hdrop.append_right _).trans ?_)
    rw [← List.append_assoc]
    exact (List.perm_append_singleton task _).symm
  · intro hreturned
    exact inv.left (returned_of_set .testing nofun hreturned)

/-- **Every step keeps the custody of the tasks.** -/
theorem Custody.step {s s' : PoolRun F} {a : PoolAction F} (inv : Custody s)
    (h : step s a = some s') : Custody s' := by
  cases a with
  | launch =>
    cases h
    refine ⟨inv.order, ?_, inv.calls, inv.called, ?_⟩
    · show s.dequeued.Perm (held _ (s.pool.workers ++ [.testing]) ++ s.finished)
      rw [held_join rfl]
      exact inv.taken
    · intro hreturned
      rcases List.mem_append.mp hreturned with hmem | hmem
      · exact inv.left hmem
      · cases List.mem_singleton.mp hmem
  | enqueue task => exact inv.enqueue h
  | turn i => exact inv.turn h
  | wake i =>
    obtain ⟨at', rfl⟩ := step_wake h
    refine ⟨inv.order, ?_, inv.calls, inv.called, ?_⟩
    · exact inv.taken.trans ((held_keep Worker.task at' .testing rfl).symm.append_right _)
    · intro hreturned
      exact inv.left (returned_of_set .testing nofun hreturned)
  | finish i => exact inv.finish h
  | stop =>
    cases h
    exact ⟨inv.order, inv.taken, inv.calls, inv.called, fun hreturned =>
      ⟨rfl, (inv.left hreturned).2⟩⟩

theorem custody {s : PoolRun F} (reach : Reaches step (fun _ _ => True) start s) : Custody s :=
  reach.invariant custody_start fun _ _ _ inv _ h => inv.step h

/-- The accepted tasks are those queued, those being run and those finished. -/
theorem Custody.perm {s : PoolRun F} (inv : Custody s) :
    s.accepted.Perm (s.pool.tasks ++ s.running ++ s.finished) := by
  rw [inv.order, List.append_assoc]
  exact List.perm_append_comm.trans (inv.taken.append_left _)

/-- No two accepted tasks come from one call. -/
theorem Custody.nodup {s : PoolRun F} (inv : Custody s) : s.accepted.Nodup := by
  refine inv.calls.imp ?_
  intro t u hlt heq
  rw [heq] at hlt
  exact Nat.lt_irrefl _ hlt

/-- What a worker runs has been dequeued. -/
theorem Custody.dequeued_of_running {s : PoolRun F} (inv : Custody s) {i : Nat} {t : Ticket F}
    (hi : s.pool.workers[i]? = some (.running t)) : t ∈ s.dequeued := by
  refine inv.taken.mem_iff.mpr (List.mem_append_left _ (mem_held.mpr ?_))
  exact ⟨.running t, List.mem_of_getElem? hi, rfl⟩

/-- **Tasks are dequeued in the order of their calls.** -/
theorem Custody.dequeued_before {s : PoolRun F} (inv : Custody s) {t u : Ticket F}
    (hu : u ∈ s.accepted) (hlt : u.1 < t.1) {front back : List (Ticket F)}
    (hsplit : s.dequeued = front ++ t :: back) : u ∈ front := by
  have horder := inv.order
  rw [hsplit, List.append_assoc] at horder
  rw [horder] at hu
  rcases List.mem_append.mp hu with hu | hu
  · exact hu
  · have hcalls := inv.calls
    rw [horder] at hcalls
    rcases List.mem_cons.mp hu with rfl | hu
    · exact absurd hlt (Nat.lt_irrefl _)
    · have hafter := (List.pairwise_cons.mp (List.pairwise_append.mp hcalls).2.1).1 u hu
      exact absurd hlt (Nat.lt_asymm hafter)

/-- **A single worker finishes a task before it takes the next.** -/
theorem Custody.finished_of_single {s : PoolRun F} (inv : Custody s)
    (single : s.pool.workers.length ≤ 1) {i : Nat} {t u : Ticket F}
    (hi : s.pool.workers[i]? = some (.running t)) (hu : u ∈ s.accepted) (hlt : u.1 < t.1) :
    u ∈ s.finished := by
  obtain ⟨front, back, hsplit⟩ := List.append_of_mem (inv.dequeued_of_running hi)
  have hdequeued : u ∈ s.dequeued := by
    rw [hsplit]
    exact List.mem_append_left _ (inv.dequeued_before hu hlt hsplit)
  rcases List.mem_append.mp (inv.taken.mem_iff.mp hdequeued) with hrunning | hfinished
  · obtain ⟨worker, hworker, htask⟩ := mem_held.mp hrunning
    obtain ⟨j, hj⟩ := List.mem_iff_getElem?.mp hworker
    have hone : ∀ {k : Nat} {w : Worker (Ticket F)}, s.pool.workers[k]? = some w → k = 0 := by
      intro k w hk
      have := (List.getElem?_eq_some_iff.mp hk).1
      omega
    rw [hone hi] at hi
    rw [hone hj, hi] at hj
    cases hj
    cases htask
    exact absurd hlt (Nat.lt_irrefl _)
  · exact hfinished

/-- When every worker has left, no task is being run. -/
theorem running_of_joined {s : PoolRun F} (joined : s.Joined) : s.running = [] := by
  apply List.eq_nil_iff_forall_not_mem.mpr
  intro task hmem
  obtain ⟨worker, hworker, htask⟩ := mem_held.mp hmem
  rw [joined worker hworker] at htask
  cases htask

/-- When every worker has left, and there was one, the queue is empty. -/
theorem Custody.tasks_of_joined {s : PoolRun F} (inv : Custody s) (staffed : s.pool.workers ≠ [])
    (joined : s.Joined) : s.pool.tasks = [] := by
  obtain ⟨worker, hworker⟩ := List.exists_mem_of_ne_nil _ staffed
  have hreturned := joined worker hworker
  rw [hreturned] at hworker
  exact (inv.left hworker).2

/-- `init` is a run of its own. -/
theorem reaches_init (threads : Nat) :
    Reaches step (fun _ _ => True) start { (start : PoolRun F) with pool := .init .new threads } := by
  have launches : ∀ (threads : Nat) (s : PoolRun F), Reaches step (fun _ _ => True) start s →
      Reaches step (fun _ _ => True) start { s with pool := s.pool.init threads } := by
    intro threads
    induction threads with
    | zero =>
      intro s reach
      exact reach
    | succ threads ih =>
      intro s reach
      exact ih { s with pool := s.pool.launch } (.step reach (a := .launch) trivial rfl)
  exact launches threads start .refl

/-- **Every accepted task is run exactly once**: in every state of every run, the accepted tasks are
those queued, those being run and those finished, and no task is in two places or twice in one; they
are dequeued in the order they were accepted; a call that finds `stop` throws and adds nothing; and
when all workers have left, the queue is empty and every accepted task is finished. -/
theorem tasks_run_once {s : PoolRun F} (reach : Reaches step (fun _ _ => True) start s) :
    s.accepted.Perm (s.pool.tasks ++ s.running ++ s.finished) ∧
      (s.pool.tasks ++ s.running ++ s.finished).Nodup ∧
      s.accepted = s.dequeued ++ s.pool.tasks ∧
      (s.pool.stop = true → ∀ task, step s (.enqueue task) = some { s with
        calls := s.calls + 1
        thrown := s.thrown ++ [(s.calls, "enqueue on stopped ThreadPool")] }) ∧
      (s.pool.workers ≠ [] → s.Joined → s.pool.tasks = [] ∧ s.accepted.Perm s.finished) := by
  have inv := custody reach
  refine ⟨inv.perm, inv.perm.nodup inv.nodup, inv.order, step_enqueue_stopped, ?_⟩
  intro staffed joined
  have hempty := inv.tasks_of_joined staffed joined
  have hperm := inv.perm
  rw [hempty, running_of_joined joined] at hperm
  exact ⟨hempty, hperm⟩

/-- Two workers, two tasks and the end: the second task is taken after `stop`, and a third is
refused. -/
def shutdown : List (PoolAction Nat) :=
  [.enqueue 10, .turn 1, .enqueue 20, .stop, .enqueue 30, .turn 0, .finish 1, .turn 1, .finish 0,
    .turn 0]

theorem tasks_run_once_shutdown : ∃ s : PoolRun Nat, s.pool.workers ≠ [] ∧ s.Joined ∧
    s.accepted = [(0, 10), (1, 20)] ∧ s.accepted.Perm s.finished := by
  obtain ⟨s, hs⟩ : ∃ s, play step shutdown
      { (start : PoolRun Nat) with pool := .init .new 2 } = some s := ⟨_, rfl⟩
  have reach := (reaches_init 2).play hs
  have hworkers : s.pool.workers = [.returned, .returned] := by
    cases hs
    rfl
  have haccepted : s.accepted = [(0, 10), (1, 20)] := by
    cases hs
    rfl
  have staffed : s.pool.workers ≠ [] := by
    rw [hworkers]
    nofun
  have joined : s.Joined := by
    intro worker hmem
    rw [hworkers] at hmem
    rcases List.mem_cons.mp hmem with heq | hmem
    · exact heq
    · exact List.mem_singleton.mp hmem
  obtain ⟨-, -, -, -, done⟩ := tasks_run_once reach
  exact ⟨s, staffed, joined, haccepted, (done staffed joined).2⟩

end PoolRun

end Smer
