import Smer.Util.PoolWakes

/-!
# The worker threads get everything done

Some tasks never return: the loops of `MyLog::run` and of `Client::run`. Left alone, the pool comes
to rest after a bounded number of steps, whatever their order, and at rest it has finished every
task that returns, as long as there are more workers than tasks that never return. After `stop` the
joins of the destructor come to an end if all tasks return (`serves_of_reaches`).

The threads are left alone in these runs: that the system schedules them is assumed, and no time is
bounded.
-/

namespace Smer

open Lib

variable {F : Type}

namespace PoolWakes

/-- The steps that the pool takes by itself: no thread calls it, no worker wakes without a
notification, and only the tasks that return do so. -/
def alone (returns : F → Bool) (s : PoolWakes F) (a : WakeAction F) : Option (PoolWakes F) :=
  match a with
  | .run (.finish i) =>
    match s.run.pool.workers[i]? with
    | some (.running task) => if returns task.2 then s.step a else none
    | _ => none
  | .run (.turn _) | .notifyOne _ | .notifyAll => s.step a
  | .run .launch | .run (.enqueue _) | .run (.wake _) | .run .stop => none

/-- The pool takes no further step by itself. -/
def AtRest (returns : F → Bool) (s : PoolWakes F) : Prop := ∀ a, s.alone returns a = none

/-- How many steps the pool can take by itself at most. -/
def toDo (s : PoolWakes F) : Nat :=
  s.testing + 2 * s.busy + 2 * s.run.pool.tasks.length + 2 * s.notifying +
    if s.stopping then s.run.pool.workers.length + 1 else 0

/-- What comes of the pool's own steps: they end after a bounded number, and at rest what can be
finished is finished. -/
structure Serves (returns : F → Bool) (s : PoolWakes F) : Prop where
  bounded : ∀ as s', play (alone returns) as s = some s' → as.length ≤ s.toDo
  finished : ∀ as s', play (alone returns) as s = some s' → s'.AtRest returns →
    s.run.accepted.countP (fun t => !returns t.2) < s.run.pool.workers.length →
      ∀ t ∈ s.run.accepted, returns t.2 = true → t ∈ s'.run.finished
  joined : ∀ as s', play (alone returns) as s = some s' → s'.AtRest returns →
    s.run.pool.stop = true → (∀ t ∈ s.run.accepted, returns t.2 = true) → s'.run.Joined

section Alone

variable {returns : F → Bool} {s s' : PoolWakes F} {a : WakeAction F}

/-- What the pool's own steps leave. -/
structure Left (s s' : PoolWakes F) : Prop where
  accepted : s'.run.accepted = s.run.accepted
  stop : s'.run.pool.stop = s.run.pool.stop
  workers : s'.run.pool.workers.length = s.run.pool.workers.length

theorem Left.trans {s₁ s₂ s₃ : PoolWakes F} (h : Left s₁ s₂) (h' : Left s₂ s₃) : Left s₁ s₃ :=
  ⟨h'.accepted.trans h.accepted, h'.stop.trans h.stop, h'.workers.trans h.workers⟩

theorem alone_finish {i : Nat} (h : s.alone returns (.run (.finish i)) = some s') :
    s.step (.run (.finish i)) = some s' := by
  unfold alone at h
  dsimp only at h
  split at h
  · exact (Option.ite_none_right_eq_some.mp h).2
  · cases h

/-- A step that leaves `stopping` as it is and makes one of the other numbers smaller leaves less to
do. -/
theorem toDo_lt (left : Left s s') (hstopping : s'.stopping = s.stopping)
    (hless : s'.testing + 2 * s'.busy + 2 * s'.run.pool.tasks.length + 2 * s'.notifying <
      s.testing + 2 * s.busy + 2 * s.run.pool.tasks.length + 2 * s.notifying) :
    s'.toDo < s.toDo := by
  rw [toDo, toDo, hstopping, left.workers]
  exact Nat.add_lt_add_right hless _

theorem turn_lowers {i : Nat} (h : s.step (.run (.turn i)) = some s') :
    Left s s' ∧ s'.toDo < s.toDo := by
  obtain ⟨htesting, turned, hstop, haccepted, hnotifying, hstopping⟩ := step_turn h
  have hcounts : ∀ worker', s'.run.pool.workers = s.run.pool.workers.set i worker' →
      Left s s' ∧ s'.testing + 1 = s.testing + worker'.isTesting.toNat ∧
        s'.busy = s.busy + worker'.isRunning.toNat := by
    intro worker' hworkers
    obtain ⟨-, ht, hb⟩ := counts_turned htesting worker'
    refine ⟨⟨haccepted, hstop, by rw [hworkers, List.length_set]⟩, ?_⟩
    rw [testing, busy, hworkers]
    exact ⟨ht, hb⟩
  cases turned with
  | left stopped empty workers tasks =>
    obtain ⟨left, ht : s'.testing + 1 = s.testing, hb : s'.busy = s.busy⟩ := hcounts _ workers
    refine ⟨left, toDo_lt left hstopping ?_⟩
    rw [tasks, empty]
    omega
  | slept opened empty workers tasks =>
    obtain ⟨left, ht : s'.testing + 1 = s.testing, hb : s'.busy = s.busy⟩ := hcounts _ workers
    refine ⟨left, toDo_lt left hstopping ?_⟩
    rw [tasks, empty]
    omega
  | took task rest front workers tasks =>
    obtain ⟨left, ht : s'.testing + 1 = s.testing, hb : s'.busy = s.busy + 1⟩ :=
      hcounts _ workers
    refine ⟨left, toDo_lt left hstopping ?_⟩
    rw [tasks, front, List.length_cons]
    omega

theorem finish_lowers {i : Nat} (h : s.step (.run (.finish i)) = some s') :
    Left s s' ∧ s'.toDo < s.toDo := by
  obtain ⟨run, hrun, rfl⟩ := Option.map_eq_some_iff.mp h
  obtain ⟨task, hi, rfl⟩ := PoolRun.step_finish hrun
  obtain ⟨-, ht, hb⟩ := counts_finished hi
  have left : Left s { s with
      run := { s.run.move i .testing with finished := s.run.finished ++ [task] } } :=
    ⟨rfl, rfl, List.length_set⟩
  refine ⟨left, toDo_lt left rfl ?_⟩
  show (s.run.pool.workers.set i .testing).countP _ +
    2 * (s.run.pool.workers.set i .testing).countP _ + 2 * s.run.pool.tasks.length +
      2 * s.notifying < _
  omega

theorem notifyOne_lowers {woken : Option Nat} (h : s.step (.notifyOne woken) = some s') :
    Left s s' ∧ s'.toDo < s.toDo := by
  cases woken with
  | none =>
    obtain ⟨hpos, h⟩ := Option.ite_none_left_eq_some.mp h
    obtain ⟨-, h⟩ := Option.ite_none_right_eq_some.mp h
    cases h
    have left : Left s { s with notifying := s.notifying - 1 } := ⟨rfl, rfl, rfl⟩
    refine ⟨left, toDo_lt left rfl ?_⟩
    show s.testing + 2 * s.busy + 2 * s.run.pool.tasks.length + 2 * (s.notifying - 1) < _
    omega
  | some i =>
    obtain ⟨hpos, h⟩ := Option.ite_none_left_eq_some.mp h
    obtain ⟨run, hrun, rfl⟩ := Option.map_eq_some_iff.mp h
    obtain ⟨hi, rfl⟩ := PoolRun.step_wake hrun
    obtain ⟨-, ht, hb⟩ := counts_woken hi
    have left : Left s { s with
        run := s.run.move i .testing
        notifying := s.notifying - 1 } := ⟨rfl, rfl, List.length_set⟩
    refine ⟨left, toDo_lt left rfl ?_⟩
    show (s.run.pool.workers.set i .testing).countP _ +
      2 * (s.run.pool.workers.set i .testing).countP _ + 2 * s.run.pool.tasks.length +
        2 * (s.notifying - 1) < _
    omega

theorem notifyAll_lowers (h : s.step .notifyAll = some s') :
    Left s s' ∧ s'.toDo < s.toDo := by
  obtain ⟨hstopping, h⟩ := Option.ite_none_right_eq_some.mp h
  cases h
  refine ⟨⟨rfl, rfl, List.length_map _⟩, ?_⟩
  have hbusy : (s.run.pool.workers.map Worker.notified).countP Worker.isRunning = s.busy := by
    rw [List.countP_map]
    exact List.countP_congr fun worker _ => by simp [Worker.isRunning]
  have htesting : (s.run.pool.workers.map Worker.notified).countP Worker.isTesting ≤
      s.run.pool.workers.length :=
    Nat.le_trans List.countP_le_length (Nat.le_of_eq (List.length_map _))
  rw [toDo, toDo, if_pos hstopping]
  show (s.run.pool.workers.map Worker.notified).countP Worker.isTesting +
    2 * (s.run.pool.workers.map Worker.notified).countP Worker.isRunning +
      2 * s.run.pool.tasks.length + 2 * s.notifying + 0 < _
  omega

/-- **The pool's own steps come to an end**: each of them leaves less to do. -/
theorem alone_lowers (h : s.alone returns a = some s') :
    s.step a = some s' ∧ Left s s' ∧ s'.toDo < s.toDo := by
  cases a with
  | run a =>
    cases a with
    | turn i => exact ⟨h, turn_lowers h⟩
    | finish i => exact ⟨alone_finish h, finish_lowers (alone_finish h)⟩
    | launch | enqueue task | wake i | stop => cases h
  | notifyOne woken => exact ⟨h, notifyOne_lowers h⟩
  | notifyAll => exact ⟨h, notifyAll_lowers h⟩

/-! ## At rest -/

theorem AtRest.not_testing (rest : s.AtRest returns) (i : Nat) :
    s.run.pool.workers[i]? ≠ some .testing := by
  intro hi
  obtain ⟨out, hout⟩ := Option.isSome_iff_exists.mp s.run.pool.turn_defined
  have hnone : ((s.run.step (.turn i)).map fun run => { s with run := run }) = none :=
    rest (.run (.turn i))
  rw [PoolRun.step, hi] at hnone
  dsimp only at hnone
  rw [hout] at hnone
  cases hnone

theorem AtRest.not_returns (rest : s.AtRest returns) {i : Nat} {task : Ticket F}
    (hi : s.run.pool.workers[i]? = some (.running task)) : returns task.2 = false := by
  by_contra hreturns
  have hnone := rest (.run (.finish i))
  simp only [alone, hi, Bool.of_not_eq_false hreturns, if_true, PoolWakes.step,
    PoolRun.step, Option.map_some] at hnone
  cases hnone

/-- A notification that is to come can always be made. -/
theorem AtRest.notifying_eq (rest : s.AtRest returns) : s.notifying = 0 := by
  by_contra hpos
  by_cases hwaiting : s.waiting = 0
  · have hnone : s.step (.notifyOne none) = none := rest (.notifyOne none)
    rw [PoolWakes.step, if_neg hpos, if_pos hwaiting] at hnone
    cases hnone
  · obtain ⟨worker, hworker, hsleeps⟩ := List.countP_pos_iff.mp (Nat.pos_of_ne_zero hwaiting)
    obtain ⟨i, hi⟩ := List.mem_iff_getElem?.mp hworker
    have hnone : s.step (.notifyOne (some i)) = none := rest (.notifyOne (some i))
    cases worker with
    | waiting =>
      simp only [PoolWakes.step, if_neg hpos, PoolRun.step, hi, Option.map_some] at hnone
      cases hnone
    | testing | running task | returned => cases hsleeps

theorem AtRest.stopping_eq (rest : s.AtRest returns) : s.stopping = false := by
  by_contra hstopping
  have hnone : s.step .notifyAll = none := rest .notifyAll
  rw [PoolWakes.step, if_pos (Bool.of_not_eq_false hstopping)] at hnone
  cases hnone

theorem AtRest.testing_zero (rest : s.AtRest returns) : s.testing = 0 := by
  rw [testing, List.countP_eq_zero]
  intro worker hworker htests
  obtain ⟨i, hi⟩ := List.mem_iff_getElem?.mp hworker
  cases worker with
  | testing => exact rest.not_testing i hi
  | waiting | running task | returned => cases htests

/-- At rest after the end, no worker sleeps. -/
theorem AtRest.awake (rest : s.AtRest returns) (att : Attended s)
    (hstop : s.run.pool.stop = true) : .waiting ∉ s.run.pool.workers := by
  intro hwaiting
  have hstopping := att.stop hstop (List.countP_pos_iff.mpr ⟨_, hwaiting, rfl⟩)
  rw [rest.stopping_eq] at hstopping
  cases hstopping

/-- At rest the queue is empty, where a worker runs no task. -/
theorem AtRest.tasks_eq (rest : s.AtRest returns) (att : Attended s) {worker : Worker (Ticket F)}
    (hworker : worker ∈ s.run.pool.workers) (hidle : worker.isRunning = false) :
    s.run.pool.tasks = [] := by
  obtain ⟨i, hi⟩ := List.mem_iff_getElem?.mp hworker
  cases worker with
  | testing => exact absurd hi (rest.not_testing i)
  | running task => cases hidle
  | returned => exact (att.custody.left hworker).2
  | waiting =>
    have hopen : s.run.pool.stop = false := by
      by_contra hstop
      exact rest.awake att (Bool.of_not_eq_false hstop) hworker
    have hless := att.tasks hopen (List.countP_pos_iff.mpr ⟨_, hworker, rfl⟩)
    rw [rest.testing_zero, rest.notifying_eq] at hless
    exact List.eq_nil_of_length_eq_zero (Nat.le_zero.mp hless)

/-- What is run at rest never returns. -/
theorem AtRest.running (rest : s.AtRest returns) {task : Ticket F} (hmem : task ∈ s.run.running) :
    returns task.2 = false := by
  obtain ⟨worker, hworker, htask⟩ := mem_held.mp hmem
  obtain ⟨i, hi⟩ := List.mem_iff_getElem?.mp hworker
  cases worker with
  | running task' =>
    cases htask
    exact rest.not_returns hi
  | testing | waiting | returned => cases htask

/-- At rest the workers that run a task are no more than the tasks that never return. -/
theorem AtRest.busy_le (rest : s.AtRest returns) (att : Attended s) :
    s.busy ≤ s.run.accepted.countP fun t => !returns t.2 := by
  have hrunning : s.run.running.countP (fun t => !returns t.2) = s.busy := by
    rw [List.countP_eq_length.mpr fun t ht => by rw [rest.running ht]; rfl]
    exact List.length_filterMap_eq_countP
  rw [← hrunning, att.custody.perm.countP_eq, List.countP_append, List.countP_append]
  omega

theorem AtRest.finished (rest : s.AtRest returns) (att : Attended s)
    (hroom : s.run.accepted.countP (fun t => !returns t.2) < s.run.pool.workers.length)
    {t : Ticket F} (ht : t ∈ s.run.accepted) (hreturns : returns t.2 = true) :
    t ∈ s.run.finished := by
  have hidle : ∃ worker ∈ s.run.pool.workers, worker.isRunning = false := by
    by_contra hall
    simp only [not_exists, not_and, Bool.not_eq_false] at hall
    have hbusy : s.busy = s.run.pool.workers.length := List.countP_eq_length.mpr hall
    exact Nat.not_lt.mpr (hbusy ▸ rest.busy_le att) hroom
  obtain ⟨worker, hworker, hidle⟩ := hidle
  have hperm := att.custody.perm
  rw [rest.tasks_eq att hworker hidle, List.nil_append] at hperm
  rcases List.mem_append.mp (hperm.mem_iff.mp ht) with hrunning | hfinished
  · rw [rest.running hrunning] at hreturns
    cases hreturns
  · exact hfinished

theorem AtRest.joined (rest : s.AtRest returns) (att : Attended s)
    (hstop : s.run.pool.stop = true) (hreturns : ∀ t ∈ s.run.accepted, returns t.2 = true) :
    s.run.Joined := by
  intro worker hworker
  obtain ⟨i, hi⟩ := List.mem_iff_getElem?.mp hworker
  cases worker with
  | testing => exact absurd hi (rest.not_testing i)
  | waiting => exact absurd hworker (rest.awake att hstop)
  | running task =>
    have hdequeued := att.custody.dequeued_of_running hi
    have haccepted : task ∈ s.run.accepted := by
      rw [att.custody.order]
      exact List.mem_append_left _ hdequeued
    have htrue := hreturns task haccepted
    rw [rest.not_returns hi] at htrue
    cases htrue
  | returned => rfl

/-- **The pool serves its tasks**: in every run, with every order of calls, turns and wake-ups, the
pool left alone comes to rest after a bounded number of steps; at rest every accepted task that
returns is finished, if there are more workers than accepted tasks that never do; and once `stop` is
set and all tasks return, every worker has left, so the destructor joins them all. -/
theorem serves_of_reaches (returns : F → Bool)
    (reach : Reaches step (fun _ _ => True) start s) : s.Serves returns := by
  have att := attended reach
  have ranked : ∀ as s', play (alone returns) as s = some s' →
      (Attended s' ∧ Left s s') ∧ as.length + s'.toDo ≤ s.toDo := by
    intro as s' h
    refine play_ranked (fun _ => True) (I := fun s₁ => Attended s₁ ∧ Left s s₁)
      (fun s₁ s₂ a kept _ hs => ?_) ⟨att, rfl, rfl, rfl⟩ (fun _ _ => trivial) h
    obtain ⟨hstep, left, hless⟩ := alone_lowers hs
    exact ⟨⟨kept.1.step hstep, kept.2.trans left⟩, hless⟩
  refine ⟨fun as s' h => ?_, fun as s' h rest hroom t ht => ?_, fun as s' h rest hstop hall => ?_⟩
  · exact Nat.le_trans (Nat.le_add_right _ _) (ranked as s' h).2
  · obtain ⟨⟨att', left⟩, -⟩ := ranked as s' h
    refine rest.finished att' ?_ (left.accepted ▸ ht)
    rwa [left.accepted, left.workers]
  · obtain ⟨⟨att', left⟩, -⟩ := ranked as s' h
    exact rest.joined att' (left.stop ▸ hstop) (left.accepted ▸ hall)

end Alone

/-- The pool is stopped while one of its two workers sleeps and the other has not begun, and the
call that put a task into the queue has not notified yet. -/
def stoppedEarly : List (WakeAction Nat) :=
  [.run .launch, .run .launch, .run (.turn 0), .run (.enqueue 7), .run .stop]

theorem serves_stoppedEarly : ∃ s, play step stoppedEarly start = some s ∧ s.toDo = 8 ∧
    s.Serves fun _ => true := by
  obtain ⟨s, hs⟩ : ∃ s, play step stoppedEarly start = some s := ⟨_, rfl⟩
  refine ⟨s, hs, ?_, serves_of_reaches _ (Reaches.play .refl hs)⟩
  cases hs
  rfl

end PoolWakes

end Smer
