import Smer.Server.ServerInit

/-!
# How many connections the handlers need

The tasks leave the queue in their order, so a handler runs only when `MyLog::run` and `Client::run`
have taken a worker each. So the handlers that run are two fewer than the workers, and a pool of so
many connections is never exhausted; a smaller one can be (`supplied_iff`). The server has six
workers and four connections.

A handler that holds two connections at once, or keeps one when it returns, is no part of these
runs.
-/

namespace Smer

open Lib

variable {F : Type}

namespace ServerUse

/-- A handler that asks for a connection while the driver connects is given one. -/
def Supplied (s : ServerUse) : Prop :=
  ∀ i closed s', s.step (.get i closed true) = some s' → ∃ conn, (i, conn) ∈ s'.conns.held

/-- What the server at work keeps: who holds a connection runs a handler, the two tasks that go on
came first, and the pool's accounts are in order. -/
structure Inv (threads : Nat) (maxSize : Int) (s : ServerUse) : Prop where
  custody : s.run.Custody
  workers : s.run.pool.workers.length = threads
  accounted : s.conns.Accounted maxSize
  /-- a worker holds one connection at most, and runs a handler while it does -/
  holders : (s.conns.held.map Prod.fst).Nodup
  handling : ∀ i ∈ s.conns.held.map Prod.fst, (s.run.pool.workers[i]?).any Worker.handles = true
  /-- the accepted tasks are the first ones, in their order -/
  named : s.run.accepted = (List.range s.run.accepted.length).map fun n => (n, next n)
  opened : s.run.pool.stop = false → s.run.calls = s.run.accepted.length
  endless : ∀ t ∈ s.run.finished, t.2 = .handler

section Inv

variable {threads : Nat} {maxSize : Int} {connects : Nat → Bool} {s s' : ServerUse}

theorem init_eq (threads : Nat) : ThreadPool.init (.new : ThreadPool F) threads =
    ⟨List.replicate threads .testing, [], false⟩ := by
  have launches : ∀ (threads : Nat) (p : ThreadPool F),
      p.init threads = { p with workers := p.workers ++ List.replicate threads .testing } := by
    intro threads
    induction threads with
    | zero =>
      intro p
      rw [ThreadPool.init, List.replicate_zero, List.append_nil]
    | succ threads ih =>
      intro p
      rw [ThreadPool.init, ih, ThreadPool.launch, List.append_assoc]
      rfl
  exact launches threads .new

theorem inv_start (hmax : 0 ≤ maxSize) : Inv threads maxSize (start threads maxSize connects) where
  custody := PoolRun.custody (PoolRun.reaches_init threads)
  workers := by
    show (ThreadPool.init (.new : ThreadPool (Ticket ServerTask)) threads).workers.length = threads
    rw [init_eq, List.length_replicate]
  accounted := PoolUse.accounted_start hmax connects
  holders := .nil
  handling := by rintro i ⟨⟩
  named := rfl
  opened _ := rfl
  endless := by rintro t ⟨⟩

/-- A worker that holds no connection may go on to anything: those who hold one are the same. -/
theorem handling_set {workers : List (Worker (Ticket ServerTask))} {holders : List Nat} {j : Nat}
    (handling : ∀ i ∈ holders, (workers[i]?).any Worker.handles = true) (hj : j ∉ holders)
    (worker : Worker (Ticket ServerTask)) :
    ∀ i ∈ holders, ((workers.set j worker)[i]?).any Worker.handles = true := by
  intro i hi
  have hne : j ≠ i := by
    rintro rfl
    exact hj hi
  rw [List.getElem?_set_ne hne]
  exact handling i hi

theorem notMem_of_lookup {held : List (Nat × Connection)} {i : Nat} (h : held.lookup i = none) :
    i ∉ held.map Prod.fst := by
  intro hi
  obtain ⟨e, he, rfl⟩ := List.mem_map.mp hi
  simpa using List.lookup_eq_none_iff.mp h e he

theorem Inv.enqueue (inv : Inv threads maxSize s) {run : PoolRun ServerTask}
    (h : s.run.step (.enqueue (next s.run.calls)) = some run) :
    Inv threads maxSize { s with run := run } := by
  have hcustody := inv.custody.step h
  cases hstop : s.run.pool.stop with
  | true =>
    rw [PoolRun.step_enqueue_stopped hstop] at h
    cases h
    refine ⟨hcustody, inv.workers, inv.accounted, inv.holders, inv.handling, inv.named,
      fun hopen => ?_, inv.endless⟩
    exact absurd (hstop.symm.trans hopen) Bool.noConfusion
  | false =>
    rw [PoolRun.step_enqueue_open hstop] at h
    cases h
    have hcalls := inv.opened hstop
    refine ⟨hcustody, inv.workers, inv.accounted, inv.holders, inv.handling, ?_, fun _ => ?_,
      inv.endless⟩
    · show s.run.accepted ++ [_] = (List.range (s.run.accepted ++ [_]).length).map _
      rw [List.length_append, List.length_singleton, List.range_succ, List.map_append,
        ← inv.named, hcalls]
      rfl
    · show s.run.calls + 1 = (s.run.accepted ++ [_]).length
      rw [List.length_append, List.length_singleton, hcalls]

theorem Inv.pool (inv : Inv threads maxSize s) {a : PoolAction ServerTask}
    {run : PoolRun ServerTask} (regular : s.Regular (.pool a)) (h : s.run.step a = some run) :
    Inv threads maxSize { s with run := run } := by
  have hcustody := inv.custody.step h
  cases a with
  | launch => exact regular.elim
  | enqueue task =>
    obtain rfl : task = next s.run.calls := regular
    exact inv.enqueue h
  | turn i =>
    obtain ⟨hi, worker, tasks, -, rfl⟩ := PoolRun.step_turn h
    refine ⟨hcustody, List.length_set.trans inv.workers, inv.accounted, inv.holders,
      handling_set inv.handling (fun hmem => ?_) worker, inv.named, inv.opened, inv.endless⟩
    have hhandles := inv.handling i hmem
    rw [hi] at hhandles
    cases hhandles
  | wake i =>
    obtain ⟨hi, rfl⟩ := PoolRun.step_wake h
    refine ⟨hcustody, List.length_set.trans inv.workers, inv.accounted, inv.holders,
      handling_set inv.handling (fun hmem => ?_) .testing, inv.named, inv.opened, inv.endless⟩
    have hhandles := inv.handling i hmem
    rw [hi] at hhandles
    cases hhandles
  | finish i =>
    obtain ⟨hhandles, hholds⟩ : s.Free i := regular
    obtain ⟨task, hi, rfl⟩ := PoolRun.step_finish h
    refine ⟨hcustody, List.length_set.trans inv.workers, inv.accounted, inv.holders,
      handling_set inv.handling (notMem_of_lookup hholds) .testing, inv.named, inv.opened,
      fun t ht => ?_⟩
    rcases List.mem_append.mp ht with hold | hnew
    · exact inv.endless t hold
    · rw [List.mem_singleton.mp hnew]
      rw [hi] at hhandles
      exact of_decide_eq_true hhandles
  | stop =>
    cases h
    exact ⟨hcustody, inv.workers, inv.accounted, inv.holders, inv.handling, inv.named,
      fun hopen => absurd hopen Bool.noConfusion, inv.endless⟩

theorem Inv.get (inv : Inv threads maxSize s) {i : Nat} {closed connects : Bool}
    (h : s.step (.get i closed connects) = some s') : Inv threads maxSize s' := by
  obtain ⟨⟨hhandles, hholds⟩, h⟩ := Option.ite_none_right_eq_some.mp h
  obtain ⟨conns, hconns, rfl⟩ := Option.map_eq_some_iff.mp h
  have haccounted := inv.accounted.step hconns
  cases hconns
  refine ⟨inv.custody, inv.workers, haccounted, ?_, ?_, inv.named, inv.opened, inv.endless⟩
  · show ((s.conns.pool.getConnection closed connects).1.toList.map (i, ·) ++ _).map Prod.fst
      |>.Nodup
    cases (s.conns.pool.getConnection closed connects).1 with
    | none => exact inv.holders
    | some conn => exact List.nodup_cons.mpr ⟨notMem_of_lookup hholds, inv.holders⟩
  · show ∀ j ∈ ((s.conns.pool.getConnection closed connects).1.toList.map (i, ·) ++ _).map
      Prod.fst, _
    cases (s.conns.pool.getConnection closed connects).1 with
    | none => exact inv.handling
    | some conn =>
      intro j hj
      rcases List.mem_cons.mp hj with rfl | hj
      · exact hhandles
      · exact inv.handling j hj

theorem Inv.release (inv : Inv threads maxSize s) {i : Nat} (h : s.step (.release i) = some s') :
    Inv threads maxSize s' := by
  obtain ⟨conn, hlookup, h⟩ := Option.bind_eq_some_iff.mp h
  obtain ⟨conns, hconns, rfl⟩ := Option.map_eq_some_iff.mp h
  have haccounted := inv.accounted.step hconns
  obtain ⟨-, hconns⟩ := Option.ite_none_right_eq_some.mp hconns
  cases hconns
  have hsublist : ((s.conns.held.erase (i, conn)).map Prod.fst).Sublist
      (s.conns.held.map Prod.fst) := List.erase_sublist.map Prod.fst
  exact ⟨inv.custody, inv.workers, haccounted, hsublist.nodup inv.holders,
    fun j hj => inv.handling j (hsublist.subset hj), inv.named, inv.opened, inv.endless⟩

/-- **Every regular step keeps the invariant.** -/
theorem Inv.step (inv : Inv threads maxSize s) {a : ServerUseAction} (regular : s.Regular a)
    (h : s.step a = some s') : Inv threads maxSize s' := by
  cases a with
  | pool a =>
    obtain ⟨run, hrun, rfl⟩ := Option.map_eq_some_iff.mp h
    exact inv.pool regular hrun
  | get i closed connects => exact inv.get h
  | release i => exact inv.release h

theorem inv_of_reaches (hmax : 0 ≤ maxSize)
    (reach : Reaches ServerUse.step Regular (start threads maxSize connects) s) :
    Inv threads maxSize s :=
  reach.invariant (inv_start hmax) fun _ _ _ inv regular h => inv.step regular h

/-! ## The handlers are two fewer than the workers -/

/-- Every task with a smaller number was accepted before, so the two that go on are among them. -/
theorem Inv.prior (inv : Inv threads maxSize s) {t : Ticket ServerTask} (ht : t ∈ s.run.accepted)
    {n : Nat} (hn : n < t.1) : (n, next n) ∈ s.run.accepted := by
  rw [inv.named] at ht ⊢
  obtain ⟨m, hm, rfl⟩ := List.mem_map.mp ht
  have hless : n < s.run.accepted.length := Nat.lt_trans hn (List.mem_range.mp hm)
  exact List.mem_map.mpr ⟨n, List.mem_range.mpr hless, rfl⟩

/-- A handler that runs has the two services beside it. -/
theorem Inv.services (inv : Inv threads maxSize s) {n : Nat}
    (hrunning : (n, ServerTask.handler) ∈ s.run.running) {m : Nat} (hm : m < 2) :
    (m, next m) ∈ s.run.running := by
  have hdequeued : (n, ServerTask.handler) ∈ s.run.dequeued :=
    inv.custody.taken.mem_iff.mpr (List.mem_append_left _ hrunning)
  have haccepted : (n, ServerTask.handler) ∈ s.run.accepted := by
    rw [inv.custody.order]
    exact List.mem_append_left _ hdequeued
  have hlate : m < n := by
    rw [inv.named] at haccepted
    obtain ⟨k, -, hk⟩ := List.mem_map.mp haccepted
    obtain ⟨rfl, hnext⟩ := Prod.mk.inj hk
    match k with
    | 0 | 1 => cases hnext
    | k + 2 => omega
  obtain ⟨front, back, hsplit⟩ := List.append_of_mem hdequeued
  have hfront := inv.custody.dequeued_before (inv.prior haccepted hlate) hlate hsplit
  have htaken : (m, next m) ∈ s.run.dequeued := by
    rw [hsplit]
    exact List.mem_append_left _ hfront
  rcases List.mem_append.mp (inv.custody.taken.mem_iff.mp htaken) with hrunning | hfinished
  · exact hrunning
  · have hhandler := inv.endless _ hfinished
    match m with
    | 0 | 1 => cases hhandler

/-- **The handlers that run are two fewer than the workers.** -/
theorem Inv.handlers_le (inv : Inv threads maxSize s) {i : Nat}
    (hhandles : (s.run.pool.workers[i]?).any Worker.handles = true) :
    s.run.pool.workers.countP Worker.handles + 2 ≤ threads := by
  obtain ⟨n, hrunning⟩ : ∃ n, (n, ServerTask.handler) ∈ s.run.running := by
    obtain ⟨worker, hworker, hhandles⟩ := (Option.any_eq_true _ _).mp hhandles
    cases worker with
    | running task =>
      obtain ⟨n, task⟩ := task
      obtain rfl : task = .handler := of_decide_eq_true hhandles
      exact ⟨n, mem_held.mpr ⟨_, List.mem_of_getElem? hworker, rfl⟩⟩
    | testing | waiting | returned => cases hhandles
  have hservices : 2 ≤ s.run.running.countP fun t => !decide (t.2 = .handler) := by
    have hsubset : [(0, next 0), (1, next 1)] ⊆
        s.run.running.filter fun t => !decide (t.2 = .handler) := by
      intro t ht
      rw [List.mem_filter]
      rcases List.mem_cons.mp ht with rfl | ht
      · exact ⟨inv.services hrunning (by decide), rfl⟩
      · rw [List.mem_singleton.mp ht]
        exact ⟨inv.services hrunning (by decide), rfl⟩
    rw [List.countP_eq_length_filter]
    exact (List.subperm_of_subset (by decide) hsubset).length_le
  have hhandlers : s.run.running.countP (fun t => decide (t.2 = .handler)) =
      s.run.pool.workers.countP Worker.handles := by
    rw [PoolRun.running, held, List.countP_filterMap]
    refine List.countP_congr fun worker _ => ?_
    cases worker <;> simp [Worker.task, Worker.handles]
  have hlength : s.run.running.length ≤ s.run.pool.workers.length := List.length_filterMap_le _ _
  have hsum := List.length_eq_countP_add_countP (fun t : Ticket ServerTask =>
    decide (t.2 = .handler)) (l := s.run.running)
  have hworkers := inv.workers
  simp only [Bool.not_eq_true, Bool.decide_eq_false] at hsum
  omega

/-- A pool with an idle connection, or with room for one more, gives a connection out. -/
theorem getConnection_connects (p : ConnPool) (closed : Bool)
    (hroom : p.connList = [] → p.curSize < p.maxSize) :
    ∃ conn, (p.getConnection closed true).1 = some conn := by
  obtain ⟨maxSize, curSize, connList, made, deleted⟩ := p
  cases connList with
  | cons conn rest =>
    cases closed with
    | false => exact ⟨conn, rfl⟩
    | true => exact ⟨made, rfl⟩
  | nil =>
    refine ⟨made, ?_⟩
    rw [ConnPool.getConnection, if_pos (show curSize < maxSize from hroom rfl)]
    rfl

/-- The handlers that hold a connection are fewer than the pool's size when another one asks. -/
theorem Inv.supplied (inv : Inv threads maxSize s) (hsize : (threads : Int) ≤ maxSize + 2) :
    s.Supplied := by
  intro i closed s' h
  obtain ⟨⟨hhandles, hholds⟩, h⟩ := Option.ite_none_right_eq_some.mp h
  obtain ⟨conns, hconns, rfl⟩ := Option.map_eq_some_iff.mp h
  cases hconns
  have hfewer : (i :: s.conns.held.map Prod.fst).length ≤
      s.run.pool.workers.countP Worker.handles := by
    refine length_le_countP (List.nodup_cons.mpr ⟨notMem_of_lookup hholds, inv.holders⟩) ?_
    intro j hj
    rcases List.mem_cons.mp hj with rfl | hj
    · exact hhandles
    · exact inv.handling j hj
  rw [List.length_cons, List.length_map] at hfewer
  have hhandlers := inv.handlers_le hhandles
  obtain ⟨conn, hconn⟩ := getConnection_connects s.conns.pool closed fun hempty => by
    have hcount := inv.accounted.count
    have hmax := inv.accounted.size
    rw [hempty, List.length_nil] at hcount
    omega
  refine ⟨conn, ?_⟩
  show (i, conn) ∈ (s.conns.pool.getConnection closed true).1.toList.map (i, ·) ++ s.conns.held
  rw [hconn]
  exact List.mem_cons_self

end Inv

/-! ## A smaller pool can be exhausted -/

section Exhausts

variable {threads : Nat} {maxSize : Int} {connects : Nat → Bool}

/-- The first workers have taken the first tasks, and the other workers are on their way. -/
structure Taken (all : List (Ticket ServerTask)) (threads taken : Nat) (s : ServerUse) : Prop where
  opened : s.run.pool.stop = false
  held : s.conns.held = []
  tasks : s.run.pool.tasks = all.drop taken
  ran : ∀ i < taken, s.run.pool.workers[i]? = (all[i]?).map Worker.running
  rest : ∀ i, taken ≤ i → i < threads → s.run.pool.workers[i]? = some .testing

/-- The tasks can be queued before any worker looks. -/
theorem queued (threads : Nat) (maxSize : Int) (connects : Nat → Bool) (n : Nat) :
    ∃ s, Reaches step Regular (start threads maxSize connects) s ∧
      Taken ((List.range n).map fun m => (m, next m)) threads 0 s ∧ s.run.calls = n := by
  induction n with
  | zero =>
    have hpool : (start threads maxSize connects).run.pool =
        ⟨List.replicate threads .testing, [], false⟩ := init_eq threads
    refine ⟨_, .refl, ⟨?_, rfl, ?_, fun i hi => absurd hi (Nat.not_lt_zero i), fun i _ hi => ?_⟩,
      rfl⟩
    · rw [hpool]
    · rw [hpool]
      rfl
    · rw [hpool, List.getElem?_replicate, if_pos hi]
  | succ n ih =>
    obtain ⟨s, reach, taken, hcalls⟩ := ih
    have hstep : s.step (.pool (.enqueue (next s.run.calls))) = some { s with run := { s.run with
        calls := s.run.calls + 1
        pool := { s.run.pool with
          tasks := s.run.pool.tasks ++ [(s.run.calls, next s.run.calls)] }
        accepted := s.run.accepted ++ [(s.run.calls, next s.run.calls)] } } := by
      rw [step, PoolRun.step_enqueue_open taken.opened]
      rfl
    refine ⟨_, reach.step (a := .pool (.enqueue (next s.run.calls))) rfl hstep,
      ⟨taken.opened, taken.held, ?_, ?_, taken.rest⟩, ?_⟩
    · show s.run.pool.tasks ++ [(s.run.calls, next s.run.calls)] = _
      rw [taken.tasks, hcalls, List.range_succ, List.map_append]
      rfl
    · exact fun i hi => absurd hi (Nat.not_lt_zero i)
    · exact congrArg (· + 1) hcalls

/-- The workers, one after the other, can each take the front of the queue. -/
theorem taken {all : List (Ticket ServerTask)} {init s₀ : ServerUse}
    (reach₀ : Reaches step Regular init s₀) (taken₀ : Taken all threads 0 s₀) (n : Nat)
    (hn : n ≤ threads) (hall : n ≤ all.length) :
    ∃ s, Reaches step Regular init s ∧ Taken all threads n s := by
  induction n with
  | zero => exact ⟨s₀, reach₀, taken₀⟩
  | succ n ih =>
    obtain ⟨s, reach, taken⟩ := ih (Nat.le_of_succ_le hn) (Nat.le_of_succ_le hall)
    have hworker := taken.rest n (Nat.le_refl n) hn
    have hlt := (List.getElem?_eq_some_iff.mp hworker).1
    have hturn : s.run.pool.turn = some (.running all[n], all.drop (n + 1)) := by
      rw [ThreadPool.turn, taken.opened, taken.tasks, List.drop_eq_getElem_cons hall]
      rfl
    have hstep : s.step (.pool (.turn n)) = some { s with run := { s.run with
        pool := { s.run.pool with
          workers := s.run.pool.workers.set n (.running all[n])
          tasks := all.drop (n + 1) }
        dequeued := s.run.dequeued ++ [all[n]] } } := by
      rw [step, PoolRun.step, hworker]
      dsimp only
      rw [hturn]
      rfl
    refine ⟨_, reach.step (a := .pool (.turn n)) trivial hstep, taken.opened, taken.held, rfl,
      fun i hi => ?_, fun i hi hthreads => ?_⟩
    · show (s.run.pool.workers.set n (.running all[n]))[i]? = _
      by_cases heq : n = i
      · subst heq
        rw [List.getElem?_set_self hlt, List.getElem?_eq_getElem hall]
        rfl
      · rw [List.getElem?_set_ne heq]
        exact taken.ran i (by omega)
    · show (s.run.pool.workers.set n (.running all[n]))[i]? = _
      rw [List.getElem?_set_ne (by omega)]
      exact taken.rest i (by omega) hthreads

/-- A run in which all handlers fetch a connection, as long as they are given one. -/
theorem fetched {init s₀ : ServerUse} (supplied : ∀ s, Reaches step Regular init s → s.Supplied)
    (reach₀ : Reaches step Regular init s₀)
    (handles : ∀ i, 2 ≤ i → i < threads →
      (s₀.run.pool.workers[i]?).any Worker.handles = true)
    (hheld : s₀.conns.held = []) (n : Nat) (hn : n + 2 ≤ threads) :
    ∃ s, Reaches step Regular init s ∧ s.run = s₀.run ∧ s.conns.held.length = n ∧
      ∀ e ∈ s.conns.held, e.1 < n + 2 := by
  induction n with
  | zero =>
    refine ⟨s₀, reach₀, rfl, ?_, ?_⟩
    · rw [hheld, List.length_nil]
    · rw [hheld]
      exact fun e he => absurd he List.not_mem_nil
  | succ n ih =>
    obtain ⟨s, reach, hrun, hlength, hplaces⟩ := ih (Nat.le_of_succ_le hn)
    have free : s.Free (n + 2) := by
      refine ⟨?_, List.lookup_eq_none_iff.mpr fun e he => ?_⟩
      · rw [hrun]
        exact handles (n + 2) (by omega) (by omega)
      · have hless := hplaces e he
        simp only [bne_iff_ne]
        omega
    have hstep : s.step (.get (n + 2) false true) = some { s with conns := {
        pool := (s.conns.pool.getConnection false true).2
        held := (s.conns.pool.getConnection false true).1.toList.map (n + 2, ·) ++
          s.conns.held } } := by
      rw [step, if_pos free]
      rfl
    obtain ⟨conn, hconn⟩ := supplied s reach (n + 2) false _ hstep
    have regular : s.Regular (.get (n + 2) false true) := trivial
    have reach' := reach.step regular hstep
    cases hgot : (s.conns.pool.getConnection false true).1 with
    | none =>
      rw [hgot] at hconn
      exact absurd (hplaces _ hconn) (Nat.lt_irrefl _)
    | some got =>
      rw [hgot] at reach'
      refine ⟨_, reach', hrun, congrArg (· + 1) hlength, fun e he => ?_⟩
      rcases List.mem_cons.mp he with rfl | he
      · exact Nat.lt_succ_self _
      · exact Nat.lt_succ_of_lt (hplaces e he)

/-- **So many connections are enough, and no fewer**: the handlers of the server at work are given a
connection whenever they ask while the driver connects, in every run, iff the workers are at most
two more than the connections of the pool. -/
theorem supplied_iff (hmax : 0 ≤ maxSize) :
    (∀ s, Reaches step Regular (start threads maxSize connects) s → s.Supplied) ↔
      (threads : Int) ≤ maxSize + 2 := by
  refine ⟨fun supplied => ?_, fun hsize s reach => (inv_of_reaches hmax reach).supplied hsize⟩
  by_cases hfew : threads < 2
  · omega
  · obtain ⟨s₀, reach₀, taken₀, -⟩ := queued threads maxSize connects threads
    obtain ⟨s₁, reach₁, taken₁⟩ := taken reach₀ taken₀ threads (Nat.le_refl _) (by simp)
    have handles : ∀ i, 2 ≤ i → i < threads →
        (s₁.run.pool.workers[i]?).any Worker.handles = true := by
      intro i htwo hi
      obtain ⟨k, rfl⟩ := Nat.exists_eq_add_of_le' htwo
      rw [taken₁.ran _ hi, List.getElem?_map, List.getElem?_range hi]
      rfl
    obtain ⟨s₂, reach₂, -, hlength, -⟩ :=
      fetched supplied reach₁ handles taken₁.held (threads - 2) (by omega)
    have accounted := (inv_of_reaches hmax reach₂).accounted
    have hcount := accounted.count
    have hbound := accounted.bound
    omega

/-- The six workers of the server and its four connections, and one worker more. -/
theorem supplied_iff_server :
    (∀ s, Reaches step Regular (start 6 4 fun _ => true) s → s.Supplied) ∧
      ¬ ∀ s, Reaches step Regular (start 7 4 fun _ => true) s → s.Supplied :=
  ⟨(supplied_iff (by decide)).mpr (by decide), fun h =>
    absurd ((supplied_iff (by decide)).mp h) (by decide)⟩

end Exhausts

end ServerUse

end Smer
