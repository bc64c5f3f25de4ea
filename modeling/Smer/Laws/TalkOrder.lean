import Smer.Util.ThreadPool
import Smer.Server.System
import Smer.Laws.Chat

/-!
# The order of two messages

The event loop enqueues one task for each message, and the workers of the pool take the tasks in
order. But a task asks the session store before it pushes, and nothing makes a task wait for an
earlier one: with two workers the second message of a conversation can be pushed before the first
(`talk_overtaken`).

`WorkerRun` is the pool with what its workers are doing. What the pool keeps is the order of the
dequeues, so with a single worker, and in every run in which the second task does not reach its push
before the first has finished, the messages are pushed in their order (`talks_in_order`).

Nothing in the program makes a run with several workers meet that condition.
-/

namespace Smer

open Lib ComManger

/-! ## Lists in which one entry comes first -/

/-- Wherever `b` stands, `a` stands before it. -/
def Before (a b : Nat) (l : List Nat) : Prop := ∀ front back, l = front ++ b :: back → a ∈ front

theorem before_of_notMem {a b : Nat} {l : List Nat} (h : b ∉ l) : Before a b l := by
  intro front back hl
  refine absurd ?_ h
  rw [hl]
  exact List.mem_append_right _ List.mem_cons_self

theorem Before.concat {a b c : Nat} {l : List Nat} (before : Before a b l) (hc : c = b → a ∈ l) :
    Before a b (l ++ [c]) := by
  intro front back hl
  rcases List.eq_nil_or_concat' back with rfl | ⟨back, d, rfl⟩
  · obtain ⟨rfl, hlast⟩ := List.append_inj' hl rfl
    exact hc (List.singleton_inj.mp hlast)
  · have hsplit : l ++ [c] = (front ++ b :: back) ++ [d] := by
      rw [hl, List.append_assoc, List.cons_append]
    exact before front back (List.append_inj' hsplit rfl).1

/-! ## Workers at their tasks -/

/-- The pool with the program that each task has left, by the number of its call, and the history:
what each task has done, and which object each task was made for. -/
structure WorkerRun where
  loop : IOLoop
  run : PoolRun (Task Unit)
  rest : Nat → Task Unit
  world : World
  trace : List (Nat × Event Effect Effect.Ans)
  dispatched : List (Nat × Request)

inductive WorkerAction where
  | accept (listener client : Int32) (buffer : CharArray bufferSize)
  /-- an event on a connection, and what lies behind the object that it makes -/
  | ready (fd : Int32) (e : Events) (read : Option Bytes) (past : Bytes)
  /-- a thread more -/
  | launch
  /-- a worker takes the mutex of the pool, and gives it back -/
  | turn (worker : Nat)
  | wake (worker : Nat)
  /-- a worker performs the next operation of its task -/
  | operate (worker : Nat)
  /-- a worker's task has ended -/
  | finish (worker : Nat)
  /-- others change the database and Redis, and how the next operations fail -/
  | elsewhere (userinfo : UserInfo) (redis : RedisStore) (sqlFaults : List (Option SqlFault))
      (redisFaults : List (Option RedisFault))
  | stop

/-- The task is over. An exception ends in the task's future. -/
def Ended : Task Unit → Bool
  | .pure _ => true
  | .vis (.abort .raised) _ => true
  | .vis _ _ => false

/-- A push, by the task that makes it. -/
def pushOf : Nat × Event Effect Effect.Ans → Option (Nat × TransObj)
  | (n, ⟨.push obj, _⟩) => some (n, obj)
  | _ => none

namespace WorkerRun

def start (loop : IOLoop) (world : World) : WorkerRun :=
  ⟨loop, .start, fun _ => pure (), world, [], []⟩

/-- The pushes to the outbound queue, in order. -/
def pushes (s : WorkerRun) : List (Nat × TransObj) := s.trace.filterMap pushOf

/-- `MsgHandler::handle`. A call of `enqueue` on a stopped pool throws, and the loop ends. -/
def dispatch (s : WorkerRun) (r : Request) (past : Bytes) : Option WorkerRun :=
  match HandleMsg.handle r.obj r.fd past with
  | none => some s
  | some task =>
    if s.run.pool.stop then none
    else (s.run.step (.enqueue task)).map fun run =>
      { s with
        run := run
        rest := fun n => if n = s.run.calls then task else s.rest n
        dispatched := s.dispatched ++ [(s.run.calls, r)] }

def step (E : Mysql) (s : WorkerRun) : WorkerAction → Option WorkerRun
  | .accept listener client buffer =>
    (s.loop.accept listener client buffer).map fun loop => { s with loop := loop }
  | .ready fd e read past =>
    match s.loop.ready fd e read with
    | none => none
    | some (loop, none) => some { s with loop := loop }
    | some (loop, some obj) => { s with loop := loop }.dispatch ⟨obj, fd⟩ past
  | .launch => (s.run.step .launch).map fun run => { s with run := run }
  | .turn i => (s.run.step (.turn i)).map fun run => { s with run := run }
  | .wake i => (s.run.step (.wake i)).map fun run => { s with run := run }
  | .operate i =>
    match s.run.pool.workers[i]? with
    | some (.running t) =>
      match s.rest t.1 with
      | .pure _ => none
      | .vis o k => (World.answer E o s.world).map fun out =>
        { s with
          rest := fun n => if n = t.1 then k out.1 else s.rest n
          world := out.2
          trace := s.trace ++ [(t.1, ⟨o, out.1⟩)] }
    | _ => none
  | .finish i =>
    match s.run.pool.workers[i]? with
    | some (.running t) =>
      if Ended (s.rest t.1) then (s.run.step (.finish i)).map fun run => { s with run := run }
      else none
    | _ => none
  | .elsewhere userinfo redis sqlFaults redisFaults =>
    some { s with world := ⟨userinfo, redis, s.world.outbound, sqlFaults, redisFaults⟩ }
  | .stop => (s.run.step .stop).map fun run => { s with run := run }

/-! ## What one step does -/

/-- A step of the pool that neither enqueues nor finishes a task. -/
structure Idles (run run' : PoolRun (Task Unit)) : Prop where
  accepted : run'.accepted = run.accepted
  calls : run'.calls = run.calls
  finished : run'.finished = run.finished

inductive Move (E : Mysql) (s : WorkerRun) : WorkerAction → WorkerRun → Prop where
  | quiet {a : WorkerAction} {loop : IOLoop} {world : World} :
      world.outbound = s.world.outbound → Move E s a { s with loop := loop, world := world }
  | dispatch {a : WorkerAction} {loop : IOLoop} {r : Request} {past : Bytes} {task : Task Unit}
      {run : PoolRun (Task Unit)} :
      HandleMsg.handle r.obj r.fd past = some task → s.run.pool.stop = false →
      s.run.step (.enqueue task) = some run →
      Move E s a { s with
        loop := loop
        run := run
        rest := fun n => if n = s.run.calls then task else s.rest n
        dispatched := s.dispatched ++ [(s.run.calls, r)] }
  | pool {a : WorkerAction} {b : PoolAction (Task Unit)} {run : PoolRun (Task Unit)} :
      s.run.step b = some run → Idles s.run run → Move E s a { s with run := run }
  | operate {i : Nat} {t : Ticket (Task Unit)} {o : Effect} {k : o.Ans → Task Unit} {r : o.Ans}
      {world : World} :
      s.run.pool.workers[i]? = some (.running t) → s.rest t.1 = .vis o k →
      World.answer E o s.world = some (r, world) →
      Move E s (.operate i) { s with
        rest := fun n => if n = t.1 then k r else s.rest n
        world := world
        trace := s.trace ++ [(t.1, ⟨o, r⟩)] }
  | finish {i : Nat} {t : Ticket (Task Unit)} {run : PoolRun (Task Unit)} :
      s.run.pool.workers[i]? = some (.running t) → Ended (s.rest t.1) = true →
      s.run.step (.finish i) = some run → Move E s (.finish i) { s with run := run }

section Step

variable {E : Mysql} {s s' : WorkerRun}

theorem move_of_dispatch {a : WorkerAction} {loop : IOLoop} {r : Request} {past : Bytes}
    (h : { s with loop := loop }.dispatch r past = some s') : Move E s a s' := by
  unfold dispatch at h
  split at h
  · cases h
    exact .quiet rfl
  · rename_i task htask
    split at h
    · cases h
    · rename_i hopen
      obtain ⟨run, hrun, rfl⟩ := Option.map_eq_some_iff.mp h
      exact .dispatch htask (Bool.eq_false_iff.mpr hopen) hrun

theorem move_of_step {a : WorkerAction} (h : s.step E a = some s') : Move E s a s' := by
  cases a with
  | accept listener client buffer =>
    obtain ⟨loop, -, rfl⟩ := Option.map_eq_some_iff.mp h
    exact .quiet rfl
  | ready fd e read past =>
    unfold step at h
    dsimp only at h
    split at h
    · cases h
    · cases h
      exact .quiet rfl
    · exact move_of_dispatch h
  | launch =>
    cases h
    exact .pool (b := .launch) rfl ⟨rfl, rfl, rfl⟩
  | turn i =>
    obtain ⟨run, hrun, rfl⟩ := Option.map_eq_some_iff.mp h
    refine .pool hrun ?_
    obtain ⟨-, worker, tasks, -, rfl⟩ := PoolRun.step_turn hrun
    exact ⟨rfl, rfl, rfl⟩
  | wake i =>
    obtain ⟨run, hrun, rfl⟩ := Option.map_eq_some_iff.mp h
    refine .pool hrun ?_
    obtain ⟨-, rfl⟩ := PoolRun.step_wake hrun
    exact ⟨rfl, rfl, rfl⟩
  | operate i =>
    unfold step at h
    dsimp only at h
    split at h
    · rename_i t hrunning
      split at h
      · cases h
      · rename_i o k hrest
        obtain ⟨⟨r, world⟩, hanswer, rfl⟩ := Option.map_eq_some_iff.mp h
        exact .operate hrunning hrest hanswer
    · cases h
  | finish i =>
    unfold step at h
    dsimp only at h
    split at h
    · rename_i t hrunning
      split at h
      · rename_i hended
        obtain ⟨run, hrun, rfl⟩ := Option.map_eq_some_iff.mp h
        exact .finish hrunning hended hrun
      · cases h
    · cases h
  | elsewhere userinfo redis sqlFaults redisFaults =>
    cases h
    exact .quiet rfl
  | stop =>
    cases h
    exact .pool (b := .stop) rfl ⟨rfl, rfl, rfl⟩

end Step

/-! ## A message's task -/

/-- The session store has never been asked for the user without saying that the user is online. -/
def OnlineIn (trace : List (Nat × Event Effect Effect.Ans)) (id : Int32) : Prop :=
  ∀ e ∈ trace, ∀ a, e.2 = ⟨.redisCommand (sismemberCmd id), a⟩ → a = .reply (.integer 1)

/-- The connection has sent a message to the receiver, and call `n` of `enqueue` was for it. -/
def Sends (s : WorkerRun) (n : Nat) (fd receiver : Int32) : Prop :=
  ∃ obj : TransObj, (n, ⟨obj, fd⟩) ∈ s.dispatched ∧ obj.msgType = msgTalk ∧ obj.recverId = receiver

/-- How far the task of a message to an online receiver is. -/
def Stage (s : WorkerRun) (n : Nat) (obj : TransObj) : Prop :=
  s.rest n = HandleMsg.userSendTask obj ∨ s.rest n = Task.push obj ∨
    s.rest n = pure () ∧ n ∈ s.pushes.map Prod.fst

theorem userSendTask_eq (obj : TransObj) : HandleMsg.userSendTask obj =
    .vis (.redisCommand (sismemberCmd obj.recverId)) fun a =>
      (KGRedisClient.onAnswer a >>= scontainResult) >>= fun online =>
        if online then Task.push obj else pure () := by
  rw [HandleMsg.userSendTask, isTalkerOnline_eq]
  rfl

theorem OnlineIn.of_append {trace more : List (Nat × Event Effect Effect.Ans)} {id : Int32}
    (online : OnlineIn (trace ++ more) id) : OnlineIn trace id :=
  fun e he => online e (List.mem_append_left _ he)

section Stage

variable {s s' : WorkerRun} {n : Nat} {obj : TransObj}

theorem pushes_append (trace more : List (Nat × Event Effect Effect.Ans)) :
    (trace ++ more).filterMap pushOf = trace.filterMap pushOf ++ more.filterMap pushOf :=
  List.filterMap_append

/-- The next operation of a message's task leads to its next stage. -/
theorem Stage.operate (stage : s.Stage n obj) {o : Effect} {k : o.Ans → Task Unit} {r : o.Ans}
    (hrest : s.rest n = .vis o k) (online : OnlineIn (s.trace ++ [(n, ⟨o, r⟩)]) obj.recverId)
    (hrest' : s'.rest n = k r) (htrace : s'.trace = s.trace ++ [(n, ⟨o, r⟩)]) :
    s'.Stage n obj := by
  rcases stage with hstage | hstage | ⟨hstage, -⟩
  · rw [hrest, userSendTask_eq] at hstage
    cases hstage
    have hreply := online _ (List.mem_append_right _ List.mem_cons_self) r rfl
    subst hreply
    exact .inr (.inl hrest')
  · rw [hrest] at hstage
    cases hstage
    refine .inr (.inr ⟨hrest', ?_⟩)
    rw [pushes, htrace, pushes_append, List.map_append]
    exact List.mem_append_right _ List.mem_cons_self
  · rw [hrest] at hstage
    cases hstage

/-- A task that has ended has pushed its message. -/
theorem Stage.pushed (stage : s.Stage n obj) (ended : Ended (s.rest n) = true) :
    n ∈ s.pushes.map Prod.fst := by
  rcases stage with hstage | hstage | ⟨-, hpushed⟩
  · rw [hstage, userSendTask_eq] at ended
    cases ended
  · rw [hstage] at ended
    cases ended
  · exact hpushed

end Stage

/-! ## What every run keeps -/

structure Inv (s : WorkerRun) : Prop where
  custody : s.run.Custody
  known : ∀ e ∈ s.dispatched, ∃ task, (e.1, task) ∈ s.run.accepted
  stages : ∀ e ∈ s.dispatched, e.2.obj.msgType = msgTalk → OnlineIn s.trace e.2.obj.recverId →
    s.Stage e.1 e.2.obj
  pushed : ∀ e ∈ s.dispatched, e.2.obj.msgType = msgTalk → OnlineIn s.trace e.2.obj.recverId →
    ∀ task, (e.1, task) ∈ s.run.finished → e.1 ∈ s.pushes.map Prod.fst
  /-- only tasks that were enqueued push -/
  ran : ∀ e ∈ s.pushes, e.1 < s.run.calls

section Inv

variable {E : Mysql} {s s' : WorkerRun} {loop : IOLoop} {world : World}

theorem inv_start (loop : IOLoop) (world : World) : Inv (start loop world) where
  custody := PoolRun.custody_start
  known e he := by cases he
  stages e he := by cases he
  pushed e he := by cases he
  ran e he := by cases he

theorem Inv.lt_calls (inv : s.Inv) {e : Nat × Request} (he : e ∈ s.dispatched) :
    e.1 < s.run.calls := by
  obtain ⟨task, htask⟩ := inv.known e he
  exact inv.custody.called _ htask

theorem Inv.dispatch (inv : s.Inv) {r : Request} {past : Bytes} {task : Task Unit}
    {run : PoolRun (Task Unit)} (htask : HandleMsg.handle r.obj r.fd past = some task)
    (hopen : s.run.pool.stop = false) (hrun : s.run.step (.enqueue task) = some run) :
    Inv { s with
      loop := loop
      run := run
      rest := fun n => if n = s.run.calls then task else s.rest n
      dispatched := s.dispatched ++ [(s.run.calls, r)] } := by
  have custody := inv.custody.step hrun
  rw [PoolRun.step_enqueue_open hopen] at hrun
  cases hrun
  refine ⟨custody, fun e he => ?_, fun e he talk online => ?_,
    fun e he talk online task' hfinished => ?_, fun e he => Nat.lt_succ_of_lt (inv.ran e he)⟩
  · rcases List.mem_append.mp he with he | he
    · obtain ⟨task', htask'⟩ := inv.known e he
      exact ⟨task', List.mem_append_left _ htask'⟩
    · cases List.mem_singleton.mp he
      exact ⟨task, List.mem_append_right _ List.mem_cons_self⟩
  · rcases List.mem_append.mp he with he | he
    · have hne : e.1 ≠ s.run.calls := Nat.ne_of_lt (inv.lt_calls he)
      have stage := inv.stages e he talk online
      unfold Stage at stage ⊢
      dsimp only
      rw [if_neg hne]
      exact stage
    · cases List.mem_singleton.mp he
      rw [HandleMsg.handle_talk _ _ talk] at htask
      cases htask
      exact .inl (if_pos rfl)
  · rcases List.mem_append.mp he with he | he
    · exact inv.pushed e he talk online task' hfinished
    · cases List.mem_singleton.mp he
      have haccepted := inv.custody.perm.mem_iff.mpr (List.mem_append_right _ hfinished)
      exact absurd (inv.custody.called _ haccepted) (Nat.lt_irrefl _)

theorem Inv.operate (inv : s.Inv) {i : Nat} {t : Ticket (Task Unit)} {o : Effect}
    {k : o.Ans → Task Unit} {r : o.Ans} {world : World}
    (hrunning : s.run.pool.workers[i]? = some (.running t)) (hrest : s.rest t.1 = .vis o k) :
    Inv { s with
      rest := fun n => if n = t.1 then k r else s.rest n
      world := world
      trace := s.trace ++ [(t.1, ⟨o, r⟩)] } := by
  refine ⟨inv.custody, inv.known, fun e he talk online => ?_,
    fun e he talk online task hfinished => ?_, fun e he => ?_⟩
  · have stage := inv.stages e he talk online.of_append
    by_cases hn : e.1 = t.1
    · rw [← hn] at hrest
      refine stage.operate hrest ?_ (if_pos hn) (by rw [hn])
      rw [hn]
      exact online
    · unfold Stage at stage ⊢
      dsimp only
      rw [if_neg hn]
      refine stage.imp_right fun h => h.imp_right fun h => ⟨h.1, ?_⟩
      rw [pushes, pushes_append, List.map_append]
      exact List.mem_append_left _ h.2
  · rw [pushes, pushes_append, List.map_append]
    exact List.mem_append_left _ (inv.pushed e he talk online.of_append task hfinished)
  · rw [pushes, pushes_append] at he
    rcases List.mem_append.mp he with he | he
    · exact inv.ran e he
    · have hdequeued := inv.custody.dequeued_of_running hrunning
      have haccepted : t ∈ s.run.accepted := by
        rw [inv.custody.order]
        exact List.mem_append_left _ hdequeued
      obtain ⟨event, hevent, hpush⟩ := List.mem_filterMap.mp he
      cases List.mem_singleton.mp hevent
      cases o with
      | push obj =>
        cases hpush
        exact inv.custody.called _ haccepted
      | executeQuery | executeUpdate | redisCommand | abort => cases hpush

theorem Inv.finish (inv : s.Inv) {i : Nat} {t : Ticket (Task Unit)} {run : PoolRun (Task Unit)}
    (hrunning : s.run.pool.workers[i]? = some (.running t)) (hended : Ended (s.rest t.1) = true)
    (hrun : s.run.step (.finish i) = some run) : Inv { s with run := run } := by
  have custody := inv.custody.step hrun
  obtain ⟨t', hrunning', rfl⟩ := PoolRun.step_finish hrun
  rw [hrunning] at hrunning'
  cases hrunning'
  refine ⟨custody, inv.known, inv.stages, fun e he talk online task hfinished => ?_, inv.ran⟩
  rcases List.mem_append.mp hfinished with hfinished | hfinished
  · exact inv.pushed e he talk online task hfinished
  · have ht := List.mem_singleton.mp hfinished
    rw [← ht] at hended
    exact (inv.stages e he talk online).pushed hended

theorem Inv.move (inv : s.Inv) {a : WorkerAction} (move : Move E s a s') : s'.Inv := by
  cases move with
  | quiet => exact ⟨inv.custody, inv.known, inv.stages, inv.pushed, inv.ran⟩
  | dispatch htask hopen hrun => exact inv.dispatch htask hopen hrun
  | pool hrun idles =>
    refine ⟨inv.custody.step hrun, fun e he => ?_, inv.stages, fun e he talk online task h => ?_,
      fun e he => ?_⟩
    · rw [idles.accepted]
      exact inv.known e he
    · rw [idles.finished] at h
      exact inv.pushed e he talk online task h
    · rw [idles.calls]
      exact inv.ran e he
  | operate hrunning hrest hanswer => exact inv.operate hrunning hrest
  | finish hrunning hended hrun => exact inv.finish hrunning hended hrun

theorem inv_of_reaches (reach : Reaches (step E) (fun _ _ => True) (start loop world) s) : s.Inv :=
  reach.invariant (inv_start loop world) fun _ _ _ inv _ h => inv.move (move_of_step h)

/-- The outbound queue has grown by the pushes, in their order. -/
theorem outbound_of_reaches (reach : Reaches (step E) (fun _ _ => True) (start loop world) s) :
    s.world.outbound = world.outbound ++ s.pushes.map Prod.snd := by
  refine reach.invariant (I := fun s => s.world.outbound = world.outbound ++ s.pushes.map Prod.snd)
    (List.append_nil _).symm fun s s' a ih _ h => ?_
  cases move_of_step h with
  | quiet hout => exact hout.trans ih
  | dispatch => exact ih
  | pool => exact ih
  | finish => exact ih
  | @operate i t o k r w hrunning hrest hanswer =>
    rw [pushes, pushes_append, List.map_append]
    cases o with
    | push obj =>
      cases hanswer
      show s.world.outbound ++ [obj] = _
      rw [ih, List.append_assoc]
      rfl
    | executeQuery cmd =>
      obtain ⟨faults, rfl⟩ := answer_query_world hanswer
      exact ih.trans (by rw [pushes]; exact congrArg _ (List.append_nil _).symm)
    | executeUpdate cmd =>
      obtain ⟨userinfo, faults, rfl⟩ := answer_update_world hanswer
      exact ih.trans (by rw [pushes]; exact congrArg _ (List.append_nil _).symm)
    | redisCommand cmdBuf =>
      refine ((answer_redisCommand_outbound hanswer).trans ih).trans ?_
      exact congrArg _ (List.append_nil _).symm
    | abort why => cases hanswer

end Inv

/-! ## The order of two messages -/

/-- The message of call `n₁`, to an online receiver, is pushed before the task `n₂` pushes. -/
def Ordered (n₁ n₂ : Nat) (s : WorkerRun) : Prop :=
  ∀ e ∈ s.dispatched, e.1 = n₁ → e.2.obj.msgType = msgTalk →
    OnlineIn s.trace e.2.obj.recverId → Before n₁ n₂ (s.pushes.map Prod.fst)

/-- The step is no push of the task `n₂`, unless the task `n₁` has finished. This is near to the order
itself; between the two is only that the task of a message to an online receiver does not finish
before it has pushed (`Inv.pushed`). -/
def Waits (n₁ n₂ : Nat) (s : WorkerRun) (a : WorkerAction) : Prop :=
  ∀ i t obj k, a = .operate i → s.run.pool.workers[i]? = some (.running t) → t.1 = n₂ →
    s.rest t.1 = .vis (.push obj) k → ∃ task, (n₁, task) ∈ s.run.finished

section Order

variable {E : Mysql} {s s' : WorkerRun} {loop : IOLoop} {world : World} {n₁ n₂ : Nat}

theorem Inv.ordered (inv : s.Inv) (hlt : n₁ < n₂) (ordered : Ordered n₁ n₂ s) {a : WorkerAction}
    (waits : (∃ task, (n₁, task) ∈ s.run.accepted) → Waits n₁ n₂ s a) (move : Move E s a s') :
    Ordered n₁ n₂ s' := by
  intro e he hn talk online
  cases move with
  | quiet => exact ordered e he hn talk online
  | dispatch =>
    rcases List.mem_append.mp he with he | he
    · exact ordered e he hn talk online
    · cases List.mem_singleton.mp he
      refine before_of_notMem fun hmem => ?_
      obtain ⟨p, hp, hp₂⟩ := List.mem_map.mp hmem
      have hran := inv.ran p hp
      dsimp only at hn
      omega
  | pool => exact ordered e he hn talk online
  | finish => exact ordered e he hn talk online
  | @operate i t o k r w hrunning hrest =>
    have before := ordered e he hn talk online.of_append
    rw [pushes, pushes_append, List.map_append]
    cases o with
    | push obj =>
      refine before.concat fun ht => ?_
      have haccepted := inv.known e he
      rw [hn] at haccepted
      obtain ⟨task, hfinished⟩ := waits haccepted i t obj k rfl hrunning ht hrest
      rw [← hn] at hfinished ⊢
      exact inv.pushed e he talk online.of_append task hfinished
    | executeQuery | executeUpdate | redisCommand | abort =>
      rw [← List.append_nil (s.pushes.map Prod.fst)] at before
      exact before

/-- Where there is one worker, a task has the earlier ones behind it. -/
theorem Inv.waits_of_single (inv : s.Inv) (hlt : n₁ < n₂)
    (single : s.run.pool.workers.length ≤ 1) {task : Task Unit}
    (haccepted : (n₁, task) ∈ s.run.accepted) (a : WorkerAction) : Waits n₁ n₂ s a := by
  intro i t obj k _ hrunning ht _
  refine ⟨task, inv.custody.finished_of_single single hrunning haccepted ?_⟩
  rw [ht]
  exact hlt

theorem workers_move {a : WorkerAction} (move : Move E s a s') :
    s.run.pool.workers.length ≤ s'.run.pool.workers.length := by
  cases move with
  | quiet => exact Nat.le_refl _
  | dispatch _ _ hrun => exact PoolRun.workers_length_le hrun
  | pool hrun => exact PoolRun.workers_length_le hrun
  | operate => exact Nat.le_refl _
  | finish _ _ hrun => exact PoolRun.workers_length_le hrun

theorem ordered_start : Ordered n₁ n₂ (start loop world) := fun e he => by cases he

/-- In a run with one worker the messages are pushed in the order of their tasks: the worker
finishes one before it takes the next. -/
theorem ordered_of_single (hlt : n₁ < n₂)
    (reach : Reaches (step E) (fun _ _ => True) (start loop world) s)
    (single : s.run.pool.workers.length ≤ 1) : Ordered n₁ n₂ s := by
  have kept : s.Inv ∧ (s.run.pool.workers.length ≤ 1 → Ordered n₁ n₂ s) := by
    refine reach.invariant (I := fun s => s.Inv ∧ (s.run.pool.workers.length ≤ 1 → Ordered n₁ n₂ s))
      ⟨inv_start loop world, fun _ => ordered_start⟩ ?_
    rintro s s' a ⟨inv, ih⟩ - h
    have move := move_of_step h
    refine ⟨inv.move move, fun single' => ?_⟩
    have single := Nat.le_trans (workers_move move) single'
    exact inv.ordered hlt (ih single) (fun ⟨task, haccepted⟩ =>
      inv.waits_of_single hlt single haccepted a) move
  exact kept.2 single

/-- In a run in which the task `n₂` does not push before the task `n₁` has finished. -/
theorem ordered_of_waits (hlt : n₁ < n₂)
    (reach : Reaches (step E) (Waits n₁ n₂) (start loop world) s) : Ordered n₁ n₂ s := by
  have kept : s.Inv ∧ Ordered n₁ n₂ s := by
    refine reach.invariant (I := fun s => s.Inv ∧ Ordered n₁ n₂ s)
      ⟨inv_start loop world, ordered_start⟩ ?_
    rintro s s' a ⟨inv, ordered⟩ waits h
    have move := move_of_step h
    exact ⟨inv.move move, inv.ordered hlt ordered (fun _ => waits) move⟩
  exact kept.2

/-- **A message to an online receiver, and what was dispatched after it**, be it the next message of
the same connection to the same receiver: the outbound queue is the pushes in their order; the task
of the message is dequeued first, however many workers there are; it is pushed first if there is one
worker, and in every run in which the later task does not push before it has finished. -/
theorem talks_in_order (reach : Reaches (step E) (fun _ _ => True) (start loop world) s)
    {fd receiver : Int32} (first : s.Sends n₁ fd receiver) (hlt : n₁ < n₂)
    (online : OnlineIn s.trace receiver) :
    s.world.outbound = world.outbound ++ s.pushes.map Prod.snd ∧
      Before n₁ n₂ (s.run.dequeued.map Prod.fst) ∧
      (s.run.pool.workers.length ≤ 1 → Before n₁ n₂ (s.pushes.map Prod.fst)) ∧
      (Reaches (step E) (Waits n₁ n₂) (start loop world) s →
        Before n₁ n₂ (s.pushes.map Prod.fst)) := by
  have inv := inv_of_reaches reach
  obtain ⟨obj, hobj, talk, hreceiver⟩ := first
  rw [← hreceiver] at online
  refine ⟨outbound_of_reaches reach, ?_, fun single => ?_, fun waits => ?_⟩
  · obtain ⟨task, haccepted⟩ := inv.known _ hobj
    intro front back hsplit
    obtain ⟨before, rest, hdequeued, rfl, hrest⟩ := List.map_eq_append_iff.mp hsplit
    obtain ⟨t, after, rfl, ht, -⟩ := List.map_eq_cons_iff.mp hrest
    have hmem := inv.custody.dequeued_before haccepted (by rw [ht]; exact hlt) hdequeued
    exact List.mem_map.mpr ⟨_, hmem, rfl⟩
  · exact ordered_of_single hlt reach single _ hobj rfl talk online
  · exact ordered_of_waits hlt waits _ hobj rfl talk online

end Order

/-- A server with connection 5 and with user 2 in the session set, before a worker is launched. -/
def onlineTwo : WorkerRun :=
  start ⟨AList.singleton 5 (.echo ⟨0, .fill _ 0⟩), [5, 3]⟩ (chatWorld 2 7)

/-- The object of a message to user 2. -/
def talkToTwo : TransObj := { TransObj.zero with msgType := msgTalk, recverId := 2 }

/-- Two messages to user 2 are received on connection 5, one after the other. -/
def bothReceived : List WorkerAction :=
  [.ready 5 .epollin (some talkToTwo.toBytes) [], .ready 5 .epollin (some talkToTwo.toBytes) []]

/-- Each of two workers takes a message, and the second is faster. -/
def overtaking : List WorkerAction :=
  .launch :: .launch :: bothReceived ++ [.turn 0, .turn 1, .operate 1, .operate 1]

/-- One worker takes both tasks and finishes the first before the second. -/
def oneByOne : List WorkerAction :=
  .launch :: bothReceived ++
    [.turn 0, .operate 0, .operate 0, .finish 0, .turn 0, .operate 0, .operate 0]

theorem sends_both {s : WorkerRun}
    (h : s.dispatched = [(0, ⟨talkToTwo, 5⟩), (1, ⟨talkToTwo, 5⟩)]) :
    s.Sends 0 5 2 ∧ s.Sends 1 5 2 := by
  refine ⟨⟨talkToTwo, ?_, rfl, rfl⟩, ⟨talkToTwo, ?_, rfl, rfl⟩⟩
  · rw [h]
    exact List.mem_cons_self
  · rw [h]
    exact List.mem_cons_of_mem _ List.mem_cons_self

/-- In a trace that has nothing but positive membership tests and pushes the user is online all
along. -/
theorem onlineIn_of_forall {trace : List (Nat × Event Effect Effect.Ans)} {id : Int32}
    (h : ∀ e ∈ trace, e.2 = ⟨.redisCommand (sismemberCmd id), .reply (.integer 1)⟩ ∨
      ∃ obj, e.2 = ⟨.push obj, ()⟩) : OnlineIn trace id := by
  intro e he a ha
  rcases h e he with heq | ⟨obj, heq⟩
  · rw [heq] at ha
    cases ha
    rfl
  · rw [heq] at ha
    cases ha

set_option maxRecDepth 4000 in
/-- With two workers the second message of a connection can be pushed before the first. -/
theorem talk_overtaken :
    ¬ ∀ (E : Mysql) (loop : IOLoop) (world : World) (s : WorkerRun),
      Reaches (step E) (fun _ _ => True) (start loop world) s →
      ∀ (n₁ n₂ : Nat) (fd receiver : Int32), s.Sends n₁ fd receiver → s.Sends n₂ fd receiver →
        n₁ < n₂ → OnlineIn s.trace receiver → Before n₁ n₂ (s.pushes.map Prod.fst) := by
  intro claim
  obtain ⟨s, hs, hdispatched, htrace⟩ : ∃ s, play (step .reference) overtaking onlineTwo = some s ∧
      s.dispatched = [(0, ⟨talkToTwo, 5⟩), (1, ⟨talkToTwo, 5⟩)] ∧
      s.trace = [(1, ⟨.redisCommand (sismemberCmd 2), .reply (.integer 1)⟩),
        (1, ⟨.push talkToTwo, ()⟩)] := ⟨_, rfl, rfl, rfl⟩
  obtain ⟨first, second⟩ := sends_both hdispatched
  have online : OnlineIn s.trace 2 := by
    rw [htrace]
    refine onlineIn_of_forall fun e he => ?_
    rcases List.mem_pair.mp he with rfl | rfl
    · exact .inl rfl
    · exact .inr ⟨_, rfl⟩
  have before := claim .reference _ _ s (Reaches.play .refl hs) 0 1 5 2 first second
    Nat.zero_lt_one online
  have hpushes : s.pushes.map Prod.fst = [] ++ 1 :: [] := by
    rw [pushes, htrace]
    rfl
  cases before [] [] hpushes

set_option maxRecDepth 4000 in
theorem talks_in_order_oneByOne : ∃ s, play (step .reference) oneByOne onlineTwo = some s ∧
    s.pushes.map Prod.fst = [0, 1] ∧ Before 0 1 (s.pushes.map Prod.fst) := by
  obtain ⟨s, hs, hworkers, hdispatched, htrace⟩ : ∃ s,
      play (step .reference) oneByOne onlineTwo = some s ∧ s.run.pool.workers.length = 1 ∧
      s.dispatched = [(0, ⟨talkToTwo, 5⟩), (1, ⟨talkToTwo, 5⟩)] ∧
      s.trace = [(0, ⟨.redisCommand (sismemberCmd 2), .reply (.integer 1)⟩),
        (0, ⟨.push talkToTwo, ()⟩), (1, ⟨.redisCommand (sismemberCmd 2), .reply (.integer 1)⟩),
        (1, ⟨.push talkToTwo, ()⟩)] := ⟨_, rfl, rfl, rfl, rfl⟩
  obtain ⟨first, -⟩ := sends_both hdispatched
  have online : OnlineIn s.trace 2 := by
    rw [htrace]
    refine onlineIn_of_forall fun e he => ?_
    simp only [List.mem_cons, List.not_mem_nil, or_false] at he
    rcases he with rfl | rfl | rfl | rfl
    · exact .inl rfl
    · exact .inr ⟨_, rfl⟩
    · exact .inl rfl
    · exact .inr ⟨_, rfl⟩
  have inOrder := talks_in_order (Reaches.play .refl hs) first Nat.zero_lt_one online
  refine ⟨s, hs, ?_, inOrder.2.2.1 (Nat.le_of_eq hworkers)⟩
  rw [pushes, htrace]
  rfl

end WorkerRun

end Smer
