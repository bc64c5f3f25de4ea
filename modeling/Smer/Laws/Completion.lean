import Smer.Laws.Answers
import Smer.Lib.Budget

/-!
# The server comes to the end of its work

No task performs more than `maxOperations` operations, whatever it is answered (`handle_within`). So
the tasks and the sender, when they are left alone, come to rest after a bounded number of steps,
from every state of every run and in every order (`completes_of_reaches`).

At rest some task may have `Crashed`. At a null pointer the program ends, with all its tasks; behind
the end of a vector, or at a format that has no expansion, it is undefined. Nothing is promised then,
of any task. Where none has crashed, each task has come to its end, or an exception has left it, which
the `packaged_task` keeps from the others. Each registration and each login that no exception has
left has its answer, and what was pushed is sent, unless the sender has left its loop before.

`Answering` itself goes on beside a crashed task. The steps that it takes there are no steps of the
program; what holds of all its runs holds of the program's.
-/

namespace Smer

open Lib

/-! ## The length of the tasks -/

/-- The operations of a registration, which performs the most. -/
def maxOperations : Nat := 17

namespace InPlace

open CellProg ComManger KGRedisClient MysqlPool

variable {α : Type}

theorem abort_within (n : Nat) (why : Abort) : (Task.abort why : Task α).Within (n + 1) :=
  .vis fun e => e.elim

theorem executeCmd_within (format : Bytes) (args : List FmtArg) :
    (executeCmd_spop format args).Within 2 := by
  rw [executeCmd_spop]
  split
  · exact abort_within _ _
  · refine .vis fun answer => ?_
    cases answer with
    | noContext => exact .pure _ _
    | noReply => exact .pure _ _
    | reply reply =>
      rw [onAnswer]
      split
      · exact .pure _ _
      · exact abort_within _ _

theorem execQuery_within (format : Bytes) (args : List FmtArg) :
    (execQuery format args).Within 2 := by
  rw [execQuery]
  split
  · exact abort_within _ _
  · refine .vis fun answer => ?_
    split
    · exact .pure _ _
    · exact .pure _ _
    · exact .pure _ _
    · exact abort_within _ _

theorem execInsert_within (format : Bytes) (args : List FmtArg) :
    (execInsert format args).Within 2 := by
  rw [execInsert]
  split
  · exact abort_within _ _
  · refine .vis fun answer => ?_
    split
    · exact .pure _ _
    · exact .pure _ _
    · exact .pure _ _
    · exact abort_within _ _

theorem executeCmd_bind_within {n : Nat} {format : Bytes} {args : List FmtArg}
    {f : Bool × List Bytes → Task α} (rest : ∀ out, (f out).Within n) :
    (executeCmd_spop format args >>= f).Within (n + 2) :=
  (executeCmd_within format args).bind rest

/-- Reading the first string of an answer is one operation at most: it aborts where there is none.
-/
theorem first_within {ok : Bool} {response : List Bytes} {f : Bytes → α} {a : α} :
    (if ok then
      match response with
      | first :: _ => pure (f first)
      | [] => Task.abort .outOfBounds
    else pure a : Task α).Within 1 := by
  split
  · split
    · exact .pure _ _
    · exact abort_within _ _
  · exact .pure _ _

theorem isTalkerOnline_within (id : Int32) : (isTalkerOnline id).Within 3 :=
  executeCmd_bind_within fun _ => first_within

theorem getTalkerFd_within (id : Int32) : (getTalkerFd id).Within 3 :=
  executeCmd_bind_within fun _ => first_within

theorem getTalkerName_within (id : Int32) : (getTalkerName id).Within 3 :=
  executeCmd_bind_within fun _ => first_within

theorem addSessionTalker_within (id : Int32) (name : Bytes) (fd : Int32) :
    (addSessionTalker id name fd).Within 4 := by
  refine executeCmd_bind_within fun out => ?_
  dsimp only
  split
  · exact executeCmd_bind_within fun _ => .pure 0 _
  · exact .pure _ _

theorem answer_within (n : Nat) (msgType : UInt32) (text : Bytes) :
    (answer msgType text).Within (n + 5) :=
  within_update_bind (within_update_bind (within_push n))

theorem userSendTask_within : userSendTask.Within 5 := by
  refine within_load_bind fun obj =>
    within_lift_bind (m := 3) (isTalkerOnline_within _) fun online => ?_
  split
  · exact within_push _
  · exact .pure _ _

theorem regAcceptTask_within : regAcceptTask.Within 9 := by
  refine within_lift_bind (m := 2) (execQuery_within _ _) fun rows => within_update_bind ?_
  split
  · exact within_lift (abort_within _ _)
  · exact answer_within _ _ _
  · split
    · exact within_lift (abort_within _ _)
    · exact within_update_bind (within_update_bind (within_push _))

theorem userRegTask_within (fd : Int32) (past : Bytes) :
    (userRegTask fd past).Within maxOperations := by
  refine within_update_bind (n := 15) (within_load_bind fun obj =>
    within_lift_bind (m := 2) (execQuery_within _ _) fun rows => ?_)
  split
  · exact within_lift (abort_within _ _)
  · exact answer_within _ _ _
  · refine within_load_bind fun obj =>
      within_lift_bind (m := 2) (execInsert_within _ _) fun inserted => ?_
    split
    · exact regAcceptTask_within
    · exact answer_within _ _ _

theorem loginWithRow_within (fd : Int32) (past : Bytes) (row : ResultRow) :
    (loginWithRow fd past row).Within 13 := by
  unfold loginWithRow
  split
  · exact within_lift (abort_within _ _)
  · refine within_load_bind fun obj => ?_
    split
    · exact answer_within _ _ _
    · split
      · exact answer_within _ _ _
      · exact within_update_bind (within_update_bind (within_load_bind fun obj =>
          within_lift_bind (m := 4) (addSessionTalker_within _ _ _) fun _ =>
            within_update_bind (within_push _)))

theorem userLogTask_within (fd : Int32) (past : Bytes) :
    (userLogTask fd past).Within maxOperations := by
  refine within_load_bind (n := 16) fun obj => ?_
  split
  · exact answer_within _ _ _
  · refine within_lift_bind (m := 2) (execQuery_within _ _) fun rows => ?_
    split
    · exact answer_within _ _ _
    · exact (loginWithRow_within _ _ _).mono (by decide)
    · exact within_update_bind (within_push _)

theorem askForFriendTask_within (fd : Int32) (past : Bytes) :
    (askForFriendTask fd past).Within maxOperations := by
  refine within_load_bind (n := 16) fun obj =>
    within_lift_bind (m := 2) (execQuery_within _ _) fun rows => ?_
  split
  · exact within_lift (abort_within _ _)
  · split
    · exact within_lift (abort_within _ _)
    · refine within_update_bind (within_load_bind fun obj =>
        within_lift_bind (m := 3) (isTalkerOnline_within _) fun online => ?_)
      split
      · exact within_lift_bind (m := 3) (getTalkerFd_within _) fun fd =>
          within_update_bind (within_push _)
      · exact .pure _ _
  · exact within_update_bind (within_update_bind (within_push _))

theorem askForFriendAcceptTask_within : askForFriendAcceptTask.Within maxOperations := by
  refine within_load_bind (n := 16) fun obj =>
    within_lift_bind (m := 3) (isTalkerOnline_within _) fun online => ?_
  split
  · refine within_lift_bind (m := 3) (getTalkerFd_within _) fun fd => within_update_bind
      (within_load_bind fun obj =>
        within_lift_bind (m := 3) (getTalkerName_within _) fun name => ?_)
    split
    · split
      · exact .pure _ _
      · exact within_update_bind (within_push _)
    · exact within_push _
  · exact .pure _ _

/-- **Every task that the dispatch can enqueue is short.** -/
theorem handle_within {obj : TransObj} {fd : Int32} {past : Bytes} {task : ObjTask}
    (htask : handle obj fd past = some task) : task.Within maxOperations := by
  obtain ⟨⟨msgType, handler⟩, hfind, hhandler⟩ := Option.bind_eq_some_iff.mp htask
  have hmem := List.mem_of_find?_eq_some hfind
  simp only [gMsgHandle, List.mem_cons, Prod.mk.injEq, List.not_mem_nil, or_false] at hmem
  rcases hmem with ⟨-, rfl⟩ | ⟨-, rfl⟩ | ⟨-, rfl⟩ | ⟨-, rfl⟩ | ⟨-, rfl⟩ | ⟨-, rfl⟩ |
    ⟨-, rfl⟩ | ⟨-, rfl⟩ | ⟨-, rfl⟩ | ⟨-, rfl⟩ | ⟨-, rfl⟩
  · cases hhandler
  · cases hhandler
    exact userSendTask_within.mono (by decide)
  · simp only [handleUserRegMsg, Option.ite_none_left_eq_some] at hhandler
    cases hhandler.2
    exact userRegTask_within _ _
  · cases hhandler
  · cases hhandler
  · cases hhandler
    exact userLogTask_within _ _
  · cases hhandler
  · cases hhandler
  · cases hhandler
    exact askForFriendTask_within _ _
  · cases hhandler
  · cases hhandler
    exact askForFriendAcceptTask_within

end InPlace

/-! ## What is sent -/

/-- Nothing is kept back while no button is popped. -/
theorem Client.sent_eq {objs : List TransObj} (h : ∀ obj ∈ objs, isButton obj = false) :
    Client.sent (objs.map some) = objs := by
  induction objs with
  | nil => rfl
  | cons obj objs ih =>
    have hobj : obj.msgType ≠ msgButton := of_decide_eq_false (h obj List.mem_cons_self)
    rw [List.map_cons, Client.sent, if_neg hobj, ih fun o ho => h o (List.mem_cons_of_mem _ ho)]

/-! ## The server left alone -/

/-- A task at which the program ends, or is undefined. -/
inductive Crashed : InPlace.ObjTask → Prop where
  | abort {why : Abort} (k : Empty → InPlace.ObjTask) : why ≠ .raised →
      Crashed (.vis (.base (.abort why)) k)
  /-- the command is sent as a format, and has no expansion -/
  | format {cmdBuf : Bytes} (k : RedisAnswer → InPlace.ObjTask) :
      commandText cmdBuf = none → Crashed (.vis (.base (.redisCommand cmdBuf)) k)

/-- A task that an exception has left. The `packaged_task` keeps it from the worker, and no other
task notices. -/
inductive Raised : InPlace.ObjTask → Prop where
  | raised (k : Empty → InPlace.ObjTask) : Raised (.vis (.base (.abort .raised)) k)

/-- An operation that gets no answer is a crash or an exception; every other operation is answered.
-/
theorem stopped_of_unanswered {E : Mysql} {w : World} {o : Effect} {k : o.Ans → InPlace.ObjTask}
    (h : World.answer E o w = none) : Crashed (.vis (.base o) k) ∨ Raised (.vis (.base o) k) := by
  cases o with
  | executeQuery cmd =>
    obtain ⟨r, w', hanswer⟩ := answer_query_some E w cmd
    rw [hanswer] at h
    cases h
  | executeUpdate cmd =>
    simp only [World.answer] at h
    split at h
    · cases h
    · split at h <;> cases h
  | redisCommand cmdBuf =>
    refine .inl (.format k ?_)
    simp only [World.answer] at h
    split at h
    · cases h
    · cases h
    · cases h
    · rw [Option.map_eq_none_iff, World.redisReply, Option.map_eq_none_iff] at h
      exact h
  | push obj => cases h
  | abort why =>
    by_cases hraised : why = .raised
    · subst hraised
      exact .inr (.raised k)
    · exact .inl (.abort k hraised)

namespace Answering

/-- The server is left alone: its tasks go on, and the sender pops. -/
def Own : SenderAction → Prop
  | .task _ | .pop => True
  | .accept _ _ _ | .ready _ _ _ _ | .elsewhere _ _ _ _ | .serverEnd _ _ => False

def AtRest (E : Mysql) (s : Answering) : Prop := ∀ a, Own a → s.step E a = none

/-- What has become of the requests at rest: each task has ended or was left by an exception, those
that may not be silent have answered, and what was pushed is sent. -/
structure Served (s : Answering) : Prop where
  ended : ∀ t ∈ s.sender.objs.tasks, t.2 = .pure () ∨ Raised t.2
  /-- registrations and logins are answered -/
  answered : ∀ r req, s.origin[r]? = some (some req) → ¬ req.MayBeDropped →
    (∃ task, (r, task) ∈ s.sender.objs.tasks ∧ Raised task) ∨
      ∃ reply, (r, reply) ∈ s.sender.objs.pushed ∧ ReplyTo req reply
  /-- and what was pushed is sent -/
  sent : s.sender.left = false → ∀ e ∈ s.sender.objs.pushed, e.2 ∈ s.sender.sent

structure Completes (E : Mysql) (s : Answering) : Prop where
  bounded : ∀ as s', (∀ a ∈ as, Own a) → play (step E) as s = some s' →
    as.length ≤ 2 * (s.sender.objs.tasks.length * maxOperations) + s.sender.objs.queue.length
  rests : ∃ as s', (∀ a ∈ as, Own a) ∧ play (step E) as s = some s' ∧ s'.AtRest E
  /-- unless a task has ended the program, the requests are served -/
  served : ∀ as s', (∀ a ∈ as, Own a) → play (step E) as s = some s' → s'.AtRest E →
    (∃ t ∈ s'.sender.objs.tasks, Crashed t.2) ∨ s'.Served

/-- Every task that is under way has no more than `maxOperations` operations left, whatever it is
answered. -/
def Short (s : Answering) : Prop := ∀ t ∈ s.sender.objs.tasks, t.2.Within maxOperations

section Completion

variable {E : Mysql} {s s' : Answering} {a : SenderAction}

theorem Short.step (short : s.Short) (h : s.step E a = some s') : s'.Short := by
  obtain ⟨sender, hsender, rfl⟩ := Option.map_eq_some_iff.mp h
  cases a with
  | accept listener client buffer =>
    obtain ⟨loop, -, rfl⟩ := Option.map_eq_some_iff.mp hsender
    exact short
  | ready fd e read past =>
    obtain ⟨⟨loop, passed⟩, -, rfl⟩ := Option.map_eq_some_iff.mp hsender
    intro t ht
    simp only [Sender.dispatch] at ht
    split at ht
    · exact short t ht
    · split at ht
      · exact short t ht
      · rename_i htask
        rcases List.mem_append.mp ht with hold | hnew
        · exact short t hold
        · rw [List.mem_singleton.mp hnew]
          exact InPlace.handle_within htask
  | task i =>
    obtain ⟨objs, hobjs, rfl⟩ := Option.map_eq_some_iff.mp hsender
    exact Handover.within_step short hobjs
  | elsewhere userinfo redis sqlFaults redisFaults =>
    cases hsender
    exact short
  | pop =>
    rw [Sender.step, Option.ite_none_left_eq_some] at hsender
    obtain ⟨objs, hobjs, rfl⟩ := Option.map_eq_some_iff.mp hsender.2
    obtain ⟨r, queue, v, -, -, rfl⟩ := Handover.pop_eq_some hobjs
    exact short
  | serverEnd recverId msg =>
    rw [Sender.step, Option.ite_none_right_eq_some] at hsender
    cases hsender.2
    exact short

/-- Each step that the server takes by itself uses up some of what is left. -/
theorem own_lowers {n : Nat} (remains : s.sender.objs.Remains n) (own : Own a)
    (h : s.step E a = some s') : ∃ n', n' < n ∧ s'.sender.objs.Remains n' := by
  obtain ⟨sender, hsender, rfl⟩ := Option.map_eq_some_iff.mp h
  cases a with
  | accept listener client buffer => cases own
  | ready fd e read past => cases own
  | task i =>
    obtain ⟨objs, hobjs, rfl⟩ := Option.map_eq_some_iff.mp hsender
    exact remains.step hobjs
  | elsewhere userinfo redis sqlFaults redisFaults => cases own
  | pop =>
    rw [Sender.step, Option.ite_none_left_eq_some] at hsender
    obtain ⟨objs, hobjs, rfl⟩ := Option.map_eq_some_iff.mp hsender.2
    exact remains.pop hobjs
  | serverEnd recverId msg => cases own

/-- A task that does not go on has come to its end, unless it was stopped. -/
theorem Inv.ended (inv : s.Inv) (rest : s.AtRest E) {t : Nat × InPlace.ObjTask}
    (ht : t ∈ s.sender.objs.tasks) : t.2 = .pure () ∨ Crashed t.2 ∨ Raised t.2 := by
  obtain ⟨r, task⟩ := t
  have hheap : s.sender.objs.heap[r]? ≠ none := fun hnone =>
    Nat.not_lt_of_le (List.getElem?_eq_none_iff.mp hnone) (inv.sender.sound.below _ ht)
  obtain ⟨i, hi⟩ := List.mem_iff_getElem?.mp ht
  have hstep : s.sender.objs.step (World.answer E) i = none :=
    Option.map_eq_none_iff.mp (Option.map_eq_none_iff.mp (rest (.task i) trivial))
  rw [Handover.step, hi] at hstep
  cases task with
  | pure u => exact .inl rfl
  | vis o k =>
    cases o with
    | base o => exact .inr (stopped_of_unanswered (Option.map_eq_none_iff.mp hstep))
    | load => exact absurd (Option.map_eq_none_iff.mp hstep) hheap
    | store v => cases hstep
    | push => exact absurd (Option.map_eq_none_iff.mp hstep) hheap

/-- A sender that does not pop has left its loop, or has nothing to pop. -/
theorem Inv.queue_eq_nil (inv : s.Inv) (rest : s.AtRest E) (left : s.sender.left = false) :
    s.sender.objs.queue = [] := by
  have hstep : s.sender.step E .pop = none := Option.map_eq_none_iff.mp (rest .pop trivial)
  rw [Sender.step, left, if_neg Bool.false_ne_true, Option.map_eq_none_iff, Handover.pop] at hstep
  cases hqueue : s.sender.objs.queue with
  | nil => rfl
  | cons r queue =>
    obtain ⟨v, hv⟩ := inv.sender.sound.queue r (hqueue ▸ List.mem_cons_self)
    rw [hqueue, Option.map_eq_none_iff, inv.sender.sound.unchanged _ hv] at hstep
    cases hstep

/-- At rest, with no task that has ended the program. -/
theorem Inv.served (inv : s.Inv) (rest : s.AtRest E)
    (runs : ∀ t ∈ s.sender.objs.tasks, ¬Crashed t.2) : s.Served where
  ended t ht := (inv.ended rest ht).imp_right fun stopped => stopped.resolve_left (runs t ht)
  answered r req hr must := by
    obtain ⟨⟨r', task⟩, ht, rfl⟩ := List.mem_map.mp (inv.tasked r req hr)
    rcases inv.ended rest ht with rfl | stopped
    · rcases inv.answers.ended ht with ⟨reply, hpushed⟩ | may
      · obtain ⟨req', hr', hreply⟩ := inv.answers.fit _ hpushed
        rw [hr] at hr'
        cases hr'
        exact .inr ⟨reply, hpushed, hreply⟩
      · exact absurd (may req hr) must
    · exact .inl ⟨task, ht, stopped.resolve_left (runs _ ht)⟩
  sent left e he := by
    have hqueue := inv.answers.queue
    rw [inv.queue_eq_nil rest left, List.append_nil] at hqueue
    have hmem : e.1 ∈ s.sender.objs.popped.map Prod.fst :=
      hqueue.mem_iff.mpr (List.mem_map_of_mem (List.mem_append_left _ he))
    obtain ⟨⟨r, obj⟩, hpopped, rfl⟩ := List.mem_map.mp hmem
    obtain ⟨rfl, -⟩ := inv.sender.safe.popped _ _ _ hpopped he
    have hbuttons : ∀ obj ∈ s.sender.objs.popped.map Prod.snd, isButton obj = false := by
      intro obj hobj
      obtain ⟨e, he, rfl⟩ := List.mem_map.mp hobj
      exact Bool.eq_false_iff.mpr (List.any_eq_false.mp left e he)
    have hsent : s.sender.sent = s.sender.objs.popped.map Prod.snd := by
      rw [Sender.sent, ← Client.sent_eq hbuttons, List.map_map]
      rfl
    rw [hsent]
    exact List.mem_map_of_mem hpopped

/-- **Left alone, the server serves every request**, from every state of every run, unless a task
ends the program. -/
theorem completes_of_reaches {loop : IOLoop} {world : World}
    (reach : Reaches (Answering.step E) (fun _ _ => True) (start loop world) s) :
    s.Completes E := by
  have short : s.Short := reach.invariant (I := Short) (fun t ht => by cases ht)
    fun _ _ _ short _ h => short.step h
  have remains := Handover.remains_of_within short
  have lowers : ∀ s s' a n, s.sender.objs.Remains n → Own a → Answering.step E s a = some s' →
      ∃ n', n' < n ∧ s'.sender.objs.Remains n' := fun _ _ _ _ remains own h =>
    own_lowers remains own h
  refine ⟨fun as s' own hp => ?_, exists_rest Own lowers remains, fun as s' own hp rest => ?_⟩
  · obtain ⟨n, -, hlength⟩ := play_costs Own lowers remains own hp
    exact Nat.le_trans (Nat.le_add_right _ _) hlength
  · have inv : s'.Inv := (Reaches.play reach hp).invariant (inv_start loop world)
      fun _ _ _ inv _ h => inv.step h
    by_cases crashed : ∃ t ∈ s'.sender.objs.tasks, Crashed t.2
    · exact .inl crashed
    · exact .inr (inv.served rest fun t ht h => crashed ⟨t, ht, h⟩)

end Completion

/-- The login that is to be refused has just been received. -/
theorem completes_refusal : ∃ s, play (Answering.step .reference) (Sender.refusal.take 1)
      ⟨Sender.refusing, []⟩ = some s ∧
    s.origin.map (Option.map fun req => req.fd) = [some 5] ∧ s.Completes .reference := by
  obtain ⟨s, hs, horigin⟩ : ∃ s, play (Answering.step .reference) (Sender.refusal.take 1)
      ⟨Sender.refusing, []⟩ = some s ∧
      s.origin.map (Option.map fun req => req.fd) = [some 5] := ⟨_, rfl, rfl⟩
  exact ⟨s, hs, horigin, completes_of_reaches (Reaches.play .refl hs)⟩

end Answering

end Smer
