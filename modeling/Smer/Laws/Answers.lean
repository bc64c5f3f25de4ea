import Smer.Lib.Answering
import Smer.Laws.Sender
import Smer.Server.System

/-!
# Every request is answered once

`Answering` is the server of `Sender` with a memory: which request each object in memory came as. It
says of every run, however the tasks interleave and whatever the database and Redis answer, which
answers a request can get. None gets two, no answer is sent twice, and every answer is one of the
request's own type (`ReplyTo`). A registration or a login whose task has come to its end has been
answered; the other requests may be dropped without a word.

Nothing is established here about what a block suffers on its connection, nor that a task comes to
its end at all (`Laws.Completion`). A task that dereferences null stops alone in these runs, where
the program would end.
-/

namespace Smer

open Lib

/-- What may be pushed for a request that came on a connection. -/
inductive ReplyTo (req : Request) : TransObj → Prop where
  /-- a talk is passed on as it is -/
  | talk : req.obj.msgType = msgTalk → ReplyTo req req.obj
  /-- a registration is answered on its connection -/
  | register {reply : TransObj} : req.obj.msgType = msgReg →
      reply.msgType ∈ [msgRegAccept, msgRegRefuse] → reply.fd = req.fd → ReplyTo req reply
  /-- a login as a user of the table is accepted on its connection -/
  | loggedIn (id : Int32) : req.obj.msgType = msgLogin →
      ReplyTo req (((req.obj.setId id).setFd req.fd).setMsgType msgLoginAccept)
  /-- under a name that is not there it is accepted too, where its block says -/
  | stranger : req.obj.msgType = msgLogin → ReplyTo req (req.obj.setMsgType msgLoginAccept)
  /-- a refusal goes where the block says, whatever connection it came on -/
  | refused (reason : Bytes) : req.obj.msgType = msgLogin →
      ReplyTo req ((req.obj.setMsgType msgLoginRefuse).setMsg reason).1
  /-- a friend request is passed on with the receiver found -/
  | ask (id fd : Int32) : req.obj.msgType = msgAskForFriend →
      ReplyTo req ((req.obj.setrecverId id).setFd fd)
  /-- or it goes back to its connection -/
  | notFound : req.obj.msgType = msgAskForFriend →
      ReplyTo req ((req.obj.setMsgType msgAskForFriendNotFound).setFd req.fd)
  /-- an acceptance is passed on, with the name of its sender or with its own text -/
  | accept {reply : TransObj} : req.obj.msgType = msgAskForFriendAccept →
      reply.msgType = msgAskForFriendAccept → reply.id = req.obj.id →
      reply.recverId = req.obj.recverId → ReplyTo req reply

/-- The requests whose tasks may end without an answer. -/
def Request.MayBeDropped (req : Request) : Prop :=
  req.obj.msgType ≠ msgReg ∧ req.obj.msgType ≠ msgLogin

/-! ## The tasks reply -/

namespace InPlace

open CellProg ComManger MysqlPool

variable {obj : TransObj} {may : Prop} {sends : TransObj → Prop}

theorem abort_replies (why : Abort) : Replies Asks may sends (abort why) obj :=
  .base trivial fun e => e.elim

theorem answer_replies {msgType : UInt32} {text : Bytes}
    (hsends : sends ((obj.setMsgType msgType).setMsg text).1) :
    Replies Asks may sends (answer msgType text) obj :=
  .update_bind (.update_bind (.push_last hsends))

theorem userSendTask_replies (hmay : may) (hobj : sends obj) :
    Replies Asks may sends userSendTask obj := by
  refine .load_bind (.lift_bind (asks_of_footprint (isTalkerOnline_footprint _)) fun online => ?_)
  split
  · exact .push_last hobj
  · exact .pure _ _ hmay

section Register

variable {fd : Int32} (hsends : ∀ reply : TransObj,
  reply.msgType ∈ [msgRegAccept, msgRegRefuse] → reply.fd = fd → sends reply)
include hsends

/-- An answer to a registration is sent on the descriptor that the task has put into the object
first thing, the connection's own. -/
theorem registered {msgType : UInt32} (htype : msgType ∈ [msgRegAccept, msgRegRefuse])
    {text : Bytes} (hfd : obj.fd = fd) : sends ((obj.setMsgType msgType).setMsg text).1 := by
  refine hsends _ ?_ ?_
  · rw [TransObj.setMsg_msgType]
    exact htype
  · rw [TransObj.setMsg_fd]
    exact hfd

theorem regAcceptTask_replies (hfd : obj.fd = fd) : Replies Asks may sends regAcceptTask obj := by
  refine .lift_bind (asks_of_footprint (execQuery_footprint _ _)) fun rows => .update_bind ?_
  split
  · exact abort_replies _
  · exact answer_replies (registered hsends (by decide) hfd)
  · split
    · exact abort_replies _
    · refine .update_bind (.update_bind (.push_last (hsends _ ?_ ?_)))
      · rw [TransObj.setMsg_msgType]
        exact List.mem_cons_self
      · rw [TransObj.setMsg_fd]
        exact hfd

theorem userRegTask_replies (past : Bytes) :
    Replies Asks may sends (userRegTask fd past) obj := by
  refine .update_bind (.load_bind
    (.lift_bind (asks_of_footprint (execQuery_footprint _ _)) fun rows => ?_))
  split
  · exact abort_replies _
  · exact answer_replies (registered hsends (by decide) rfl)
  · refine .load_bind (.lift_bind (asks_of_footprint (execInsert_footprint _ _)) fun inserted => ?_)
    split
    · exact regAcceptTask_replies hsends rfl
    · exact answer_replies (registered hsends (by decide) rfl)

end Register

section Login

variable {fd : Int32} (past : Bytes)
  (accepted : ∀ id, sends (((obj.setId id).setFd fd).setMsgType msgLoginAccept))
  (refused : ∀ reason, sends ((obj.setMsgType msgLoginRefuse).setMsg reason).1)
include accepted refused

theorem loginWithRow_replies (row : ResultRow) :
    Replies Asks may sends (loginWithRow fd past row) obj := by
  unfold loginWithRow
  split
  · exact abort_replies _
  · refine .load_bind ?_
    split
    · exact answer_replies (refused _)
    · split
      · exact answer_replies (refused _)
      · exact .update_bind (.update_bind (.load_bind (.lift_bind (addSessionTalker_pushes _ _ _)
          fun _ => .update_bind (.push_last (accepted _)))))

theorem userLogTask_replies (stranger : sends (obj.setMsgType msgLoginAccept)) :
    Replies Asks may sends (userLogTask fd past) obj := by
  refine .load_bind ?_
  split
  · exact answer_replies (refused _)
  · refine .lift_bind (asks_of_footprint (execQuery_footprint _ _)) fun rows => ?_
    split
    · exact answer_replies (refused _)
    · exact loginWithRow_replies past accepted refused _
    · exact .update_bind (.push_last stranger)

end Login

theorem askForFriendTask_replies {fd : Int32} (past : Bytes) (hmay : may)
    (forwarded : ∀ id talker, sends ((obj.setrecverId id).setFd talker))
    (notFound : sends ((obj.setMsgType msgAskForFriendNotFound).setFd fd)) :
    Replies Asks may sends (askForFriendTask fd past) obj := by
  refine .load_bind (.lift_bind (asks_of_footprint (execQuery_footprint _ _)) fun rows => ?_)
  split
  · exact abort_replies _
  · split
    · exact abort_replies _
    · refine .update_bind (.load_bind
        (.lift_bind (asks_of_footprint (isTalkerOnline_footprint _)) fun online => ?_))
      split
      · exact .lift_bind (asks_of_footprint (getTalkerFd_footprint _)) fun fd =>
          .update_bind (.push_last (forwarded _ _))
      · exact .pure _ _ hmay
  · exact .update_bind (.update_bind (.push_last notFound))

theorem askForFriendAcceptTask_replies (hmay : may)
    (hsends : ∀ reply : TransObj, reply.msgType = obj.msgType → reply.id = obj.id →
      reply.recverId = obj.recverId → sends reply) :
    Replies Asks may sends askForFriendAcceptTask obj := by
  refine .load_bind (.lift_bind (asks_of_footprint (isTalkerOnline_footprint _)) fun online => ?_)
  split
  · refine .lift_bind (asks_of_footprint (getTalkerFd_footprint _)) fun fd => .update_bind
      (.load_bind (.lift_bind (asks_of_footprint (getTalkerName_footprint _)) fun name => ?_))
    split
    · split
      · exact .pure _ _ hmay
      · refine .update_bind (.push_last (hsends _ ?_ ?_ ?_))
        · rw [TransObj.setMsg_msgType, TransObj.setFd_msgType]
        · rw [TransObj.setMsg_id, TransObj.setFd_id]
        · rw [TransObj.setMsg_recverId]
          rfl
    · exact .push_last (hsends _ rfl rfl rfl)
  · exact .pure _ _ hmay

/-- **Every task that the dispatch can enqueue replies to its request.** -/
theorem handle_replies {fd : Int32} {past : Bytes} {task : ObjTask}
    (htask : handle obj fd past = some task) :
    Replies Asks (Request.MayBeDropped ⟨obj, fd⟩) (ReplyTo ⟨obj, fd⟩) task obj := by
  obtain ⟨⟨msgType, handler⟩, hfind, hhandler⟩ := Option.bind_eq_some_iff.mp htask
  have htype := List.find?_some hfind
  rw [decide_eq_true_eq] at htype
  dsimp only at htype hhandler
  have silent : msgType ≠ msgReg → msgType ≠ msgLogin → Request.MayBeDropped ⟨obj, fd⟩ := by
    rw [htype]
    exact And.intro
  have hmem := List.mem_of_find?_eq_some hfind
  simp only [gMsgHandle, List.mem_cons, Prod.mk.injEq, List.not_mem_nil, or_false] at hmem
  rcases hmem with ⟨-, rfl⟩ | ⟨htalk, rfl⟩ | ⟨hreg, rfl⟩ | ⟨-, rfl⟩ | ⟨-, rfl⟩ | ⟨hlogin, rfl⟩ |
    ⟨-, rfl⟩ | ⟨-, rfl⟩ | ⟨hask, rfl⟩ | ⟨-, rfl⟩ | ⟨haccept, rfl⟩
  · cases hhandler
  · cases hhandler
    exact userSendTask_replies (silent (by rw [htalk]; decide) (by rw [htalk]; decide))
      (.talk (htype.symm.trans htalk))
  · simp only [handleUserRegMsg, Option.ite_none_left_eq_some] at hhandler
    cases hhandler.2
    exact userRegTask_replies (fun _ hreply hfd => .register (htype.symm.trans hreg) hreply hfd) past
  · cases hhandler
  · cases hhandler
  · cases hhandler
    have hlog := htype.symm.trans hlogin
    exact userLogTask_replies past (fun id => .loggedIn id hlog) (fun reason => .refused reason hlog)
      (.stranger hlog)
  · cases hhandler
  · cases hhandler
  · cases hhandler
    exact askForFriendTask_replies past
      (silent (by rw [hask]; decide) (by rw [hask]; decide))
      (fun id talker => .ask id talker (htype.symm.trans hask))
      (.notFound (htype.symm.trans hask))
  · cases hhandler
  · cases hhandler
    exact askForFriendAcceptTask_replies
      (silent (by rw [haccept]; decide) (by rw [haccept]; decide))
      fun _ hreply hid hrecver => .accept (htype.symm.trans haccept)
        (hreply.trans (htype.symm.trans haccept)) hid hrecver

end InPlace

/-! ## The server and its requests -/

/-- The server, and the request that each object in memory came as. `serverEnd`'s object is none. -/
structure Answering where
  sender : Sender
  origin : List (Option Request)

namespace Answering

def start (loop : IOLoop) (world : World) : Answering := ⟨.start loop world, []⟩

/-- The objects that a step puts into memory, each with the request that it came as: the object of a
handler that has enqueued a task, and the `MSG_BUTTON` of `serverEnd`, which is nobody's. -/
def arrivals (s : Sender) : SenderAction → List (Option Request)
  | .ready fd e read past =>
    match (s.loop.ready fd e read).bind Prod.snd with
    | none => []
    | some obj => if (InPlace.handle obj fd past).isSome then [some ⟨obj, fd⟩] else []
  | .serverEnd _ _ => [none]
  | .accept _ _ _ | .task _ | .elsewhere _ _ _ _ | .pop => []

def step (E : Mysql) (s : Answering) (a : SenderAction) : Option Answering :=
  (s.sender.step E a).map fun sender => ⟨sender, s.origin ++ arrivals s.sender a⟩

/-- What every run keeps of requests and answers: one answer for each request at most, of its own
kind, sent once, and none missing where the task may not be silent. -/
structure Answered (s : Answering) : Prop where
  /-- a request has one task and at most one answer -/
  tasked : ∀ r req, s.origin[r]? = some (some req) → r ∈ s.sender.objs.tasks.map Prod.fst
  once : (s.sender.objs.pushed.map Prod.fst).Nodup
  /-- and the answer is sent at most once -/
  sentOnce : (s.sender.objs.popped.map Prod.fst).Nodup
  fits : ∀ e ∈ s.sender.objs.pushed, ∃ req, s.origin[e.1]? = some (some req) ∧ ReplyTo req e.2
  /-- what must be answered has been, when its task has come to its end -/
  answered : ∀ r req, s.origin[r]? = some (some req) → ¬ req.MayBeDropped →
    (r, Prog.pure ()) ∈ s.sender.objs.tasks → ∃ reply, (r, reply) ∈ s.sender.objs.pushed

/-- The objects whose tasks may end without an answer. -/
def May (origin : List (Option Request)) (r : Nat) : Prop :=
  ∀ req, origin[r]? = some (some req) → req.MayBeDropped

/-- What may be pushed of an object: a reply to the request that it came as. -/
def Fits (origin : List (Option Request)) (r : Nat) (reply : TransObj) : Prop :=
  ∃ req, origin[r]? = some (some req) ∧ ReplyTo req reply

structure Inv (s : Answering) : Prop where
  sender : s.sender.Inv
  length : s.origin.length = s.sender.objs.heap.length
  tasked : ∀ r req, s.origin[r]? = some (some req) → r ∈ s.sender.objs.tasks.map Prod.fst
  answers : s.sender.objs.Answers Asks (May s.origin) (Fits s.origin)

section Inv

variable {E : Mysql} {s s' : Answering} {origin : List (Option Request)}

theorem may_append {r : Nat} (hr : r < origin.length) (more : List (Option Request))
    (may : May origin r) : May (origin ++ more) r := by
  intro req hreq
  rw [List.getElem?_append_left hr] at hreq
  exact may req hreq

theorem fits_append {r : Nat} (hr : r < origin.length) (more : List (Option Request))
    (reply : TransObj) (fits : Fits origin r reply) : Fits (origin ++ more) r reply := by
  obtain ⟨req, hreq, hreply⟩ := fits
  refine ⟨req, ?_, hreply⟩
  rw [List.getElem?_append_left hr, hreq]

/-- More objects in memory leave the invariant of those that were there alone. -/
theorem Inv.answers_append (inv : s.Inv) (more : List (Option Request)) :
    s.sender.objs.Answers Asks (May (s.origin ++ more)) (Fits (s.origin ++ more)) := by
  refine inv.answers.mono inv.sender.sound (fun r hr => ?_) (fun r hr => ?_)
  · exact may_append (inv.length ▸ hr) more
  · exact fits_append (inv.length ▸ hr) more

theorem Inv.spawn (inv : s.Inv) {loop : IOLoop} {obj : TransObj} {fd : Int32} {past : Bytes}
    {task : InPlace.ObjTask} (htask : InPlace.handle obj fd past = some task)
    (sender : Sender.Inv ⟨loop, s.sender.objs.spawn obj task⟩) :
    Inv ⟨⟨loop, s.sender.objs.spawn obj task⟩, s.origin ++ [some ⟨obj, fd⟩]⟩ := by
  have hlast : (s.origin ++ [some ⟨obj, fd⟩])[s.sender.objs.heap.length]? = some (some ⟨obj, fd⟩) := by
    rw [← inv.length, List.getElem?_concat_length]
  refine ⟨sender, ?_, fun r req hr => ?_, ?_⟩
  · show (s.origin ++ [some (Request.mk obj fd)]).length = (s.sender.objs.heap ++ [obj]).length
    rw [List.length_append, List.length_append, inv.length]
    rfl
  · show r ∈ (s.sender.objs.tasks ++ [(s.sender.objs.heap.length, task)]).map Prod.fst
    rw [List.map_append, List.mem_append]
    by_cases hlt : r < s.origin.length
    · rw [List.getElem?_append_left hlt] at hr
      exact .inl (inv.tasked r req hr)
    · have hlen := (List.getElem?_eq_some_iff.mp hr).1
      rw [List.length_append, List.length_singleton] at hlen
      refine .inr (List.mem_singleton.mpr ?_)
      have hlength := inv.length
      omega
  · refine (inv.answers_append _).spawn inv.sender.sound ?_
    refine (InPlace.handle_replies htask).mono (fun may req hreq => ?_) fun reply hreply => ?_
    · rw [hlast] at hreq
      cases hreq
      exact may
    · exact ⟨_, hlast, hreply⟩

theorem inv_start (loop : IOLoop) (world : World) : (start loop world).Inv where
  sender := ⟨Handover.sound_start world, fun e he => by cases he⟩
  length := rfl
  tasked r req hr := by cases hr
  answers := Handover.answers_start world

/-- A task keeps its reference, and the heap keeps its size. -/
theorem step_keys {h : (o : Effect) → World → Option (o.Ans × World)}
    {c c' : Handover Effect Effect.Ans TransObj World} {i : Nat} (hs : c.step h i = some c') :
    c'.tasks.map Prod.fst = c.tasks.map Prod.fst ∧ c'.heap.length = c.heap.length := by
  unfold Handover.step at hs
  split at hs
  · rename_i r p hi
    have hkeys : ∀ p', (c.tasks.set i (r, p')).map Prod.fst = c.tasks.map Prod.fst :=
      Handover.map_fst_set hi
    cases p with
    | pure a => cases hs
    | vis op k =>
      cases op with
      | base o =>
        obtain ⟨out, -, rfl⟩ := Option.map_eq_some_iff.mp hs
        exact ⟨hkeys _, rfl⟩
      | load =>
        obtain ⟨v, -, rfl⟩ := Option.map_eq_some_iff.mp hs
        exact ⟨hkeys _, rfl⟩
      | store v =>
        cases hs
        exact ⟨hkeys _, List.length_set⟩
      | push =>
        obtain ⟨v, -, rfl⟩ := Option.map_eq_some_iff.mp hs
        exact ⟨hkeys _, rfl⟩
  · cases hs

/-- A step that makes no object keeps the invariant with the queue's. -/
theorem Inv.quiet (inv : s.Inv) {sender : Sender} (hsender : sender.Inv)
    (hkeys : sender.objs.tasks.map Prod.fst = s.sender.objs.tasks.map Prod.fst)
    (hheap : sender.objs.heap.length = s.sender.objs.heap.length)
    (answers : sender.objs.Answers Asks (May s.origin) (Fits s.origin)) :
    Inv ⟨sender, s.origin ++ []⟩ := by
  rw [List.append_nil]
  refine ⟨hsender, inv.length.trans hheap.symm, fun r req hr => ?_, answers⟩
  rw [hkeys]
  exact inv.tasked r req hr

theorem Inv.step (inv : s.Inv) {a : SenderAction} (h : s.step E a = some s') : s'.Inv := by
  obtain ⟨sender, hsender, rfl⟩ := Option.map_eq_some_iff.mp h
  have hinv := inv.sender.step hsender
  cases a with
  | accept listener client buffer =>
    obtain ⟨loop, -, rfl⟩ := Option.map_eq_some_iff.mp hsender
    exact inv.quiet hinv rfl rfl inv.answers
  | ready fd e read past =>
    obtain ⟨⟨loop, passed⟩, hready, rfl⟩ := Option.map_eq_some_iff.mp hsender
    simp only [arrivals, hready, Option.bind_some]
    cases passed with
    | none => exact inv.quiet hinv rfl rfl inv.answers
    | some obj =>
      cases htask : InPlace.handle obj fd past with
      | none =>
        simp only [Sender.dispatch, htask] at hinv ⊢
        exact inv.quiet hinv rfl rfl inv.answers
      | some task =>
        simp only [Sender.dispatch, htask] at hinv ⊢
        exact inv.spawn htask hinv
  | task i =>
    obtain ⟨objs, hobjs, rfl⟩ := Option.map_eq_some_iff.mp hsender
    obtain ⟨hkeys, hheap⟩ := step_keys hobjs
    exact inv.quiet hinv hkeys hheap (inv.answers.step inv.sender.sound hobjs)
  | elsewhere userinfo redis sqlFaults redisFaults =>
    cases hsender
    exact inv.quiet hinv rfl rfl (inv.answers.setShared _)
  | pop =>
    rw [Sender.step, Option.ite_none_left_eq_some] at hsender
    obtain ⟨objs, hobjs, rfl⟩ := Option.map_eq_some_iff.mp hsender.2
    obtain ⟨r, queue, v, -, -, heq⟩ := Handover.pop_eq_some hobjs
    refine inv.quiet hinv ?_ ?_ (inv.answers.pop hobjs)
    · rw [heq]
    · rw [heq]
  | serverEnd recverId msg =>
    rw [Sender.step, Option.ite_none_right_eq_some] at hsender
    cases hsender.2
    refine ⟨hinv, ?_, fun r req hr => ?_, (inv.answers_append _).inject inv.sender.sound _⟩
    · show (s.origin ++ [none]).length = (s.sender.objs.heap ++ [_]).length
      rw [List.length_append, List.length_append, inv.length]
      rfl
    · by_cases hlt : r < s.origin.length
      · rw [arrivals, List.getElem?_append_left hlt] at hr
        exact inv.tasked r req hr
      · rw [arrivals, List.getElem?_append_right (Nat.le_of_not_lt hlt),
          List.getElem?_singleton] at hr
        split at hr
        · cases hr
        · cases hr

end Inv

end Answering

end Smer
