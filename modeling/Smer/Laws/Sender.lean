import Smer.HandleMsg.InPlace
import Smer.HandleMsg.HandleMsgClient
import Smer.Laws.Routing
import Smer.Server.Zepoll

/-!
# No input stops the sender

A received block says what type its object has, and the handlers forward some objects with the type
they came with. `Sender` is the server with its objects in memory: connections and what they send,
the tasks one operation at a time, the queue of references, `Client::run` that pops them, and
`serverEnd`. The database and Redis may change under the tasks at any time.

Each task is tame (`handle_tame`): on every path it pushes its object once, last, and with a type that
the client knows. So the sender never meets a `MSG_BUTTON` that `serverEnd` has not put there
(`safe_of_reaches`).

That the sender makes progress is not established here (`Laws.Completion`).
-/

namespace Smer

open Lib

/-- The types of the objects that the server pushes. -/
def outgoing : List UInt32 :=
  [msgTalk, msgRegAccept, msgRegRefuse, msgLoginAccept, msgLoginRefuse, msgAskForFriend,
    msgAskForFriendNotFound, msgAskForFriendAccept]

def Outgoing (obj : TransObj) : Prop := obj.msgType ∈ outgoing

/-- The operations that push nothing. -/
def Asks : Effect → Prop := Pushes fun _ => False

/-! ## The tasks are tame -/

namespace InPlace

open CellProg ComManger MysqlPool

variable {obj : TransObj}

theorem asks_of_footprint {α : Type} {task : Task α} (only : task.Only (Footprint fun _ => False)) :
    task.Only Asks := only.mono Pushes.of_footprint

theorem abort_tame (why : Abort) : Tame Asks Outgoing (abort why) obj :=
  .lift (asks_of_footprint (abort_footprint why))

theorem answer_tame {msgType : UInt32} (htype : msgType ∈ outgoing) (text : Bytes) :
    Tame Asks Outgoing (answer msgType text) obj := by
  refine .update_bind (.update_bind (.push_last ?_))
  rw [Outgoing, TransObj.setMsg_msgType]
  exact htype

theorem userSendTask_tame (hobj : Outgoing obj) : Tame Asks Outgoing userSendTask obj := by
  refine .load_bind (.lift_bind (asks_of_footprint (isTalkerOnline_footprint _)) fun online => ?_)
  split
  · exact .push_last hobj
  · exact .pure _ _

theorem regAcceptTask_tame : Tame Asks Outgoing regAcceptTask obj := by
  refine .lift_bind (asks_of_footprint (execQuery_footprint _ _)) fun rows => .update_bind ?_
  split
  · exact abort_tame _
  · exact answer_tame (by decide) _
  · split
    · exact abort_tame _
    · refine .update_bind (.update_bind (.push_last ?_))
      rw [Outgoing, TransObj.setMsg_msgType]
      show msgRegAccept ∈ outgoing
      decide

theorem userRegTask_tame (fd : Int32) (past : Bytes) :
    Tame Asks Outgoing (userRegTask fd past) obj := by
  refine .update_bind (.load_bind
    (.lift_bind (asks_of_footprint (execQuery_footprint _ _)) fun rows => ?_))
  split
  · exact abort_tame _
  · exact answer_tame (by decide) _
  · refine .load_bind (.lift_bind (asks_of_footprint (execInsert_footprint _ _)) fun inserted => ?_)
    split
    · exact regAcceptTask_tame
    · exact answer_tame (by decide) _

theorem refuseLogin_tame (reason : Bytes) : Tame Asks Outgoing (refuseLogin reason) obj :=
  answer_tame (by decide) reason

theorem loginWithRow_tame (fd : Int32) (past : Bytes) (row : ResultRow) :
    Tame Asks Outgoing (loginWithRow fd past row) obj := by
  unfold loginWithRow
  split
  · exact abort_tame _
  · refine .load_bind ?_
    split
    · exact refuseLogin_tame _
    · split
      · exact refuseLogin_tame _
      · refine .update_bind (.update_bind (.load_bind
          (.lift_bind (addSessionTalker_pushes _ _ _) fun _ => .update_bind (.push_last ?_))))
        show msgLoginAccept ∈ outgoing
        decide

theorem userLogTask_tame (fd : Int32) (past : Bytes) :
    Tame Asks Outgoing (userLogTask fd past) obj := by
  refine .load_bind ?_
  split
  · exact refuseLogin_tame _
  · refine .lift_bind (asks_of_footprint (execQuery_footprint _ _)) fun rows => ?_
    split
    · exact refuseLogin_tame _
    · exact loginWithRow_tame _ _ _
    · refine .update_bind (.push_last ?_)
      show msgLoginAccept ∈ outgoing
      decide

theorem askForFriendTask_tame (hobj : Outgoing obj) (fd : Int32) (past : Bytes) :
    Tame Asks Outgoing (askForFriendTask fd past) obj := by
  refine .load_bind (.lift_bind (asks_of_footprint (execQuery_footprint _ _)) fun rows => ?_)
  split
  · exact abort_tame _
  · split
    · exact abort_tame _
    · refine .update_bind (.load_bind
        (.lift_bind (asks_of_footprint (isTalkerOnline_footprint _)) fun online => ?_))
      split
      · exact .lift_bind (asks_of_footprint (getTalkerFd_footprint _)) fun fd =>
          .update_bind (.push_last hobj)
      · exact .pure _ _
  · refine .update_bind (.update_bind (.push_last ?_))
    show msgAskForFriendNotFound ∈ outgoing
    decide

theorem askForFriendAcceptTask_tame (hobj : Outgoing obj) :
    Tame Asks Outgoing askForFriendAcceptTask obj := by
  refine .load_bind (.lift_bind (asks_of_footprint (isTalkerOnline_footprint _)) fun online => ?_)
  split
  · refine .lift_bind (asks_of_footprint (getTalkerFd_footprint _)) fun fd => .update_bind
      (.load_bind (.lift_bind (asks_of_footprint (getTalkerName_footprint _)) fun name => ?_))
    split
    · split
      · exact .pure _ _
      · refine .update_bind (.push_last ?_)
        rw [Outgoing, TransObj.setMsg_msgType]
        exact hobj
    · exact .push_last hobj
  · exact .pure _ _

/-- **Every task that the dispatch can enqueue is tame.** -/
theorem handle_tame {fd : Int32} {past : Bytes} {task : ObjTask}
    (htask : handle obj fd past = some task) : Tame Asks Outgoing task obj := by
  obtain ⟨⟨msgType, handler⟩, hfind, hhandler⟩ := Option.bind_eq_some_iff.mp htask
  have htype := List.find?_some hfind
  rw [decide_eq_true_eq] at htype
  dsimp only at htype hhandler
  have forwarded : msgType ∈ outgoing → Outgoing obj := by
    rw [htype]
    exact id
  have hmem := List.mem_of_find?_eq_some hfind
  simp only [gMsgHandle, List.mem_cons, Prod.mk.injEq, List.not_mem_nil, or_false] at hmem
  rcases hmem with ⟨-, rfl⟩ | ⟨htalk, rfl⟩ | ⟨-, rfl⟩ | ⟨-, rfl⟩ | ⟨-, rfl⟩ | ⟨-, rfl⟩ | ⟨-, rfl⟩ |
    ⟨-, rfl⟩ | ⟨hask, rfl⟩ | ⟨-, rfl⟩ | ⟨haccept, rfl⟩
  · cases hhandler
  · cases hhandler
    exact userSendTask_tame (forwarded (by rw [htalk]; decide))
  · simp only [handleUserRegMsg, Option.ite_none_left_eq_some] at hhandler
    cases hhandler.2
    exact userRegTask_tame _ _
  · cases hhandler
  · cases hhandler
  · cases hhandler
    exact userLogTask_tame _ _
  · cases hhandler
  · cases hhandler
  · cases hhandler
    exact askForFriendTask_tame (forwarded (by rw [hask]; decide)) _ _
  · cases hhandler
  · cases hhandler
    exact askForFriendAcceptTask_tame (forwarded (by rw [haccept]; decide))

end InPlace

/-! ## The server and its sender -/

structure Sender where
  loop : IOLoop
  objs : Handover Effect Effect.Ans TransObj World

inductive SenderAction where
  /-- the listener is readable, and `accept` returns `client` -/
  | accept (listener client : Int32) (buffer : CharArray bufferSize)
  /-- an event on a connection, and what lies behind the object that it makes -/
  | ready (fd : Int32) (e : Events) (read : Option Bytes) (past : Bytes)
  /-- a task performs its next operation -/
  | task (i : Nat)
  /-- others change the database and Redis, and how the next operations fail -/
  | elsewhere (userinfo : UserInfo) (redis : RedisStore) (sqlFaults : List (Option SqlFault))
      (redisFaults : List (Option RedisFault))
  /-- `Client::run` pops -/
  | pop
  /-- `serverEnd` finds the queue empty and pushes its object, with the fields that the constructor
  leaves alone -/
  | serverEnd (recverId : Int32) (msg : CharArray maxTransMsgLen)

namespace Sender

def start (loop : IOLoop) (world : World) : Sender := ⟨loop, .start world⟩

/-- The objects that `Client::run` has sent. -/
def sent (s : Sender) : List TransObj := Client.sent (s.objs.popped.map fun e => some e.2)

/-- `Client::run` has popped a `MSG_BUTTON`. -/
def left (s : Sender) : Bool := s.objs.popped.any fun e => isButton e.2

/-- `serverEnd` has put its `MSG_BUTTON` into the queue. -/
def ended (s : Sender) : Prop := s.objs.injected ≠ []

/-- An object that the loop has passed on is dispatched: where its type has a task, object and task
are new in memory. -/
def dispatch (objs : Handover Effect Effect.Ans TransObj World) (fd : Int32) (past : Bytes)
    (passed : Option TransObj) : Handover Effect Effect.Ans TransObj World :=
  match passed with
  | none => objs
  | some obj =>
    match InPlace.handle obj fd past with
    | none => objs
    | some task => objs.spawn obj task

def step (E : Mysql) (s : Sender) : SenderAction → Option Sender
  | .accept listener client buffer =>
    (s.loop.accept listener client buffer).map fun loop => { s with loop := loop }
  | .ready fd e read past =>
    (s.loop.ready fd e read).map fun out => ⟨out.1, dispatch s.objs fd past out.2⟩
  | .task i => (s.objs.step (World.answer E) i).map fun objs => { s with objs := objs }
  | .elsewhere userinfo redis sqlFaults redisFaults =>
    some { s with objs := { s.objs with
      shared := ⟨userinfo, redis, s.objs.shared.outbound, sqlFaults, redisFaults⟩ } }
  | .pop => if s.left then none else s.objs.pop.map fun objs => { s with objs := objs }
  | .serverEnd recverId msg =>
    if s.objs.queue.isEmpty then
      some { s with objs := s.objs.inject (.make msg 1 recverId msgButton 3 (-1)) }
    else none

/-- Objects are sound, and what was put in by hand is `serverEnd`'s. -/
structure Inv (s : Sender) : Prop where
  sound : s.objs.Sound Asks Outgoing
  buttons : ∀ e ∈ s.objs.injected, isButton e.2 = true

/-- What no input can change: the objects that are pushed and popped have types the client knows,
and the sender leaves only on the `MSG_BUTTON` of `serverEnd`. -/
structure Safe (s : Sender) : Prop where
  /-- what a handler has pushed, when it pushed it -/
  pushed : ∀ e ∈ s.objs.pushed, e.2.msgType ∈ outgoing
  /-- and from then on -/
  unchanged : ∀ e ∈ s.objs.pushed, s.objs.heap[e.1]? = some e.2
  /-- what a handler has pushed, when it is popped -/
  popped : ∀ r obj obj', (r, obj) ∈ s.objs.popped → (r, obj') ∈ s.objs.pushed →
    obj = obj' ∧ obj.msgType ∈ outgoing
  stays : s.left = true → s.ended
  sent : ∀ obj ∈ s.sent, ∃ entry ∈ HandleMsgClient.gMsgHandle, entry.1 = obj.msgType

section Inv

variable {E : Mysql} {s s' : Sender}

theorem sound_dispatch {objs : Handover Effect Effect.Ans TransObj World}
    (sound : objs.Sound Asks Outgoing) (fd : Int32) (past : Bytes) (passed : Option TransObj) :
    (dispatch objs fd past passed).Sound Asks Outgoing := by
  unfold dispatch
  split
  · exact sound
  · split
    · exact sound
    · rename_i htask
      exact sound.spawn (InPlace.handle_tame htask)

/-- Neither a dispatch nor a task puts anything in by hand. -/
theorem dispatch_injected (objs : Handover Effect Effect.Ans TransObj World) (fd : Int32)
    (past : Bytes) (passed : Option TransObj) :
    (dispatch objs fd past passed).injected = objs.injected := by
  unfold dispatch
  split
  · rfl
  · split <;> rfl

theorem Inv.step (inv : s.Inv) {a : SenderAction} (h : s.step E a = some s') : s'.Inv := by
  cases a with
  | accept listener client buffer =>
    obtain ⟨loop, -, rfl⟩ := Option.map_eq_some_iff.mp h
    exact ⟨inv.sound, inv.buttons⟩
  | ready fd e read past =>
    obtain ⟨out, -, rfl⟩ := Option.map_eq_some_iff.mp h
    refine ⟨sound_dispatch inv.sound fd past out.2, fun e he => inv.buttons e ?_⟩
    rw [dispatch_injected] at he
    exact he
  | task i =>
    obtain ⟨objs, hobjs, rfl⟩ := Option.map_eq_some_iff.mp h
    refine ⟨inv.sound.step hobjs, fun e he => inv.buttons e ?_⟩
    rw [Handover.step_injected hobjs] at he
    exact he
  | elsewhere userinfo redis sqlFaults redisFaults =>
    cases h
    exact ⟨inv.sound.setShared _, inv.buttons⟩
  | pop =>
    rw [Sender.step, Option.ite_none_left_eq_some] at h
    obtain ⟨objs, hobjs, rfl⟩ := Option.map_eq_some_iff.mp h.2
    refine ⟨inv.sound.pop hobjs, fun e he => inv.buttons e ?_⟩
    obtain ⟨r, queue, v, -, -, rfl⟩ := Handover.pop_eq_some hobjs
    exact he
  | serverEnd recverId msg =>
    rw [Sender.step, Option.ite_none_right_eq_some] at h
    cases h.2
    refine ⟨inv.sound.inject _, fun e he => ?_⟩
    rcases List.mem_append.mp he with he | he
    · exact inv.buttons e he
    · cases List.mem_singleton.mp he
      rfl

/-- No type of a pushed object ends the sender's loop, and the client's table has each. -/
theorem outgoing_handled {msgType : UInt32} (h : msgType ∈ outgoing) : msgType ≠ msgButton ∧
    msgType ∈ HandleMsgClient.gMsgHandle.map Prod.fst := by
  have htypes : HandleMsgClient.gMsgHandle.map Prod.fst =
      [msgCmd, msgTalk, msgReg, msgRegRefuse, msgRegAccept, msgLogin, msgLoginRefuse,
        msgLoginAccept, msgAskForFriend, msgAskForFriendNotFound, msgAskForFriendAccept] := rfl
  rw [htypes]
  simp only [outgoing, List.mem_cons, List.not_mem_nil, or_false] at h
  rcases h with rfl | rfl | rfl | rfl | rfl | rfl | rfl | rfl
  all_goals exact ⟨by decide, by decide⟩

theorem Outgoing.not_button {obj : TransObj} (h : Outgoing obj) : isButton obj = false :=
  decide_eq_false (outgoing_handled h).1

theorem Inv.safe (inv : s.Inv) : s.Safe where
  pushed := inv.sound.fit
  unchanged e he := inv.sound.unchanged e (List.mem_append_left _ he)
  popped r obj obj' hpopped hpushed := inv.sound.popped_fit hpopped hpushed
  stays hleft := by
    obtain ⟨e, he, hbutton⟩ := List.any_eq_true.mp hleft
    rcases List.mem_append.mp (inv.sound.popped e he) with hpushed | hinjected
    · rw [Outgoing.not_button (inv.sound.fit e hpushed)] at hbutton
      cases hbutton
    · exact List.ne_nil_of_mem hinjected
  sent obj hobj := by
    obtain ⟨hpop, hbutton⟩ := Client.mem_sent hobj
    obtain ⟨e, he, heq⟩ := List.mem_map.mp hpop
    cases heq
    rcases List.mem_append.mp (inv.sound.popped e he) with hpushed | hinjected
    · exact List.mem_map.mp (outgoing_handled (inv.sound.fit e hpushed)).2
    · rw [inv.buttons e hinjected] at hbutton
      cases hbutton

/-- **No network input stops or confuses the sender**: whatever is received, whatever the database
and Redis hold, and however the tasks interleave. -/
theorem safe_of_reaches {loop : IOLoop} {world : World}
    (reach : Reaches (Sender.step E) (fun _ _ => True) (start loop world) s) : s.Safe := by
  have inv : s.Inv := reach.invariant ⟨Handover.sound_start world, fun e he => by cases he⟩
    fun _ _ _ inv _ h => inv.step h
  exact inv.safe

end Inv

/-- One connection, and a database that has no connection to give. -/
def refusing : Sender :=
  .start ⟨AList.singleton 5 (.echo ⟨0, .fill _ 0⟩), [5, 3]⟩
    { emptyWorld with sqlFaults := [some .noConnection] }

/-- A login is received and refused, the refusal is sent, and the server ends. -/
def refusal : List SenderAction :=
  .ready 5 .epollin (some bobLogin.toBytes) [] :: List.replicate 7 (.task 0) ++
    [.pop, .serverEnd 0 (.fill _ 0), .pop]

theorem safe_refusal : ∃ s, play (Sender.step .reference) refusal refusing = some s ∧
    s.sent.map TransObj.msgType = [msgLoginRefuse] ∧ s.left = true ∧ s.Safe := by
  obtain ⟨s, hs, hsent, hleft⟩ : ∃ s, play (Sender.step .reference) refusal refusing = some s ∧
      s.sent.map TransObj.msgType = [msgLoginRefuse] ∧ s.left = true := ⟨_, rfl, rfl, rfl⟩
  exact ⟨s, hs, hsent, hleft, safe_of_reaches (Reaches.play .refl hs)⟩

end Sender

end Smer
