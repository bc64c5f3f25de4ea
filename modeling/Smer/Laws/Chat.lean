import Smer.Communication.Sessions
import Smer.Server.Wire
import Smer.Util.Input

/-!
# Chat

A typed line becomes a `MSG_TALK`, crosses the wire, and the server's task puts it on the outbound
queue when its receiver is online. Nothing on the way addresses it: the object is built with the
constants 1 for sender, receiver and descriptor, the talker that the player has chosen is never
read, and the server's task changes no field. So the line goes to user 1 on descriptor 1, whoever
was meant, and chat is delivered exactly where these constants are right (`chatDelivered_iff`).

The message is received whole and its task runs alone, so nothing is established about a logout
between the membership test and the push.
-/

namespace Smer

open Lib ComManger

/-- A line typed at a client, all the way to the server's task: the client's message, if it makes
one, is received whole on the connection `fd`. -/
def chatRun (E : Mysql) (w : World) (c : ClientState) (heap : CharArray maxTransMsgLen)
    (line past : Bytes) (fd : Int32) (h : EchoHandler) : World :=
  match (Util.getMsgFromInput heap past line).run c with
  | some (some obj, _) => w.receives E fd h past obj
  | _ => w

/-- The line is pushed once, from player `a` to player `t` on the descriptor `f`, if `t` is online;
otherwise nothing is pushed. -/
def ChatDelivered (w w' : World) (past line : Bytes) (a t f : Int32) : Prop :=
  if Online w.redis t then
    ∃ obj, w'.outbound = w.outbound ++ [obj] ∧ obj.msgType = msgTalk ∧
      obj.getMsg past = line ∧ obj.id = a ∧ obj.recverId = t ∧ obj.fd = f
  else w'.outbound = w.outbound

section Chat

variable {E : Mysql} {w : World} {c : ClientState} {heap : CharArray maxTransMsgLen}
  {past line : Bytes} {fd : Int32} {h : EchoHandler}

/-- The chat task pushes its object when the object's receiver is online. -/
theorem run_userSendTask (normal : w.redisFaults = []) (obj : TransObj) :
    (HandleMsg.userSendTask obj).run (World.answer E) w =
      if Online w.redis obj.recverId then (.ok (), { w with outbound := w.outbound ++ [obj] })
      else (.ok (), w) := by
  rw [HandleMsg.userSendTask, Prog.run_bind_ok (run_isTalkerOnline normal obj.recverId)]
  by_cases honline : Online w.redis obj.recverId
  · rw [if_pos honline, if_pos (decide_eq_true honline)]
    rfl
  · rw [if_neg honline, if_neg (by rw [decide_eq_true_eq]; exact honline)]
    rfl

/-- **The object that arrives is addressed to user 1 on descriptor 1**, from user 1. -/
theorem chatRun_eq (normal : w.redisFaults = []) (logined : c.player.logined = true)
    (hat : (64 : UInt8) ∉ line) :
    chatRun E w c heap line past fd h =
      if Online w.redis 1 then
        { w with outbound := w.outbound ++ [(Util.talkObj heap line).eraseLen] }
      else w := by
  have htype : (Util.talkObj heap line).eraseLen.msgType = msgTalk :=
    TransObj.setMsg_msgType _ _
  have hrecver : (Util.talkObj heap line).eraseLen.recverId = 1 := TransObj.setMsg_recverId _ _
  rw [chatRun, Util.run_getMsgFromInput_talk logined hat]
  simp only
  rw [receives_eq, HandleMsg.handle_talk fd past htype, World.runTask, run_userSendTask normal,
    hrecver]
  split <;> rfl

/-- The talk object holds the line: a line shorter than the text area, without a zero byte, is read
back from the object that crosses the wire. -/
theorem talkObj_getMsg (hline : line.length < maxTransMsgLen) (hzero : (0 : UInt8) ∉ line) :
    (Util.talkObj heap line).eraseLen.getMsg past = line := by
  have htext : (Util.talkObj heap line).eraseLen.getMsg past =
      ((TransObj.make heap 1 1 msgTalk 1 1).setMsg (cstr line)).1.getMsg past := rfl
  rw [htext, cstr_eq_self hzero]
  exact TransObj.getMsg_setMsg _ hline hzero past

/-- A queue that has grown by one object has grown by that object. -/
theorem exists_append_singleton_iff {queue : List TransObj} {obj : TransObj}
    {P : TransObj → Prop} :
    (∃ obj', queue ++ [obj] = queue ++ [obj'] ∧ P obj') ↔ P obj := by
  simp only [List.append_cancel_left_eq, List.cons.injEq, and_true, exists_eq_left']

end Chat

/-- **Chat is delivered exactly when the constants are right**: a receiver who is online is user 1
on descriptor 1 and so is the sender, and when the receiver is not online neither is user 1. -/
theorem chatDelivered_iff (E : Mysql) {w : World} (normal : w.redisFaults = []) {c : ClientState}
    (logined : c.player.logined = true) {t f : Int32} (_talker : c.player.getTalkerId = some t)
    (_recorded : Online w.redis t →
      (w.redis.hashes (idText t)).lookup (ascii "fd") = some (idText f))
    {line : Bytes} (hlen : 1 ≤ line.length ∧ line.length ≤ 63) (hzero : (0 : UInt8) ∉ line)
    (hat : (64 : UInt8) ∉ line) (heap : CharArray maxTransMsgLen) (past : Bytes) (fd : Int32)
    (h : EchoHandler) :
    ChatDelivered w (chatRun E w c heap line past fd h) past line c.player.data.id t f ↔
      (Online w.redis t → c.player.data.id = 1 ∧ t = 1 ∧ f = 1) ∧
        (¬ Online w.redis t → ¬ Online w.redis 1) := by
  have hfits : line.length < maxTransMsgLen := Nat.lt_succ_of_le hlen.2
  have hmsg : (Util.talkObj heap line).eraseLen.getMsg past = line := talkObj_getMsg hfits hzero
  have htype : (Util.talkObj heap line).eraseLen.msgType = msgTalk := TransObj.setMsg_msgType _ _
  have hid : (Util.talkObj heap line).eraseLen.id = 1 := TransObj.setMsg_id _ _
  have hrecver : (Util.talkObj heap line).eraseLen.recverId = 1 := TransObj.setMsg_recverId _ _
  have hfd : (Util.talkObj heap line).eraseLen.fd = 1 := TransObj.setMsg_fd _ _
  rw [ChatDelivered, chatRun_eq normal logined hat]
  by_cases honline : Online w.redis t
  · rw [if_pos honline]
    by_cases hone : Online w.redis 1
    · rw [if_pos hone, exists_append_singleton_iff, htype, hmsg, hid, hrecver, hfd]
      simp only [honline, true_and, forall_const, not_true_eq_false, false_implies, and_true,
        eq_comm]
    · rw [if_neg hone]
      constructor
      · rintro ⟨obj, hgrown, -⟩
        exact absurd (List.self_eq_append_right.mp hgrown) (List.cons_ne_nil _ _)
      · intro h
        exact absurd ((h.1 honline).2.1 ▸ honline) hone
  · rw [if_neg honline]
    by_cases hone : Online w.redis 1
    · rw [if_pos hone]
      constructor
      · intro hgrown
        exact absurd (List.append_right_eq_self.mp hgrown) (List.cons_ne_nil _ _)
      · intro h
        exact absurd hone (h.2 honline)
    · rw [if_neg hone]
      exact iff_of_true rfl ⟨fun h => absurd h honline, fun _ => hone⟩

/-- A player of the id `a` who has chosen the friend `ann` of the id `t`. -/
def chatPlayer (a t : Int32) : Player where
  logined := true
  data := ⟨a, ascii "bob", ascii "secret"⟩
  isFriendsChanged := false
  talkerName := ascii "ann"
  friends := AList.insert (ascii "ann") (some t) ∅
  file := none
  canSave := true

def chatClient (a t : Int32) : ClientState := ⟨chatPlayer a t, ⟨0, []⟩, [], []⟩

theorem chatClient_talker (a t : Int32) : (chatClient a t).player.getTalkerId = some t := by
  have hfriend : (chatPlayer a t).friends.lookup (ascii "ann") = some (some t) :=
    AList.lookup_insert (∅ : Friends)
  exact congrArg Option.join hfriend

/-- A server where the user `t` alone is online, on the descriptor `f`. -/
def chatWorld (t f : Int32) : World where
  userinfo := []
  redis := (enter .empty t).setHash (idText t) ((∅ : RedisHash).insert (ascii "fd") (idText f))
  outbound := []
  sqlFaults := []
  redisFaults := []

theorem chatWorld_online (t f : Int32) : Online (chatWorld t f).redis t :=
  online_enter.mpr (.inl rfl)

theorem chatWorld_recorded (t f : Int32) :
    ((chatWorld t f).redis.hashes (idText t)).lookup (ascii "fd") = some (idText f) := by
  rw [chatWorld, RedisStore.setHash_hashes_self]
  exact AList.lookup_insert _

theorem chatDelivered_iff_one :
    ChatDelivered (chatWorld 1 1) (chatRun .reference (chatWorld 1 1) (chatClient 1 1)
      (.fill _ 0) (ascii "hi") [] 4 ⟨0, .fill _ 0⟩) [] (ascii "hi") 1 1 1 :=
  (chatDelivered_iff .reference rfl rfl (chatClient_talker 1 1)
    (fun _ => chatWorld_recorded 1 1) (by decide) (by decide) (by decide) _ [] 4 _).mpr
    ⟨fun _ => ⟨rfl, rfl, rfl⟩, fun h => absurd (chatWorld_online 1 1) h⟩

/-- A line to user 2, who is online, is not pushed at all. -/
theorem chat_nobody :
    ¬ ∀ (E : Mysql) (w : World) (c : ClientState) (t f : Int32) (line : Bytes)
      (heap : CharArray maxTransMsgLen) (past : Bytes) (fd : Int32) (h : EchoHandler),
      w.redisFaults = [] → c.player.logined = true → c.player.getTalkerId = some t →
      (Online w.redis t → (w.redis.hashes (idText t)).lookup (ascii "fd") = some (idText f)) →
      1 ≤ line.length ∧ line.length ≤ 63 → (0 : UInt8) ∉ line → (64 : UInt8) ∉ line →
      ChatDelivered w (chatRun E w c heap line past fd h) past line c.player.data.id t f := by
  intro claim
  have delivered := claim .reference (chatWorld 2 7) (chatClient 3 2) 2 7 (ascii "hi") (.fill _ 0)
    [] 4 ⟨0, .fill _ 0⟩ rfl rfl (chatClient_talker 3 2) (fun _ => chatWorld_recorded 2 7)
    (by decide) (by decide) (by decide)
  have offline : ¬ Online (chatWorld 2 7).redis 1 := fun h =>
    (online_enter.mp h).elim (by decide) (Finset.notMem_empty _)
  rw [ChatDelivered, if_pos (chatWorld_online 2 7), chatRun_eq rfl rfl (by decide), if_neg offline]
    at delivered
  obtain ⟨obj, hpushed, -⟩ := delivered
  cases hpushed

end Smer
