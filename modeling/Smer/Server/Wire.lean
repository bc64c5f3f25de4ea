import Smer.Server.Zepoll
import Smer.HandleMsg.HandleMsgServer
import Smer.HandleMsg.HandleMsgClient

/-!
# One message end to end

A client's message, received whole by its connection's handler, is decoded and dispatched, and the
task it enqueues runs (`World.receives`). An object the server sends, received whole by a client, is
decoded and handed to the client's handler (`ClientState.receives`). In both directions the object
arrives as it was sent, with `len` zero.
-/

namespace Smer

open Lib

/-- The server after a task that was enqueued, if one was, has run alone. -/
def World.runTask (E : Mysql) (w : World) : Option (Task Unit) → World
  | none => w
  | some task => (task.run (World.answer E) w).2

/-- The server after one whole block of the connection `fd`: the object is dispatched, and its task
runs. -/
def World.receives (E : Mysql) (w : World) (fd : Int32) (h : EchoHandler) (past : Bytes)
    (obj : TransObj) : World :=
  match (h.handle .epollin (some (Client.sendBuf obj))).passed with
  | none => w
  | some received => w.runTask E (HandleMsg.handle received fd past)

/-- The whole block of an object decodes to the object. -/
theorem passed_sendBuf (h : EchoHandler) (obj : TransObj) :
    (h.handle .epollin (some (Client.sendBuf obj))).passed = some obj.eraseLen := by
  have hne : Client.sendBuf obj ≠ [] := by
    apply List.ne_nil_of_length_pos
    rw [Client.sendBuf_length]
    decide
  have hfits : (Client.sendBuf obj).length ≤ bufferSize := (Client.sendBuf_length obj).le
  rw [EchoHandler.handle_piece h hne]
  show some (TransObj.decode (h.buffer.write 0 (Client.sendBuf obj)).bytes) = _
  rw [CharArray.write_eq_overlay _ hfits, overlay, Client.sendBuf, List.append_assoc,
    TransObj.decode_toBytes]

/-- Reading a whole block does not end the connection. -/
theorem not_ends_sendBuf (obj : TransObj) : ¬ Events.epollin.Ends (some (Client.sendBuf obj)) := by
  rintro (hhup | ⟨-, -, hempty⟩)
  · cases hhup
  · have hlen := Client.sendBuf_length obj
    rw [Option.getD_some] at hempty
    rw [hempty] at hlen
    cases hlen

/-- A connection that reads a whole block stays, and passes the object on. -/
theorem ready_sendBuf {l : IOLoop} {fd : Int32} {h : EchoHandler}
    (hfd : l.handlers.lookup fd = some (.echo h)) (obj : TransObj) :
    ∃ h', l.ready fd .epollin (some (Client.sendBuf obj)) =
      some (l.addHandler fd (.echo h'), some obj.eraseLen) := by
  have hpassed := passed_sendBuf h obj
  have hstays : (h.handle .epollin (some (Client.sendBuf obj))).removed = false := by
    rw [Bool.eq_false_iff]
    intro hremoved
    exact not_ends_sendBuf obj ((h.handle_removed_iff _ _).mp hremoved)
  have hout : Events.epollin.out = false := rfl
  refine ⟨(h.handle .epollin (some (Client.sendBuf obj))).handler, ?_⟩
  simp only [IOLoop.ready, hfd, hstays, hpassed, hout, Bool.false_eq_true, if_false]

/-- A server that receives a block whole works on the object that was sent, with `len` zero. -/
theorem receives_eq (E : Mysql) (w : World) (fd : Int32) (h : EchoHandler) (past : Bytes)
    (obj : TransObj) :
    w.receives E fd h past obj = w.runTask E (HandleMsg.handle obj.eraseLen fd past) := by
  rw [World.receives, passed_sendBuf]

/-- A client after it has received one object whole and handled it. -/
def ClientState.receives (c : ClientState) (past : Bytes) (obj : TransObj) : Option ClientState :=
  match Client.recvMsg [obj.toBytes] with
  | received :: _ => ((HandleMsgClient.handle received past).run c).map Prod.snd
  | [] => some c

/-- A client that receives an object's bytes whole decodes the object that was sent, with `len`
zero. -/
theorem recvMsg_toBytes (obj : TransObj) : Client.recvMsg [obj.toBytes] = [obj.eraseLen] := by
  have hfits : ∀ p ∈ [obj.toBytes], p.length ≤ maxLenOfSendBuff := by
    intro p hp
    rw [List.mem_singleton.mp hp, TransObj.toBytes_length]
    decide
  rw [Client.recvMsg, Client.recvLoop_eq _ hfits]
  exact receive_blocks TransObj.decode_toBytes _ [obj]

theorem clientReceives_eq (c : ClientState) (past : Bytes) (obj : TransObj) :
    c.receives past obj = ((HandleMsgClient.handle obj.eraseLen past).run c).map Prod.snd := by
  rw [ClientState.receives, recvMsg_toBytes]

end Smer
