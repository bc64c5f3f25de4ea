import Smer.Laws.Friends
import Smer.Communication.Sessions

/-!
# Logging out

A logout line makes a `MSG_LOGOUT` object. The server has a handler for it, and no entry of the
dispatch table leads there, so the object is dropped when it arrives; and no routine of the client
ever takes the login back. After the line, the server and the client are as they were
(`types_logout`): the session of no user ends, and the client stays logged in.

What becomes of the session when the connection ends is in `Laws.Connections`.
-/

namespace Smer

open Lib ClientM ComManger

/-- A line typed at `p`: its message goes to the server, its task runs, and what the task pushes for
`p` is handled by `p`. -/
def Peer.types (E : Mysql) (past : Bytes) (w : World) (p : Peer) (line : Bytes) :
    Option (World × Peer) :=
  ((Util.getMsgFromInput p.heap past line).run p.client).bind fun (made, c) =>
    let p := { p with client := c }
    match made with
    | none => some (w, p)
    | some obj =>
      let w' := w.receives E p.fd p.handler past obj
      (p.deliver (w'.outbound.drop w.outbound.length)).map fun p => (w', p)

def logoutAliases : List Bytes := [ascii "lo", ascii "logout", ascii "Logout", ascii "LOGOUT"]

/-- The lines that the command table takes for a logout. -/
def LogoutLine (line : Bytes) : Prop :=
  ∃ name ∈ logoutAliases, ∃ arg, (64 : UInt8) ∉ arg ∧ line = name ++ 64 :: arg

/-- A session has ended: the user is not online, no descriptor is kept for the user, and the
sessions of the others are as they were. -/
structure SessionEnded (E : Mysql) (w w' : World) (u : Int32) : Prop where
  offline : ∃ w'', (isTalkerOnline u).run (World.answer E) w' = (.ok false, w'')
  noFd : (w'.redis.hashes (idText u)).lookup (ascii "fd") = none
  others : ∀ other, other ≠ u → (Online w'.redis other ↔ Online w.redis other) ∧
    w'.redis.hashes (idText other) = w.redis.hashes (idText other)

/-- A logout does what it says: the session ends on the server, and the client refuses what needs a
login. -/
def LogsOut (E : Mysql) (past : Bytes) (w : World) (p : Peer) (line : Bytes) (u : Int32) : Prop :=
  ∃ w' p', p.types E past w line = some (w', p') ∧ SessionEnded E w w' u ∧
    p'.client.player.logined = false ∧ ∃ c, tryLoginFirst.run p'.client = some (true, c)

section Logout

variable {E : Mysql} {past : Bytes} {w : World} {p : Peer} {line : Bytes} {u : Int32}

/-- The command table has one handler for the logout's names. -/
theorem find_logout {name : Bytes} (hname : name ∈ logoutAliases) :
    (64 : UInt8) ∉ name ∧
      Util.communicationCmdTable.find? (fun entry => entry.1 = name) =
        some (name, Util.handleInputOfLogout) := by
  simp only [logoutAliases, List.mem_cons, List.not_mem_nil, or_false] at hname
  rcases hname with rfl | rfl | rfl | rfl
  all_goals exact ⟨by decide, rfl⟩

/-- The message of a logout line. -/
theorem run_getMsgFromInput_logout {heap : CharArray maxTransMsgLen} {c : ClientState}
    (logined : c.player.logined = true) (hline : LogoutLine line) :
    (Util.getMsgFromInput heap past line).run c =
      some (some ((TransObj.make heap (-1) (-1) msgLogout (-1) (-1)).setMsgType msgLogout), c) := by
  obtain ⟨name, hname, arg, harg, rfl⟩ := hline
  obtain ⟨hat, hfind⟩ := find_logout hname
  rw [Util.getMsgFromInput_command Util.handleInputOfLogout hat harg hfind,
    Util.handleInputOfLogout, StateT.run_bind, Util.run_tryLoginFirst logined]
  rfl

/-- The server drops the message of a logout: its table has no entry for the type, so no task is
enqueued. -/
theorem receives_logout {fd : Int32} {h : EchoHandler} {obj : TransObj}
    (htype : obj.msgType = msgLogout) : w.receives E fd h past obj = w := by
  have hnone : HandleMsg.gMsgHandle.find? (fun entry => entry.1 = msgLogout) = none := by rfl
  have hsame : obj.eraseLen.msgType = msgLogout := htype
  rw [receives_eq, HandleMsg.handle, hsame, hnone]
  rfl

/-- **A logout line changes nothing**, on the server or at the client. -/
theorem types_logout (logined : p.client.player.logined = true) (hline : LogoutLine line) :
    p.types E past w line = some (w, p) := by
  rw [Peer.types, run_getMsgFromInput_logout logined hline]
  simp only [Option.bind_some]
  rw [receives_logout rfl, List.drop_length]
  rfl

/-- **No logout logs out**: neither the session of any user nor the login of the client ends with
the line. -/
theorem not_logsOut (logined : p.client.player.logined = true) (hline : LogoutLine line) :
    ¬ LogsOut E past w p line u := by
  rintro ⟨w', p', htypes, -, hout, -⟩
  rw [types_logout logined hline] at htypes
  cases htypes
  rw [logined] at hout
  cases hout

theorem not_logsOut_ann :
    ¬ LogsOut .reference [] pairWorld (pairPeer 1 (ascii "ann") 5) (ascii "lo@") 1 :=
  not_logsOut rfl ⟨ascii "lo", List.mem_cons_self, [], List.not_mem_nil, rfl⟩

/-- `ann`, who is online, types `logout@`, and is online. -/
theorem logout_online :
    ¬ ∀ (E : Mysql) (past : Bytes) (w : World) (p : Peer) (u : Int32) (name line : Bytes),
      w.redisFaults = [] → LoggedIn w p u name → LogoutLine line →
        LogsOut E past w p line u := by
  intro claim
  have hline : LogoutLine (ascii "logout@") :=
    ⟨ascii "logout", by decide, [], List.not_mem_nil, rfl⟩
  obtain ⟨w', p', htypes, hended, -⟩ := claim .reference [] pairWorld
    (pairPeer 1 (ascii "ann") 5) 1 (ascii "ann") (ascii "logout@") rfl loggedIn_ann hline
  rw [types_logout rfl hline] at htypes
  cases htypes
  obtain ⟨w'', hoffline⟩ := hended.offline
  rw [run_isTalkerOnline rfl, decide_eq_true loggedIn_ann.online] at hoffline
  cases hoffline

end Logout

end Smer
