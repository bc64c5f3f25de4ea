import Smer.HandleMsg.ClientEffects
import Smer.Laws.Grammar

/-!
# What a typed line does to a client

`Typed` says all that a line does to the client's state, and what is known of the message that it
makes (`getMsgFromInput_ensures`). A line changes neither who the player is nor the list of requests,
and takes no system message back; of the friends it can add the sender of a request. A player who is
not logged in makes a login or a registration or nothing.

A line is read in one step, and nothing is established about a handler that runs meanwhile.
-/

namespace Smer

open Lib ClientM

/-- What a line does: to the player and the lists of the client, and what is known of the message
that it makes. -/
structure Typed (past : Bytes) (c : ClientState) (made : Option TransObj) (c' : ClientState) :
    Prop where
  grows : ∃ new, c'.sysBuff = c.sysBuff ++ new
  reqBuff : c'.reqBuff = c.reqBuff
  logined : c'.player.logined = c.player.logined
  data : c'.player.data = c.player.data
  friends : c'.player.friends = c.player.friends ∨ ∃ req ∈ c.reqBuff.data,
    c'.player.friends = c.player.friends.insert (req.getMsg past) (some req.id)
  /-- before the login there are logins and registrations -/
  gated : ∀ obj ∈ made, c.player.logined = true ∨ obj.msgType ∈ [msgLogin, msgReg]
  /-- which name no descriptor -/
  unaddressed : ∀ obj ∈ made, obj.msgType ∈ [msgLogin, msgReg] → obj.fd = -1
  /-- an acceptance bears the id of the player -/
  accepts : ∀ obj ∈ made, obj.msgType = msgAskForFriendAccept → obj.id = c.player.data.id
  /-- and is addressed to the id of a request -/
  addressed : ∀ obj ∈ made, obj.msgType = msgAskForFriendAccept →
    ∃ req ∈ c.reqBuff.data, req.id = obj.recverId
  /-- a friend request bears none -/
  asks : ∀ obj ∈ made, obj.msgType = msgAskForFriend → obj.id = -1

namespace Util

variable {heap : CharArray maxTransMsgLen} {past : Bytes} {snprintf : Snprintf} {c : ClientState}

/-- A line that makes no message and has system messages put is as `Typed` says. -/
theorem typed_none (new : List SystemMsgObj) :
    Typed past c none { c with sysBuff := c.sysBuff ++ new } where
  grows := ⟨new, rfl⟩
  reqBuff := rfl
  logined := rfl
  data := rfl
  friends := .inl rfl
  gated obj h := by cases h
  unaddressed obj h := by cases h
  accepts obj h := by cases h
  addressed obj h := by cases h
  asks obj h := by cases h

theorem typed_none_same : Typed past c none c := by
  have typed : Typed past c none { c with sysBuff := c.sysBuff ++ [] } := typed_none []
  rwa [List.append_nil] at typed

/-- A message of a player who is logged in, that is neither a login nor a registration nor the
acceptance of a request. -/
theorem typed_some {player : Player} {obj : TransObj} (logined : c.player.logined = true)
    (htype : obj.msgType ∉ [msgLogin, msgReg, msgAskForFriendAccept])
    (asks : obj.msgType = msgAskForFriend → obj.id = -1)
    (same : player.logined = c.player.logined ∧ player.data = c.player.data ∧
      player.friends = c.player.friends) :
    Typed past c (some obj) { c with player := player } where
  grows := ⟨[], (List.append_nil _).symm⟩
  reqBuff := rfl
  logined := same.1
  data := same.2.1
  friends := .inl same.2.2
  gated o ho := .inl logined
  unaddressed o ho h := by
    cases ho
    exact absurd (List.mem_append_left [msgAskForFriendAccept] h) htype
  accepts o ho h := by
    cases ho
    rw [h] at htype
    exact absurd (by decide) htype
  addressed o ho h := by
    cases ho
    rw [h] at htype
    exact absurd (by decide) htype
  asks o ho := by
    cases ho
    exact asks

/-- The gate of the commands that need a login. -/
theorem gate_ensures {rest : ClientM (Option TransObj)}
    (h : c.player.logined = true → Ensures rest c (Typed past c)) :
    Ensures (tryLoginFirst >>= fun first => if first = true then pure none else rest) c
      (Typed past c) := by
  refine .of_bind ?_
  rw [tryLoginFirst]
  refine .of_bind (.of_get ?_)
  by_cases hlogin : c.player.logined = true
  · rw [if_pos hlogin]
    exact .of_pure (h hlogin)
  · rw [if_neg hlogin]
    exact .of_bind (.of_modify (.of_pure (.of_pure (typed_none _))))

/-- The setters change the text area only. -/
theorem setNamePasswd_frame {o o' : TransObj} {name pwd : Bytes} {set : Bool}
    (h : o.setNamePasswd name pwd snprintf = some (o', set)) :
    o'.msgType = o.msgType ∧ o'.fd = o.fd := by
  rw [TransObj.setNamePasswd] at h
  split at h
  · cases h
    exact ⟨rfl, rfl⟩
  · obtain ⟨⟨o₁, set₁⟩, hname, h⟩ := Option.bind_eq_some_iff.mp h
    obtain ⟨⟨o₂, set₂⟩, hpwd, h⟩ := Option.bind_eq_some_iff.mp h
    cases h
    have named : o₁.msgType = o.msgType ∧ o₁.fd = o.fd := by
      rw [TransObj.setName] at hname
      split at hname
      · cases hname
        exact ⟨rfl, rfl⟩
      · obtain ⟨text, -, hout⟩ := Option.map_eq_some_iff.mp hname
        cases hout
        exact ⟨rfl, rfl⟩
    rw [TransObj.setPasswd] at hpwd
    split at hpwd
    · cases hpwd
      exact named
    · obtain ⟨text, -, hout⟩ := Option.map_eq_some_iff.mp hpwd
      cases hout
      exact named

theorem namePasswdObj_ensures {msgType : UInt32} (htype : msgType ∈ [msgLogin, msgReg])
    (arg : Bytes) : Ensures (namePasswdObj msgType heap past arg snprintf) c (Typed past c) := by
  unfold namePasswdObj
  split
  · exact .of_pure typed_none_same
  · refine .of_bind (.of_lift fun out hset => ?_)
    obtain ⟨obj, set⟩ := out
    obtain ⟨hobj, hfd⟩ := setNamePasswd_frame hset
    refine .of_pure ?_
    split
    · have hother : ∀ t, t ∉ [msgLogin, msgReg] → obj.msgType ≠ t := by
        intro t ht heq
        rw [← heq, hobj] at ht
        exact ht htype
      refine ⟨⟨[], (List.append_nil _).symm⟩, rfl, rfl, rfl, .inl rfl, fun o ho => .inr ?_,
        fun o ho _ => ?_, fun o ho h => ?_, fun o ho h => ?_, fun o ho h => ?_⟩
      · cases ho
        rw [hobj]
        exact htype
      · cases ho
        exact hfd
      · cases ho
        exact absurd h (hother _ (by decide))
      · cases ho
        exact absurd h (hother _ (by decide))
      · cases ho
        exact absurd h (hother _ (by decide))
    · exact typed_none_same

theorem accRequest_ensures (snprintf : Snprintf) (arg : Bytes) :
    Ensures (handleInputOfAccRequest heap past arg snprintf) c (Typed past c) := by
  intro made c' hrun
  cases hlogin : c.player.logined with
  | false =>
    have gated : Ensures (handleInputOfAccRequest heap past arg snprintf) c (Typed past c) :=
      gate_ensures fun h => by rw [hlogin] at h; cases h
    exact gated made c' hrun
  | true =>
    cases hreq : c.reqBuff.getOneRequest (atoi (cstr arg)).toInt with
    | none =>
      obtain ⟨told, hnone⟩ := run_accRequest_none past heap snprintf arg hlogin hreq
      rw [hnone] at hrun
      cases hrun
      exact typed_none _
    | some req =>
      rw [run_accRequest past heap snprintf arg hlogin hreq] at hrun
      obtain ⟨⟨player, added⟩, hadd, hout⟩ := Option.map_eq_some_iff.mp hrun
      cases hout
      obtain ⟨hdata, hlogined⟩ := Player.addFriend_frame hadd
      have hmem : req ∈ c.reqBuff.data := by
        rw [ConcList.getOneRequest] at hreq
        split at hreq
        · exact List.mem_of_getElem? hreq
        · cases hreq
      refine ⟨⟨_, rfl⟩, rfl, hlogined, hdata, ?_, fun o ho => .inl hlogin, fun o ho h => ?_,
        fun o ho _ => ?_, fun o ho _ => ⟨req, hmem, ?_⟩, fun o ho h => ?_⟩
      · rcases Player.friends_addFriend hadd with hsame | hnew
        · exact .inl hsame
        · exact .inr ⟨req, hmem, hnew⟩
      · cases ho
        exact absurd h (by decide : msgAskForFriendAccept ∉ [msgLogin, msgReg])
      · cases ho
        rfl
      · cases ho
        rfl
      · cases ho
        exact absurd h (by decide : msgAskForFriendAccept ≠ msgAskForFriend)

/-- The handler of every command does what `Typed` says. -/
theorem handler_ensures (cmd : Command) (arg : Bytes) :
    Ensures (cmd.handler heap past arg snprintf) c (Typed past c) := by
  have ask : ∀ {player : Player} (text : Bytes), c.player.logined = true →
      (player.logined = c.player.logined ∧ player.data = c.player.data ∧
        player.friends = c.player.friends) → Typed past c (some ((TransObj.make heap (-1) (-1)
          msgAskForFriend (.ofNat maxTransMsgLen) (-1)).setMsg text).1)
            { c with player := player } := by
    intro player text hlogin same
    refine typed_some hlogin ?_ (fun _ => TransObj.setMsg_id _ _) same
    rw [TransObj.setMsg_msgType]
    exact (by decide : msgAskForFriend ∉ [msgLogin, msgReg, msgAskForFriendAccept])
  cases cmd with
  | login => exact namePasswdObj_ensures (by decide) arg
  | regin => exact namePasswdObj_ensures (by decide) arg
  | logout =>
    exact gate_ensures fun hlogin => .of_pure (typed_some hlogin
      (by decide : msgLogout ∉ [msgLogin, msgReg, msgAskForFriendAccept])
      (fun h => absurd h (by decide : msgLogout ≠ msgAskForFriend)) ⟨rfl, rfl, rfl⟩)
  | askForFriend =>
    refine gate_ensures fun hlogin => ?_
    split
    · exact .of_pure typed_none_same
    · exact .of_pure (ask _ hlogin ⟨rfl, rfl, rfl⟩)
  | choseTalker =>
    refine gate_ensures fun hlogin => ?_
    split
    · exact .of_pure typed_none_same
    · exact .of_bind (.of_modify (.of_pure (ask _ hlogin ⟨rfl, rfl, rfl⟩)))
  | showFriends =>
    exact gate_ensures fun _ => .of_bind (.of_modify (.of_pure (typed_none _)))
  | showRequests =>
    exact gate_ensures fun _ => .of_bind (.of_modify (.of_pure (typed_none _)))
  | accRequest => exact accRequest_ensures snprintf arg
  | showMySelf => exact .of_bind (.of_get (.of_bind (.of_modify (.of_pure (typed_none _)))))

/-- **What becomes of a client whose player types a line.** -/
theorem getMsgFromInput_ensures (line : Bytes) :
    Ensures (getMsgFromInput heap past line) c (Typed past c) := by
  unfold getMsgFromInput
  split
  · refine gate_ensures fun hlogin => .of_pure (typed_some hlogin ?_ ?_ ⟨rfl, rfl, rfl⟩)
    · rw [talkObj, TransObj.setMsg_msgType]
      exact (by decide : msgTalk ∉ [msgLogin, msgReg, msgAskForFriendAccept])
    · rw [talkObj, TransObj.setMsg_msgType]
      exact fun h => absurd h (by decide : msgTalk ≠ msgAskForFriend)
  · rename_i cmdType arg _
    cases hfind : communicationCmdTable.find? fun entry => entry.1 = cmdType with
    | none => exact .of_pure typed_none_same
    | some entry =>
      have hmem := List.mem_of_find?_eq_some hfind
      rw [communicationCmdTable_eq] at hmem
      obtain ⟨⟨name, cmd⟩, -, rfl⟩ := List.mem_map.mp hmem
      exact handler_ensures cmd arg
  · exact .of_pure typed_none_same

end Util

end Smer
