import Smer.HandleMsg.HandleMsgClient
import Smer.Lib.Ensures

/-!
# What a received object does to a client

`Handling` says all that a handler does to the client's state, by the type of its object
(`handle_ensures`). No handler takes a system message back.
-/

namespace Smer

open Lib ClientM

/-- The text that announces a talk. -/
def talkText (obj : TransObj) (past : Bytes) : Bytes :=
  ascii "You just got message from " ++ toText obj.id.toInt ++ ascii " :\n" ++ obj.getMsg past ++
    ascii " \n"

/-- Who the player is after an object. -/
def TransObj.identity (obj : TransObj) (past : Bytes) (data : PlayerData) : PlayerData :=
  if obj.msgType = msgRegAccept then { data with id := obj.id }
  else if obj.msgType = msgLoginAccept then ⟨obj.id, obj.getName past, obj.getPasswd past⟩
  else data

/-- What the handler of an object does. -/
structure Handling (obj : TransObj) (past : Bytes) (c c' : ClientState) : Prop where
  grows : ∃ new, c'.sysBuff = c.sysBuff ++ new
  talk : obj.msgType = msgTalk → c'.sysBuff = c.sysBuff ++ [⟨sysOutputMsg, some (talkText obj past)⟩]
  reqBuff : c'.reqBuff = if obj.msgType = msgAskForFriend then c.reqBuff.pushBack obj else c.reqBuff
  logined : c'.player.logined = (c.player.logined || obj.msgType = msgLoginAccept)
  data : c'.player.data = obj.identity past c.player.data
  friends : c'.player.friends = c.player.friends ∨ obj.msgType = msgAskForFriendAccept ∧
    c'.player.friends = c.player.friends.insert (obj.getName past) (some obj.id)

/-- Who a player is, and whether the player is logged in, does not depend on saving. -/
theorem Player.savePlayerData_data (p : Player) : p.savePlayerData.1.data = p.data := by
  unfold savePlayerData
  split <;> rfl

theorem Player.savePlayerData_logined (p : Player) : p.savePlayerData.1.logined = p.logined := by
  unfold savePlayerData
  split <;> rfl

/-- What a friend more leaves alone. -/
theorem Player.addFriend_frame {p q : Player} {name : Bytes} {id : Int32} {added : Bool}
    (h : p.addFriend name id = some (q, added)) : q.data = p.data ∧ q.logined = p.logined := by
  unfold addFriend at h
  split at h
  · cases h
    exact ⟨rfl, rfl⟩
  · split at h
    · cases h
      exact ⟨rfl, rfl⟩
    · cases h
    · have hp := congrArg Prod.fst (Option.some.inj h)
      dsimp only at hp
      rw [← hp, Player.savePlayerData_data, Player.savePlayerData_logined]
      exact ⟨rfl, rfl⟩

section Handling

variable {obj : TransObj} {past : Bytes} {c : ClientState}

/-- An object of the types that change nothing but what is shown. -/
structure Plain (obj : TransObj) : Prop where
  ask : obj.msgType ≠ msgAskForFriend
  regAccept : obj.msgType ≠ msgRegAccept
  loginAccept : obj.msgType ≠ msgLoginAccept

theorem Plain.handled (plain : Plain obj) {c' : ClientState} (player : c'.player = c.player)
    (reqBuff : c'.reqBuff = c.reqBuff) (grows : ∃ new, c'.sysBuff = c.sysBuff ++ new)
    (talk : obj.msgType = msgTalk →
      c'.sysBuff = c.sysBuff ++ [⟨sysOutputMsg, some (talkText obj past)⟩]) :
    Handling obj past c c' := by
  refine ⟨grows, talk, ?_, ?_, ?_, .inl (congrArg Player.friends player)⟩
  · rw [if_neg plain.ask, reqBuff]
  · rw [player, decide_eq_false plain.loginAccept, Bool.or_false]
  · rw [player, TransObj.identity, if_neg plain.regAccept, if_neg plain.loginAccept]

/-- A handler without a client branch. -/
theorem Plain.nothing (plain : Plain obj) (notTalk : obj.msgType ≠ msgTalk) :
    Ensures (HandleMsgClient.nothing obj past) c fun _ c' => Handling obj past c c' :=
  .of_pure (plain.handled rfl rfl ⟨[], (List.append_nil _).symm⟩ fun h => absurd h notTalk)

/-- A handler that shows a text. -/
theorem Plain.output (plain : Plain obj) {text : Bytes}
    (talk : obj.msgType = msgTalk → text = talkText obj past) :
    Ensures (ClientM.output text) c fun _ c' => Handling obj past c c' :=
  .of_modify (plain.handled rfl rfl ⟨_, rfl⟩ fun h => by rw [talk h])

theorem regAccepted_ensures (htype : obj.msgType = msgRegAccept) :
    Ensures (HandleMsgClient.handleUserRegAcceptedMsg obj past) c
      fun _ c' => Handling obj past c c' := by
  refine .of_bind (.of_modify (.of_modify ⟨⟨_, rfl⟩, fun h => ?_, ?_, ?_, ?_, .inl rfl⟩))
  · rw [htype] at h
    exact absurd h (by decide)
  · rw [htype, if_neg (by decide)]
  · rw [htype, decide_eq_false (by decide), Bool.or_false]
    rfl
  · rw [TransObj.identity, htype, if_pos rfl]
    rfl

theorem loginAccepted_ensures (htype : obj.msgType = msgLoginAccept) :
    Ensures (HandleMsgClient.handleUserLogAcceptedMsg obj past) c
      fun _ c' => Handling obj past c c' := by
  refine .of_bind (.of_modify (.of_bind (.of_modify (.of_modify
    ⟨⟨_, rfl⟩, fun h => ?_, ?_, ?_, ?_, .inl (Player.savePlayerData_friends _)⟩))))
  · rw [htype] at h
    exact absurd h (by decide)
  · rw [htype, if_neg (by decide)]
  · rw [htype, decide_eq_true rfl, Bool.or_true]
    exact Player.savePlayerData_logined _
  · rw [TransObj.identity, htype, if_neg (by decide), if_pos rfl]
    exact Player.savePlayerData_data _

theorem askForFriend_ensures (htype : obj.msgType = msgAskForFriend) :
    Ensures (HandleMsgClient.handleAskForFriendMsg obj past) c
      fun _ c' => Handling obj past c c' := by
  refine .of_bind (.of_modify (.of_modify ⟨⟨_, rfl⟩, fun h => ?_, ?_, ?_, ?_, .inl rfl⟩))
  · rw [htype] at h
    exact absurd h (by decide)
  · rw [htype, if_pos rfl]
  · rw [htype, decide_eq_false (by decide), Bool.or_false]
  · rw [TransObj.identity, htype, if_neg (by decide), if_neg (by decide)]

theorem askForFriendAccept_ensures (htype : obj.msgType = msgAskForFriendAccept) :
    Ensures (HandleMsgClient.handleAskForFriendAcceptMsg obj past) c
      fun _ c' => Handling obj past c c' := by
  have notTalk : obj.msgType ≠ msgTalk := by
    rw [htype]
    decide
  have plain : Plain obj := by
    refine ⟨?_, ?_, ?_⟩
    all_goals
      rw [htype]
      decide
  unfold HandleMsgClient.handleAskForFriendAcceptMsg
  dsimp only
  split
  · exact .of_pure (plain.handled rfl rfl ⟨[], (List.append_nil _).symm⟩
      fun h => absurd h notTalk)
  · refine .of_bind fun added c₁ hadd => ?_
    obtain ⟨⟨player, b⟩, hplayer, hout⟩ := Option.map_eq_some_iff.mp hadd
    cases hout
    obtain ⟨hdata, hlogined⟩ := Player.addFriend_frame hplayer
    have handled : ∀ sysBuff, (∃ new, sysBuff = c.sysBuff ++ new) →
        Handling obj past c { c with player := player, sysBuff := sysBuff } := by
      intro sysBuff grows
      refine ⟨grows, fun h => absurd h notTalk, ?_, ?_, ?_, ?_⟩
      · rw [if_neg plain.ask]
      · rw [hlogined, decide_eq_false plain.loginAccept, Bool.or_false]
      · rw [hdata, TransObj.identity, if_neg plain.regAccept, if_neg plain.loginAccept]
      · rcases Player.friends_addFriend hplayer with hsame | hnew
        · exact .inl hsame
        · exact .inr ⟨htype, hnew⟩
    split
    · exact .of_modify (handled _ ⟨_, rfl⟩)
    · exact .of_pure (handled _ ⟨[], (List.append_nil _).symm⟩)

open HandleMsgClient in
/-- **What becomes of a client that handles an object.** -/
theorem handle_ensures (obj : TransObj) (past : Bytes) (c : ClientState) :
    Ensures (HandleMsgClient.handle obj past) c fun _ c' => Handling obj past c c' := by
  rw [HandleMsgClient.handle]
  have plain : ∀ {t : UInt32}, t = obj.msgType →
      t ∉ [msgAskForFriend, msgRegAccept, msgLoginAccept] → Plain obj := by
    rintro t rfl ht
    simp only [List.mem_cons, List.not_mem_nil, or_false, not_or] at ht
    exact ⟨ht.1, ht.2.1, ht.2.2⟩
  cases hfind : gMsgHandle.find? fun entry => entry.1 = obj.msgType with
  | none =>
    rw [List.find?_eq_none] at hfind
    have other : ∀ {t : UInt32}, t ∈ gMsgHandle.map Prod.fst → obj.msgType ≠ t := by
      rintro t ht rfl
      obtain ⟨entry, hentry, htype⟩ := List.mem_map.mp ht
      exact hfind entry hentry (decide_eq_true htype)
    exact Plain.nothing ⟨other (by decide), other (by decide), other (by decide)⟩
      (other (by decide))
  | some entry =>
    have htype := List.find?_some hfind
    rw [decide_eq_true_eq] at htype
    have hmem := List.mem_of_find?_eq_some hfind
    simp only [gMsgHandle, List.mem_cons, List.not_mem_nil, or_false] at hmem
    rcases hmem with rfl | rfl | rfl | rfl | rfl | rfl | rfl | rfl | rfl | rfl | rfl
    · exact (plain htype (by decide)).nothing (by rw [← htype]; decide)
    · exact (plain htype (by decide)).output fun _ => rfl
    · exact (plain htype (by decide)).nothing (by rw [← htype]; decide)
    · exact (plain htype (by decide)).output fun h => absurd (htype.trans h) (by decide)
    · exact regAccepted_ensures htype.symm
    · exact (plain htype (by decide)).nothing (by rw [← htype]; decide)
    · exact (plain htype (by decide)).output fun h => absurd (htype.trans h) (by decide)
    · exact loginAccepted_ensures htype.symm
    · exact askForFriend_ensures htype.symm
    · exact (plain htype (by decide)).output fun h => absurd (htype.trans h) (by decide)
    · exact askForFriendAccept_ensures htype.symm

end Handling

end Smer
