import Smer.SmerSystem.SysManger

/-!
# From a typed line to a message (`Util/src/Util.cpp`)

`getMsgFromInput` cuts a line at its `@` signs. One piece is talk; two pieces are a command and its
argument, looked up in `communicationCmdTable`. Most handlers build one message object. Its text
area starts as whatever the heap cell held (`heap`), and the memory behind an object is `past`. The
name and the password of a login are formats: what `snprintf` makes of them is a parameter as well,
left to the standard unless it is given.
-/

namespace Smer

open Lib ClientM

namespace Util

/-- `splitStr`, which is `boost::split` at any of the bytes of `fg`. -/
def splitStr (source fg : Bytes) : List Bytes := source.splitOnP fun b => b ∈ fg

def inputstrSplitFlag : Bytes := ascii "@"

/-- The length test of a name and a password, on the pieces of an argument. -/
def splitInputStr2NameAndPwd (input : Bytes) : Option (Bytes × Bytes) :=
  match splitStr input (ascii "|") with
  | [name, pwd] =>
    if name.length > nameMaxLen - 1 ∨ pwd.length > passwordMaxLen - 1 then none
    else some (name, pwd)
  | _ => none

/-- An input handler: the message it returns, or null. -/
abbrev InputHandler := CharArray maxTransMsgLen → Bytes → Bytes → Snprintf →
  ClientM (Option TransObj)

/-- The message of a name and a password. -/
def namePasswdObj (msgType : UInt32) : InputHandler := fun heap _ input snprintf =>
  match splitInputStr2NameAndPwd input with
  | none => return none
  | some (name, pwd) => do
    let obj := TransObj.make heap (-1) (-1) msgType (.ofNat maxTransMsgLen) (-1)
    let (obj, set) ←
      (obj.setNamePasswd (cstr name) (cstr pwd) snprintf : Option (TransObj × Bool))
    return if set then some obj else none

def handleInputOfLogin : InputHandler := namePasswdObj msgLogin
def handleInputOfRegin : InputHandler := namePasswdObj msgReg

def handleInputOfLogout : InputHandler := fun heap _ _ _ => do
  if ← tryLoginFirst then return none
  return some ((TransObj.make heap (-1) (-1) msgLogout (-1) (-1)).setMsgType msgLogout)

def handleInputOfAskForFriend : InputHandler := fun heap _ input _ => do
  if ← tryLoginFirst then return none
  if input.length ≥ nameMaxLen then return none
  let obj := TransObj.make heap (-1) (-1) msgAskForFriend (.ofNat maxTransMsgLen) (-1)
  return some (obj.setMsg (cstr input)).1

/-- Choosing a talker also asks for the friend of that name. -/
def handleInputOfChoseTalker : InputHandler := fun heap _ input _ => do
  if ← tryLoginFirst then return none
  if input.length ≥ nameMaxLen then return none
  modify fun c => { c with player := c.player.setTalkerName input }
  let obj := TransObj.make heap (-1) (-1) msgAskForFriend (.ofNat maxTransMsgLen) (-1)
  return some (obj.setMsg (cstr input)).1

def handleInputOfShowFriends : InputHandler := fun _ _ _ _ => do
  if ← tryLoginFirst then return none
  putSysMsg sysShowFriendsMsg none
  return none

def handleInputOfShowRequests : InputHandler := fun _ _ _ _ => do
  if ← tryLoginFirst then return none
  putSysMsg sysShowAskForFriendReq none
  return none

/-- `SysManger::containsReqIdx`. -/
def containsReqIdx (c : ClientState) (index : Int) : Bool :=
  index ≥ 0 && index < c.reqBuff.getSize

/-- The accepted request stays in the list, and the message's text area is left as it was. -/
def handleInputOfAccRequest : InputHandler := fun heap past input _ => do
  if ← tryLoginFirst then return none
  let index := (atoi (cstr input)).toInt
  if containsReqIdx (← get) index then
    match (← get).reqBuff.getOneRequest index with
    | none =>
      output (ascii "Your command of accept the request send err \n")
      return none
    | some reqObj =>
      let recvId := reqObj.id
      let name := reqObj.getMsg past
      let playerId := (← get).player.data.id
      let obj := TransObj.make heap playerId recvId msgAskForFriendAccept (.ofNat maxTransMsgLen)
        (-1)
      output (ascii "Your command of accept the request have been send \n")
      let _ ← addFriend name recvId
      return some obj
  else
    output (ascii "Your input number of accepted request id not exists ==> " ++ input ++
      ascii " \n")
    return none

def handleInputOfShowMySelf : InputHandler := fun _ _ _ _ => do
  let data := (← get).player.data
  output (ascii "Your info:  \n" ++ ascii "id: " ++ toText data.id.toInt ++ ascii " \n" ++
    ascii "name: " ++ data.name ++ ascii " \n" ++ ascii "passwd: " ++ data.password ++ ascii " \n")
  return none

def communicationCmdTable : List (Bytes × InputHandler) :=
  [(ascii "li", handleInputOfLogin),
    (ascii "login", handleInputOfLogin),
    (ascii "Login", handleInputOfLogin),
    (ascii "LOGIN", handleInputOfLogin),
    (ascii "lo", handleInputOfLogout),
    (ascii "logout", handleInputOfLogout),
    (ascii "Logout", handleInputOfLogout),
    (ascii "LOGOUT", handleInputOfLogout),
    (ascii "rg", handleInputOfRegin),
    (ascii "regin", handleInputOfRegin),
    (ascii "Regin", handleInputOfRegin),
    (ascii "REGIN", handleInputOfRegin),
    (ascii "ad", handleInputOfAskForFriend),
    (ascii "add", handleInputOfAskForFriend),
    (ascii "Add", handleInputOfAskForFriend),
    (ascii "ch", handleInputOfChoseTalker),
    (ascii "chose", handleInputOfChoseTalker),
    (ascii "Chose", handleInputOfChoseTalker),
    (ascii "CHOSE", handleInputOfChoseTalker),
    (ascii "sf", handleInputOfShowFriends),
    (ascii "showfriends", handleInputOfShowFriends),
    (ascii "showFriends", handleInputOfShowFriends),
    (ascii "ShowFriends", handleInputOfShowFriends),
    (ascii "sr", handleInputOfShowRequests),
    (ascii "showrequests", handleInputOfShowRequests),
    (ascii "showRequests", handleInputOfShowRequests),
    (ascii "ShowRequests", handleInputOfShowRequests),
    (ascii "SHOWREQUESTS", handleInputOfShowRequests),
    (ascii "ar", handleInputOfAccRequest),
    (ascii "acceptrequest", handleInputOfAccRequest),
    (ascii "acceptRequest", handleInputOfAccRequest),
    (ascii "Acceptrequest", handleInputOfAccRequest),
    (ascii "ACCEPTREQUEST", handleInputOfAccRequest),
    (ascii "Me", handleInputOfShowMySelf),
    (ascii "me", handleInputOfShowMySelf)]

/-- A line of talk. Nobody is named as its receiver, and a line that is too long is only logged. -/
def talkObj (heap : CharArray maxTransMsgLen) (input : Bytes) : TransObj :=
  ((TransObj.make heap 1 1 msgTalk 1 1).setMsg (cstr input)).1

/-- `getMsgFromInput`. -/
def getMsgFromInput (heap : CharArray maxTransMsgLen) (past input : Bytes)
    (snprintf : Snprintf := .standard) : ClientM (Option TransObj) :=
  match splitStr input inputstrSplitFlag with
  | [_] => do
    if ← tryLoginFirst then return none
    return some (talkObj heap input)
  | [cmdType, cmd] =>
    match communicationCmdTable.find? fun entry => entry.1 = cmdType with
    | some entry => entry.2 heap past cmd snprintf
    | none => return none
  | _ => return none

/-! ## Which handler a line reaches -/

/-! A text is cut at one byte. -/

section Split

variable {b : UInt8} {piece rest : Bytes}

theorem splitStr_notMem {input : Bytes} (hb : b ∉ input) : splitStr input [b] = [input] := by
  apply List.splitOnP_eq_singleton
  intro x hx
  rw [decide_eq_false_iff_not]
  intro hmem
  rw [List.mem_singleton.mp hmem] at hx
  exact hb hx

/-- The first piece of a text ends where the byte first stands. -/
theorem splitStr_cons (hpiece : b ∉ piece) (rest : Bytes) :
    splitStr (piece ++ b :: rest) [b] = piece :: splitStr rest [b] := by
  rw [splitStr, List.splitOnP_append_cons_of_forall_mem _ _ (by simp), splitStr]
  intro x hx
  rw [decide_eq_false_iff_not]
  intro hmem
  rw [List.mem_singleton.mp hmem] at hx
  exact hpiece hx

theorem splitStr_pair (hpiece : b ∉ piece) (hrest : b ∉ rest) :
    splitStr (piece ++ b :: rest) [b] = [piece, rest] := by
  rw [splitStr_cons hpiece, splitStr_notMem hrest]

/-- Where the byte stands twice there are three pieces or more. -/
theorem splitStr_three (hpiece : b ∉ piece) (hrest : b ∈ rest) :
    ∃ x y tail, splitStr (piece ++ b :: rest) [b] = piece :: x :: y :: tail := by
  obtain ⟨x, back, rfl, hx⟩ := List.eq_append_cons_of_mem hrest
  obtain ⟨y, tail, htail⟩ := List.exists_cons_of_ne_nil
    (List.splitOnP_ne_nil (fun a => decide (a ∈ [b])) back)
  refine ⟨x, y, tail, ?_⟩
  rw [splitStr_cons hpiece, splitStr_cons hx, splitStr, htail]

/-- A text has the byte nowhere, once, or more often. -/
theorem pieces_cases (b : UInt8) (input : Bytes) :
    b ∉ input ∨ ∃ piece rest, input = piece ++ b :: rest ∧ b ∉ piece := by
  by_cases hb : b ∈ input
  · exact .inr (List.eq_append_cons_of_mem hb)
  · exact .inl hb

end Split

theorem splitStr_none {input : Bytes} (hat : (64 : UInt8) ∉ input) :
    splitStr input inputstrSplitFlag = [input] := splitStr_notMem hat

theorem splitStr_one {cmdType cmd : Bytes} (htype : (64 : UInt8) ∉ cmdType)
    (hcmd : (64 : UInt8) ∉ cmd) :
    splitStr (cmdType ++ 64 :: cmd) inputstrSplitFlag = [cmdType, cmd] := splitStr_pair htype hcmd

/-- A line with two `@` is in three pieces or more. -/
theorem splitStr_two {cmdType cmd : Bytes} (htype : (64 : UInt8) ∉ cmdType)
    (hcmd : (64 : UInt8) ∈ cmd) :
    ∃ x y rest, splitStr (cmdType ++ 64 :: cmd) inputstrSplitFlag = cmdType :: x :: y :: rest :=
  splitStr_three htype hcmd

section Lines

variable {heap : CharArray maxTransMsgLen} {past : Bytes} {snprintf : Snprintf} {c : ClientState}

theorem run_tryLoginFirst (logined : c.player.logined = true) :
    tryLoginFirst.run c = some (false, c) := by
  simp only [tryLoginFirst, StateT.run_bind, StateT.run_get, Option.pure_def, Option.bind_eq_bind,
    Option.bind_some, if_pos logined, StateT.run_pure]

theorem run_tryLoginFirst_not (logined : c.player.logined = false) :
    ∃ c', tryLoginFirst.run c = some (true, c') := by
  rw [tryLoginFirst]
  simp only [StateT.run_bind, StateT.run_get, Option.pure_def, Option.bind_eq_bind,
    Option.bind_some, logined, Bool.false_eq_true, if_false]
  exact ⟨_, rfl⟩

/-- A line of one piece, typed by a player who is logged in, is talk. -/
theorem run_getMsgFromInput_talk (logined : c.player.logined = true) {line : Bytes}
    (hat : (64 : UInt8) ∉ line) :
    (getMsgFromInput heap past line snprintf).run c = some (some (talkObj heap line), c) := by
  rw [getMsgFromInput, splitStr_none hat]
  simp only [StateT.run_bind, run_tryLoginFirst logined]
  rfl

/-- A line of two pieces goes to the handler of its command. -/
theorem getMsgFromInput_command {cmdType cmd : Bytes} (handler : InputHandler)
    (htype : (64 : UInt8) ∉ cmdType) (hcmd : (64 : UInt8) ∉ cmd)
    (hfind : communicationCmdTable.find? (fun entry => entry.1 = cmdType) =
      some (cmdType, handler)) :
    getMsgFromInput heap past (cmdType ++ 64 :: cmd) snprintf = handler heap past cmd snprintf := by
  rw [getMsgFromInput, splitStr_one htype hcmd]
  simp only [hfind]

/-- A line of more than two pieces makes nothing. -/
theorem getMsgFromInput_many {cmdType cmd : Bytes} (htype : (64 : UInt8) ∉ cmdType)
    (hcmd : (64 : UInt8) ∈ cmd) :
    (getMsgFromInput heap past (cmdType ++ 64 :: cmd) snprintf).run c = some (none, c) := by
  obtain ⟨x, y, rest, hsplit⟩ := splitStr_two htype hcmd
  rw [getMsgFromInput, hsplit]
  rfl

end Lines

end Util

end Smer
