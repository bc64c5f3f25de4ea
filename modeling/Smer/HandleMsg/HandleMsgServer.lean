import Smer.Communication.ComManger
import Smer.Mysql.MysqlPool

/-!
# The server's message handlers (`HandleMsg/src/HandleMsg.cpp`, `SERVER_COMPARE`)

A handler checks its object and enqueues a task for the worker threads. The task owns the object:
it fills its fields in place and pushes it to the outbound queue as the answer.

Names and passwords are C strings inside the object, and the memory behind the object (`past`) is
read when they do not end in it.
-/

namespace Smer

open Lib

namespace HandleMsg

open ComManger MysqlPool

/-! ## The tasks -/

/-- The task of `handleUserSendMsg`. -/
def userSendTask (obj : TransObj) : Task Unit := do
  if ← isTalkerOnline obj.recverId then
    Task.push obj

def selectPassword : Bytes := ascii "select password from userinfo where username = '%s';"

def insertUser : Bytes :=
  ascii "insert into userinfo (username, fd, password) values('%s', %d, '%s');"

def selectMaxUserid : Bytes := ascii "select max(userid) as id from userinfo;"

/-- The task of `handleUserRegMsg` behind a successful insert. -/
def regAcceptTask (obj : TransObj) : Task Unit := do
  let obj := obj.setMsgType msgRegAccept
  match ← execQuery selectMaxUserid [] with
  | none => Task.abort .nullDeref
  | some [] =>
    Task.push ((obj.setMsgType msgRegRefuse).setMsg (ascii "regin err no found current id! \n")).1
  | some (row :: _) =>
    match row.getInt .id with
    | none => Task.abort .raised
    | some id => Task.push ((obj.setId id).setMsg (ascii "regin accepted! \n")).1

/-- The task of `handleUserRegMsg` behind the test that the name is new. -/
def regInsertTask (obj : TransObj) (fd : Int32) (past : Bytes) : Task Unit := do
  let passwd := obj.getPasswd past
  if ← execInsert insertUser [.str (obj.getName past), .int fd, .str passwd] then
    regAcceptTask obj
  else
    Task.push ((obj.setMsgType msgRegRefuse).setMsg (ascii "regin err! insert error!\n")).1

/-- The task of `handleUserRegMsg`. -/
def userRegTask (obj : TransObj) (fd : Int32) (past : Bytes) : Task Unit := do
  let obj := obj.setFd fd
  match ← execQuery selectPassword [.str (obj.getName past)] with
  | none => Task.abort .nullDeref
  | some (_ :: _) =>
    Task.push ((obj.setMsgType msgRegRefuse).setMsg (ascii "regin err! name reg exists already!")).1
  | some [] => regInsertTask obj fd past

def selectPasswordUserid : Bytes :=
  ascii "select password, userid from userinfo where username = '%s';"

/-- A refused login: the answer with its reason. -/
def refuseLogin (obj : TransObj) (reason : Bytes) : Task Unit :=
  Task.push ((obj.setMsgType msgLoginRefuse).setMsg reason).1

/-- The body of `if (msqlResSet->next())` in `handleUserLogMsg`, on the row it stands at, with the
acceptance that follows it. -/
def loginWithRow (obj : TransObj) (fd : Int32) (past : Bytes) (row : ResultRow) : Task Unit :=
  match row.getString .password with
  | none => Task.abort .raised
  | some relPasswd =>
    if obj.getPasswd past ≠ cstr relPasswd then
      refuseLogin obj (ascii "Login err! password not equal!\n")
    else
      match row.getInt .userid with
      | none => refuseLogin obj (ascii "Login err! id not found!\n")
      | some id => do
        let name := obj.getName past
        let obj := (obj.setId id).setFd fd
        let _ ← addSessionTalker obj.id name fd
        Task.push (obj.setMsgType msgLoginAccept)

/-- The task of `handleUserLogMsg`. -/
def userLogTask (obj : TransObj) (fd : Int32) (past : Bytes) : Task Unit := do
  if obj.len.toNat > maxTransMsgLen then
    refuseLogin obj (ascii "Login err! msg len too long! \n")
  else
    let name := obj.getName past
    match ← execQuery selectPasswordUserid [.str name] with
    | none => refuseLogin obj (ascii "Login err! not found name\n")
    | some (row :: _) => loginWithRow obj fd past row
    | some [] => Task.push (obj.setMsgType msgLoginAccept)

/-- The task of `handleUserLogOutMsg`. -/
def userLogOutTask (obj : TransObj) : Task Unit := do
  let _ ← removeSessionTalker obj.id

def selectUserid : Bytes := ascii "select userid from userinfo where username = '%s';"

/-- The task of `handleAskForFriendMsg`. -/
def askForFriendTask (obj : TransObj) (fd : Int32) (past : Bytes) : Task Unit := do
  match ← execQuery selectUserid [.str (obj.getMsg past)] with
  | none => Task.abort .nullDeref
  | some (row :: _) =>
    match row.getInt .userid with
    | none => Task.abort .raised
    | some id =>
      let obj := obj.setrecverId id
      if ← isTalkerOnline obj.recverId then
        let fd ← getTalkerFd obj.recverId
        Task.push (obj.setFd fd)
  | some [] => Task.push ((obj.setMsgType msgAskForFriendNotFound).setFd fd)

/-- The task of `handleAskForFriendAcceptMsg`. -/
def askForFriendAcceptTask (obj : TransObj) : Task Unit := do
  if ← isTalkerOnline obj.recverId then
    let fd ← getTalkerFd obj.recverId
    let obj := obj.setFd fd
    match ← getTalkerName obj.id with
    | some name =>
      if name.length ≥ nameMaxLen then return
      else Task.push (obj.setMsg (cstr name)).1
    | none => Task.push obj

/-! The formats are those of the statement texts. -/

theorem selectPassword_eq : selectPassword = selectFormat .password := by decide +kernel

theorem selectPasswordUserid_eq : selectPasswordUserid = selectFormat .passwordUserid := by
  decide +kernel

theorem selectUserid_eq : selectUserid = selectFormat .userid := by decide +kernel
theorem insertUser_eq : insertUser = insertFormat := by decide +kernel
theorem selectMaxUserid_eq : selectMaxUserid = maxUseridText := rfl

/-! ## The handlers -/

/-- A handler: the task it enqueues, if it does. -/
abbrev Handler := TransObj → Int32 → Bytes → Option (Task Unit)

def handleMsgCmd : Handler := fun _ _ _ => none
def handleUserSendMsg : Handler := fun obj _ _ => some (userSendTask obj)

def handleUserRegMsg : Handler := fun obj fd past =>
  if obj.len.toNat > nameMaxLen + passwordMaxLen then none else some (userRegTask obj fd past)

def handleUserRegRefusedMsg : Handler := fun _ _ _ => none
def handleUserRegAcceptedMsg : Handler := fun _ _ _ => none
def handleUserLogMsg : Handler := fun obj fd past => some (userLogTask obj fd past)
def handleUserLogRefusedMsg : Handler := fun _ _ _ => none
def handleUserLogAcceptedMsg : Handler := fun _ _ _ => none
def handleUserLogOutMsg : Handler := fun obj _ _ => some (userLogOutTask obj)
def handleAskForFriendMsg : Handler := fun obj fd past => some (askForFriendTask obj fd past)
def handleAskForFriendNotFoundMsg : Handler := fun _ _ _ => none
def handleAskForFriendAcceptMsg : Handler := fun obj _ _ => some (askForFriendAcceptTask obj)

/-- `g_msgHandle`. It has no entry for `MSG_LOGOUT`. -/
def gMsgHandle : List (UInt32 × Handler) :=
  [(msgCmd, handleMsgCmd),
    (msgTalk, handleUserSendMsg),
    (msgReg, handleUserRegMsg),
    (msgRegRefuse, handleUserRegRefusedMsg),
    (msgRegAccept, handleUserRegAcceptedMsg),
    (msgLogin, handleUserLogMsg),
    (msgLoginRefuse, handleUserLogRefusedMsg),
    (msgLoginAccept, handleUserLogAcceptedMsg),
    (msgAskForFriend, handleAskForFriendMsg),
    (msgAskForFriendNotFound, handleAskForFriendNotFoundMsg),
    (msgAskForFriendAccept, handleAskForFriendAcceptMsg)]

/-- `MsgHandler::handle`: the first entry of the object's type is called. -/
def handle (obj : TransObj) (fd : Int32) (past : Bytes) : Option (Task Unit) :=
  (gMsgHandle.find? fun entry => entry.1 = obj.msgType).bind fun entry => entry.2 obj fd past

/-! What the dispatch makes of an object of each type that enqueues a task. -/

section Dispatch

variable {obj : TransObj} (fd : Int32) (past : Bytes)

theorem handle_talk (htype : obj.msgType = msgTalk) :
    handle obj fd past = some (userSendTask obj) := by
  rw [handle, htype]
  rfl

theorem handle_login (htype : obj.msgType = msgLogin) :
    handle obj fd past = some (userLogTask obj fd past) := by
  rw [handle, htype]
  rfl

theorem handle_askForFriend (htype : obj.msgType = msgAskForFriend) :
    handle obj fd past = some (askForFriendTask obj fd past) := by
  rw [handle, htype]
  rfl

theorem handle_askForFriendAccept (htype : obj.msgType = msgAskForFriendAccept) :
    handle obj fd past = some (askForFriendAcceptTask obj) := by
  rw [handle, htype]
  rfl

/-- The tasks that the dispatch can enqueue. -/
theorem handle_cases {fd : Int32} {past : Bytes} {task : Task Unit}
    (handled : handle obj fd past = some task) :
    (obj.msgType = msgTalk ∧ task = userSendTask obj) ∨
      (obj.msgType = msgReg ∧ task = userRegTask obj fd past) ∨
      (obj.msgType = msgLogin ∧ task = userLogTask obj fd past) ∨
      (obj.msgType = msgAskForFriend ∧ task = askForFriendTask obj fd past) ∨
      (obj.msgType = msgAskForFriendAccept ∧ task = askForFriendAcceptTask obj) := by
  obtain ⟨⟨msgType, handler⟩, hfind, hhandler⟩ := Option.bind_eq_some_iff.mp handled
  have htype := List.find?_some hfind
  rw [decide_eq_true_eq] at htype
  have hmem := List.mem_of_find?_eq_some hfind
  simp only [gMsgHandle, List.mem_cons, Prod.mk.injEq, List.not_mem_nil, or_false] at hmem
  rw [← htype]
  -- The entries without a task answer `none`.
  rcases hmem with ⟨-, rfl⟩ | ⟨rfl, rfl⟩ | ⟨rfl, rfl⟩ | ⟨-, rfl⟩ | ⟨-, rfl⟩ | ⟨rfl, rfl⟩ | ⟨-, rfl⟩ |
    ⟨-, rfl⟩ | ⟨rfl, rfl⟩ | ⟨-, rfl⟩ | ⟨rfl, rfl⟩
  · cases hhandler
  · cases hhandler
    exact .inl ⟨rfl, rfl⟩
  · simp only [handleUserRegMsg, Option.ite_none_left_eq_some] at hhandler
    cases hhandler.2
    exact .inr (.inl ⟨rfl, rfl⟩)
  · cases hhandler
  · cases hhandler
  · cases hhandler
    exact .inr (.inr (.inl ⟨rfl, rfl⟩))
  · cases hhandler
  · cases hhandler
  · cases hhandler
    exact .inr (.inr (.inr (.inl ⟨rfl, rfl⟩)))
  · cases hhandler
  · cases hhandler
    exact .inr (.inr (.inr (.inr ⟨rfl, rfl⟩)))

end Dispatch

end HandleMsg

end Smer
