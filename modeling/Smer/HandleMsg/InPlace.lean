import Smer.HandleMsg.Footprint
import Smer.Lib.Handover

/-!
# The tasks with their objects in memory (`HandleMsg/src/HandleMsg.cpp`, `SERVER_COMPARE`)

A task shares its object with the outbound queue: `push` puts the pointer there, and `Client::run`
reads the object when it comes to it. Here the tasks are written as the source has them, each setter
in place and in its order. `byValue` takes an object and gives the task on values
(`HandleMsg.handle`), which is the reading that the other laws use (`byValue_handle`).
-/

namespace Smer

open Lib

namespace InPlace

open CellProg ComManger MysqlPool

/-- A task on its object. -/
abbrev ObjTask := CellProg Effect Effect.Ans TransObj Unit

def abort (why : Abort) : ObjTask := lift (Task.abort why)

/-- `obj->setMsgType`, `obj->setMsg`, `push`. -/
def answer (msgType : UInt32) (text : Bytes) : ObjTask := do
  update fun obj => obj.setMsgType msgType
  update fun obj => (obj.setMsg text).1
  push

def userSendTask : ObjTask := do
  let obj ← load
  if ← lift (isTalkerOnline obj.recverId) then push

def regAcceptTask : ObjTask := do
  let msqlResSet ← lift (execQuery HandleMsg.selectMaxUserid [])
  update fun obj => obj.setMsgType msgRegAccept
  match msqlResSet with
  | none => abort .nullDeref
  | some [] => answer msgRegRefuse (ascii "regin err no found current id! \n")
  | some (row :: _) =>
    match row.getInt .id with
    | none => abort .raised
    | some id =>
      update fun obj => obj.setId id
      update fun obj => (obj.setMsg (ascii "regin accepted! \n")).1
      push

def userRegTask (fd : Int32) (past : Bytes) : ObjTask := do
  update fun obj => obj.setFd fd
  let obj ← load
  match ← lift (execQuery HandleMsg.selectPassword [.str (obj.getName past)]) with
  | none => abort .nullDeref
  | some (_ :: _) => answer msgRegRefuse (ascii "regin err! name reg exists already!")
  | some [] =>
    let obj ← load
    let passwd := obj.getPasswd past
    if ← lift (execInsert HandleMsg.insertUser [.str (obj.getName past), .int fd, .str passwd]) then
      regAcceptTask
    else answer msgRegRefuse (ascii "regin err! insert error!\n")

def refuseLogin (reason : Bytes) : ObjTask := answer msgLoginRefuse reason

def loginWithRow (fd : Int32) (past : Bytes) (row : ResultRow) : ObjTask := do
  match row.getString .password with
  | none => abort .raised
  | some relPasswd =>
    let obj ← load
    if obj.getPasswd past ≠ cstr relPasswd then
      refuseLogin (ascii "Login err! password not equal!\n")
    else
      match row.getInt .userid with
      | none => refuseLogin (ascii "Login err! id not found!\n")
      | some id =>
        update fun obj => obj.setId id
        update fun obj => obj.setFd fd
        let obj ← load
        let _ ← lift (addSessionTalker obj.id (obj.getName past) fd)
        update fun obj => obj.setMsgType msgLoginAccept
        push

def userLogTask (fd : Int32) (past : Bytes) : ObjTask := do
  let obj ← load
  if obj.len.toNat > maxTransMsgLen then
    refuseLogin (ascii "Login err! msg len too long! \n")
  else
    match ← lift (execQuery HandleMsg.selectPasswordUserid [.str (obj.getName past)]) with
    | none => refuseLogin (ascii "Login err! not found name\n")
    | some (row :: _) => loginWithRow fd past row
    | some [] =>
      update fun obj => obj.setMsgType msgLoginAccept
      push

def askForFriendTask (fd : Int32) (past : Bytes) : ObjTask := do
  let obj ← load
  match ← lift (execQuery HandleMsg.selectUserid [.str (obj.getMsg past)]) with
  | none => abort .nullDeref
  | some (row :: _) =>
    match row.getInt .userid with
    | none => abort .raised
    | some id =>
      update fun obj => obj.setrecverId id
      let obj ← load
      if ← lift (isTalkerOnline obj.recverId) then
        let fd ← lift (getTalkerFd obj.recverId)
        update fun obj => obj.setFd fd
        push
  | some [] =>
    update fun obj => obj.setMsgType msgAskForFriendNotFound
    update fun obj => obj.setFd fd
    push

def askForFriendAcceptTask : ObjTask := do
  let obj ← load
  if ← lift (isTalkerOnline obj.recverId) then
    let fd ← lift (getTalkerFd obj.recverId)
    update fun obj => obj.setFd fd
    let obj ← load
    match ← lift (getTalkerName obj.id) with
    | some name =>
      if name.length ≥ nameMaxLen then return
      else
        update fun obj => (obj.setMsg (cstr name)).1
        push
    | none => push

/-- A handler: the task that it enqueues, if it does. -/
abbrev Handler := TransObj → Int32 → Bytes → Option ObjTask

/-- A handler whose server branch is empty. -/
def nothing : Handler := fun _ _ _ => none

def handleUserRegMsg : Handler := fun obj fd past =>
  if obj.len.toNat > nameMaxLen + passwordMaxLen then none else some (userRegTask fd past)

/-- `g_msgHandle`. -/
def gMsgHandle : List (UInt32 × Handler) :=
  [(msgCmd, nothing),
    (msgTalk, fun _ _ _ => some userSendTask),
    (msgReg, handleUserRegMsg),
    (msgRegRefuse, nothing),
    (msgRegAccept, nothing),
    (msgLogin, fun _ fd past => some (userLogTask fd past)),
    (msgLoginRefuse, nothing),
    (msgLoginAccept, nothing),
    (msgAskForFriend, fun _ fd past => some (askForFriendTask fd past)),
    (msgAskForFriendNotFound, nothing),
    (msgAskForFriendAccept, fun _ _ _ => some askForFriendAcceptTask)]

/-- `MsgHandler::handle`. -/
def handle (obj : TransObj) (fd : Int32) (past : Bytes) : Option ObjTask :=
  (gMsgHandle.find? fun entry => entry.1 = obj.msgType).bind fun entry => entry.2 obj fd past

/-! ## The tasks on values -/

/-- The task on a value, which pushes copies. -/
def byValue (task : ObjTask) (obj : TransObj) : Task Unit := do
  let _ ← exec Task.push task obj

section ByValue

variable (fd : Int32) (past : Bytes) (obj : TransObj)

theorem byValue_load_bind (f : TransObj → ObjTask) :
    byValue (load >>= f) obj = byValue (f obj) obj := rfl

theorem byValue_update_bind (g : TransObj → TransObj) (f : Unit → ObjTask) :
    byValue (update g >>= f) obj = byValue (f ()) (g obj) := rfl

theorem byValue_lift_bind {α : Type} (p : Task α) (f : α → ObjTask) :
    byValue (lift p >>= f) obj = p >>= fun a => byValue (f a) obj := by
  rw [byValue, exec_lift_bind]
  exact Prog.bind_assoc' _ _ _

theorem byValue_abort (why : Abort) : byValue (abort why) obj = Task.abort why := by
  rw [byValue, abort, exec_lift]
  exact (congrArg (· >>= _) (Task.abort_bind _ _)).trans (Task.abort_bind _ _)

theorem byValue_userSendTask : byValue userSendTask obj = HandleMsg.userSendTask obj := by
  rw [userSendTask, byValue_load_bind, byValue_lift_bind, HandleMsg.userSendTask]
  congr 1
  funext online
  cases online <;> rfl

theorem byValue_regAcceptTask : byValue regAcceptTask obj = HandleMsg.regAcceptTask obj := by
  rw [regAcceptTask, byValue_lift_bind, HandleMsg.regAcceptTask]
  congr 1
  funext rows
  rw [byValue_update_bind]
  rcases rows with _ | _ | ⟨row, rows⟩
  · exact byValue_abort _ _
  · rfl
  · dsimp only
    cases row.getInt .id with
    | none => exact byValue_abort _ _
    | some id => rfl

theorem byValue_userRegTask :
    byValue (userRegTask fd past) obj = HandleMsg.userRegTask obj fd past := by
  rw [userRegTask, byValue_update_bind, byValue_load_bind, byValue_lift_bind, HandleMsg.userRegTask]
  congr 1
  funext rows
  rcases rows with _ | _ | ⟨row, rows⟩
  · exact byValue_abort _ _
  · dsimp only
    rw [byValue_load_bind, byValue_lift_bind, HandleMsg.regInsertTask]
    congr 1
    funext inserted
    cases inserted with
    | true => exact byValue_regAcceptTask _
    | false => rfl
  · rfl

theorem byValue_loginWithRow (row : ResultRow) :
    byValue (loginWithRow fd past row) obj = HandleMsg.loginWithRow obj fd past row := by
  rw [loginWithRow, HandleMsg.loginWithRow]
  cases row.getString .password with
  | none => exact byValue_abort _ _
  | some relPasswd =>
    dsimp only
    rw [byValue_load_bind]
    split
    · rfl
    · cases row.getInt .userid with
      | none => rfl
      | some id =>
        dsimp only
        rw [byValue_update_bind, byValue_update_bind, byValue_load_bind, byValue_lift_bind]
        rfl

theorem byValue_userLogTask :
    byValue (userLogTask fd past) obj = HandleMsg.userLogTask obj fd past := by
  rw [userLogTask, byValue_load_bind, HandleMsg.userLogTask]
  split
  · rfl
  · rw [byValue_lift_bind]
    congr 1
    funext rows
    rcases rows with _ | _ | ⟨row, rows⟩
    · rfl
    · rfl
    · exact byValue_loginWithRow _ _ _ _

theorem byValue_askForFriendTask :
    byValue (askForFriendTask fd past) obj = HandleMsg.askForFriendTask obj fd past := by
  rw [askForFriendTask, byValue_load_bind, byValue_lift_bind, HandleMsg.askForFriendTask]
  congr 1
  funext rows
  rcases rows with _ | _ | ⟨row, rows⟩
  · exact byValue_abort _ _
  · rfl
  · dsimp only
    cases row.getInt .userid with
    | none => exact byValue_abort _ _
    | some id =>
      dsimp only
      rw [byValue_update_bind, byValue_load_bind, byValue_lift_bind]
      congr 1
      funext online
      cases online with
      | false => rfl
      | true => exact byValue_lift_bind _ _ _

theorem byValue_askForFriendAcceptTask :
    byValue askForFriendAcceptTask obj = HandleMsg.askForFriendAcceptTask obj := by
  rw [askForFriendAcceptTask, byValue_load_bind, byValue_lift_bind,
    HandleMsg.askForFriendAcceptTask]
  congr 1
  funext online
  cases online with
  | false => rfl
  | true =>
    refine (byValue_lift_bind _ _ _).trans ?_
    show _ = getTalkerFd obj.recverId >>= _
    congr 1
    funext talker
    rw [byValue_update_bind, byValue_load_bind, byValue_lift_bind]
    congr 1
    funext name
    cases name with
    | none => rfl
    | some name =>
      dsimp only
      split <;> rfl

/-- Tables with the same types and the same tasks dispatch alike. -/
theorem byValue_dispatch {table : List (UInt32 × Handler)}
    {table' : List (UInt32 × HandleMsg.Handler)}
    (same : List.Forall₂ (fun entry entry' => entry.1 = entry'.1 ∧
      (entry.2 obj fd past).map (byValue · obj) = entry'.2 obj fd past) table table') :
    ((table.find? fun entry => entry.1 = obj.msgType).bind fun entry =>
        entry.2 obj fd past).map (byValue · obj) =
      (table'.find? fun entry => entry.1 = obj.msgType).bind fun entry => entry.2 obj fd past := by
  induction same with
  | nil => rfl
  | @cons entry entry' _ _ hhead _ ih =>
    obtain ⟨htype, htask⟩ := hhead
    rw [List.find?_cons, List.find?_cons, htype]
    split
    · exact htask
    · exact ih

/-- **The task on the object in memory is the task on values.** -/
theorem byValue_handle :
    (handle obj fd past).map (byValue · obj) = HandleMsg.handle obj fd past := by
  refine byValue_dispatch fd past obj ?_
  have hreg : (handleUserRegMsg obj fd past).map (byValue · obj) =
      HandleMsg.handleUserRegMsg obj fd past := by
    rw [handleUserRegMsg, HandleMsg.handleUserRegMsg]
    split
    · rfl
    · exact congrArg some (byValue_userRegTask fd past obj)
  exact .cons ⟨rfl, rfl⟩ <| .cons ⟨rfl, congrArg some (byValue_userSendTask obj)⟩ <|
    .cons ⟨rfl, hreg⟩ <| .cons ⟨rfl, rfl⟩ <| .cons ⟨rfl, rfl⟩ <|
    .cons ⟨rfl, congrArg some (byValue_userLogTask fd past obj)⟩ <| .cons ⟨rfl, rfl⟩ <|
    .cons ⟨rfl, rfl⟩ <| .cons ⟨rfl, congrArg some (byValue_askForFriendTask fd past obj)⟩ <|
    .cons ⟨rfl, rfl⟩ <|
    .cons ⟨rfl, congrArg some (byValue_askForFriendAcceptTask obj)⟩ .nil

end ByValue

end InPlace

end Smer
