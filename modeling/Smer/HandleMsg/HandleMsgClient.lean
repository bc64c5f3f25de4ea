import Smer.SmerSystem.SysManger

/-!
# The client's message handlers (`HandleMsg/src/HandleMsg.cpp`, `CLIENT_COMPARE`)

The game loop takes one received object at a time and hands it to its handler, which changes the
player, keeps a friend request, or has a text shown. The table is the server's; the handlers whose
client branch is empty do nothing.
-/

namespace Smer

open Lib

namespace HandleMsgClient

open ClientM

/-- A handler, on the object and the memory behind it. -/
abbrev Handler := TransObj → Bytes → ClientM Unit

/-- A handler whose client branch is empty. -/
def nothing : Handler := fun _ _ => return

def handleMsgCmd : Handler := nothing
def handleUserRegMsg : Handler := nothing
def handleUserLogMsg : Handler := nothing

def handleUserSendMsg : Handler := fun obj past =>
  output (ascii "You just got message from " ++ toText obj.id.toInt ++ ascii " :\n" ++
    obj.getMsg past ++ ascii " \n")

def handleUserRegRefusedMsg : Handler := fun obj past => output (obj.getMsg past)

def handleUserRegAcceptedMsg : Handler := fun obj _ => do
  modify fun c => { c with player := c.player.setPlayerId obj.id }
  output (ascii "Regin success!\n")

def handleUserLogRefusedMsg : Handler := fun obj past => output (obj.getMsg past)

def handleUserLogAcceptedMsg : Handler := fun obj past => do
  modify fun c => { c with
    player := c.player.setPlayerLogin obj.id (obj.getName past) (obj.getPasswd past) }
  modify fun c => { c with player := c.player.savePlayerData.1 }
  output (ascii "you have login in success!\n")

def handleAskForFriendMsg : Handler := fun obj past => do
  output (ascii "You have a request from " ++ obj.getMsg past)
  pushBackReq obj

def handleAskForFriendNotFoundMsg : Handler := fun obj past =>
  output (ascii "the friend you asked " ++ obj.getMsg past ++ ascii " do not exists!\n")

def handleAskForFriendAcceptMsg : Handler := fun obj past => do
  let name := obj.getName past
  if name.length ≥ nameMaxLen then return
  if ← addFriend name obj.id then
    output (ascii "Your ask friend request had been accepted from " ++ name ++ ascii "\n")

/-- `g_msgHandle`. -/
def gMsgHandle : List (UInt32 × Handler) :=
  [(msgCmd, handleMsgCmd),
    (msgTalk, handleUserSendMsg),
    (msgReg, handleUserRegMsg),
    (msgRegRefuse, handleUserRegRefusedMsg),
    (msgRegAccept, handleUserRegAcceptedMsg),
    (msgLogin, handleUserLogMsg),
    (msgLoginRefuse, handleUserLogRefusedMsg),
    (msgLoginAccept, handleUserLogAcceptedMsg),
    (msgAskForFriend, handleAskForFriendMsg),
    (msgAskForFriendNotFound, handleAskForFriendNotFoundMsg),
    (msgAskForFriendAccept, handleAskForFriendAcceptMsg)]

/-- `MsgHandler::handle`. -/
def handle (obj : TransObj) (past : Bytes) : ClientM Unit :=
  match gMsgHandle.find? fun entry => entry.1 = obj.msgType with
  | some entry => entry.2 obj past
  | none => return

end HandleMsgClient

end Smer
