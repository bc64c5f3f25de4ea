import Smer.Util.ConcList
import Smer.Player.Player
import Smer.Seqeue.TransObj
import Mathlib.Data.List.Sort

/-!
# The client's state and its system messages (`SmerSystem`, `IOMange`, `Seqeue/inc/SeqToBin.h`)

The client's singletons are one state: the player, the list of pending friend requests, the queue of
system messages that the game loop shows, and the outbound queue. A client routine works on that
state, or has no result where the source dereferences null or leaves a format undefined.
-/

namespace Smer

open Lib

/-! ## System message types (`SmerSystem/inc/MyEnum.h`) -/

def sysOutputMsg : UInt32 := 0
def sysShowFriendsMsg : UInt32 := 1
def sysShowAskForFriendReq : UInt32 := 2

structure SystemMsgObj where
  msgType : UInt32
  sysMsg : Option Bytes

structure ClientState where
  player : Player
  reqBuff : ConcList TransObj
  sysBuff : List SystemMsgObj
  buff : List TransObj

/-- A client routine. -/
abbrev ClientM := StateT ClientState Option

namespace ClientM

/-- `SeqToBin::getInstance().putSysMsg(sysObj)`. -/
def putSysMsg (msgType : UInt32) (text : Option Bytes) : ClientM Unit :=
  modify fun c => { c with sysBuff := c.sysBuff ++ [⟨msgType, text⟩] }

/-- A text to be shown: a `SYS_OUTPUT_MSG` with its stream. -/
def output (text : Bytes) : ClientM Unit := putSysMsg sysOutputMsg (some text)

/-- `SysManger::pushBackReq`. -/
def pushBackReq (req : TransObj) : ClientM Unit :=
  modify fun c => { c with reqBuff := c.reqBuff.pushBack req }

/-- `Player::addFriend`. -/
def addFriend (name : Bytes) (id : Int32) : ClientM Bool := fun c =>
  (c.player.addFriend name id).map fun (player, added) => (added, { c with player := player })

/-- `IOManger::tryLoginFirst`: whether the player must log in first. -/
def tryLoginFirst : ClientM Bool := do
  if (← get).player.logined then return false
  else
    output (ascii "You should login first.(if not regin -- regin and login first to " ++
      ascii "use the function!)\n" ++ ascii "Try Regin ==> Regin@yourname|yourpassword\n" ++
      ascii "Try Login ==> Login@yourname|yourpassword\n" ++ ascii "(-_-)\n")
    return true

/-- A line of the list of requests. -/
def requestLine (label : Nat) (msg : Bytes) : Bytes :=
  toText label ++ ascii ": " ++ msg ++ ascii " \n"

def requestsHeader : Bytes := ascii "All requests list down here: \n"

/-- `SysManger::getAllRequests`: what its parameter `reqs` has become. -/
def getAllRequests (c : ClientState) (reqs : List TransObj) : List TransObj :=
  c.reqBuff.getAllData reqs

/-- `SysManger::handleSysMsgOfShowAskForFriendReq`: the text that it puts out, where the object is
not null. -/
def handleSysMsgOfShowAskForFriendReq (sysObj : Option SystemMsgObj) (past : Bytes)
    (c : ClientState) : Option Bytes :=
  sysObj.map fun _ =>
    let reqs : List TransObj := []
    -- the list is passed by value: the call fills a copy, which is dropped
    let _copy := getAllRequests c reqs
    let i := 0
    requestsHeader ++ reqs.flatMap fun req => requestLine i (req.getMsg past)

/-- An entry of the list of friends. -/
def friendItem (label : Nat) (name : Bytes) : Bytes :=
  toText label ++ ascii ": " ++ name ++ ascii ". "

/-- The loop of `handleSysMsgOfShowFriends` over the entries of the map. A friend whose pointer is
null is passed over. -/
def friendsLoop (i : Nat) : List (Bytes × Option Int32) → Bytes
  | [] => []
  | (_, none) :: rest => friendsLoop i rest
  | (name, some _) :: rest =>
    friendItem i name ++ (if (i + 1) % 3 = 0 then ascii "\n" else []) ++ friendsLoop (i + 1) rest

/-- The entries of the map, in the order of its iterator. -/
def friendEntries (friends : Friends) : List (Bytes × Option Int32) :=
  (friends.entries.map fun e => (e.1, e.2)).mergeSort fun a b => a.1 ≤ b.1

/-- `SysManger::handleSysMsgOfShowFriends`: the text that it puts out. -/
def handleSysMsgOfShowFriends (c : ClientState) : Bytes :=
  friendsLoop 1 (friendEntries c.player.friends)

/-- `SysManger::handleSysMsgOfShowOutputMsg`: the text that it puts out, where there is a stream. -/
def handleSysMsgOfShowOutputMsg (sysObj : SystemMsgObj) : Option Bytes := sysObj.sysMsg

def sysMsgHandleTable : List (UInt32 × (SystemMsgObj → Bytes → ClientState → Option Bytes)) :=
  [(sysOutputMsg, fun sysObj _ _ => handleSysMsgOfShowOutputMsg sysObj),
    (sysShowFriendsMsg, fun _ _ c => some (handleSysMsgOfShowFriends c)),
    (sysShowAskForFriendReq, fun sysObj past c =>
      handleSysMsgOfShowAskForFriendReq (some sysObj) past c)]

/-- `SysManger::handleSysMsg`, on the object that it has taken: the texts that are put out. Every
entry of the object's type is called. -/
def handleSysMsg (sysObj : SystemMsgObj) (past : Bytes) (c : ClientState) : List Bytes :=
  (sysMsgHandleTable.filter fun entry => entry.1 = sysObj.msgType).filterMap fun entry =>
    entry.2 sysObj past c

theorem run_output (text : Bytes) (c : ClientState) : (output text).run c =
    some ((), { c with sysBuff := c.sysBuff ++ [⟨sysOutputMsg, some text⟩] }) := rfl

theorem run_addFriend (name : Bytes) (id : Int32) (c : ClientState) : (addFriend name id).run c =
    (c.player.addFriend name id).map fun added => (added.2, { c with player := added.1 }) := rfl

end ClientM

end Smer
