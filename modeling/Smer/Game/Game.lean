import Smer.Input.ReadKey
import Smer.Lib.Run
import Smer.Seqeue.TransObj

/-!
# The game thread and the IO thread (`Game/src/Game.cpp`, `IOMange`)

The game thread loops `Game::update`: `handleSystem`, `scanKeyBoard`, `actor.update`. The IO thread is
`IOManger::run`. They share `data_mutex` with the flag and the output queue that it guards, the
commands of `ReadKey`, and the terminal. A thread's program point says what it does next and holds
its local variables, so two steps of one thread can have any steps of the other between them.

The IO thread sleeps on `data_cond` and may wake at any time, notified or not, which only adds runs.
What a step depends on beyond the state is its `Outside`.
-/

namespace Smer

open Lib

inductive GamePoint where
  | handleSysMsg
  /-- `putOutputMsg`, on the way to the mutex -/
  | putOutputMsg (msg : Bytes)
  /-- `putOutputMsg`, in the mutex -/
  | pushOutputMsg (msg : Bytes)
  | handleSysInput
  | turnToTalk
  /-- `turnToTalk`, in the mutex -/
  | setTalking
  | isTalking
  /-- `isTalking`, in the mutex -/
  | getTalking
  | tcgetattr
  | tcsetattrNew (stored : Termios)
  | select (stored : Termios)
  | tcsetattrStored (stored : Termios) (key : Int8)
  | putCmd (key : Int8)
  | actorUpdate

/-- Every point but `lock` and `blocked` is in the mutex. -/
inductive IOPoint where
  | lock
  /-- the predicate of `data_cond.wait` -/
  | wait
  | blocked
  | handleOutputMsg
  | handleTalk
  | tcgetattr
  | tcsetattrNew (stored : Termios)
  | tcsetattrStored (stored : Termios)
  /-- the line is read, and its message is pushed -/
  | cin (stored : Termios)
  /-- `talking` is reset -/
  | reset (stored : Termios)

inductive ClientThread where
  | game
  | io
  deriving DecidableEq

structure Game where
  game : GamePoint
  io : IOPoint
  dataMutex : Option ClientThread
  talking : Bool
  outputMsg : List Bytes
  readKey : ReadKey
  /-- the messages of the lines, pushed to the outbound queue -/
  buff : List TransObj
  settings : Termios

/-- What the rest of the client and the terminal give to a step. -/
structure Outside where
  /-- the text of the system message that `handleSysMsg` has to show -/
  shown : Option Bytes
  /-- the descriptor of `/dev/tty` -/
  keyboard : Int32
  /-- the variable `in` after `read`, or what it held -/
  key : Int8
  line : Bytes
  /-- what `getMsgFromInput` returns for the line -/
  talkObj : Option TransObj

inductive GameAction where
  | game (outside : Outside)
  | io (outside : Outside)

namespace Game

def start (settings : Termios) : Game :=
  ⟨.handleSysMsg, .lock, none, false, [], .start, [], settings⟩

/-- `IOManger::doCommand`, which turns to talk on `CMD_ENTER` only, on the command that
`handleSysInput` has taken. -/
def doCommand : Option UInt32 → GamePoint
  | some type => if type = cmdEnter then .turnToTalk else .isTalking
  | none => .isTalking

/-- One step of the game thread. `handleRecvMsg` neither uses the mutex nor the terminal. An
`assert` that fails ends the program. -/
def gameStep (s : Game) (outside : Outside) : Option Game :=
  match s.game with
  | .handleSysMsg =>
    match outside.shown with
    | none => some { s with game := .handleSysInput }
    | some msg => some { s with game := .putOutputMsg msg }
  | .putOutputMsg msg =>
    if s.dataMutex.isSome then none
    else some { s with game := .pushOutputMsg msg, dataMutex := some .game }
  | .pushOutputMsg msg =>
    some { s with game := .handleSysInput, outputMsg := s.outputMsg ++ [msg], dataMutex := none }
  | .handleSysInput =>
    some { s with game := doCommand s.readKey.getSysCmd.1, readKey := s.readKey.getSysCmd.2 }
  | .turnToTalk =>
    if s.dataMutex.isSome then none
    else some { s with game := .setTalking, dataMutex := some .game }
  | .setTalking => some { s with game := .isTalking, talking := true, dataMutex := none }
  | .isTalking =>
    if s.dataMutex.isSome then none
    else some { s with game := .getTalking, dataMutex := some .game }
  | .getTalking =>
    some { s with game := if s.talking then .actorUpdate else .tcgetattr, dataMutex := none }
  | .tcgetattr => some { s with game := .tcsetattrNew s.settings }
  | .tcsetattrNew stored =>
    some { s with game := .select stored, settings := stored.forScan }
  | .select stored =>
    if outside.keyboard > 0 then
      some { s with
        game := .tcsetattrStored stored outside.key
        readKey := { s.readKey with opened := s.readKey.opened ++ [outside.keyboard] } }
    else none
  | .tcsetattrStored stored key => some { s with game := .putCmd key, settings := stored }
  | .putCmd key => some { s with game := .actorUpdate, readKey := s.readKey.putCmd key }
  | .actorUpdate => some { s with game := .handleSysMsg, readKey := s.readKey.getCmd.2 }

/-- One step of the IO thread. -/
def ioStep (s : Game) (outside : Outside) : Option Game :=
  match s.io with
  | .lock =>
    if s.dataMutex.isSome then none else some { s with io := .wait, dataMutex := some .io }
  | .wait =>
    if s.talking then some { s with io := .handleTalk }
    else if s.outputMsg.isEmpty then some { s with io := .blocked, dataMutex := none }
    else some { s with io := .handleOutputMsg }
  | .blocked => some { s with io := .lock }
  | .handleOutputMsg =>
    some { s with io := .lock, outputMsg := s.outputMsg.tail, dataMutex := none }
  | .handleTalk => some { s with io := .tcgetattr, talking := true }
  | .tcgetattr => some { s with io := .tcsetattrNew s.settings }
  | .tcsetattrNew stored =>
    some { s with io := .tcsetattrStored stored, settings := stored.forTalk }
  | .tcsetattrStored stored => some { s with io := .cin stored, settings := stored }
  | .cin stored =>
    some { s with
      io := .reset stored
      buff :=
        if outside.line.length ≥ maxTransMsgLen then s.buff
        else s.buff ++ outside.talkObj.toList }
  | .reset _ => some { s with io := .lock, talking := false, dataMutex := none }

def step (s : Game) : GameAction → Option Game
  | .game outside => s.gameStep outside
  | .io outside => s.ioStep outside

end Game

end Smer
