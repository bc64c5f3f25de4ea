import Smer.Game.Game
import Smer.HandleMsg.HandleMsgClient
import Smer.Util.Input

/-!
# The client as a whole

The threads of `Game` on the state that they share. The receiving thread puts the objects that
arrive into `rcvBuff`. In each frame the game thread takes one system message out of `sysBuff` and
puts its text out (`handleSysMsg`), and handles one received object (`handleRecvMsg`). The IO thread
prints the texts that were put out, and makes messages of the lines that are typed.

The player and the lists of the client are not locked. A handler and the reading of a line are one
step each here, so two of them do not overlap.

The history is in `received`, `handled`, `put`, `taken` and `printed`. A routine that dereferences
null or leaves a format undefined ends the program, and there is no step.
-/

namespace Smer

open Lib ClientM

structure ClientRun where
  game : Game
  client : ClientState
  rcvBuff : List TransObj
  /-- the objects that have arrived -/
  received : List TransObj
  /-- the objects that were handled, with what lay behind them -/
  handled : List (TransObj × Bytes)
  /-- the system messages that were put -/
  put : List SystemMsgObj
  /-- the system messages that were taken, with the text that each had put out -/
  taken : List (SystemMsgObj × Option Bytes)
  /-- the texts on the terminal -/
  printed : List Bytes

inductive ClientAction where
  /-- an object arrives -/
  | receive (obj : TransObj)
  | game (past : Bytes) (outside : Outside)
  | io (heap : CharArray maxTransMsgLen) (past : Bytes) (outside : Outside)

namespace ClientRun

/-- The client's state after a routine, with the system messages that the routine has put. -/
def became (s : ClientRun) (client : ClientState) : ClientRun :=
  { s with
    client := client
    put := s.put ++ client.sysBuff.drop s.client.sysBuff.length }

/-- `handleSysMsg`, up to the text that it puts out. -/
def handleSysMsg (s : ClientRun) (past : Bytes) : Option Bytes × ClientRun :=
  match s.client.sysBuff with
  | [] => (none, s)
  | sysObj :: sysBuff =>
    let shown := (ClientM.handleSysMsg sysObj past s.client).head?
    (shown, { s with
      client := { s.client with sysBuff := sysBuff }
      taken := s.taken ++ [(sysObj, shown)] })

/-- `handleRecvMsg`: one received object is taken and handed to its handler, which may end the
program. -/
def handleRecvMsg (s : ClientRun) (past : Bytes) : Option ClientRun :=
  match s.rcvBuff with
  | [] => some s
  | obj :: rcvBuff =>
    ((HandleMsgClient.handle obj past).run s.client).map fun (_, client) =>
      { s.became client with
        rcvBuff := rcvBuff
        handled := s.handled ++ [(obj, past)] }

/-- The part of `handleTalk` behind the input: the message that the line makes. -/
def handleTalk (s : ClientRun) (heap : CharArray maxTransMsgLen) (past line : Bytes) :
    Option (Option TransObj × ClientRun) :=
  if line.length ≥ maxTransMsgLen then some (none, s)
  else
    ((Util.getMsgFromInput heap past line).run s.client).map fun (talkObj, client) =>
      (talkObj, s.became client)

def gameStep (s : ClientRun) (past : Bytes) (outside : Outside) : Option ClientRun :=
  match s.game.game with
  | .handleSysMsg =>
    let (shown, s) := s.handleSysMsg past
    (s.game.gameStep { outside with shown := shown }).map fun game => { s with game := game }
  | .handleSysInput =>
    (s.handleRecvMsg past).bind fun s =>
      (s.game.gameStep outside).map fun game => { s with game := game }
  | _ => (s.game.gameStep outside).map fun game => { s with game := game }

def ioStep (s : ClientRun) (heap : CharArray maxTransMsgLen) (past : Bytes) (outside : Outside) :
    Option ClientRun :=
  match s.game.io with
  | .handleOutputMsg =>
    (s.game.ioStep outside).map fun game =>
      { s with
        game := game
        printed := s.printed ++ (s.game.outputMsg.head?.map cstr).toList }
  | .cin _ =>
    (s.handleTalk heap past outside.line).bind fun (talkObj, s) =>
      (s.game.ioStep { outside with talkObj := talkObj }).map fun game => { s with game := game }
  | _ => (s.game.ioStep outside).map fun game => { s with game := game }

def step (s : ClientRun) : ClientAction → Option ClientRun
  | .receive obj =>
    some { s with rcvBuff := s.rcvBuff ++ [obj], received := s.received ++ [obj] }
  | .game past outside => s.gameStep past outside
  | .io heap past outside => s.ioStep heap past outside

/-- A client before its first frame: both threads at their beginnings, the queues empty, nothing yet
in the history. -/
def start (settings : Termios) (client : ClientState) : ClientRun :=
  ⟨.start settings, client, [], [], [], client.sysBuff, [], []⟩

end ClientRun

end Smer
