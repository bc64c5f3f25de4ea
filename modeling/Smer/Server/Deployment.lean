import Smer.Game.ClientRun
import Smer.Laws.Answers
import Smer.Server.Wire

/-!
# The server and its clients

`Deployment` is the server of `Answering` with any number of clients. A client joins when the
listener accepts its connection. The messages that its player types reach the server one by one and
in order, and what the server sends to its descriptor travels on its `wire` and arrives in order. The
threads of the clients, the tasks of the server and the connections take their steps in any
interleaving.

What is assumed here, and not established:
- each block of a message and each object comes in one `recv`, whole and alone. A stream may be cut
  and merged elsewhere, and then other objects are read;
- a client's handler and its reading of a line are one step each, though the player is not locked;
- whoever joins runs this client, and nothing else sends to the server;
- the `MSG_CMD` objects of a client's keys do not reach the server, whose handler for them is empty.
-/

namespace Smer

open Lib

/-- The requests that the server has made tasks of. -/
def Answering.requests (s : Answering) : List Request := s.origin.filterMap id

/-- A client and its connection: the descriptor that the server has for it, how many of its messages
have reached the server, and what is on its way to it. -/
structure Site where
  fd : Int32
  run : ClientRun
  /-- how many of its messages have reached the server -/
  reached : Nat
  /-- the objects on their way to it -/
  wire : List TransObj

structure Deployment where
  answering : Answering
  sites : List Site

inductive DeploymentAction where
  /-- a client is started and connects -/
  | join (listener client : Int32) (buffer : CharArray bufferSize) (settings : Termios)
      (state : ClientState)
  /-- the game thread or the IO thread of a client -/
  | client (i : Nat) (a : ClientAction)
  /-- the next message of a client reaches the server -/
  | request (i : Nat) (past : Bytes)
  /-- an event on a connection that brings no data -/
  | event (fd : Int32) (e : Events)
  /-- the first object on a client's wire arrives -/
  | arrive (i : Nat)
  /-- the server goes on -/
  | server (a : SenderAction)

/-- The objects for its descriptor are on their way to a client. -/
def Site.deliver (site : Site) (sent : List TransObj) : Site :=
  { site with wire := site.wire ++ sent.filter fun obj => obj.fd = site.fd }

namespace Deployment

def start (loop : IOLoop) (world : World) : Deployment := ⟨.start loop world, []⟩

/-- What the server has sent. -/
def sent (d : Deployment) : List TransObj := d.answering.sender.sent

/-- A step of the threads of client `i`, which concerns nobody else. -/
def clientStep (d : Deployment) (i : Nat) (a : ClientAction) : Option Deployment :=
  d.sites[i]?.bind fun site =>
    (site.run.step a).map fun run => { d with sites := d.sites.set i { site with run := run } }

/-- A step of the server, and what it has sent by it. -/
def serverStep (E : Mysql) (d : Deployment) (a : SenderAction) : Option Deployment :=
  (d.answering.step E a).map fun answering =>
    { answering := answering
      sites := d.sites.map fun site =>
        site.deliver (answering.sender.sent.drop d.sent.length) }

def step (E : Mysql) (d : Deployment) : DeploymentAction → Option Deployment
  | .join listener client buffer settings state =>
    if state.player.logined then none
    else
      (d.answering.step E (.accept listener client buffer)).map fun answering =>
        ⟨answering, d.sites ++ [⟨client, .start settings state, 0, []⟩]⟩
  | .client _ (.receive _) => none
  | .client i a => d.clientStep i a
  | .request i past =>
    d.sites[i]?.bind fun site =>
      site.run.game.buff[site.reached]?.bind fun obj =>
        (d.answering.step E
          (.ready site.fd .epollin (some (Client.sendBuf obj)) past)).map fun answering =>
            ⟨answering, d.sites.set i { site with reached := site.reached + 1 }⟩
  | .event fd e =>
    (d.answering.step E (.ready fd e none [])).map fun answering =>
      { d with answering := answering }
  | .arrive i =>
    d.sites[i]?.bind fun site =>
      match site.wire with
      | [] => none
      | obj :: wire =>
        match Client.recvMsg [obj.toBytes] with
        | [] => none
        | received :: _ =>
          (site.run.step (.receive received)).map fun run =>
            { d with sites := d.sites.set i { site with run := run, wire := wire } }
  | .server (.accept _ _ _) | .server (.ready _ _ _ _) => none
  | .server a => d.serverStep E a

end Deployment

end Smer
