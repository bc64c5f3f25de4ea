import Smer.Lib.Run
import Smer.Server.Wire
import Smer.HandleMsg.Footprint
import Smer.Communication.Sessions

/-!
# The server as a whole

The event loop, the tasks it has enqueued, and what the tasks share. The loop accepts connections
and reads from them; each object it passes on is a task for the workers, which complete in any order
(`Server.step`). A worker's task runs alone here.

The list `logins` is not the program's: it records, newest first, which user a completed login was
accepted for and on which connection.
-/

namespace Smer

open Lib

/-- An object that was passed to `MsgHandler::handle`, with its connection. -/
structure Request where
  obj : TransObj
  fd : Int32

structure Server where
  world : World
  loop : IOLoop
  pending : List Request
  logins : List (Int32 × Int32)

inductive Action where
  /-- the listener is readable, and `accept` returns `client` -/
  | accept (listener client : Int32) (buffer : CharArray bufferSize)
  /-- an event on a connection -/
  | ready (fd : Int32) (e : Events) (read : Option Bytes)
  /-- a worker completes a pending task, with what lies behind its object -/
  | complete (i : Nat) (past : Bytes)

/-- The logins that a completed request's task has accepted. -/
def acceptedLogins (r : Request) (w w' : World) : List (Int32 × Int32) :=
  if r.obj.msgType = msgLogin then
    ((w'.outbound.drop w.outbound.length).filter fun o => o.msgType = msgLoginAccept).map
      fun o => (o.id, r.fd)
  else []

namespace Server

variable (E : Mysql)

def step (s : Server) : Action → Option Server
  | .accept listener client buffer =>
    (s.loop.accept listener client buffer).map fun loop => { s with loop := loop }
  | .ready fd e read =>
    (s.loop.ready fd e read).map fun (loop, passed) =>
      { s with
        loop := loop
        pending := s.pending ++ (passed.map fun obj => ⟨obj, fd⟩).toList }
  | .complete i past =>
    s.pending[i]?.map fun r =>
      let world := s.world.runTask E (HandleMsg.handle r.obj r.fd past)
      { s with
        world := world
        pending := s.pending.eraseIdx i
        logins := acceptedLogins r s.world world ++ s.logins }

/-- The server before its first event: a listener and nobody in the session store. -/
structure Starts (s : Server) : Prop where
  redis : s.world.redis = .empty
  pending : s.pending = []
  logins : s.logins = []

/-- The connection of the most recent accepted login of a user. -/
def lastLogin (s : Server) (id : Int32) : Option Int32 := s.logins.lookup id

variable {E}

/-- An event on a connection leaves the tasks' world alone. -/
theorem step_ready {s : Server} {fd : Int32} {e : Events} {read : Option Bytes} {loop : IOLoop}
    {passed : Option TransObj} (h : s.loop.ready fd e read = some (loop, passed)) :
    s.step E (.ready fd e read) = some { s with
      loop := loop
      pending := s.pending ++ (passed.map fun obj => ⟨obj, fd⟩).toList } := by
  rw [step, h]
  rfl

/-- What completing a task does, read backwards. -/
theorem step_complete {s s' : Server} {i : Nat} {past : Bytes}
    (h : s.step E (.complete i past) = some s') :
    ∃ r, s.pending[i]? = some r ∧
      s'.world = s.world.runTask E (HandleMsg.handle r.obj r.fd past) ∧ s'.loop = s.loop ∧
      s'.logins = acceptedLogins r s.world s'.world ++ s.logins := by
  obtain ⟨r, hr, hs⟩ := Option.map_eq_some_iff.mp h
  cases hs
  exact ⟨r, hr, rfl, rfl, rfl⟩

/-- A task that is not a login accepts nobody and leaves Redis as it was. -/
theorem runTask_other {w : World} {r : Request} {past : Bytes} (notLogin : r.obj.msgType ≠ msgLogin)
    (w' : World) (hw : w' = w.runTask E (HandleMsg.handle r.obj r.fd past)) :
    w'.redis = w.redis ∧ acceptedLogins r w w' = [] := by
  refine ⟨?_, if_neg notLogin⟩
  cases htask : HandleMsg.handle r.obj r.fd past with
  | none => rw [hw, htask, World.runTask]
  | some task =>
    rw [hw, htask, World.runTask]
    exact (Footprint.run (HandleMsg.handle_footprint htask notLogin) w).1

end Server

end Smer
