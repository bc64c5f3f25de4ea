import Smer.Mysql.Connections
import Smer.Util.ThreadPool

/-!
# What `serverInit` sets up (`tests/serverTest.cpp`)

`serverInit` starts the worker threads and gives them two tasks that go on for as long as the server
does, `MyLog::run` and `Client::run`, and it fills the pool of the MySQL connections. From then on
the handlers are tasks of the same workers. `ExecQuery` and `ExecInsert` fetch a connection for one
statement and release it, so a handler holds one at a time.

`ServerUse` is both pools, with the workers as the callers of the connection pool.
-/

namespace Smer

open Lib

inductive ServerTask where
  /-- `MyLog::run` -/
  | log
  /-- `Client::run` -/
  | client
  /-- what a message handler enqueues -/
  | handler
  deriving DecidableEq

/-- The worker runs a handler, and not one of the two tasks that go on. -/
def Worker.handles : Worker (Ticket ServerTask) → Bool
  | .running (_, task) => task = .handler
  | .testing | .waiting | .returned => false

structure ServerUse where
  run : PoolRun ServerTask
  conns : PoolUse

inductive ServerUseAction where
  | pool (a : PoolAction ServerTask)
  /-- a handler fetches a connection -/
  | get (worker : Nat) (closed connects : Bool)
  /-- and releases it -/
  | release (worker : Nat)

namespace ServerUse

/-- Both pools, before the first task. -/
def start (threads : Nat) (maxSize : Int) (connects : Nat → Bool) : ServerUse where
  run := { (PoolRun.start : PoolRun ServerTask) with pool := .init .new threads }
  conns := .start maxSize connects

/-- The worker is at a handler that holds no connection. -/
def Free (s : ServerUse) (i : Nat) : Prop :=
  (s.run.pool.workers[i]?).any Worker.handles = true ∧ s.conns.held.lookup i = none

instance (s : ServerUse) (i : Nat) : Decidable (s.Free i) := inferInstanceAs (Decidable (_ ∧ _))

def step (s : ServerUse) : ServerUseAction → Option ServerUse
  | .pool a => (s.run.step a).map fun run => { s with run := run }
  | .get i closed connects =>
    if s.Free i then
      (s.conns.step (.get i closed connects)).map fun conns => { s with conns := conns }
    else none
  | .release i =>
    (s.conns.held.lookup i).bind fun conn =>
      (s.conns.step (.release i (some conn))).map fun conns => { s with conns := conns }

/-- The task of the pool's first, second and every later call. -/
def next (calls : Nat) : ServerTask :=
  match calls with
  | 0 => .log
  | 1 => .client
  | _ + 2 => .handler

/-- The server at work: the tasks come in their order, `MyLog::run` and `Client::run` go on, and a
handler has released its connection when it returns. -/
def Regular (s : ServerUse) : ServerUseAction → Prop
  | .pool .launch => False
  | .pool (.enqueue task) => task = next s.run.calls
  | .pool (.finish i) => s.Free i
  | .pool (.turn _) | .pool (.wake _) | .pool .stop | .get _ _ _ | .release _ => True

end ServerUse

end Smer
