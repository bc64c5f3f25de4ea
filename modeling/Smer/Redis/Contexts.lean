import Smer.Lib.Custody
import Smer.Redis.RedisPool

/-!
# Concurrent calls of the Redis client (`Redis/src/redis_pool.cpp`)

The client is one object that all worker threads call. Its two mutexes cover one access to one queue
of contexts each, and nothing covers the rest: the command buffer, `conType` and the time of the
last failed connect are read and written as the threads come. So a call is a program of small steps,
one for each stretch that touches a shared member or the network, and a run interleaves the steps of
any number of calls.

`ExecuteCmd_spop` formats its command first and then fetches a context of the kind that `conType`
names; `ExecuteCmd` fetches a context of the normal kind first. Behind that the two are alike: send
what the buffer holds, then give the context back or free it.

A context is a kind and a number. The number stands for the object and not for its address.
-/

namespace Smer

open Lib

/-- The two kinds of contexts: `redisContext` and `redisClusterContext`. -/
inductive ConKind where
  | normal
  | cluster
  deriving DecidableEq

/-- `redisConType`. -/
def ConKind.conType : ConKind → Int32
  | .normal => 0
  | .cluster => 1

structure Context where
  kind : ConKind
  number : Nat
  deriving DecidableEq

/-- The queues of idle contexts. -/
structure Idle where
  clients : List Context
  clusterClients : List Context

namespace Idle

def queue (q : Idle) : ConKind → List Context
  | .normal => q.clients
  | .cluster => q.clusterClients

def setQueue (q : Idle) (contexts : List Context) : ConKind → Idle
  | .normal => { q with clients := contexts }
  | .cluster => { q with clusterClients := contexts }

/-- Every idle context. -/
def all (q : Idle) : List Context := q.clients ++ q.clusterClients

/-- The front context leaves its queue. -/
theorem all_pop {q : Idle} {k : ConKind} {ctx : Context} {rest : List Context}
    (h : q.queue k = ctx :: rest) : q.all.Perm (ctx :: (q.setQueue rest k).all) := by
  cases k with
  | normal =>
    have hclients : q.clients = ctx :: rest := h
    rw [all, hclients]
    exact .refl _
  | cluster =>
    have hclients : q.clusterClients = ctx :: rest := h
    rw [all, hclients]
    exact List.perm_middle

/-- A context enters its queue. -/
theorem all_push (q : Idle) (k : ConKind) (ctx : Context) :
    (q.setQueue (q.queue k ++ [ctx]) k).all.Perm (ctx :: q.all) := by
  cases k with
  | normal => exact (List.perm_append_singleton ctx _).append_right _
  | cluster =>
    show (q.clients ++ (q.clusterClients ++ [ctx])).Perm (ctx :: q.all)
    rw [← List.append_assoc]
    exact List.perm_append_singleton ctx _

end Idle

/-- The members of `KGRedisClient`, the Redis server behind them, and what became of the contexts. -/
structure RedisMembers where
  cmdBuf : Bytes
  conType : Int32
  idle : Idle
  beginInvalidTime : Int
  redis : RedisStore
  /-- every context that was ever connected -/
  created : List Context
  freed : List Context
  /-- the contexts on which a command of a caller had no reply -/
  unanswered : List Context

/-- `m_maxReconnectInterval`. -/
def maxReconnectInterval : Int := 3

/-- The two ways into the client. -/
inductive Entry where
  | executeCmd_spop
  | executeCmd
  deriving DecidableEq

/-- Where a call stands. -/
inductive Stage where
  /-- `ExecuteCmd_spop`, before the command is formatted -/
  | format
  /-- before the test for the normal kind -/
  | choose
  /-- before the test for the cluster kind -/
  | chooseCluster
  /-- `CreateContext` or `CreateClusterContext`, before the queue -/
  | create (k : ConKind)
  /-- the queue was empty -/
  | connect (k : ConKind)
  /-- the connect gave a null context, before the time is kept -/
  | refused
  /-- a new context, before the test of its `err` -/
  | opened (k : ConKind) (ctx : Context) (ok : Bool)
  /-- `ExecuteCmd` with its context, before the command is formatted -/
  | formatWith (k : ConKind) (ctx : Context)
  /-- before the command is sent -/
  | send (k : ConKind) (ctx : Context)
  /-- `ReleaseContext` or `ReleaseClusterContext` -/
  | release (k : ConKind) (ctx : Context) (answer : RedisAnswer)
  | returned (answer : RedisAnswer)

/-- One call. -/
structure RedisCall where
  entry : Entry
  format : Bytes
  args : List FmtArg
  stage : Stage
  /-- the text it sent, and the Redis server that got it -/
  sent : Option (Bytes × RedisStore)

/-- What the surroundings answer a step, should they be asked. -/
structure Surroundings where
  /-- `time(NULL)` -/
  now : Int
  /-- a connect: a null context, or a context and whether its `err` is zero -/
  connects : Option Bool
  /-- a command gets a reply -/
  replies : Bool
  /-- what comes of reading an argument list a second time -/
  reread : Bytes

namespace RedisCall

def start (entry : Entry) (format : Bytes) (args : List FmtArg) : RedisCall where
  entry := entry
  format := format
  args := args
  stage := match entry with
    | .executeCmd_spop => .format
    | .executeCmd => .create .normal
  sent := none

/-- The call's own command. -/
def text (c : RedisCall) : Option Bytes := vsnprintf KGRedisClient.sizeofCmdBuf c.format c.args

/-- What the call writes to the buffer. `ExecuteCmd` has read its arguments before, for its output,
and reads them again. -/
def written (c : RedisCall) (env : Surroundings) : Option Bytes :=
  match c.entry, c.args with
  | .executeCmd, _ :: _ => some env.reread
  | .executeCmd, [] | .executeCmd_spop, _ => c.text

def at' (c : RedisCall) (stage : Stage) : RedisCall := { c with stage := stage }

/-- A context is there: `ExecuteCmd_spop` sends, `ExecuteCmd` formats. -/
def fetched (c : RedisCall) (k : ConKind) (ctx : Context) : RedisCall :=
  c.at' (match c.entry with
    | .executeCmd_spop => .send k ctx
    | .executeCmd => .formatWith k ctx)

/-- The context that the call holds. -/
def context (c : RedisCall) : Option Context :=
  match c.stage with
  | .opened _ ctx _ | .formatWith _ ctx | .send _ ctx | .release _ ctx _ => some ctx
  | .format | .choose | .chooseCluster | .create _ | .connect _ | .refused | .returned _ => none

end RedisCall

namespace RedisMembers

/-- One step of a call. -/
def advance (w : RedisMembers) (c : RedisCall) (env : Surroundings) :
    Option (RedisMembers × RedisCall) :=
  match c.stage with
  | .format => (c.written env).map fun text => ({ w with cmdBuf := text }, c.at' .choose)
  | .choose =>
    some (w, c.at' (if w.conType = ConKind.normal.conType then .create .normal else .chooseCluster))
  | .chooseCluster =>
    some (w, c.at' (if w.conType = ConKind.cluster.conType then .create .cluster
      else .returned .noContext))
  | .create k =>
    match w.idle.queue k with
    | ctx :: rest => some ({ w with idle := w.idle.setQueue rest k }, c.fetched k ctx)
    | [] => some (w, c.at' (.connect k))
  | .connect k =>
    if env.now < w.beginInvalidTime + maxReconnectInterval then
      some (w, c.at' (.returned .noContext))
    else
      match env.connects, k with
      | some ok, k =>
        let ctx := ⟨k, w.created.length⟩
        some ({ w with created := w.created ++ [ctx] }, c.at' (.opened k ctx ok))
      | none, .normal => some (w, c.at' .refused)
      -- `ctx->errstr` of a null context
      | none, .cluster => none
  | .refused => some ({ w with beginInvalidTime := env.now }, c.at' (.returned .noContext))
  | .opened k ctx true => some (w, c.fetched k ctx)
  | .opened _ ctx false =>
    some ({ w with freed := w.freed ++ [ctx], beginInvalidTime := env.now },
      c.at' (.returned .noContext))
  | .formatWith k ctx =>
    (c.written env).map fun text => ({ w with cmdBuf := text }, c.at' (.send k ctx))
  | .send k ctx =>
    let c := { c with sent := some (w.cmdBuf, w.redis) }
    if env.replies then
      (World.redisReply w.redis w.cmdBuf).map fun (reply, redis) =>
        ({ w with redis := redis }, c.at' (.release k ctx (.reply reply)))
    else some ({ w with unanswered := w.unanswered ++ [ctx] }, c.at' (.release k ctx .noReply))
  | .release k ctx (.reply reply) =>
    some ({ w with idle := w.idle.setQueue (w.idle.queue k ++ [ctx]) k },
      c.at' (.returned (.reply reply)))
  | .release _ ctx answer =>
    some ({ w with freed := w.freed ++ [ctx] }, c.at' (.returned answer))
  | .returned _ => none

end RedisMembers

/-! ## Runs -/

structure RedisClient where
  members : RedisMembers
  calls : List RedisCall

inductive RedisEvent where
  /-- a thread calls the client -/
  | call (entry : Entry) (format : Bytes) (args : List FmtArg)
  | changeConType (conType : Int32)
  | advance (call : Nat) (env : Surroundings)

namespace RedisClient

/-- Before any call: no context yet, the other members as they may be. -/
def start (cmdBuf : Bytes) (conType : Int32) (beginInvalidTime : Int) (redis : RedisStore) :
    RedisClient where
  members := ⟨cmdBuf, conType, ⟨[], []⟩, beginInvalidTime, redis, [], [], []⟩
  calls := []

def step (s : RedisClient) : RedisEvent → Option RedisClient
  | .call entry format args => some { s with calls := s.calls ++ [.start entry format args] }
  | .changeConType conType => some { s with members := { s.members with conType := conType } }
  | .advance i env =>
    (s.calls[i]?).bind fun call =>
      (s.members.advance call env).map fun (members, call) => ⟨members, s.calls.set i call⟩

theorem step_advance {s s' : RedisClient} {i : Nat} {env : Surroundings}
    (h : step s (.advance i env) = some s') :
    ∃ call members call', s.calls[i]? = some call ∧
      s.members.advance call env = some (members, call') ∧
      s' = ⟨members, s.calls.set i call'⟩ := by
  obtain ⟨call, hcall, h⟩ := Option.bind_eq_some_iff.mp h
  obtain ⟨⟨members, call'⟩, hadvance, rfl⟩ := Option.map_eq_some_iff.mp h
  exact ⟨call, members, call', hcall, hadvance, rfl⟩

/-- The contexts that running calls hold. -/
def heldContexts (s : RedisClient) : List Context := held RedisCall.context s.calls

end RedisClient

end Smer
