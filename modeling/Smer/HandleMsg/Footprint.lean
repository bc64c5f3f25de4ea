import Smer.HandleMsg.Performs

/-!
# What the server's tasks can reach

`Pushes` says what a task can push. `Footprint` says besides that it sends reading commands only.
A login is the only task that writes to Redis: every other task that the dispatch can enqueue stays
in a footprint, whatever it is answered and wherever it stops. `MSG_LOGOUT` has no entry in the
dispatch table, so the task that would end a session is never enqueued at all.
-/

namespace Smer

open Lib

/-! ## What is pushed -/

/-- The operations that push only what is `pushable`. -/
def Pushes (pushable : TransObj → Prop) : Effect → Prop
  | .push obj => pushable obj
  | .executeQuery _ | .executeUpdate _ | .redisCommand _ | .abort _ => True

namespace Pushes

variable {pushable : TransObj → Prop} {E : Mysql}

/-- What has been pushed since `w₀` is `pushable`. -/
def Since (pushable : TransObj → Prop) (w₀ w : World) : Prop :=
  ∃ pushed, w.outbound = w₀.outbound ++ pushed ∧ ∀ obj ∈ pushed, pushable obj

theorem step {w₀ : World} (o : Effect) (w : World) (r : o.Ans) (w' : World)
    (ho : Pushes pushable o) (since : Since pushable w₀ w)
    (answered : World.answer E o w = some (r, w')) : Since pushable w₀ w' := by
  obtain ⟨pushed, hout, hpushed⟩ := since
  cases o with
  | executeQuery cmd =>
    obtain ⟨faults, rfl⟩ := answer_query_world answered
    exact ⟨pushed, hout, hpushed⟩
  | executeUpdate cmd =>
    obtain ⟨userinfo, faults, rfl⟩ := answer_update_world answered
    exact ⟨pushed, hout, hpushed⟩
  | redisCommand cmdBuf =>
    exact ⟨pushed, (answer_redisCommand_outbound answered).trans hout, hpushed⟩
  | push obj =>
    cases answered
    refine ⟨pushed ++ [obj], ?_, ?_⟩
    · rw [← List.append_assoc, ← hout]
    · exact List.forall_mem_append.mpr ⟨hpushed, List.forall_mem_singleton.mpr ho⟩
  | abort why => cases answered

theorem run {α : Type} {task : Task α} (only : task.Only (Pushes pushable)) (w : World) :
    Since pushable w (task.run (World.answer E) w).2 :=
  only.run_keeps step w ⟨[], (List.append_nil _).symm, fun _ h => absurd h List.not_mem_nil⟩

end Pushes

/-- Entering the session pushes nothing. -/
theorem addSessionTalker_pushes {pushable : TransObj → Prop} (id : Int32) (name : Bytes)
    (fd : Int32) : (ComManger.addSessionTalker id name fd).Only (Pushes pushable) :=
  addSessionTalker_only (fun _ => trivial) fun _ => trivial

/-! ## What is written to Redis -/

/-- A command that leaves Redis as it is. -/
def ReadOnly (cmdBuf : Bytes) : Prop :=
  ∀ redis reply redis', World.redisReply redis cmdBuf = some (reply, redis') → redis' = redis

/-- The operations that read Redis, use the database, and push objects that are `pushable`. -/
def Footprint (pushable : TransObj → Prop) : Effect → Prop
  | .redisCommand cmdBuf => ReadOnly cmdBuf
  | .push obj => pushable obj
  | .executeQuery _ | .executeUpdate _ | .abort _ => True

theorem Pushes.of_footprint {pushable : TransObj → Prop} (o : Effect) (ho : Footprint pushable o) :
    Pushes pushable o := by
  cases o with
  | push obj => exact ho
  | executeQuery | executeUpdate | redisCommand | abort => trivial

/-- What a step within the footprint leaves behind. -/
def Kept (pushable : TransObj → Prop) (w w' : World) : Prop :=
  w'.redis = w.redis ∧ ∃ pushed, w'.outbound = w.outbound ++ pushed ∧ ∀ obj ∈ pushed, pushable obj

namespace Footprint

variable {pushable : TransObj → Prop} {E : Mysql}

/-- One operation of the footprint, of any outcome, leaves Redis as it was. -/
theorem redis_step {redis : RedisStore} (o : Effect) (w : World) (r : o.Ans) (w' : World)
    (ho : Footprint pushable o) (same : w.redis = redis)
    (answered : World.answer E o w = some (r, w')) : w'.redis = redis := by
  cases o with
  | executeQuery cmd =>
    obtain ⟨faults, rfl⟩ := answer_query_world answered
    exact same
  | executeUpdate cmd =>
    obtain ⟨userinfo, faults, rfl⟩ := answer_update_world answered
    exact same
  | redisCommand cmdBuf =>
    rcases answer_redisCommand_cases answered with ⟨hredis, -⟩ | ⟨reply, -, hreply⟩
    · exact hredis.trans same
    · exact (ho _ _ _ hreply).trans same
  | push obj =>
    cases answered
    exact same
  | abort why => cases answered

/-- **A run within the footprint** leaves Redis as it was and pushes only what is `pushable`. -/
theorem run {α : Type} {task : Task α} (only : task.Only (Footprint pushable)) (w : World) :
    Kept pushable w (task.run (World.answer E) w).2 :=
  ⟨only.run_keeps redis_step w rfl, Pushes.run (only.mono Pushes.of_footprint) w⟩

end Footprint

/-! ## The operations -/

section Operations

variable {pushable : TransObj → Prop}

theorem abort_footprint {α : Type} (why : Abort) :
    (Task.abort why : Task α).Only (Footprint pushable) := abort_only (fun _ => trivial) why

theorem execQuery_footprint (format : Bytes) (args : List FmtArg) :
    (MysqlPool.execQuery format args).Only (Footprint pushable) :=
  execQuery_only (fun _ => trivial) fun _ _ => trivial

theorem execInsert_footprint (format : Bytes) (args : List FmtArg) :
    (MysqlPool.execInsert format args).Only (Footprint pushable) :=
  execInsert_only (fun _ => trivial) fun _ _ => trivial

theorem readOnly_of_reply {cmdBuf : Bytes}
    (h : ∀ redis, ∃ reply, World.redisReply redis cmdBuf = some (reply, redis)) :
    ReadOnly cmdBuf := by
  intro redis reply redis' hreply
  obtain ⟨reply', hsame⟩ := h redis
  rw [hsame] at hreply
  cases hreply
  rfl

open ComManger

theorem isTalkerOnline_footprint (id : Int32) :
    (isTalkerOnline id).Only (Footprint pushable) :=
  isTalkerOnline_only (fun _ => trivial) (readOnly_of_reply fun redis => ⟨_, reply_sismember redis id⟩)

theorem getTalkerFd_footprint (id : Int32) : (getTalkerFd id).Only (Footprint pushable) :=
  getTalkerFd_only (fun _ => trivial) (readOnly_of_reply fun redis => ⟨_, reply_hgetFd redis id⟩)

theorem getTalkerName_footprint (id : Int32) : (getTalkerName id).Only (Footprint pushable) :=
  getTalkerName_only (fun _ => trivial) (readOnly_of_reply fun redis => ⟨_, reply_hgetName redis id⟩)

end Operations

/-! ## The tasks -/

namespace HandleMsg

variable {pushable : TransObj → Prop}

theorem userSendTask_footprint {obj : TransObj} (hobj : pushable obj) :
    (userSendTask obj).Only (Footprint pushable) :=
  userSendTask_only isTalkerOnline_footprint hobj

/-- A friend request is forwarded, or it goes back as not found. -/
theorem askForFriendTask_footprint (obj : TransObj) (fd : Int32) (past : Bytes)
    (forwarded : ∀ id talker, pushable ((obj.setrecverId id).setFd talker))
    (notFound : pushable ((obj.setMsgType msgAskForFriendNotFound).setFd fd)) :
    (askForFriendTask obj fd past).Only (Footprint pushable) :=
  askForFriendTask_only (fun _ => trivial) (execQuery_footprint _ _) isTalkerOnline_footprint
    getTalkerFd_footprint forwarded notFound

theorem askForFriendAcceptTask_footprint (obj : TransObj) (hobj : ∀ o, pushable o) :
    (askForFriendAcceptTask obj).Only (Footprint pushable) :=
  askForFriendAcceptTask_only isTalkerOnline_footprint getTalkerFd_footprint
    getTalkerName_footprint hobj

/-- A registration is answered on the descriptor it came from. -/
theorem userRegTask_footprint (obj : TransObj) (fd : Int32) (past : Bytes)
    (hobj : ∀ o : TransObj, o.fd = fd → pushable o) :
    (userRegTask obj fd past).Only (Footprint pushable) :=
  userRegTask_only (fun _ => trivial) (execQuery_footprint _ _) (execInsert_footprint _ _)
    (execQuery_footprint _ _) hobj

/-- **A task that is not a login does not write to Redis.** -/
theorem handle_footprint {obj : TransObj} {fd : Int32} {past : Bytes} {task : Task Unit}
    (htask : handle obj fd past = some task) (notLogin : obj.msgType ≠ msgLogin) :
    task.Only (Footprint fun _ => True) := by
  rcases handle_cases htask with ⟨-, rfl⟩ | ⟨-, rfl⟩ | ⟨hlogin, -⟩ | ⟨-, rfl⟩ | ⟨-, rfl⟩
  · exact userSendTask_footprint trivial
  · exact userRegTask_footprint _ _ _ fun _ _ => trivial
  · exact absurd hlogin notLogin
  · exact askForFriendTask_footprint _ _ _ (fun _ _ => trivial) trivial
  · exact askForFriendAcceptTask_footprint _ fun _ => trivial

end HandleMsg

end Smer
