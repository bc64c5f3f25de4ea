import Smer.HandleMsg.HandleMsgServer
import Smer.Communication.Sessions
import Smer.Lib.Pool

/-!
# Session reads among logins and logouts

A login is two commands, and so is a logout; a friend request tests its receiver's membership with
one command and looks the descriptor up with another. Between any two of them other tasks run.

A run keeps to the recorded descriptors when every lookup is made while its receiver's descriptor is
recorded and Redis answers (`ReadMeets`): each admitted step keeps every descriptor in Redis and on
its way out a recorded one (`readInv_step`). When that is the case, and what happens when it is not,
is left to the schedules of the next module.
-/

namespace Smer

open Lib ComManger HandleMsg MysqlPool KGRedisClient

/-! ## The tasks and their stages -/

/-- The tasks that share the session store. -/
inductive SessionTask where
  | login (id : Int32) (name : Bytes) (fd : Int32)
  | logout (id : Int32)
  | ask (obj : TransObj) (fd : Int32) (past : Bytes)
  | accept (obj : TransObj)

/-- The operation of a login and a logout, and the task of a handler. -/
def SessionTask.task : SessionTask → Task Unit
  | login id name fd => do let _ ← addSessionTalker id name fd
  | logout id => do let _ ← removeSessionTalker id
  | ask obj fd past => askForFriendTask obj fd past
  | accept obj => askForFriendAcceptTask obj

/-- Which of the two handlers a request is in. -/
inductive Request.Kind where
  | ask
  | accept

/-- What a task has still to do. -/
inductive ReadStage where
  | enter (id : Int32) (name : Bytes) (fd : Int32)
  | write (id : Int32) (name : Bytes) (fd : Int32)
  | leave (id : Int32)
  | drop (id : Int32)
  | find (obj : TransObj) (fd : Int32) (past : Bytes)
  | test (kind : Request.Kind) (obj : TransObj)
  | lookup (kind : Request.Kind) (obj : TransObj)
  | readName (obj : TransObj)
  | answer (obj : TransObj)
  | stop (why : Abort)
  | finished

namespace ReadStage

/-- What `ExecuteCmd_spop` makes of an answer, unless it raises. -/
def outcome : RedisAnswer → Option (Bool × List Bytes)
  | .noContext => some (false, [])
  | .noReply => some (false, [])
  | .reply reply => respond reply

/-- The stage behind a command: what the stage before makes of the outcome, or a stop where the
conversion of the reply raises. -/
def after (k : Bool × List Bytes → ReadStage) (a : RedisAnswer) : ReadStage :=
  match outcome a with
  | some result => k result
  | none => .stop .raised

def afterEnter (id : Int32) (name : Bytes) (fd : Int32) : Bool × List Bytes → ReadStage
  | (true, _) => .write id name fd
  | (false, _) => .finished

def afterLeave (id : Int32) : Bool × List Bytes → ReadStage
  | (true, _) => .drop id
  | (false, _) => .finished

def afterFind (obj : TransObj) (fd : Int32) : Except SqlFault ResultSet → ReadStage
  | .ok [] => .answer ((obj.setMsgType msgAskForFriendNotFound).setFd fd)
  | .ok (row :: _) =>
    match row.getInt .userid with
    | some id => .test .ask (obj.setrecverId id)
    | none => .stop .raised
  | .error .noConnection => .stop .nullDeref
  | .error .threw => .stop .nullDeref
  | .error .escapes => .stop .raised

def afterTest (kind : Request.Kind) (obj : TransObj) : Bool × List Bytes → ReadStage
  | (true, first :: _) => if first = ascii "1" then .lookup kind obj else .finished
  | (true, []) => .stop .outOfBounds
  | (false, _) => .finished

/-- The stage behind the descriptor lookup. -/
def located (kind : Request.Kind) (obj : TransObj) : ReadStage :=
  match kind with
  | .ask => .answer obj
  | .accept => .readName obj

def afterLookup (kind : Request.Kind) (obj : TransObj) : Bool × List Bytes → ReadStage
  | (true, first :: _) => located kind (obj.setFd (atoi (cstr first)))
  | (true, []) => .stop .outOfBounds
  | (false, _) => located kind (obj.setFd (-1))

def afterName (obj : TransObj) : Bool × List Bytes → ReadStage
  | (true, name :: _) =>
    if name.length ≥ nameMaxLen then .finished else .answer (obj.setMsg (cstr name)).1
  | (true, []) => .stop .outOfBounds
  | (false, _) => .answer obj

/-- `handleAskForFriendAcceptMsg` behind the descriptor lookup. -/
def nameTask (obj : TransObj) : Task Unit := do
  match ← getTalkerName obj.id with
  | some name =>
    if name.length ≥ nameMaxLen then return
    else Task.push (obj.setMsg (cstr name)).1
  | none => Task.push obj

def locatedTask (kind : Request.Kind) (obj : TransObj) : Task Unit :=
  match kind with
  | .ask => Task.push obj
  | .accept => nameTask obj

def lookupTask (kind : Request.Kind) (obj : TransObj) : Task Unit := do
  let fd ← getTalkerFd obj.recverId
  locatedTask kind (obj.setFd fd)

def prog : ReadStage → Task Unit
  | .enter id name fd => do let _ ← addSessionTalker id name fd
  | .write id name fd => do
    let _ ← execHMset (idText id) [(ascii "name", name), (ascii "fd", idText fd)]
  | .leave id => do let _ ← removeSessionTalker id
  | .drop id => do let _ ← execDel (idText id)
  | .find obj fd past => askForFriendTask obj fd past
  | .test kind obj => do if ← isTalkerOnline obj.recverId then lookupTask kind obj
  | .lookup kind obj => lookupTask kind obj
  | .readName obj => nameTask obj
  | .answer obj => Task.push obj
  | .stop why => Task.abort why
  | .finished => .pure ()

def view : ReadStage → Option ((o : Effect) × (o.Ans → ReadStage))
  | .enter id name fd => some ⟨.redisCommand (saddCmd id), after (afterEnter id name fd)⟩
  | .write id name fd =>
    match hmsetBuf id name fd with
    | some cmdBuf => some ⟨.redisCommand cmdBuf, after fun _ => .finished⟩
    | none => some ⟨.abort .undefinedFormat, Empty.elim⟩
  | .leave id => some ⟨.redisCommand (sremCmd id), after (afterLeave id)⟩
  | .drop id => some ⟨.redisCommand (delCmd id), after fun _ => .finished⟩
  | .find obj fd past =>
    some ⟨.executeQuery ((selectCmd .userid (obj.getMsg past)).take 99), afterFind obj fd⟩
  | .test kind obj => some ⟨.redisCommand (sismemberCmd obj.recverId), after (afterTest kind obj)⟩
  | .lookup kind obj => some ⟨.redisCommand (hgetFdCmd obj.recverId), after (afterLookup kind obj)⟩
  | .readName obj => some ⟨.redisCommand (hgetNameCmd obj.id), after (afterName obj)⟩
  | .answer obj => some ⟨.push obj, fun _ => .finished⟩
  | .stop why => some ⟨.abort why, Empty.elim⟩
  | .finished => none

theorem prog_after (k : Bool × List Bytes → ReadStage) (a : RedisAnswer) :
    prog (after k a) = onAnswer a >>= fun result => prog (k result) := by
  cases a with
  | noContext => rfl
  | noReply => rfl
  | reply reply =>
    simp only [after, outcome, onAnswer]
    cases respond reply with
    | some result => rfl
    | none => exact (Task.abort_bind _ _).symm

/-- A stage at a command, from the program that sends it. -/
theorem prog_command {s : ReadStage} {cmdBuf : Bytes} {k : Bool × List Bytes → ReadStage}
    (rest : Bool × List Bytes → Task Unit)
    (hsends : prog s = .vis (.redisCommand cmdBuf) fun a => onAnswer a >>= rest)
    (hrest : ∀ result, rest result = prog (k result)) :
    prog s = .vis (.redisCommand cmdBuf) fun a => prog (after k a) := by
  rw [hsends]
  congr 1
  funext a
  rw [prog_after]
  congr 1
  funext result
  exact hrest result

/-- A stage at an operation of the session store, from the operation's own program. -/
theorem prog_operation {α : Type} {s : ReadStage} {cmdBuf : Bytes}
    {k : Bool × List Bytes → ReadStage} {operation : Task α} {rest : α → Task Unit}
    (result : Bool × List Bytes → Task α) (hs : prog s = operation >>= rest)
    (hsends : operation = .vis (.redisCommand cmdBuf) fun a => onAnswer a >>= result)
    (hrest : ∀ r, result r >>= rest = prog (k r)) :
    prog s = .vis (.redisCommand cmdBuf) fun a => prog (after k a) := by
  refine prog_command (fun r => result r >>= rest) ?_ hrest
  rw [hs, hsends, Prog.vis_bind]
  congr 1
  funext a
  exact Prog.bind_assoc' _ _ _

/-- What `addSessionTalker` does with its first command's outcome. -/
def enterResult (id : Int32) (name : Bytes) (fd : Int32) : Bool × List Bytes → Task Bool
  | (true, _) =>
    execHMset (idText id) [(ascii "name", name), (ascii "fd", idText fd)] >>= passOn
  | (false, _) => pure false

theorem addSessionTalker_sends (id : Int32) (name : Bytes) (fd : Int32) :
    addSessionTalker id name fd =
      .vis (.redisCommand (saddCmd id)) fun a => onAnswer a >>= enterResult id name fd := by
  refine operation_eq (execSadd_eq id) fun ok response => ?_
  cases ok <;> rfl

theorem prog_enter (id : Int32) (name : Bytes) (fd : Int32) :
    prog (.enter id name fd) = .vis (.redisCommand (saddCmd id)) fun a =>
      prog (after (afterEnter id name fd) a) := by
  refine prog_operation (enterResult id name fd) rfl (addSessionTalker_sends id name fd) ?_
  rintro ⟨_ | _, response⟩
  · rfl
  · exact Prog.bind_assoc' _ _ _

theorem prog_write {id : Int32} {name : Bytes} {fd : Int32} {cmdBuf : Bytes}
    (hbuf : hmsetBuf id name fd = some cmdBuf) :
    prog (.write id name fd) = .vis (.redisCommand cmdBuf) fun a =>
      prog (after (fun _ => .finished) a) := by
  refine prog_command (fun _ => .pure ()) ?_ fun _ => rfl
  show executeCmd_spop (sessionText id name fd) [] >>= _ = _
  rw [executeCmd_eq hbuf]
  rfl

theorem prog_write_none {id : Int32} {name : Bytes} {fd : Int32}
    (hbuf : hmsetBuf id name fd = none) :
    prog (.write id name fd) = .vis (.abort .undefinedFormat) fun e => prog (Empty.elim e) := by
  rw [hmsetBuf] at hbuf
  show executeCmd_spop (sessionText id name fd) [] >>= _ = _
  rw [executeCmd_spop, hbuf, Task.abort_bind]
  exact congrArg (Prog.vis (Effect.abort .undefinedFormat)) (funext fun e => Empty.elim e)

theorem prog_leave (id : Int32) :
    prog (.leave id) = .vis (.redisCommand (sremCmd id)) fun a =>
      prog (after (afterLeave id) a) := by
  refine prog_operation (dropRecord id) rfl (removeSessionTalker_eq id) ?_
  rintro ⟨_ | _, response⟩
  · rfl
  · show dropRecord id (true, response) >>= _ = execDel (idText id) >>= _
    rw [dropRecord, execDel_eq, Prog.vis_bind, Prog.vis_bind]
    congr 1
    funext a
    exact Prog.bind_assoc' _ _ _

theorem prog_drop (id : Int32) :
    prog (.drop id) = .vis (.redisCommand (delCmd id)) fun a =>
      prog (after (fun _ => .finished) a) := by
  refine prog_command (fun _ => .pure ()) ?_ fun _ => rfl
  show execDel (idText id) >>= _ = _
  rw [execDel_eq]
  rfl

theorem prog_find (obj : TransObj) (fd : Int32) (past : Bytes) :
    prog (.find obj fd past) =
      .vis (.executeQuery ((selectCmd .userid (obj.getMsg past)).take 99)) fun r =>
        prog (afterFind obj fd r) := by
  rw [prog, askForFriendTask, selectUserid_eq]
  refine execQuery_bind (vsnprintf_select _ _) (fun rows => ?_) rfl rfl rfl
  cases rows with
  | nil => rfl
  | cons row rows =>
    cases hid : row.getInt .userid with
    | none =>
      simp only [afterFind, hid]
      rfl
    | some id =>
      simp only [afterFind, hid]
      rfl

theorem prog_test (kind : Request.Kind) (obj : TransObj) :
    prog (.test kind obj) = .vis (.redisCommand (sismemberCmd obj.recverId)) fun a =>
      prog (after (afterTest kind obj) a) := by
  refine prog_operation scontainResult rfl (isTalkerOnline_eq obj.recverId) ?_
  rintro ⟨_ | _, _ | ⟨first, response⟩⟩
  · rfl
  · rfl
  · exact Task.abort_bind _ _
  · by_cases hfirst : first = ascii "1"
    · simp only [scontainResult, afterTest, if_pos hfirst, decide_eq_true hfirst]
      rfl
    · simp only [scontainResult, afterTest, if_neg hfirst, decide_eq_false hfirst]
      rfl

theorem prog_located (kind : Request.Kind) (obj : TransObj) :
    locatedTask kind obj = prog (located kind obj) := by
  cases kind <;> rfl

theorem prog_lookup (kind : Request.Kind) (obj : TransObj) :
    prog (.lookup kind obj) = .vis (.redisCommand (hgetFdCmd obj.recverId)) fun a =>
      prog (after (afterLookup kind obj) a) := by
  refine prog_operation fdResult rfl (getTalkerFd_eq obj.recverId) ?_
  rintro ⟨_ | _, _ | ⟨first, response⟩⟩
  · exact prog_located kind _
  · exact prog_located kind _
  · exact Task.abort_bind _ _
  · exact prog_located kind _

theorem prog_readName (obj : TransObj) :
    prog (.readName obj) = .vis (.redisCommand (hgetNameCmd obj.id)) fun a =>
      prog (after (afterName obj) a) := by
  refine prog_operation nameResult rfl (getTalkerName_eq obj.id) ?_
  rintro ⟨_ | _, _ | ⟨name, response⟩⟩
  · rfl
  · rfl
  · exact Task.abort_bind _ _
  · by_cases hname : name.length ≥ nameMaxLen
    · simp only [nameResult, afterName, if_pos hname]
      exact if_pos hname
    · simp only [nameResult, afterName, if_neg hname]
      exact if_neg hname

theorem view_write {id : Int32} {name : Bytes} {fd : Int32} {cmdBuf : Bytes}
    (hbuf : hmsetBuf id name fd = some cmdBuf) :
    view (.write id name fd) = some ⟨.redisCommand cmdBuf, after fun _ => .finished⟩ := by
  unfold view
  dsimp only
  rw [hbuf]

theorem view_write_none {id : Int32} {name : Bytes} {fd : Int32}
    (hbuf : hmsetBuf id name fd = none) :
    view (.write id name fd) = some ⟨.abort .undefinedFormat, Empty.elim⟩ := by
  unfold view
  dsimp only
  rw [hbuf]

/-- The tasks as staged programs. -/
def staged : Staged Effect Effect.Ans Unit ReadStage where
  prog := prog
  view := view
  unfolds s := by
    cases s with
    | enter id name fd => exact prog_enter id name fd
    | write id name fd =>
      cases hbuf : hmsetBuf id name fd with
      | none =>
        rw [view_write_none hbuf]
        exact prog_write_none hbuf
      | some cmdBuf =>
        rw [view_write hbuf]
        exact prog_write hbuf
    | leave id => exact prog_leave id
    | drop id => exact prog_drop id
    | find obj fd past => exact prog_find obj fd past
    | test kind obj => exact prog_test kind obj
    | lookup kind obj => exact prog_lookup kind obj
    | readName obj => exact prog_readName obj
    | answer obj => rfl
    | stop why => exact congrArg (Prog.vis (Effect.abort why)) (funext fun e => Empty.elim e)
    | finished => exact ⟨(), rfl⟩

end ReadStage

/-- The stage in which a task begins. -/
def SessionTask.first : SessionTask → ReadStage
  | login id name fd => .enter id name fd
  | logout id => .leave id
  | ask obj fd past => .find obj fd past
  | accept obj => .test .accept obj

theorem SessionTask.prog_first (t : SessionTask) : ReadStage.prog t.first = t.task := by
  cases t with
  | login id name fd => rfl
  | logout id => rfl
  | ask obj fd past => rfl
  | accept obj => rfl

abbrev ReadPool := Pool Effect Effect.Ans Unit World

/-- Before any step each task is at its first stage. -/
theorem SessionTask.start_at (w : World) (ts : List SessionTask) :
    ReadStage.staged.At (Pool.start w (ts.map SessionTask.task) : ReadPool)
      (ts.map SessionTask.first) := by
  show ts.map SessionTask.task = (ts.map SessionTask.first).map ReadStage.prog
  rw [List.map_map]
  exact List.map_congr_left fun t _ => t.prog_first.symm

/-! ## The condition -/

/-- The descriptor that Redis holds for a user. -/
def fdField (redis : RedisStore) (id : Int32) : Option Bytes :=
  (redis.hashes (idText id)).lookup (ascii "fd")

/-- Some `addSessionTalker` call has recorded this descriptor for the user: before the run, or as
one of its tasks. -/
def RecordedFd (w : World) (ts : List SessionTask) (c : ReadPool) (id fd : Int32) : Prop :=
  fdField w.redis id = some (idText fd) ∨
    ∃ i name text, ts[i]? = some (.login id name fd) ∧
      (i, ⟨.redisCommand (hmsetCmd id text fd), .reply (.status (ascii "OK"))⟩) ∈ c.trace

/-- The name is a C string, and the `HMSET` of the session is short enough to be sent whole. -/
def SessionTask.SentWhole : SessionTask → Prop
  | login id name fd => (0 : UInt8) ∉ name ∧ (hmsetCmd id name fd).length ≤ 99
  | _ => True

/-- A step that meets the condition: the session that its task writes is sent whole, and if it looks
a descriptor up, the descriptor is recorded and Redis answers. -/
structure ReadMeets (ts : List SessionTask) (c : ReadPool) (i : Nat) : Prop where
  whole : ∀ t, ts[i]? = some t → t.SentWhole
  lookup : ∀ id k, c.threads[i]? = some (.vis (.redisCommand (hgetFdCmd id)) k) →
    fdField c.shared.redis id ≠ none ∧ ∀ fault, c.shared.redisFaults.head? ≠ some (some fault)

/-! ## The invariant -/

/-- A task has pushed a message on to its receiver. -/
def Forwards (c : ReadPool) (i : Nat) (obj : TransObj) : Prop :=
  obj.msgType ≠ msgAskForFriendNotFound ∧ (i, ⟨.push obj, ()⟩) ∈ c.trace

/-- A task has looked up a descriptor and there was none. -/
def FindsNone (c : ReadPool) (i : Nat) : Prop :=
  ∃ id, (i, ⟨.redisCommand (hgetFdCmd id), .reply .nil⟩) ∈ c.trace

/-- What is known of a task at its stage. -/
def ReadFits (w : World) (ts : List SessionTask) (c : ReadPool) (i : Nat) : ReadStage → Prop
  | .enter id name fd => ts[i]? = some (.login id name fd)
  | .write id name fd => ts[i]? = some (.login id name fd)
  | .readName obj => RecordedFd w ts c obj.recverId obj.fd
  | .answer obj => obj.msgType ≠ msgAskForFriendNotFound → RecordedFd w ts c obj.recverId obj.fd
  | _ => True

/-- Every descriptor in Redis is a recorded one. -/
def HoldsRecorded (w : World) (ts : List SessionTask) (c : ReadPool) (redis : RedisStore) : Prop :=
  ∀ id value, fdField redis id = some value → ∃ fd, value = idText fd ∧ RecordedFd w ts c id fd

/-- Redis holds recorded descriptors only, messages are forwarded on recorded descriptors only, and
no lookup has found none. -/
structure ReadInv (w : World) (ts : List SessionTask) (c : ReadPool) : Prop where
  stages : ∃ ss, ReadStage.staged.At c ss ∧ ∀ i s, ss[i]? = some s → ReadFits w ts c i s
  holds : HoldsRecorded w ts c c.shared.redis
  recorded : ∀ i obj, Forwards c i obj → RecordedFd w ts c obj.recverId obj.fd
  finds : ∀ i, ¬ FindsNone c i

section Steps

variable {E : Mysql} {w : World} {ts : List SessionTask} {c c' : ReadPool} {i : Nat}
  {ss : List ReadStage} {s' : ReadStage} {e : Event Effect Effect.Ans}

/-- What is recorded stays recorded, since the trace only grows. -/
theorem RecordedFd.mono (htrace : c'.trace = c.trace ++ [(i, e)]) {id fd : Int32}
    (h : RecordedFd w ts c id fd) : RecordedFd w ts c' id fd := by
  rcases h with before | ⟨j, name, text, hj, hmem⟩
  · exact .inl before
  · refine .inr ⟨j, name, text, hj, ?_⟩
    rw [htrace]
    exact List.mem_append_left _ hmem

theorem HoldsRecorded.mono (htrace : c'.trace = c.trace ++ [(i, e)]) {redis : RedisStore}
    (h : HoldsRecorded w ts c redis) : HoldsRecorded w ts c' redis := by
  intro id value hvalue
  obtain ⟨fd, hfd, hrecorded⟩ := h id value hvalue
  exact ⟨fd, hfd, hrecorded.mono htrace⟩

theorem HoldsRecorded.of_hashes {redis redis' : RedisStore} (hhashes : redis'.hashes = redis.hashes)
    (h : HoldsRecorded w ts c redis) : HoldsRecorded w ts c redis' := by
  intro id value hvalue
  rw [fdField, hhashes] at hvalue
  exact h id value hvalue

theorem HoldsRecorded.of_delKey {redis : RedisStore} (id : Int32)
    (h : HoldsRecorded w ts c redis) : HoldsRecorded w ts c (redis.delKey (idText id)) := by
  intro other value hvalue
  by_cases hother : other = id
  · rw [hother, fdField, RedisStore.delKey_hashes_self, AList.lookup_empty] at hvalue
    cases hvalue
  · have hkey : idText other ≠ idText id := fun heq => hother (idText_injective heq)
    rw [fdField, RedisStore.delKey_hashes_ne _ hkey] at hvalue
    exact h other value hvalue

theorem HoldsRecorded.of_setHash {redis : RedisStore} {id fd : Int32} {fields : RedisHash}
    (hfields : fields.lookup (ascii "fd") = some (idText fd)) (hrecorded : RecordedFd w ts c id fd)
    (h : HoldsRecorded w ts c redis) :
    HoldsRecorded w ts c (redis.setHash (idText id) fields) := by
  intro other value hvalue
  by_cases hother : other = id
  · rw [hother, fdField, RedisStore.setHash_hashes_self, hfields] at hvalue
    exact ⟨fd, (Option.some.inj hvalue).symm, hother ▸ hrecorded⟩
  · have hkey : idText other ≠ idText id := fun heq => hother (idText_injective heq)
    rw [fdField, RedisStore.setHash_hashes_ne _ hkey] at hvalue
    exact h other value hvalue

theorem ReadFits.mono (htrace : c'.trace = c.trace ++ [(i, e)]) {j : Nat} {s : ReadStage}
    (h : ReadFits w ts c j s) : ReadFits w ts c' j s := by
  cases s with
  | enter id name fd => exact h
  | write id name fd => exact h
  | readName obj => exact RecordedFd.mono htrace h
  | answer obj => exact fun htype => RecordedFd.mono htrace (h htype)
  | _ => trivial

/-- One operation: Redis holds recorded descriptors after it, and it neither forwards a message on
another nor finds none. -/
theorem ReadInv.of_step (inv : ReadInv w ts c) (htrace : c'.trace = c.trace ++ [(i, e)])
    (stages : ∀ j s, ss[j]? = some s → ReadFits w ts c j s)
    (at' : ReadStage.staged.At c' (ss.set i s')) (hfits : ReadFits w ts c' i s')
    (holds : HoldsRecorded w ts c' c'.shared.redis)
    (forwarded : ∀ obj, obj.msgType ≠ msgAskForFriendNotFound → e = ⟨.push obj, ()⟩ →
      RecordedFd w ts c obj.recverId obj.fd)
    (finds : ∀ id, e ≠ ⟨.redisCommand (hgetFdCmd id), .reply .nil⟩) : ReadInv w ts c' := by
  refine ⟨⟨_, at', fun j s hs => ?_⟩, holds, ?_, ?_⟩
  · rcases Staged.stage_of_set hs with ⟨rfl, rfl⟩ | ⟨-, hs⟩
    · exact hfits
    · exact (stages j s hs).mono htrace
  · rintro j obj ⟨htype, hmem⟩
    rw [htrace] at hmem
    rcases List.mem_append.mp hmem with hold | hnew
    · exact (inv.recorded j obj ⟨htype, hold⟩).mono htrace
    · obtain ⟨-, he⟩ := Prod.mk.inj (List.mem_singleton.mp hnew)
      exact (forwarded obj htype he.symm).mono htrace
  · rintro j ⟨id, hmem⟩
    rw [htrace] at hmem
    rcases List.mem_append.mp hmem with hold | hnew
    · exact inv.finds j ⟨id, hold⟩
    · obtain ⟨-, he⟩ := Prod.mk.inj (List.mem_singleton.mp hnew)
      exact finds id he.symm

/-- A nil answer is Redis's own: no fault of a command is answered so. -/
theorem reply_of_nil {w w' : World} {cmdBuf : Bytes}
    (h : World.answer E (.redisCommand cmdBuf) w = some (.reply .nil, w')) :
    World.redisReply w.redis cmdBuf = some (.nil, w'.redis) := by
  simp only [World.answer] at h
  split at h
  · cases h
  · cases h
  · cases h
  · obtain ⟨⟨reply, redis⟩, hreply, hout⟩ := Option.map_eq_some_iff.mp h
    cases hout
    exact hreply

/-- A command that Redis would answer with `redis` behind it leaves that, or nothing has happened. -/
theorem redis_of_answer {w w' : World} {cmdBuf : Bytes} {reply : RedisReply} {redis : RedisStore}
    {a : RedisAnswer} (hreply : World.redisReply w.redis cmdBuf = some (reply, redis))
    (h : World.answer E (.redisCommand cmdBuf) w = some (a, w')) :
    w'.redis = w.redis ∨ w'.redis = redis := by
  rcases answer_redisCommand_cases h with ⟨hredis, -⟩ | ⟨reply', -, hreply'⟩
  · exact .inl hredis
  · rw [hreply] at hreply'
    exact .inr (Prod.mk.inj (Option.some.inj hreply')).2.symm

/-- A command that reads leaves Redis as it is, whether or not it is answered. -/
theorem redis_of_read {w w' : World} {cmdBuf : Bytes} {reply : RedisReply} {a : RedisAnswer}
    (hreply : World.redisReply w.redis cmdBuf = some (reply, w.redis))
    (h : World.answer E (.redisCommand cmdBuf) w = some (a, w')) : w'.redis = w.redis := by
  rcases redis_of_answer hreply h with hredis | hredis
  · exact hredis
  · exact hredis

/-- An admitted command is no lookup that finds none. -/
theorem finds_some {cmdBuf : Bytes} {k : RedisAnswer → Task Unit} {a : RedisAnswer} {w' : World}
    (meets : ReadMeets ts c i) (hthread : c.threads[i]? = some (.vis (.redisCommand cmdBuf) k))
    (hanswer : World.answer E (.redisCommand cmdBuf) c.shared = some (a, w')) (id : Int32) :
    (⟨.redisCommand cmdBuf, a⟩ : Event Effect Effect.Ans) ≠
      ⟨.redisCommand (hgetFdCmd id), .reply .nil⟩ := by
  intro he
  cases he
  have hreply := reply_of_nil hanswer
  rw [reply_hgetFd] at hreply
  obtain ⟨hfield, -⟩ := meets.lookup id k hthread
  obtain ⟨value, hvalue⟩ := Option.ne_none_iff_exists'.mp hfield
  rw [fdField] at hvalue
  rw [hvalue] at hreply
  cases hreply

/-- Behind a command a task fits if it fits for every outcome. -/
theorem readFits_after {k : Bool × List Bytes → ReadStage} (h : ∀ r, ReadFits w ts c i (k r))
    (a : RedisAnswer) : ReadFits w ts c i (ReadStage.after k a) := by
  rw [ReadStage.after]
  cases ReadStage.outcome a with
  | none => trivial
  | some result => exact h result

/-- A command whose reply leaves recorded descriptors leaves them also when it gets no reply. -/
theorem HoldsRecorded.of_command {cmdBuf : Bytes} {reply : RedisReply} {redis redis' : RedisStore}
    {w₁ w' : World} {a : RedisAnswer}
    (hreply : World.redisReply w₁.redis cmdBuf = some (reply, redis'))
    (hanswer : World.answer E (.redisCommand cmdBuf) w₁ = some (a, w')) (hshared : redis = w'.redis)
    (holds : HoldsRecorded w ts c w₁.redis) (hafter : HoldsRecorded w ts c redis') :
    HoldsRecorded w ts c redis := by
  rw [hshared]
  rcases redis_of_answer hreply hanswer with hredis | hredis
  · rw [hredis]
    exact holds
  · rw [hredis]
    exact hafter

/-- What an admitted lookup finds is a recorded descriptor. -/
theorem lookup_recorded {id : Int32} {k : RedisAnswer → Task Unit} {a : RedisAnswer} {w' : World}
    (meets : ReadMeets ts c i) (holds : HoldsRecorded w ts c c.shared.redis)
    (hthread : c.threads[i]? = some (.vis (.redisCommand (hgetFdCmd id)) k))
    (hanswer : World.answer E (.redisCommand (hgetFdCmd id)) c.shared = some (a, w')) :
    ∃ fd, a = .reply (.string (idText fd)) ∧ RecordedFd w ts c id fd := by
  obtain ⟨hfield, hfaults⟩ := meets.lookup id k hthread
  obtain ⟨value, hvalue⟩ := Option.ne_none_iff_exists'.mp hfield
  obtain ⟨fd, rfl, hrecorded⟩ := holds id value hvalue
  rcases answer_redisCommand_cases hanswer with ⟨-, fault, hfault⟩ | ⟨reply, rfl, hreply⟩
  · exact absurd hfault (hfaults fault)
  · rw [fdField] at hvalue
    rw [reply_hgetFd, hvalue] at hreply
    obtain ⟨rfl, -⟩ := Prod.mk.inj (Option.some.inj hreply)
    exact ⟨fd, rfl, hrecorded⟩

/-- The task behind the lookup has the descriptor that was found. -/
theorem readFits_located (kind : Request.Kind) {obj : TransObj}
    (h : RecordedFd w ts c obj.recverId obj.fd) :
    ReadFits w ts c i (ReadStage.located kind obj) := by
  cases kind with
  | ask => exact fun _ => h
  | accept => exact h

/-- The task behind the name lookup keeps its receiver and its descriptor. -/
theorem readFits_afterName {obj : TransObj} (h : RecordedFd w ts c obj.recverId obj.fd)
    (result : Bool × List Bytes) : ReadFits w ts c i (ReadStage.afterName obj result) := by
  obtain ⟨_ | _, _ | ⟨name, response⟩⟩ := result
  · exact fun _ => h
  · exact fun _ => h
  · trivial
  · rw [ReadStage.afterName]
    split
    · trivial
    · intro _
      rw [TransObj.setMsg_recverId, TransObj.setMsg_fd]
      exact h

theorem readFits_afterTest (kind : Request.Kind) (obj : TransObj) (result : Bool × List Bytes) :
    ReadFits w ts c i (ReadStage.afterTest kind obj result) := by
  obtain ⟨_ | _, _ | ⟨first, response⟩⟩ := result
  · trivial
  · trivial
  · trivial
  · rw [ReadStage.afterTest]
    split
    · trivial
    · trivial

/-- A receiver that is not found is answered so; another is looked for in the sessions. -/
theorem readFits_afterFind (obj : TransObj) (fd : Int32) (r : Except SqlFault ResultSet) :
    ReadFits w ts c i (ReadStage.afterFind obj fd r) := by
  rcases r with (_ | _ | _) | (_ | ⟨row, rows⟩)
  · trivial
  · trivial
  · trivial
  · exact fun htype => absurd rfl htype
  · rw [ReadStage.afterFind]
    cases row.getInt .userid with
    | none => trivial
    | some id => trivial

/-- Behind the `HMSET` of a session Redis holds recorded descriptors only: the new one is recorded
by the very event, and a refused write changes nothing. -/
theorem holds_write {id fd : Int32} {name cmdBuf : Bytes} {a : RedisAnswer} {w' : World}
    (ht : ts[i]? = some (.login id name fd)) (whole : (SessionTask.login id name fd).SentWhole)
    (hbuf : hmsetBuf id name fd = some cmdBuf)
    (hanswer : World.answer E (.redisCommand cmdBuf) c.shared = some (a, w'))
    (htrace : c'.trace = c.trace ++ [(i, ⟨.redisCommand cmdBuf, a⟩)])
    (holds : HoldsRecorded w ts c c.shared.redis) : HoldsRecorded w ts c' w'.redis := by
  rw [hmsetBuf, vsnprintf_session id fd whole.1 whole.2] at hbuf
  obtain ⟨text, -, rfl⟩ := Option.map_eq_some_iff.mp hbuf
  rcases answer_redisCommand_cases hanswer with ⟨hredis, -⟩ | ⟨reply, rfl, hreply⟩
  · rw [hredis]
    exact holds.mono htrace
  · rw [reply_hmset] at hreply
    obtain ⟨sent, -, hexec⟩ := Option.map_eq_some_iff.mp hreply
    rw [exec_hmset] at hexec
    cases hfields : sessionFields c.shared.redis id sent fd with
    | none =>
      rw [hfields] at hexec
      rw [← (Prod.mk.inj hexec).2]
      exact holds.mono htrace
    | some fields =>
      rw [hfields] at hexec
      obtain ⟨rfl, hredis⟩ := Prod.mk.inj hexec
      rw [← hredis]
      refine (holds.mono htrace).of_setHash (sessionFields_fd hfields) (.inr ⟨i, name, text, ht, ?_⟩)
      rw [htrace]
      exact List.mem_append_right _ List.mem_cons_self

/-- **An admitted step keeps the invariant**, at every stage of its task and whatever Redis and the
database answer. -/
theorem readInv_step (inv : ReadInv w ts c) (meets : ReadMeets ts c i)
    (hstep : Pool.step (World.answer E) c i = some c') : ReadInv w ts c' := by
  obtain ⟨ss, hat, stages⟩ := inv.stages
  obtain ⟨s, o, next, a, w', hs, hview, hanswer, hshared, hat', htrace⟩ := Staged.step hat hstep
  have hfits := stages i s hs
  have hthread := Staged.thread_of_view hat hs hview
  have holds := inv.holds.mono htrace
  cases s with
  | enter id name fd =>
    cases hview
    refine inv.of_step htrace stages hat' (readFits_after (fun r => ?_) a) ?_ nofun
      (finds_some meets hthread hanswer)
    · obtain ⟨_ | _, response⟩ := r
      · trivial
      · exact hfits
    · obtain ⟨n, hreply⟩ := reply_sadd c.shared.redis id
      exact holds.of_command hreply hanswer (congrArg World.redis hshared) (holds.of_hashes rfl)
  | write id name fd =>
    cases hbuf : hmsetBuf id name fd with
    | none =>
      cases (ReadStage.view_write_none hbuf).symm.trans hview
      exact a.elim
    | some cmdBuf =>
      cases (ReadStage.view_write hbuf).symm.trans hview
      refine inv.of_step htrace stages hat'
        (readFits_after (k := fun _ => .finished) (fun _ => trivial) a) ?_ nofun
        (finds_some meets hthread hanswer)
      rw [hshared]
      exact holds_write hfits (meets.whole _ hfits) hbuf hanswer htrace inv.holds
  | leave id =>
    cases hview
    refine inv.of_step htrace stages hat' (readFits_after (fun r => ?_) a) ?_ nofun
      (finds_some meets hthread hanswer)
    · obtain ⟨_ | _, response⟩ := r
      · trivial
      · trivial
    · obtain ⟨n, hreply⟩ := reply_srem c.shared.redis id
      exact holds.of_command hreply hanswer (congrArg World.redis hshared) (holds.of_hashes rfl)
  | drop id =>
    cases hview
    refine inv.of_step htrace stages hat'
      (readFits_after (k := fun _ => .finished) (fun _ => trivial) a) ?_ nofun
      (finds_some meets hthread hanswer)
    obtain ⟨n, hreply⟩ := reply_del c.shared.redis id
    exact holds.of_command hreply hanswer (congrArg World.redis hshared) (holds.of_delKey id)
  | find obj fd past =>
    cases hview
    refine inv.of_step htrace stages hat' (readFits_afterFind obj fd a) ?_ nofun nofun
    obtain ⟨faults, hworld⟩ := answer_query_world hanswer
    rw [hshared, hworld]
    exact holds
  | test kind obj =>
    cases hview
    refine inv.of_step htrace stages hat' (readFits_after (readFits_afterTest kind obj) a) ?_ nofun
      (finds_some meets hthread hanswer)
    rw [hshared, redis_of_read (reply_sismember c.shared.redis obj.recverId) hanswer]
    exact holds
  | lookup kind obj =>
    cases hview
    obtain ⟨fd, rfl, hrecorded⟩ := lookup_recorded meets inv.holds hthread hanswer
    refine inv.of_step htrace stages hat' ?_ ?_ nofun (finds_some meets hthread hanswer)
    · have hfd : atoi (cstr (idText fd)) = fd := by
        rw [cstr_idText, idText, atoi_toText]
      show ReadFits w ts c' i (ReadStage.located kind (obj.setFd (atoi (cstr (idText fd)))))
      rw [hfd]
      exact readFits_located kind (hrecorded.mono htrace)
    · rw [hshared, redis_of_read (reply_hgetFd c.shared.redis obj.recverId) hanswer]
      exact holds
  | readName obj =>
    cases hview
    refine inv.of_step htrace stages hat'
      (readFits_after (readFits_afterName (RecordedFd.mono htrace hfits)) a) ?_ nofun
      (finds_some meets hthread hanswer)
    rw [hshared, redis_of_read (reply_hgetName c.shared.redis obj.id) hanswer]
    exact holds
  | answer obj =>
    cases hview
    refine inv.of_step htrace stages hat' trivial ?_ (fun obj' htype he => ?_) nofun
    · rw [hshared, ← (Prod.mk.inj (Option.some.inj hanswer)).2]
      exact holds
    · cases he
      exact hfits htype
  | stop why =>
    cases hview
    exact a.elim
  | finished => cases hview

end Steps

theorem readInv_start {w : World}
    (held : ∀ id value, fdField w.redis id = some value → ∃ fd, value = idText fd)
    (ts : List SessionTask) : ReadInv w ts (Pool.start w (ts.map SessionTask.task)) where
  stages := by
    refine ⟨_, SessionTask.start_at w ts, fun i s hs => ?_⟩
    rw [List.getElem?_map, Option.map_eq_some_iff] at hs
    obtain ⟨t, ht, rfl⟩ := hs
    cases t with
    | login id name fd => exact ht
    | logout id => trivial
    | ask obj fd past => trivial
    | accept obj => trivial
  holds := by
    intro id value hvalue
    obtain ⟨fd, rfl⟩ := held id value hvalue
    exact ⟨fd, rfl, .inl hvalue⟩
  recorded := by
    rintro i obj ⟨-, hmem⟩
    cases hmem
  finds := by
    rintro i ⟨id, hmem⟩
    cases hmem

end Smer
