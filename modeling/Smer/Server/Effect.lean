import Smer.Lib.Pool
import Smer.Redis.Store
import Smer.Mysql.Sql
import Smer.Seqeue.TransObj

/-!
# What a worker task asks of its surroundings

The server's message handlers enqueue tasks, and worker threads run them. A task reaches the
database, the Redis server and the outbound queue, one operation at a time (`Effect`), and it can
end before its end (`Abort`). A task is a program over these operations (`Task`), so that it can be
run alone (`World.answer`) or step by step among others (`Lib.Pool`).

`World` is what the tasks share. Its two lists of faults say which of the coming database and Redis
operations fail, and how; an exhausted list means that all is well from there on.
-/

namespace Smer

open Lib

/-- How a task can end before its end: by an exception, or by something that the language leaves
undefined. -/
inductive Abort where
  /-- a null pointer is dereferenced -/
  | nullDeref
  /-- an exception leaves the task -/
  | raised
  /-- a format has no defined expansion -/
  | undefinedFormat
  /-- a vector is read behind its end -/
  | outOfBounds
  deriving DecidableEq

/-- How a database operation can fail: it gets no connection, the statement throws inside the `try`,
or an exception escapes. -/
inductive SqlFault where
  /-- the pool has no connection to give -/
  | noConnection
  /-- the statement raises an exception, which the pool catches -/
  | threw
  /-- an exception is raised where the pool does not catch it -/
  | escapes
  deriving DecidableEq

/-- How a Redis operation can fail: there is no context, no reply, or an error instead of the
command. -/
inductive RedisFault where
  | noContext
  | noReply
  | errorReply (str : Bytes)

inductive RedisAnswer where
  | noContext
  | noReply
  | reply (r : RedisReply)

inductive Effect where
  | executeQuery (cmd : Bytes)
  | executeUpdate (cmd : Bytes)
  | redisCommand (cmdBuf : Bytes)
  | push (obj : TransObj)
  | abort (why : Abort)

/-- What each operation is answered. A task that aborts is answered nothing. -/
@[reducible] def Effect.Ans : Effect → Type
  | .executeQuery _ => Except SqlFault ResultSet
  | .executeUpdate _ => Except SqlFault Nat
  | .redisCommand _ => RedisAnswer
  | .push _ => Unit
  | .abort _ => Empty

abbrev Task (α : Type) := Prog Effect Effect.Ans α

namespace Task

variable {α β : Type}

def abort (why : Abort) : Task α := .vis (.abort why) Empty.elim

/-- What follows an abort is never done. -/
@[simp] theorem abort_bind (why : Abort) (f : α → Task β) :
    (abort why : Task α) >>= f = abort why := by
  rw [abort, abort, Prog.vis_bind]
  congr 1
  funext e
  exact e.elim

/-- `SeqToBin::getInstance().getBuff().push(obj)`. -/
def push (obj : TransObj) : Task Unit := @Prog.call Effect Effect.Ans (.push obj)

end Task

/-! ## The shared state -/

structure World where
  userinfo : UserInfo
  redis : RedisStore
  outbound : List TransObj
  sqlFaults : List (Option SqlFault)
  redisFaults : List (Option RedisFault)

/-- Nothing stored and no faults to come. -/
def emptyWorld : World := ⟨[], .empty, [], [], []⟩

/-- The text of a command that is sent with no arguments of its own, as the client library reads it
as a format: a doubled percent sign is one, and so is one at the very end. Any other directive reads
an argument that was not passed. -/
def commandText : Bytes → Option Bytes
  | [] => some []
  | [37] => some [37]
  | 37 :: 37 :: rest => (commandText rest).map (37 :: ·)
  | 37 :: _ => none
  | b :: rest => (commandText rest).map (b :: ·)

theorem commandText_cons {b : UInt8} (hb : b ≠ 37) (rest : Bytes) :
    commandText (b :: rest) = (commandText rest).map (b :: ·) := by
  rw [commandText] <;> intros <;> contradiction

theorem commandText_append {pre : Bytes} (hpre : (37 : UInt8) ∉ pre) (rest : Bytes) :
    commandText (pre ++ rest) = (commandText rest).map (pre ++ ·) := by
  induction pre with
  | nil => exact Option.map_id'.symm
  | cons b pre ih =>
    rw [List.mem_cons, not_or] at hpre
    rw [List.cons_append, commandText_cons (Ne.symm hpre.1), ih hpre.2, Option.map_map]
    rfl

/-- A text that does not end in a percent sign is read as any format is. -/
theorem commandText_concat (x : Bytes) {c : UInt8} (hc : c ≠ 37) :
    commandText (x ++ [c]) = expand (x ++ [c]) [] := by
  match x with
  | [] =>
    rw [List.nil_append, commandText_cons hc, expand_cons hc]
    rfl
  | [d] =>
    by_cases hd : d = 37
    · have hhead : ([c] : Bytes).head? ≠ some 37 := fun h => hc (Option.some.inj h)
      rw [hd, List.cons_append, List.nil_append, expand_directive hhead, commandText]
      · intro h
        cases h
      · intro rest h
        exact hc (List.cons.inj h).1
    · rw [List.cons_append, List.nil_append, commandText_cons hd, expand_cons hd,
        commandText_cons hc, expand_cons hc]
      rfl
  | d :: e :: x =>
    by_cases hd : d = 37
    · by_cases he : e = 37
      · rw [hd, he, List.cons_append, List.cons_append, commandText, expand,
          commandText_concat x hc]
      · have hhead : (e :: (x ++ [c])).head? ≠ some 37 := fun h => he (Option.some.inj h)
        rw [hd, List.cons_append, List.cons_append, expand_directive hhead, commandText]
        · intro h
          cases h
        · intro rest h
          exact he (List.cons.inj h).1
    · have ih := commandText_concat (e :: x) hc
      rw [List.cons_append] at ih
      rw [List.cons_append, List.cons_append, commandText_cons hd, expand_cons hd, ih]

/-- The argument vector that Redis receives for a command: its text is cut at the spaces. -/
def argv (cmdBuf : Bytes) : Option (List Bytes) := (commandText cmdBuf).map words

/-- The vector of a command that does not end in a percent sign. -/
theorem argv_expand (x : Bytes) {y : Bytes} (hne : y ≠ []) (hplain : (37 : UInt8) ∉ y) :
    argv (x ++ y) = (expand (x ++ y) []).map words := by
  obtain ⟨front, c, rfl⟩ := List.eq_nil_or_concat' y |>.resolve_left hne
  have hc : c ≠ 37 := fun h => hplain (by rw [h]; exact List.mem_append_right _ List.mem_cons_self)
  rw [← List.append_assoc, argv, commandText_concat _ hc]

/-- The vector of a command of plain words. -/
theorem argv_unwords {ws : List Bytes} (hne : ws ≠ [])
    (plain : ∀ w ∈ ws, ((32 : UInt8) ∉ w ∧ w ≠ []) ∧ (37 : UInt8) ∉ w) :
    argv (unwords ws) = some ws := by
  have hspace : ∀ w ∈ ws, (32 : UInt8) ∉ w ∧ w ≠ [] := fun w hw => (plain w hw).1
  have hpercent : (37 : UInt8) ∉ unwords ws := notMem_unwords (by decide) fun w hw => (plain w hw).2
  have htext : unwords ws ≠ [] := by
    obtain ⟨w, ws, rfl⟩ := List.exists_cons_of_ne_nil hne
    have hw := (hspace w List.mem_cons_self).2
    cases ws with
    | nil => exact hw
    | cons v ws => exact List.append_ne_nil_of_left_ne_nil hw _
  have h := argv_expand [] htext hpercent
  rw [List.nil_append, expand_eq_self hpercent, Option.map_some, words_unwords hspace] at h
  exact h

namespace World

variable (E : Mysql)

/-- The answer of a fault-free Redis operation. The words of the command are cut at its spaces. -/
def redisReply (redis : RedisStore) (cmdBuf : Bytes) : Option (RedisReply × RedisStore) :=
  (commandText cmdBuf).map fun text => redis.exec (words text)

/-- Performs one operation on the world: the next fault of its kind, or what the engine or the Redis
server does. An operation that ends the task has no answer. -/
def answer : (o : Effect) → World → Option (o.Ans × World)
  | .executeQuery cmd, w =>
    match w.sqlFaults with
    | some fault :: faults => some (.error fault, { w with sqlFaults := faults })
    | faults =>
      let w := { w with sqlFaults := faults.tail }
      match E.query cmd w.userinfo with
      | some rows => some (.ok rows, w)
      | none => some (.error .threw, w)
  | .executeUpdate cmd, w =>
    match w.sqlFaults with
    | some fault :: faults => some (.error fault, { w with sqlFaults := faults })
    | faults =>
      let w := { w with sqlFaults := faults.tail }
      match E.update cmd w.userinfo with
      | some (count, userinfo) => some (.ok count, { w with userinfo := userinfo })
      | none => some (.error .threw, w)
  | .redisCommand cmdBuf, w =>
    match w.redisFaults with
    | some .noContext :: faults => some (.noContext, { w with redisFaults := faults })
    | some .noReply :: faults => some (.noReply, { w with redisFaults := faults })
    | some (.errorReply str) :: faults =>
      some (.reply (.error str), { w with redisFaults := faults })
    | faults =>
      (redisReply w.redis cmdBuf).map fun (reply, redis) =>
        (.reply reply, { w with redis := redis, redisFaults := faults.tail })
  | .push obj, w => some ((), { w with outbound := w.outbound ++ [obj] })
  | .abort _, _ => none

end World

/-! ## What an operation reaches -/

/-- A query is always answered, if only with a fault. -/
theorem answer_query_some (E : Mysql) (w : World) (cmd : Bytes) :
    ∃ r w', World.answer E (.executeQuery cmd) w = some (r, w') := by
  simp only [World.answer]
  split
  · exact ⟨_, _, rfl⟩
  · split
    · exact ⟨_, _, rfl⟩
    · exact ⟨_, _, rfl⟩

/-- A query changes what is left of the database's faults and nothing else. -/
theorem answer_query_world {E : Mysql} {w w' : World} {cmd : Bytes} {r : Except SqlFault ResultSet}
    (h : World.answer E (.executeQuery cmd) w = some (r, w')) :
    ∃ faults, w' = { w with sqlFaults := faults } := by
  simp only [World.answer] at h
  split at h
  · cases h
    exact ⟨_, rfl⟩
  · split at h
    · cases h
      exact ⟨_, rfl⟩
    · cases h
      exact ⟨_, rfl⟩

/-- An update changes the table and what is left of the database's faults. -/
theorem answer_update_world {E : Mysql} {w w' : World} {cmd : Bytes} {r : Except SqlFault Nat}
    (h : World.answer E (.executeUpdate cmd) w = some (r, w')) :
    ∃ userinfo faults, w' = { w with userinfo := userinfo, sqlFaults := faults } := by
  simp only [World.answer] at h
  split at h
  · cases h
    exact ⟨_, _, rfl⟩
  · split at h
    · cases h
      exact ⟨_, _, rfl⟩
    · cases h
      exact ⟨w.userinfo, _, rfl⟩

/-- A command fails and leaves Redis alone, or Redis answers it. -/
theorem answer_redisCommand_cases {E : Mysql} {w w' : World} {cmdBuf : Bytes} {a : RedisAnswer}
    (h : World.answer E (.redisCommand cmdBuf) w = some (a, w')) :
    (w'.redis = w.redis ∧ ∃ fault, w.redisFaults.head? = some (some fault)) ∨
      ∃ reply, a = .reply reply ∧ World.redisReply w.redis cmdBuf = some (reply, w'.redis) := by
  simp only [World.answer] at h
  split at h
  · rename_i hfaults
    cases h
    exact .inl ⟨rfl, _, by rw [hfaults]; rfl⟩
  · rename_i hfaults
    cases h
    exact .inl ⟨rfl, _, by rw [hfaults]; rfl⟩
  · rename_i hfaults
    cases h
    exact .inl ⟨rfl, _, by rw [hfaults]; rfl⟩
  · obtain ⟨⟨reply, redis⟩, hreply, hout⟩ := Option.map_eq_some_iff.mp h
    cases hout
    exact .inr ⟨reply, rfl, hreply⟩

/-- A reply is an error that was to come, or the server's. -/
theorem answer_redisCommand_reply {E : Mysql} {w w' : World} {cmdBuf : Bytes} {reply : RedisReply}
    (h : World.answer E (.redisCommand cmdBuf) w = some (.reply reply, w')) :
    (∃ str, reply = .error str) ∨
      World.redisReply w.redis cmdBuf = some (reply, w'.redis) := by
  simp only [World.answer] at h
  split at h
  · cases h
  · cases h
  · cases h
    exact .inl ⟨_, rfl⟩
  · obtain ⟨⟨reply', redis⟩, hreply, hout⟩ := Option.map_eq_some_iff.mp h
    cases hout
    exact .inr hreply

/-- A command touches Redis and its faults only. -/
theorem answer_redisCommand_outbound {E : Mysql} {w w' : World} {cmdBuf : Bytes} {a : RedisAnswer}
    (h : World.answer E (.redisCommand cmdBuf) w = some (a, w')) : w'.outbound = w.outbound := by
  simp only [World.answer] at h
  split at h
  · cases h
    rfl
  · cases h
    rfl
  · cases h
    rfl
  · obtain ⟨out, -, hout⟩ := Option.map_eq_some_iff.mp h
    cases hout
    rfl

/-! ## What a fault-free operation answers -/

section Normal

variable {E : Mysql} {w : World}

theorem answer_executeQuery (normal : w.sqlFaults = []) (cmd : Bytes) :
    World.answer E (.executeQuery cmd) w =
      some (match E.query cmd w.userinfo with
        | some rows => .ok rows
        | none => .error .threw, w) := by
  obtain ⟨userinfo, redis, outbound, sqlFaults, redisFaults⟩ := w
  cases normal
  simp only [World.answer, List.tail_nil]
  cases E.query cmd userinfo <;> rfl

theorem answer_executeUpdate (normal : w.sqlFaults = []) (cmd : Bytes) :
    World.answer E (.executeUpdate cmd) w =
      some (match E.update cmd w.userinfo with
        | some (count, userinfo) => (.ok count, { w with userinfo := userinfo })
        | none => (.error .threw, w)) := by
  obtain ⟨userinfo, redis, outbound, sqlFaults, redisFaults⟩ := w
  cases normal
  simp only [World.answer, List.tail_nil]
  cases E.update cmd userinfo <;> rfl

/-- A command whose own directives have no arguments is not answered. -/
theorem answer_redisCommand_none (normal : w.redisFaults = []) {cmdBuf : Bytes}
    (hreply : World.redisReply w.redis cmdBuf = none) :
    World.answer E (.redisCommand cmdBuf) w = none := by
  obtain ⟨userinfo, redis, outbound, sqlFaults, redisFaults⟩ := w
  cases normal
  simp only [World.answer, hreply, Option.map_none]

theorem answer_redisCommand (normal : w.redisFaults = []) {cmdBuf : Bytes} {reply : RedisReply}
    {redis : RedisStore} (hreply : World.redisReply w.redis cmdBuf = some (reply, redis)) :
    World.answer E (.redisCommand cmdBuf) w = some (.reply reply, { w with redis := redis }) := by
  obtain ⟨userinfo, redis, outbound, sqlFaults, redisFaults⟩ := w
  cases normal
  simp only [World.answer, hreply, Option.map_some, List.tail_nil]

/-- Redis executes the vector that it receives. -/
theorem redisReply_eq (redis : RedisStore) (cmdBuf : Bytes) :
    World.redisReply redis cmdBuf = (argv cmdBuf).map redis.exec := by
  rw [World.redisReply, argv, Option.map_map]
  rfl

end Normal

end Smer
