import Smer.Mysql.Connections
import Smer.Mysql.MysqlPool

/-!
# Statements under the driver's exceptions (`Mysql/src/mysql_pool.cpp`)

Between `GetConnection` and `ReleaseConnection`, `ExecQuery` and `ExecInsert` call the driver several
times, and each of these calls can raise an exception. A `Driver` says what the driver does during
one such function: each of its calls is made at most once there, so what it comes to is a matter of
the call alone. `PoolTrace` is the pool with the connections that were handed out and given back.

What the functions come to is what `MysqlPool.execQuery` and `MysqlPool.execInsert` make of the
database's answer (`execQuery_answers`, `execInsert_answers`).
-/

namespace Smer

open Lib

/-- The driver's calls that the two functions make. -/
inductive DriverCall where
  | setSchema
  | createStatement
  | executeQuery
  | prepareStatement
  | executeUpdate
  | close
  deriving DecidableEq

structure Driver where
  /-- what `isClosed` answers, and whether `connect` connects, as in `ConnPool.getConnection` -/
  closed : Bool
  connects : Bool
  raises : DriverCall → Bool
  rows : Bytes → ResultSet
  count : Bytes → Nat

structure PoolTrace where
  pool : ConnPool
  obtained : List Connection
  released : List Connection

/-- A routine of the pool. It ends normally or by an exception. -/
abbrev PoolM := EStateM Unit PoolTrace

/-- The state at the end, however it came. -/
def endState {α : Type} : EStateM.Result Unit PoolTrace α → PoolTrace
  | .ok _ s => s
  | .error _ s => s

namespace Driver

variable {α : Type}

def call (d : Driver) (c : DriverCall) (answer : α) : PoolM α :=
  if d.raises c then throw () else return answer

def getConnection (d : Driver) : PoolM (Option Connection) := fun s =>
  let (conn, pool) := s.pool.getConnection d.closed d.connects
  .ok conn { s with pool := pool, obtained := s.obtained ++ conn.toList }

def releaseConnection (conn : Connection) : PoolM Unit := fun s =>
  .ok () { s with pool := s.pool.releaseConnection (some conn), released := s.released ++ [conn] }

/-- A `try` block: its value, or the exception that it caught. -/
def attempt (block : PoolM α) : PoolM (Except Unit α) := fun s =>
  match block s with
  | .ok a s => .ok (.ok a) s
  | .error e s => .ok (.error e) s

/-- `ExecQuery`, on the text that `vsnprintf` leaves. -/
def execQuery (d : Driver) (cmdBuf : Bytes) : PoolM (Option ResultSet) := do
  match ← d.getConnection with
  | none => return none
  | some conn =>
    d.call .setSchema ()
    d.call .createStatement ()
    match ← attempt (d.call .executeQuery (d.rows cmdBuf)) with
    | .error _ =>
      d.call .close ()
      releaseConnection conn
      return none
    | .ok reply =>
      d.call .close ()
      releaseConnection conn
      return some reply

/-- `ExecInsert`, on the text that `vsnprintf` leaves. -/
def execInsert (d : Driver) (cmdBuf : Bytes) : PoolM Bool := do
  match ← d.getConnection with
  | none => return false
  | some conn =>
    d.call .setSchema ()
    let prepared := do
      d.call .prepareStatement ()
      d.call .executeUpdate (d.count cmdBuf)
    match ← attempt prepared with
    | .error _ =>
      releaseConnection conn
      return false
    | .ok count =>
      releaseConnection conn
      return decide (count > 0)

/-! ## What they come to -/

section Outcomes

variable {d : Driver} {s : PoolTrace} {pool : ConnPool} {conn : Connection}

theorem run_call_ok {c : DriverCall} (hok : d.raises c = false) (answer : α) (s : PoolTrace) :
    d.call c answer s = .ok answer s := by
  rw [call, hok]
  rfl

theorem run_call_raised {c : DriverCall} (hraises : d.raises c = true) (answer : α)
    (s : PoolTrace) : d.call c answer s = .error () s := by
  rw [call, hraises]
  rfl

/-- A `try` block around one call comes to the call's answer, or to its exception. -/
theorem attempt_call (d : Driver) (c : DriverCall) (answer : α) (s : PoolTrace) :
    attempt (d.call c answer) s = .ok (if d.raises c then .error () else .ok answer) s := by
  cases hraises : d.raises c with
  | true => rw [attempt, run_call_raised hraises, if_pos rfl]
  | false => rw [attempt, run_call_ok hraises, if_neg Bool.false_ne_true]

theorem run_bind_ok {β : Type} {m : PoolM α} {f : α → PoolM β} {s s' : PoolTrace} {a : α}
    (first : m s = .ok a s') : (m >>= f) s = f a s' := by
  show EStateM.bind m f s = _
  rw [EStateM.bind, first]

theorem run_bind_raised {β : Type} {m : PoolM α} {f : α → PoolM β} {s s' : PoolTrace}
    (first : m s = .error () s') : (m >>= f) s = .error () s' := by
  show EStateM.bind m f s = _
  rw [EStateM.bind, first]

theorem run_getConnection (hget : s.pool.getConnection d.closed d.connects = (some conn, pool)) :
    d.getConnection s =
      .ok (some conn) { s with pool := pool, obtained := s.obtained ++ [conn] } := by
  rw [getConnection, hget]
  rfl

theorem run_getConnection_none (hget : s.pool.getConnection d.closed d.connects = (none, pool)) :
    d.getConnection s = .ok none { s with pool := pool } := by
  rw [getConnection, hget]
  show EStateM.Result.ok none { s with pool := pool, obtained := s.obtained ++ [] } = _
  rw [List.append_nil]

/-- The trace after a connection was handed out, and after it was also given back. -/
def got (s : PoolTrace) (pool : ConnPool) (conn : Connection) : PoolTrace :=
  { s with pool := pool, obtained := s.obtained ++ [conn] }

def returned (s : PoolTrace) (pool : ConnPool) (conn : Connection) : PoolTrace :=
  { got s pool conn with
    pool := pool.releaseConnection (some conn), released := s.released ++ [conn] }

/-- The calls of `ExecQuery` that no `try` block catches, and whether one of them raises. -/
def QueryEscapes (d : Driver) : Prop :=
  d.raises .setSchema = true ∨ d.raises .createStatement = true ∨ d.raises .close = true

/-- The call of `ExecInsert` that no `try` block catches raises. -/
def InsertEscapes (d : Driver) : Prop := d.raises .setSchema = true

instance (d : Driver) : Decidable d.QueryEscapes :=
  inferInstanceAs (Decidable (_ ∨ _ ∨ _))

instance (d : Driver) : Decidable d.InsertEscapes :=
  inferInstanceAs (Decidable (_ = _))

theorem execQuery_none (hget : s.pool.getConnection d.closed d.connects = (none, pool))
    (cmdBuf : Bytes) : d.execQuery cmdBuf s = .ok none { s with pool := pool } :=
  run_bind_ok (run_getConnection_none hget)

/-- A query whose exception nothing catches keeps its connection. -/
theorem execQuery_escapes (hget : s.pool.getConnection d.closed d.connects = (some conn, pool))
    (escapes : d.QueryEscapes) (cmdBuf : Bytes) :
    d.execQuery cmdBuf s = .error () (got s pool conn) := by
  refine (run_bind_ok (run_getConnection hget)).trans ?_
  cases hschema : d.raises .setSchema with
  | true => exact run_bind_raised (run_call_raised hschema () _)
  | false =>
    refine (run_bind_ok (run_call_ok hschema () _)).trans ?_
    cases hcreate : d.raises .createStatement with
    | true => exact run_bind_raised (run_call_raised hcreate () _)
    | false =>
      refine (run_bind_ok (run_call_ok hcreate () _)).trans ?_
      have hclose : d.raises .close = true := by
        rcases escapes with h | h | h
        · rw [hschema] at h
          cases h
        · rw [hcreate] at h
          cases h
        · exact h
      refine (run_bind_ok (attempt_call d .executeQuery (d.rows cmdBuf) _)).trans ?_
      split
      · exact run_bind_raised (run_call_raised hclose () _)
      · exact run_bind_raised (run_call_raised hclose () _)

/-- Any other query gives its connection back. -/
theorem execQuery_guarded (hget : s.pool.getConnection d.closed d.connects = (some conn, pool))
    (guarded : ¬ d.QueryEscapes) (cmdBuf : Bytes) :
    d.execQuery cmdBuf s =
      .ok (if d.raises .executeQuery then none else some (d.rows cmdBuf))
        (returned s pool conn) := by
  simp only [QueryEscapes, not_or, Bool.not_eq_true] at guarded
  obtain ⟨hschema, hcreate, hclose⟩ := guarded
  refine (run_bind_ok (run_getConnection hget)).trans ?_
  refine (run_bind_ok (run_call_ok hschema () _)).trans ?_
  refine (run_bind_ok (run_call_ok hcreate () _)).trans ?_
  refine (run_bind_ok (attempt_call d .executeQuery (d.rows cmdBuf) _)).trans ?_
  cases d.raises .executeQuery with
  | true => exact run_bind_ok (run_call_ok hclose () _)
  | false => exact run_bind_ok (run_call_ok hclose () _)

theorem execInsert_none (hget : s.pool.getConnection d.closed d.connects = (none, pool))
    (cmdBuf : Bytes) : d.execInsert cmdBuf s = .ok false { s with pool := pool } :=
  run_bind_ok (run_getConnection_none hget)

theorem execInsert_escapes (hget : s.pool.getConnection d.closed d.connects = (some conn, pool))
    (escapes : d.InsertEscapes) (cmdBuf : Bytes) :
    d.execInsert cmdBuf s = .error () (got s pool conn) :=
  (run_bind_ok (run_getConnection hget)).trans (run_bind_raised (run_call_raised escapes () _))

/-- The driver raises inside the `try` block of `ExecInsert`. -/
def InsertThrows (d : Driver) : Prop :=
  d.raises .prepareStatement = true ∨ d.raises .executeUpdate = true

instance (d : Driver) : Decidable d.InsertThrows := inferInstanceAs (Decidable (_ ∨ _))

theorem execInsert_guarded (hget : s.pool.getConnection d.closed d.connects = (some conn, pool))
    (guarded : ¬ d.InsertEscapes) (cmdBuf : Bytes) :
    d.execInsert cmdBuf s =
      .ok (if d.InsertThrows then false else decide (d.count cmdBuf > 0))
        (returned s pool conn) := by
  have hschema : d.raises .setSchema = false := Bool.eq_false_iff.mpr guarded
  refine (run_bind_ok (run_getConnection hget)).trans ?_
  refine (run_bind_ok (run_call_ok hschema () _)).trans ?_
  have hblock : attempt (do
      d.call .prepareStatement ()
      d.call .executeUpdate (d.count cmdBuf)) (got s pool conn) =
        .ok (if d.InsertThrows then .error () else .ok (d.count cmdBuf)) (got s pool conn) := by
    cases hprepare : d.raises .prepareStatement with
    | true =>
      rw [if_pos (.inl hprepare), attempt, run_bind_raised (run_call_raised hprepare () _)]
    | false =>
      rw [attempt, run_bind_ok (run_call_ok hprepare () _)]
      cases hupdate : d.raises .executeUpdate with
      | true => rw [if_pos (.inr hupdate), run_call_raised hupdate]
      | false =>
        have hnone : ¬ d.InsertThrows := by
          rw [InsertThrows, hprepare, hupdate]
          decide
        rw [if_neg hnone, run_call_ok hupdate]
  refine (run_bind_ok hblock).trans ?_
  split
  · rfl
  · rfl

/-! ## The database's answers -/

/-- What the database answers, for an outcome of the two functions' calls. -/
def answer {β : Type} (conn : Option Connection) (escapes throws : Prop) [Decidable escapes]
    [Decidable throws] (value : β) : Except SqlFault β :=
  if conn = none then .error .noConnection
  else if escapes then .error .escapes
  else if throws then .error .threw
  else .ok value

/-- How a routine's end looks to the task that called it. -/
def resume : EStateM.Result Unit PoolTrace α → Task α
  | .ok a _ => pure a
  | .error _ _ => Task.abort .raised

/-- **The query comes to what the task makes of the database's answer.** -/
theorem execQuery_answers {format cmdBuf : Bytes} {args : List FmtArg}
    (hcmd : vsnprintf MysqlPool.cmdBound format args = some cmdBuf) (d : Driver) (s : PoolTrace) :
    ∃ next, MysqlPool.execQuery format args = .vis (.executeQuery cmdBuf) next ∧
      next (answer (s.pool.getConnection d.closed d.connects).1 d.QueryEscapes
        (d.raises .executeQuery) (d.rows cmdBuf)) = resume (d.execQuery cmdBuf s) := by
  rw [MysqlPool.execQuery, hcmd]
  refine ⟨_, rfl, ?_⟩
  obtain ⟨conn, pool, hget⟩ : ∃ conn pool,
    s.pool.getConnection d.closed d.connects = (conn, pool) := ⟨_, _, rfl⟩
  rw [hget]
  cases conn with
  | none =>
    rw [execQuery_none hget]
    rfl
  | some conn =>
    by_cases escapes : d.QueryEscapes
    · rw [execQuery_escapes hget escapes, answer, if_neg (by rintro ⟨⟩), if_pos escapes]
      rfl
    · rw [execQuery_guarded hget escapes, answer, if_neg (by rintro ⟨⟩), if_neg escapes]
      cases d.raises .executeQuery <;> rfl

/-- **The insert comes to what the task makes of the database's answer.** -/
theorem execInsert_answers {format cmdBuf : Bytes} {args : List FmtArg}
    (hcmd : vsnprintf MysqlPool.cmdBound format args = some cmdBuf) (d : Driver) (s : PoolTrace) :
    ∃ next, MysqlPool.execInsert format args = .vis (.executeUpdate cmdBuf) next ∧
      next (answer (s.pool.getConnection d.closed d.connects).1 d.InsertEscapes
        d.InsertThrows (d.count cmdBuf)) = resume (d.execInsert cmdBuf s) := by
  rw [MysqlPool.execInsert, hcmd]
  refine ⟨_, rfl, ?_⟩
  obtain ⟨conn, pool, hget⟩ : ∃ conn pool,
    s.pool.getConnection d.closed d.connects = (conn, pool) := ⟨_, _, rfl⟩
  rw [hget]
  cases conn with
  | none =>
    rw [execInsert_none hget]
    rfl
  | some conn =>
    by_cases escapes : d.InsertEscapes
    · rw [execInsert_escapes hget escapes, answer, if_neg (by rintro ⟨⟩), if_pos escapes]
      rfl
    · rw [execInsert_guarded hget escapes, answer, if_neg (by rintro ⟨⟩), if_neg escapes]
      by_cases throws : d.InsertThrows
      · rw [if_pos throws, if_pos throws]
        rfl
      · rw [if_neg throws, if_neg throws]
        rfl

end Outcomes

end Driver

end Smer
