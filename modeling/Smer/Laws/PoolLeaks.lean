import Smer.Mysql.DriverCalls

/-!
# Connections that come back

A statement that obtained a connection gives it back by hand, at the ends that its author saw. An
exception of `setSchema`, of `createStatement` or of `close` is at none of them: it leaves
`ExecQuery` with the connection (`close` is called in the `catch` block too), and one of `setSchema`
leaves `ExecInsert` so. Each such call takes a connection out of use (`usable_after`), and a sequence
of calls keeps the pool as it was exactly when none of its calls is one (`connections_return_iff`).

The statements run one after the other. That concurrent calls keep the pool's accounts is
`PoolUse.pool_accounted`.
-/

namespace Smer

open Lib

/-- The connections that can be had: those in the list, and those that may still be made. -/
def ConnPool.usable (p : ConnPool) : Int := p.connList.length + (p.maxSize - p.curSize)

/-- A call of one of the two functions, with the text of its statement. -/
inductive SqlCall where
  | query (cmdBuf : Bytes)
  | insert (cmdBuf : Bytes)

namespace SqlCall

/-- A call on a pool, from its start to its end. -/
def perform (p : ConnPool) (d : Driver) : SqlCall → PoolTrace
  | .query cmdBuf => endState (d.execQuery cmdBuf ⟨p, [], []⟩)
  | .insert cmdBuf => endState (d.execInsert cmdBuf ⟨p, [], []⟩)

/-- The driver raises where the statement's function does not catch. -/
def Escapes (d : Driver) : SqlCall → Prop
  | .query _ => d.QueryEscapes
  | .insert _ => d.InsertEscapes

/-- The call obtains a connection, and an exception leaves it. -/
def Leaks (p : ConnPool) (d : Driver) (call : SqlCall) : Prop :=
  (p.getConnection d.closed d.connects).1 ≠ none ∧ call.Escapes d

instance (d : Driver) : (call : SqlCall) → Decidable (call.Escapes d)
  | .query _ => inferInstanceAs (Decidable d.QueryEscapes)
  | .insert _ => inferInstanceAs (Decidable d.InsertEscapes)

instance (p : ConnPool) (d : Driver) (call : SqlCall) : Decidable (call.Leaks p d) :=
  inferInstanceAs (Decidable (_ ∧ _))

/-- What the call obtained it gave back, once. -/
def Returns (p : ConnPool) (d : Driver) (call : SqlCall) : Prop :=
  (call.perform p d).released = (call.perform p d).obtained

variable {p pool : ConnPool} {d : Driver} {call : SqlCall} {conn : Connection}

/-! ## One call -/

/-- A connection that is handed out is one less to be had. -/
theorem usable_getConnection {got : Option Connection}
    (hget : p.getConnection d.closed d.connects = (got, pool)) :
    pool.usable = p.usable - got.toList.length := by
  rcases p.getConnection_cases d.closed d.connects with
    ⟨front, connList, hlist, heq | heq | heq⟩ | ⟨hlist, ⟨-, heq⟩ | heq⟩
  · cases heq.symm.trans hget
    simp only [ConnPool.usable, hlist, List.length_cons, Option.toList_some, List.length_nil]
    omega
  · cases heq.symm.trans hget
    simp only [ConnPool.usable, hlist, List.length_cons, Option.toList_some, List.length_nil]
    omega
  · cases heq.symm.trans hget
    simp only [ConnPool.usable, hlist, List.length_cons, Option.toList_none, List.length_nil]
    omega
  · cases heq.symm.trans hget
    simp only [ConnPool.usable, Option.toList_some, List.length_cons, List.length_nil]
    omega
  · cases heq.symm.trans hget
    exact (Int.sub_zero _).symm

theorem usable_releaseConnection (p : ConnPool) (conn : Connection) :
    (p.releaseConnection (some conn)).usable = p.usable + 1 := by
  simp only [ConnPool.usable, ConnPool.releaseConnection, List.length_append,
    List.length_singleton]
  omega

/-- A call without a connection, one that leaks it, and one that gives it back. -/
theorem perform_none (hget : p.getConnection d.closed d.connects = (none, pool)) :
    call.perform p d = ⟨pool, [], []⟩ := by
  cases call with
  | query cmdBuf =>
    rw [perform, Driver.execQuery_none hget]
    rfl
  | insert cmdBuf =>
    rw [perform, Driver.execInsert_none hget]
    rfl

theorem perform_escapes (hget : p.getConnection d.closed d.connects = (some conn, pool))
    (escapes : call.Escapes d) : call.perform p d = ⟨pool, [conn], []⟩ := by
  cases call with
  | query cmdBuf =>
    rw [perform, Driver.execQuery_escapes hget escapes]
    rfl
  | insert cmdBuf =>
    rw [perform, Driver.execInsert_escapes hget escapes]
    rfl

theorem perform_guarded (hget : p.getConnection d.closed d.connects = (some conn, pool))
    (guarded : ¬ call.Escapes d) :
    call.perform p d = ⟨pool.releaseConnection (some conn), [conn], [conn]⟩ := by
  cases call with
  | query cmdBuf =>
    rw [perform, Driver.execQuery_guarded hget guarded]
    rfl
  | insert cmdBuf =>
    rw [perform, Driver.execInsert_guarded hget guarded]
    rfl

/-- **A call gives back what it obtained exactly when it does not leak, and leaks one connection
else.** -/
theorem perform_cases (p : ConnPool) (d : Driver) (call : SqlCall) :
    (¬ call.Leaks p d ∧ call.Returns p d ∧ (call.perform p d).pool.usable = p.usable) ∨
      (call.Leaks p d ∧ ¬ call.Returns p d ∧
        (call.perform p d).pool.usable = p.usable - 1) := by
  obtain ⟨got, pool, hget⟩ : ∃ got pool, p.getConnection d.closed d.connects = (got, pool) :=
    ⟨_, _, rfl⟩
  rw [Leaks, Returns, hget]
  cases got with
  | none =>
    rw [perform_none hget]
    exact .inl ⟨fun leaks => leaks.1 rfl, rfl, (usable_getConnection hget).trans (Int.sub_zero _)⟩
  | some conn =>
    by_cases escapes : call.Escapes d
    · rw [perform_escapes hget escapes]
      exact .inr ⟨⟨by rintro ⟨⟩, escapes⟩, by rintro ⟨⟩, usable_getConnection hget⟩
    · rw [perform_guarded hget escapes]
      refine .inl ⟨fun leaks => escapes leaks.2, rfl, ?_⟩
      rw [usable_releaseConnection, usable_getConnection hget]
      exact Int.sub_add_cancel _ 1

end SqlCall

/-! ## Sequences of calls -/

namespace ConnPool

/-- The pool after a sequence of calls, each with what the driver does during it. -/
def after (p : ConnPool) : List (SqlCall × Driver) → ConnPool
  | [] => p
  | (call, d) :: calls => (call.perform p d).pool.after calls

/-- Every call of a sequence is as `P` says, on the pool that it finds. -/
def Always (P : ConnPool → Driver → SqlCall → Prop) (p : ConnPool) :
    List (SqlCall × Driver) → Prop
  | [] => True
  | (call, d) :: calls => P p d call ∧ (call.perform p d).pool.Always P calls

/-- How many calls of a sequence leak. -/
def leaks (p : ConnPool) : List (SqlCall × Driver) → Nat
  | [] => 0
  | (call, d) :: calls =>
    (if call.Leaks p d then 1 else 0) + (call.perform p d).pool.leaks calls

/-- Every connection comes back: a call gives back what it obtained, once, and as many connections
can be had after the sequence as before. -/
def ConnectionsReturn (p : ConnPool) (calls : List (SqlCall × Driver)) : Prop :=
  p.Always SqlCall.Returns calls ∧ (p.after calls).usable = p.usable

/-- **Each leak takes one connection out of use.** -/
theorem usable_after (p : ConnPool) (calls : List (SqlCall × Driver)) :
    (p.after calls).usable = p.usable - p.leaks calls := by
  induction calls generalizing p with
  | nil => exact (Int.sub_zero _).symm
  | cons entry calls ih =>
    obtain ⟨call, d⟩ := entry
    rw [after, ih, leaks]
    rcases call.perform_cases p d with ⟨keeps, -, husable⟩ | ⟨leaks, -, husable⟩
    · rw [husable, if_neg keeps]
      push_cast
      omega
    · rw [husable, if_pos leaks]
      push_cast
      omega

theorem leaks_eq_zero_iff (p : ConnPool) (calls : List (SqlCall × Driver)) :
    p.leaks calls = 0 ↔ p.Always (fun p d call => ¬ call.Leaks p d) calls := by
  induction calls generalizing p with
  | nil => exact iff_of_true rfl trivial
  | cons entry calls ih =>
    obtain ⟨call, d⟩ := entry
    rw [leaks, Always, ← ih]
    by_cases hleaks : call.Leaks p d
    · rw [if_pos hleaks]
      refine iff_of_false (by omega) fun h => h.1 hleaks
    · rw [if_neg hleaks, Nat.zero_add]
      exact (and_iff_right hleaks).symm

/-- **Every connection comes back exactly when no call that obtained one meets an exception where it
is not caught.** -/
theorem connections_return_iff (p : ConnPool) (calls : List (SqlCall × Driver)) :
    p.ConnectionsReturn calls ↔ p.Always (fun p d call => ¬ call.Leaks p d) calls := by
  rw [ConnectionsReturn, usable_after, ← leaks_eq_zero_iff]
  constructor
  · rintro ⟨-, husable⟩
    omega
  · intro hzero
    refine ⟨?_, by omega⟩
    rw [leaks_eq_zero_iff] at hzero
    induction calls generalizing p with
    | nil => trivial
    | cons entry calls ih =>
      obtain ⟨call, d⟩ := entry
      obtain ⟨keeps, hrest⟩ := hzero
      refine ⟨?_, ih _ hrest⟩
      rcases call.perform_cases p d with ⟨-, returns, -⟩ | ⟨leaks, -, -⟩
      · exact returns
      · exact absurd leaks keeps

/-- A driver on which one call raises. -/
def raisesOnly (c : DriverCall) : Driver := ⟨false, true, fun c' => c' = c, fun _ => [], fun _ => 0⟩

/-- A query whose `createStatement` raises keeps the connection. -/
theorem query_keeps_connection : ¬ ∀ p calls, ConnPool.ConnectionsReturn p calls := by
  intro claim
  obtain ⟨-, husable⟩ :=
    claim ⟨2, 1, [0], 1, []⟩ [(.query maxUseridText, raisesOnly .createStatement)]
  revert husable
  decide

end ConnPool

end Smer
