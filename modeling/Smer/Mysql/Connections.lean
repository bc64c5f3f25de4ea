import Smer.Lib.Custody
import Smer.Lib.Run

/-!
# The connections of the pool (`Mysql/src/mysql_pool.cpp`)

`GetConnection` and `ReleaseConnection` do all they do under one mutex, so a call is one step, and a
run of the pool is any sequence of calls. `ConnPool` is the pool's members with the connections the
driver has made and those that were deleted. `PoolUse` adds the connections that callers hold.

A connection is a number: the driver's first is 0, its second is 1, and so on. The number stands for
the object and not for its address, which a later object may have again.
-/

namespace Smer

open Lib

abbrev Connection := Nat

structure ConnPool where
  maxSize : Int
  curSize : Int
  connList : List Connection
  /-- how many connections the driver has made -/
  made : Nat
  deleted : List Connection

namespace ConnPool

/-- `CreateConnection`, when the driver connects or not. -/
def createConnection (p : ConnPool) (connects : Bool) : Option Connection × ConnPool :=
  if connects then (some p.made, { p with made := p.made + 1 }) else (none, p)

/-- `InitConnection`: the turns of its loop that are left, and whether the driver connects in
each. -/
def initConnection (p : ConnPool) : Nat → (Nat → Bool) → ConnPool
  | 0, _ => p
  | turns + 1, connects =>
    match p.createConnection (connects 0) with
    | (some conn, p) =>
      { p with connList := p.connList ++ [conn], curSize := p.curSize + 1 }.initConnection turns
        fun i => connects (i + 1)
    | (none, p) => p.initConnection turns fun i => connects (i + 1)

/-- `initPool`, on a new pool. -/
def initPool (maxSize : Int) (connects : Nat → Bool) : ConnPool :=
  initConnection ⟨maxSize, 0, [], 0, []⟩ (maxSize.tdiv 2).toNat connects

/-- The front connection, made anew when it is closed. -/
def refresh (p : ConnPool) (conn : Connection) (closed connects : Bool) :
    Option Connection × ConnPool :=
  if closed then { p with deleted := p.deleted ++ [conn] }.createConnection connects
  else (some conn, p)

/-- `GetConnection`: what `isClosed` answers, and whether the driver connects, should they be
asked. -/
def getConnection (p : ConnPool) (closed connects : Bool) : Option Connection × ConnPool :=
  match p.connList with
  | conn :: connList =>
    match { p with connList := connList }.refresh conn closed connects with
    | (some conn, p) => (some conn, p)
    | (none, p) => (none, { p with curSize := p.curSize - 1 })
  | [] =>
    if p.curSize < p.maxSize then
      match p.createConnection connects with
      | (some conn, p) => (some conn, { p with curSize := p.curSize + 1 })
      | (none, p) => (none, p)
    else (none, p)

/-- `ReleaseConnection`. -/
def releaseConnection (p : ConnPool) : Option Connection → ConnPool
  | some conn => { p with connList := p.connList ++ [conn] }
  | none => p

/-- A call of `GetConnection` ends in one of six ways. -/
theorem getConnection_cases (p : ConnPool) (closed connects : Bool) :
    (∃ conn connList, p.connList = conn :: connList ∧
      (p.getConnection closed connects = (some conn, { p with connList := connList }) ∨
        p.getConnection closed connects = (some p.made, { p with
          connList := connList, deleted := p.deleted ++ [conn], made := p.made + 1 }) ∨
        p.getConnection closed connects = (none, { p with
          connList := connList, deleted := p.deleted ++ [conn], curSize := p.curSize - 1 }))) ∨
      (p.connList = [] ∧
        ((p.curSize < p.maxSize ∧ p.getConnection closed connects = (some p.made, { p with
            curSize := p.curSize + 1, made := p.made + 1 })) ∨
          p.getConnection closed connects = (none, p))) := by
  obtain ⟨maxSize, curSize, connList, made, deleted⟩ := p
  cases connList with
  | cons conn connList =>
    refine .inl ⟨conn, connList, rfl, ?_⟩
    cases closed with
    | false => exact .inl rfl
    | true =>
      cases connects with
      | true => exact .inr (.inl rfl)
      | false => exact .inr (.inr rfl)
  | nil =>
    refine .inr ⟨rfl, ?_⟩
    by_cases hroom : curSize < maxSize
    · cases connects with
      | true => exact .inl ⟨hroom, by simp only [getConnection, hroom, if_true, createConnection]⟩
      | false =>
        refine .inr ?_
        simp only [getConnection, hroom, if_true, createConnection, Bool.false_eq_true, if_false]
    · exact .inr (by simp only [getConnection, hroom, if_false])

end ConnPool

/-! ## Runs -/

/-- The pool, and the connections its callers hold. -/
structure PoolUse where
  pool : ConnPool
  /-- who holds what -/
  held : List (Nat × Connection)

inductive PoolCall where
  | get (caller : Nat) (closed connects : Bool)
  | release (caller : Nat) (conn : Option Connection)

namespace PoolUse

/-- After `initPool`. -/
def start (maxSize : Int) (connects : Nat → Bool) : PoolUse := ⟨.initPool maxSize connects, []⟩

/-- A caller releases a null pointer, or a connection that it holds. -/
def step (s : PoolUse) : PoolCall → Option PoolUse
  | .get caller closed connects =>
    let (conn, pool) := s.pool.getConnection closed connects
    some ⟨pool, conn.toList.map (caller, ·) ++ s.held⟩
  | .release _ none => some { s with pool := s.pool.releaseConnection none }
  | .release caller (some conn) =>
    if (caller, conn) ∈ s.held then
      some ⟨s.pool.releaseConnection (some conn), s.held.erase (caller, conn)⟩
    else none

/-- The connections that callers hold. -/
def heldConns (s : PoolUse) : List Connection := s.held.map Prod.snd

/-- The accounts of the pool are in order. -/
structure Accounted (maxSize : Int) (s : PoolUse) : Prop where
  /-- a connection the driver made is in the list, held or deleted -/
  issued : Issued s.pool.made (s.pool.connList ++ s.heldConns ++ s.pool.deleted)
  count : s.pool.curSize = s.pool.connList.length + s.held.length
  bound : s.pool.curSize ≤ maxSize
  size : s.pool.maxSize = maxSize

/-- The filling loop adds at most one connection a turn. -/
theorem Accounted.initConnection {maxSize : Int} {turns : Nat} {p : ConnPool}
    (connects : Nat → Bool) (inv : Accounted maxSize ⟨p, []⟩) (hroom : p.curSize + turns ≤ maxSize) :
    Accounted maxSize ⟨p.initConnection turns connects, []⟩ := by
  induction turns generalizing p connects with
  | zero => exact inv
  | succ turns ih =>
    rw [ConnPool.initConnection]
    cases hconn : connects 0 with
    | false => exact ih _ inv (by push_cast at hroom; omega)
    | true =>
      apply ih
      · refine ⟨inv.issued.next ?_, ?_, ?_, inv.size⟩
        · show (p.connList ++ [p.made] ++ [] ++ p.deleted).Perm
            (p.made :: (p.connList ++ [] ++ p.deleted))
          rw [List.append_nil, List.append_nil, List.append_assoc]
          exact List.perm_middle
        · have hcount := inv.count
          simp only [List.length_append, List.length_singleton, List.length_nil] at hcount ⊢
          omega
        · show p.curSize + 1 ≤ maxSize
          push_cast at hroom
          omega
      · show p.curSize + 1 + turns ≤ maxSize
        push_cast at hroom
        omega

theorem accounted_start {maxSize : Int} (hmax : 0 ≤ maxSize) (connects : Nat → Bool) :
    Accounted maxSize (start maxSize connects) := by
  apply Accounted.initConnection
  · exact ⟨.refl _, rfl, hmax, rfl⟩
  · show (0 : Int) + (maxSize.tdiv 2).toNat ≤ maxSize
    rw [Int.tdiv_eq_ediv_of_nonneg hmax]
    omega

/-- `GetConnection` keeps the accounts. -/
theorem Accounted.get {maxSize : Int} {s : PoolUse} (inv : Accounted maxSize s) (caller : Nat)
    (closed connects : Bool) :
    Accounted maxSize ⟨(s.pool.getConnection closed connects).2,
      (s.pool.getConnection closed connects).1.toList.map (caller, ·) ++ s.held⟩ := by
  have hcount := inv.count
  have hbound := inv.bound
  rcases s.pool.getConnection_cases closed connects with
    ⟨conn, connList, hlist, heq | heq | heq⟩ | ⟨hlist, ⟨hroom, heq⟩ | heq⟩
  · -- the front connection is handed out
    rw [heq]
    rw [hlist, List.length_cons] at hcount
    refine ⟨inv.issued.perm ?_, ?_, hbound, inv.size⟩
    · rw [hlist]
      exact List.perm_middle.append_right _
    · show s.pool.curSize = connList.length + (s.held.length + 1 : Nat)
      push_cast at hcount ⊢
      omega
  · -- the front connection is deleted, and a new one handed out
    rw [heq]
    rw [hlist, List.length_cons] at hcount
    refine ⟨inv.issued.next ?_, ?_, hbound, inv.size⟩
    · rw [hlist]
      show (connList ++ s.pool.made :: s.heldConns ++ (s.pool.deleted ++ [conn])).Perm
        (s.pool.made :: conn :: (connList ++ s.heldConns ++ s.pool.deleted))
      rw [← List.append_assoc _ s.pool.deleted]
      exact (List.perm_append_singleton conn _).trans
        (((List.perm_middle.append_right _).cons conn).trans (.swap _ _ _))
    · show s.pool.curSize = connList.length + (s.held.length + 1 : Nat)
      push_cast at hcount ⊢
      omega
  · -- the front connection is deleted, and the driver makes no other
    rw [heq]
    rw [hlist, List.length_cons] at hcount
    refine ⟨inv.issued.perm ?_, ?_, ?_, inv.size⟩
    · rw [hlist]
      show (connList ++ s.heldConns ++ (s.pool.deleted ++ [conn])).Perm
        (conn :: (connList ++ s.heldConns ++ s.pool.deleted))
      rw [← List.append_assoc _ s.pool.deleted]
      exact List.perm_append_singleton conn _
    · show s.pool.curSize - 1 = connList.length + s.held.length
      push_cast at hcount
      omega
    · show s.pool.curSize - 1 ≤ maxSize
      omega
  · -- a new connection is handed out
    rw [heq]
    rw [hlist, List.length_nil] at hcount
    refine ⟨inv.issued.next ?_, ?_, ?_, inv.size⟩
    · show (s.pool.connList ++ s.pool.made :: s.heldConns ++ s.pool.deleted).Perm
        (s.pool.made :: (s.pool.connList ++ s.heldConns ++ s.pool.deleted))
      rw [hlist]
      exact .refl _
    · show s.pool.curSize + 1 = s.pool.connList.length + (s.held.length + 1 : Nat)
      rw [hlist, List.length_nil]
      push_cast
      omega
    · have hsize := inv.size
      show s.pool.curSize + 1 ≤ maxSize
      omega
  · rw [heq]
    exact inv

/-- The release of a held connection keeps the accounts. -/
theorem Accounted.release {maxSize : Int} {s : PoolUse} (inv : Accounted maxSize s) {caller : Nat}
    {conn : Connection} (hheld : (caller, conn) ∈ s.held) :
    Accounted maxSize ⟨s.pool.releaseConnection (some conn), s.held.erase (caller, conn)⟩ := by
  have hcount := inv.count
  have herase : s.heldConns.Perm (conn :: (s.held.erase (caller, conn)).map Prod.snd) :=
    (List.perm_cons_erase hheld).map Prod.snd
  refine ⟨inv.issued.perm ?_, ?_, inv.bound, inv.size⟩
  · show (s.pool.connList ++ [conn] ++ (s.held.erase (caller, conn)).map Prod.snd ++
      s.pool.deleted).Perm (s.pool.connList ++ s.heldConns ++ s.pool.deleted)
    rw [List.append_assoc s.pool.connList]
    exact (herase.symm.append_left _).append_right _
  · show s.pool.curSize = (s.pool.connList ++ [conn]).length +
      (s.held.erase (caller, conn)).length
    have hpos := List.length_pos_of_mem hheld
    rw [List.length_append, List.length_singleton, List.length_erase_of_mem hheld]
    push_cast
    omega

/-- **Every call keeps the accounts.** -/
theorem Accounted.step {maxSize : Int} {s s' : PoolUse} {call : PoolCall}
    (inv : Accounted maxSize s) (h : step s call = some s') : Accounted maxSize s' := by
  cases call with
  | get caller closed connects =>
    simp only [PoolUse.step, Option.some.injEq] at h
    subst h
    exact inv.get caller closed connects
  | release caller conn =>
    cases conn with
    | none =>
      cases h
      exact inv
    | some conn =>
      unfold PoolUse.step at h
      dsimp only at h
      split at h
      · rename_i hheld
        cases h
        exact inv.release hheld
      · cases h

theorem accounted {maxSize : Int} (hmax : 0 ≤ maxSize) {connects : Nat → Bool} {s : PoolUse}
    (reach : Reaches step (fun _ _ => True) (start maxSize connects) s) : Accounted maxSize s :=
  reach.invariant (accounted_start hmax connects) fun _ _ _ inv _ h => inv.step h

/-- A connection in one place is in no other. -/
theorem Accounted.deleted {maxSize : Int} {s : PoolUse} (inv : Accounted maxSize s)
    {conn : Connection} (hdeleted : conn ∈ s.pool.deleted) :
    conn ∉ s.pool.connList ∧ conn ∉ s.heldConns := by
  obtain ⟨-, -, apart⟩ := List.nodup_append.mp inv.issued.nodup
  constructor
  · intro hlist
    exact apart conn (List.mem_append_left _ hlist) conn hdeleted rfl
  · intro hheld
    exact apart conn (List.mem_append_right _ hheld) conn hdeleted rfl

/-- A connection that is held once has one holder. -/
theorem holder_unique {held : List (Nat × Connection)} (once : (held.map Prod.snd).Nodup)
    {a b : Nat} {conn : Connection} (ha : (a, conn) ∈ held) (hb : (b, conn) ∈ held) : a = b := by
  have heq := List.inj_on_of_nodup_map once ha hb rfl
  exact congrArg Prod.fst heq

/-- **The accounts of the pool**: in every state of every run after `initPool`, the connections of
the list are distinct and none of them is held, none is held twice, a deleted one is neither in the
list nor held, and `curSize` counts those in the list and those held and stays within bounds. -/
theorem pool_accounted {maxSize : Int} (hmax : 0 ≤ maxSize) (connects : Nat → Bool) {s : PoolUse}
    (reach : Reaches step (fun _ _ => True) (start maxSize connects) s) :
    s.pool.connList.Nodup ∧
      (∀ conn ∈ s.pool.connList, conn ∉ s.heldConns) ∧
      s.heldConns.Nodup ∧
      (∀ a b conn, (a, conn) ∈ s.held → (b, conn) ∈ s.held → a = b) ∧
      (∀ conn ∈ s.pool.deleted, conn ∉ s.pool.connList ∧ conn ∉ s.heldConns) ∧
      s.pool.curSize = s.pool.connList.length + s.held.length ∧
      s.pool.curSize ≤ maxSize := by
  have inv := accounted hmax reach
  obtain ⟨hlive, -, -⟩ := List.nodup_append.mp inv.issued.nodup
  obtain ⟨hlist, hheld, apart⟩ := List.nodup_append.mp hlive
  refine ⟨hlist, ?_, hheld, ?_, fun conn => inv.deleted, inv.count, inv.bound⟩
  · intro conn hconn hmem
    exact apart conn hconn conn hmem rfl
  · intro a b conn ha hb
    exact holder_unique hheld ha hb

/-- A pool of two: the one connection of the start is closed and made anew, a second is made, and a
third is refused; then the first comes back. -/
def twoCallers : List PoolCall :=
  [.get 0 true true, .get 1 false true, .get 2 false true, .release 0 (some 1)]

theorem pool_accounted_two : ∃ s : PoolUse, s.pool.connList = [1] ∧ s.held = [(1, 2)] ∧
    s.pool.deleted = [0] ∧ s.pool.curSize = 2 ∧ s.pool.curSize ≤ 2 := by
  obtain ⟨s, hs⟩ : ∃ s, play step twoCallers (start 2 fun _ => true) = some s := ⟨_, rfl⟩
  have reach := Reaches.play .refl hs
  obtain ⟨-, -, -, -, -, -, bound⟩ := pool_accounted (by decide) (fun _ => true) reach
  refine ⟨s, ?_, ?_, ?_, ?_, bound⟩
  · cases hs
    rfl
  · cases hs
    rfl
  · cases hs
    rfl
  · cases hs
    rfl

end PoolUse

end Smer
