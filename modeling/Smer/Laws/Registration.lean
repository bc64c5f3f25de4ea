import Smer.HandleMsg.HandleMsgServer
import Smer.Lib.Pool

/-!
# Concurrent registrations

A registration looks its name up and, some time later, inserts its row. Any number of them run at
once, one database call at a time, in any order. Nothing holds the name between the two calls, so
two registrations of one name can both find it free and both insert it (`registered_twice`).

A run keeps the usernames apart when every insert, at the moment it is executed, is for a username
that no row has: then no two rows share a username, and no two registrations of one name are both
accepted (`registrations_unique`). So it does when no registration inserts a name between another's
look at that name and its insert (`Undisturbed`): the look has found the name free, and it still is.

Each task is read as a stage (`RegStage`): what it has still to do. The invariant relates the stages,
the trace and the table (`RegInv`).

That a run meets one of these conditions is established nowhere: the program has nothing that makes
it so.
-/

namespace Smer

open Lib HandleMsg MysqlPool

/-! ## The tasks and their stages -/

/-- A `MSG_REG` task: its object, its connection, and what lies behind the object. -/
structure Registration where
  obj : TransObj
  fd : Int32
  past : Bytes

namespace Registration

variable (t : Registration)

def name : Bytes := t.obj.getName t.past

def passwd : Bytes := t.obj.getPasswd t.past

def task : Task Unit := userRegTask t.obj t.fd t.past

/-- The query for the name, cut as `ExecQuery` sends it. -/
def select : Bytes := (selectCmd .password t.name).take 99

def insert : Bytes := (insertCmd t.name t.fd t.passwd).take 99

/-- The object as the task answers with it: on the connection's descriptor, with its verdict and,
for a refusal, the reason. -/
def refusal (text : Bytes) : TransObj := (((t.obj.setFd t.fd).setMsgType msgRegRefuse).setMsg text).1

def acceptance (id : Int32) : TransObj :=
  ((((t.obj.setFd t.fd).setMsgType msgRegAccept).setId id).setMsg (ascii "regin accepted! \n")).1

/-- A refusal is no acceptance. -/
theorem refusal_ne_accept (text : Bytes) : (t.refusal text).msgType ≠ msgRegAccept := by
  rw [refusal, TransObj.setMsg_msgType]
  show msgRegRefuse ≠ msgRegAccept
  decide

end Registration

/-- What a registration has still to do: look its name up, insert its row, ask for the id and
accept, push one object, or nothing. -/
inductive RegStage where
  | select (t : Registration)
  | insert (t : Registration)
  | accept (t : Registration)
  | answer (obj : TransObj)
  | stop (why : Abort)
  | finished

namespace RegStage

def afterSelect (t : Registration) : Except SqlFault ResultSet → RegStage
  | .ok [] => .insert t
  | .ok (_ :: _) => .answer (t.refusal (ascii "regin err! name reg exists already!"))
  | .error .noConnection => .stop .nullDeref
  | .error .threw => .stop .nullDeref
  | .error .escapes => .stop .raised

def afterInsert (t : Registration) : Except SqlFault Nat → RegStage
  | .ok count =>
    if count > 0 then .accept t else .answer (t.refusal (ascii "regin err! insert error!\n"))
  | .error .noConnection => .answer (t.refusal (ascii "regin err! insert error!\n"))
  | .error .threw => .answer (t.refusal (ascii "regin err! insert error!\n"))
  | .error .escapes => .stop .raised

def afterMaxUserid (t : Registration) : Except SqlFault ResultSet → RegStage
  | .ok [] => .answer ((((t.obj.setFd t.fd).setMsgType msgRegAccept).setMsgType msgRegRefuse).setMsg
      (ascii "regin err no found current id! \n")).1
  | .ok (row :: _) =>
    match row.getInt .id with
    | some id => .answer (t.acceptance id)
    | none => .stop .raised
  | .error .noConnection => .stop .nullDeref
  | .error .threw => .stop .nullDeref
  | .error .escapes => .stop .raised

def prog : RegStage → Task Unit
  | .select t => t.task
  | .insert t => regInsertTask (t.obj.setFd t.fd) t.fd t.past
  | .accept t => regAcceptTask (t.obj.setFd t.fd)
  | .answer obj => Task.push obj
  | .stop why => Task.abort why
  | .finished => .pure ()

def view : RegStage → Option ((o : Effect) × (o.Ans → RegStage))
  | .select t => some ⟨.executeQuery t.select, afterSelect t⟩
  | .insert t => some ⟨.executeUpdate t.insert, afterInsert t⟩
  | .accept t => some ⟨.executeQuery maxUseridText, afterMaxUserid t⟩
  | .answer obj => some ⟨.push obj, fun _ => .finished⟩
  | .stop why => some ⟨.abort why, Empty.elim⟩
  | .finished => none

theorem prog_select (t : Registration) :
    prog (.select t) = .vis (.executeQuery t.select) fun r => prog (afterSelect t r) := by
  rw [prog, Registration.task, userRegTask, selectPassword_eq]
  refine execQuery_bind (vsnprintf_select _ _) (fun rows => ?_) rfl rfl rfl
  cases rows <;> rfl

theorem prog_insert (t : Registration) :
    prog (.insert t) = .vis (.executeUpdate t.insert) fun r => prog (afterInsert t r) := by
  have hname : (t.obj.setFd t.fd).getName t.past = t.name := rfl
  have hpasswd : (t.obj.setFd t.fd).getPasswd t.past = t.passwd := rfl
  rw [prog, regInsertTask, hname, hpasswd, insertUser_eq, execInsert, vsnprintf_insert]
  show Prog.vis _ _ >>= _ = _
  rw [Prog.vis_bind]
  congr 1
  funext r
  rcases r with (_ | _ | _) | count
  · rfl
  · rfl
  · exact Task.abort_bind _ _
  · by_cases hcount : count > 0
    · simp only [decide_eq_true hcount, afterInsert, if_pos hcount]
      rfl
    · simp only [decide_eq_false hcount, afterInsert, if_neg hcount]
      rfl

theorem prog_accept (t : Registration) :
    prog (.accept t) = .vis (.executeQuery maxUseridText) fun r => prog (afterMaxUserid t r) := by
  rw [prog, regAcceptTask, selectMaxUserid_eq]
  refine execQuery_bind vsnprintf_maxUserid (fun rows => ?_) rfl rfl rfl
  cases rows with
  | nil => rfl
  | cons row rows =>
    cases hid : row.getInt .id with
    | none =>
      simp only [afterMaxUserid, hid]
      rfl
    | some id =>
      simp only [afterMaxUserid, hid]
      rfl

/-- The registrations as staged programs. -/
def staged : Staged Effect Effect.Ans Unit RegStage where
  prog := prog
  view := view
  unfolds s := by
    cases s with
    | select t => exact prog_select t
    | insert t => exact prog_insert t
    | accept t => exact prog_accept t
    | answer obj => rfl
    | stop why => exact congrArg (Prog.vis (Effect.abort why)) (funext fun e => Empty.elim e)
    | finished => exact ⟨(), rfl⟩

end RegStage

/-! ## The condition -/

abbrev RegPool := Pool Effect Effect.Ans Unit World

/-- The text is an `insert` of one row, or it breaks off inside a literal. -/
def ReadsAsInsert (cmd : Bytes) : Prop :=
  match parse cmd with
  | .insert _ _ _ | .incomplete => True
  | _ => False

/-- The text inserts one row, for a username that the table does not have, or it breaks off. -/
def UpdateMeets (table : UserInfo) (cmd : Bytes) : Prop :=
  match parse cmd with
  | .insert username _ _ => ∀ row ∈ table, row.username ≠ username
  | .incomplete => True
  | _ => False

/-- A step that meets the condition: if it executes an `insert`, the username is still free. -/
def InsertMeets (c : RegPool) (i : Nat) : Prop :=
  ∀ cmd k, c.threads[i]? = some (.vis (.executeUpdate cmd) k) →
    UpdateMeets c.shared.userinfo cmd

/-- The operation has inserted a row of this username. -/
def InsertsName (e : Event Effect Effect.Ans) (username : Bytes) : Prop :=
  ∃ cmd n fd passwd, e = ⟨.executeUpdate cmd, .ok n⟩ ∧ parse cmd = .insert username fd passwd

/-- A step that comes in time: if it executes an `insert`, its task has looked for that username, and
nobody has inserted it since. -/
def Undisturbed (ts : List Registration) (c : RegPool) (i : Nat) : Prop :=
  ∀ t cmd k, ts[i]? = some t → c.threads[i]? = some (.vis (.executeUpdate cmd) k) →
    ReadsAsInsert cmd ∧ ∀ username fd passwd, parse cmd = .insert username fd passwd →
      parse t.select = .select .password username ∧
        ∀ e ∈ since i c.trace, ¬ InsertsName e.2 username

/-! ## What an operation does to the table -/

section Table

variable {E : Mysql} {w w' : World}

theorem userinfo_query {cmd : Bytes} {r : Except SqlFault ResultSet}
    (h : World.answer E (.executeQuery cmd) w = some (r, w')) : w'.userinfo = w.userinfo := by
  obtain ⟨faults, rfl⟩ := answer_query_world h
  rfl

/-- A query that is answered did not break off. -/
theorem not_incomplete_of_answer {cmd : Bytes} {rows : ResultSet}
    (h : World.answer E (.executeQuery cmd) w = some (.ok rows, w')) :
    parse cmd ≠ .incomplete := by
  intro hincomplete
  simp only [World.answer, E.query_incomplete hincomplete] at h
  split at h
  · cases h
  · cases h

/-- The rows that a `select` is answered are those of the table. -/
theorem rows_of_answer {cmd username : Bytes} {columns : Columns} {rows : ResultSet}
    (hparse : parse cmd = .select columns username)
    (h : World.answer E (.executeQuery cmd) w = some (.ok rows, w')) :
    rows = (w.userinfo.filter fun row => row.username = username).map columns.project := by
  simp only [World.answer, E.query_select hparse] at h
  split at h
  · cases h
  · cases h
    rfl

/-- An update that reads as an insert adds its row, with a new and largest `userid`, or it fails and
leaves the table alone. -/
theorem userinfo_insert {cmd : Bytes} {r : Except SqlFault Nat} (reads : ReadsAsInsert cmd)
    (h : World.answer E (.executeUpdate cmd) w = some (r, w')) :
    (∃ fault, r = .error fault ∧ w'.userinfo = w.userinfo) ∨
      ∃ row, r = .ok 1 ∧ parse cmd = .insert row.username row.fd row.password ∧
        (∀ row' ∈ w.userinfo, row'.userid < row.userid) ∧
          w'.userinfo = w.userinfo ++ [row] := by
  simp only [World.answer] at h
  split at h
  · rename_i fault faults hfaults
    cases h
    exact .inl ⟨fault, rfl, rfl⟩
  · rw [ReadsAsInsert] at reads
    cases hparse : parse cmd with
    | insert username fd passwd =>
      rcases E.update_insert hparse w.userinfo with hnone | ⟨id, hid, hsome⟩
      · rw [hnone] at h
        cases h
        exact .inl ⟨.threw, rfl, rfl⟩
      · rw [hsome] at h
        cases h
        exact .inr ⟨⟨id, username, fd, passwd⟩, rfl, rfl, hid, rfl⟩
    | incomplete =>
      rw [E.update_incomplete hparse] at h
      cases h
      exact .inl ⟨.threw, rfl, rfl⟩
    | select columns username => rw [hparse] at reads; exact reads.elim
    | maxUserid => rw [hparse] at reads; exact reads.elim
    | other => rw [hparse] at reads; exact reads.elim

theorem UpdateMeets.reads {table : UserInfo} {cmd : Bytes} (meets : UpdateMeets table cmd) :
    ReadsAsInsert cmd := by
  unfold UpdateMeets at meets
  unfold ReadsAsInsert
  split at meets
  · trivial
  · trivial
  · exact meets.elim

/-- An update that meets the condition inserts its row, or it fails and leaves the table alone. -/
theorem userinfo_update {cmd : Bytes} {r : Except SqlFault Nat}
    (meets : UpdateMeets w.userinfo cmd)
    (h : World.answer E (.executeUpdate cmd) w = some (r, w')) :
    (∃ fault, r = .error fault ∧ w'.userinfo = w.userinfo) ∨
      ∃ row, r = .ok 1 ∧ parse cmd = .insert row.username row.fd row.password ∧
        (∀ row' ∈ w.userinfo, row'.username ≠ row.username) ∧
          w'.userinfo = w.userinfo ++ [row] := by
  rcases userinfo_insert meets.reads h with failed | ⟨row, hr, hparse, -, htable⟩
  · exact .inl failed
  · rw [UpdateMeets, hparse] at meets
    exact .inr ⟨row, hr, hparse, meets, htable⟩

end Table

/-! ## The invariant -/

/-- The task has inserted its row: the database has acknowledged its `insert`. -/
def Inserted (c : RegPool) (i : Nat) : Prop :=
  ∃ cmd n, 0 < n ∧ (i, ⟨.executeUpdate cmd, .ok n⟩) ∈ c.trace

/-- The task has answered with an acceptance: it has pushed an object of that type. -/
def Accepts (c : RegPool) (i : Nat) : Prop :=
  ∃ obj, obj.msgType = msgRegAccept ∧ (i, ⟨.push obj, ()⟩) ∈ c.trace

/-- The username that the task's `insert` is for. -/
def Registration.InsertsAs (t : Registration) (username : Bytes) : Prop :=
  ∃ fd passwd, parse t.insert = .insert username fd passwd

theorem Registration.InsertsAs.unique {t : Registration} {a b : Bytes} (ha : t.InsertsAs a)
    (hb : t.InsertsAs b) : a = b := by
  obtain ⟨fd, passwd, ha⟩ := ha
  obtain ⟨fd', passwd', hb⟩ := hb
  rw [ha] at hb
  cases hb
  rfl

/-- The task has looked for its username, and each row of it has come since. -/
def LookedUp (c : RegPool) (i : Nat) (t : Registration) : Prop :=
  ∀ username, parse t.select = .select .password username →
    ∀ row ∈ c.shared.userinfo, row.username = username →
      ∃ e ∈ since i c.trace, InsertsName e.2 username

/-- What is known of a task at its stage. -/
def Fits (c : RegPool) (i : Nat) (t : Registration) : RegStage → Prop
  | .select t' => t' = t
  | .insert t' => t' = t ∧ parse t.select ≠ .incomplete ∧ LookedUp c i t
  | .accept t' => t' = t ∧ Inserted c i
  | .answer obj => obj.msgType = msgRegAccept → Inserted c i
  | .stop _ => True
  | .finished => True

/-- The usernames are distinct; a task that has inserted its row left it in the table, two of them
did so under different usernames, and only such a task accepts. -/
structure RegInv (ts : List Registration) (c : RegPool) : Prop where
  stages : ∃ ss, RegStage.staged.At c ss ∧
    ∀ i s, ss[i]? = some s → ∃ t, ts[i]? = some t ∧ Fits c i t s
  distinct : (c.shared.userinfo.map UserRow.username).Nodup
  inserted : ∀ i, Inserted c i → ∃ t username, ts[i]? = some t ∧ t.InsertsAs username ∧
    parse t.select ≠ .incomplete ∧ username ∈ c.shared.userinfo.map UserRow.username
  apart : ∀ i j t u username, Inserted c i → Inserted c j → ts[i]? = some t → ts[j]? = some u →
    t.InsertsAs username → u.InsertsAs username → i = j
  accepts : ∀ i, Accepts c i → Inserted c i

section Steps

variable {E : Mysql} {ts : List Registration} {c c' : RegPool} {i : Nat}

/-- Who has inserted after one more operation: those who had, and its task if it was an acknowledged
`insert`. -/
theorem inserted_append {e : Event Effect Effect.Ans} (htrace : c'.trace = c.trace ++ [(i, e)])
    (j : Nat) : Inserted c' j ↔ Inserted c j ∨
      j = i ∧ ∃ cmd n, 0 < n ∧ e = ⟨.executeUpdate cmd, .ok n⟩ := by
  unfold Inserted
  rw [htrace]
  constructor
  · rintro ⟨cmd, n, hn, hmem⟩
    rcases List.mem_append.mp hmem with hold | hnew
    · exact .inl ⟨cmd, n, hn, hold⟩
    · cases List.mem_singleton.mp hnew
      exact .inr ⟨rfl, cmd, n, hn, rfl⟩
  · rintro (⟨cmd, n, hn, hmem⟩ | ⟨rfl, cmd, n, hn, rfl⟩)
    · exact ⟨cmd, n, hn, List.mem_append_left _ hmem⟩
    · exact ⟨cmd, n, hn, List.mem_append_right _ List.mem_cons_self⟩

/-- Another task's operation: a new row has come with it. -/
theorem LookedUp.mono {e : Event Effect Effect.Ans} (htrace : c'.trace = c.trace ++ [(i, e)])
    (rows : ∀ row ∈ c'.shared.userinfo, row ∈ c.shared.userinfo ∨ InsertsName e row.username)
    {j : Nat} (hne : j ≠ i) {t : Registration} (h : LookedUp c j t) : LookedUp c' j t := by
  intro username hparse row hrow hname
  rw [htrace, since_other hne.symm]
  rcases rows row hrow with hold | hnew
  · obtain ⟨e', he', hinserts⟩ := h username hparse row hold hname
    exact ⟨e', List.mem_append_left _ he', hinserts⟩
  · exact ⟨(i, e), List.mem_append_right _ List.mem_cons_self, hname ▸ hnew⟩

theorem Fits.mono {e : Event Effect Effect.Ans} (htrace : c'.trace = c.trace ++ [(i, e)])
    (rows : ∀ row ∈ c'.shared.userinfo, row ∈ c.shared.userinfo ∨ InsertsName e row.username)
    {j : Nat} (hne : j ≠ i) {t : Registration} {s : RegStage} (h : Fits c j t s) :
    Fits c' j t s := by
  have grows : Inserted c j → Inserted c' j := fun hj => (inserted_append htrace j).mpr (.inl hj)
  cases s with
  | select t' => exact h
  | insert t' => exact ⟨h.1, h.2.1, h.2.2.mono htrace rows hne⟩
  | accept t' => exact ⟨h.1, grows h.2⟩
  | answer obj => exact fun hobj => grows (h hobj)
  | stop why => trivial
  | finished => trivial

/-- The stages after one task has moved: what is known of the others holds of the longer trace. -/
theorem stages_set {ss : List RegStage} {s' : RegStage} {t : Registration}
    {e : Event Effect Effect.Ans} (htrace : c'.trace = c.trace ++ [(i, e)])
    (rows : ∀ row ∈ c'.shared.userinfo, row ∈ c.shared.userinfo ∨ InsertsName e row.username)
    (stages : ∀ j s, ss[j]? = some s → ∃ t, ts[j]? = some t ∧ Fits c j t s)
    (hself : ts[i]? = some t) (hfits : Fits c' i t s') (j : Nat) (s : RegStage)
    (hs : (ss.set i s')[j]? = some s) : ∃ t, ts[j]? = some t ∧ Fits c' j t s := by
  rcases Staged.stage_of_set hs with ⟨rfl, rfl⟩ | ⟨hne, hs⟩
  · exact ⟨t, hself, hfits⟩
  · obtain ⟨u, hu, hold⟩ := stages j s hs
    exact ⟨u, hu, hold.mono htrace rows hne⟩

/-- An operation that inserts nothing keeps the invariant, with the stage of its task moved on. -/
theorem RegInv.of_quiet (inv : RegInv ts c) {e : Event Effect Effect.Ans}
    (htrace : c'.trace = c.trace ++ [(i, e)])
    (htable : c'.shared.userinfo = c.shared.userinfo)
    (quiet : ∀ cmd n, e ≠ ⟨.executeUpdate cmd, .ok n⟩)
    (accepting : ∀ obj, obj.msgType = msgRegAccept → e = ⟨.push obj, ()⟩ → Inserted c i)
    {ss : List RegStage} {s' : RegStage} {t : Registration}
    (stages : ∀ j s, ss[j]? = some s → ∃ t, ts[j]? = some t ∧ Fits c j t s)
    (at' : RegStage.staged.At c' (ss.set i s')) (hself : ts[i]? = some t)
    (hfits : Fits c' i t s') : RegInv ts c' := by
  have hsame : ∀ j, Inserted c' j ↔ Inserted c j := by
    intro j
    rw [inserted_append htrace]
    constructor
    · rintro (hold | ⟨-, cmd, n, -, he⟩)
      · exact hold
      · exact absurd he (quiet cmd n)
    · exact .inl
  have rows : ∀ row ∈ c'.shared.userinfo,
      row ∈ c.shared.userinfo ∨ InsertsName e row.username := by
    rw [htable]
    exact fun row => .inl
  refine ⟨⟨_, at', stages_set htrace rows stages hself hfits⟩, ?_, ?_, ?_, ?_⟩
  · rw [htable]
    exact inv.distinct
  · intro j hj
    rw [htable]
    exact inv.inserted j ((hsame j).mp hj)
  · intro j k u v username hj hk
    exact inv.apart j k u v username ((hsame j).mp hj) ((hsame k).mp hk)
  · rintro j ⟨obj, hobj, hmem⟩
    rw [htrace] at hmem
    rw [hsame]
    rcases List.mem_append.mp hmem with hold | hnew
    · exact inv.accepts j ⟨obj, hobj, hold⟩
    · obtain ⟨hj, he⟩ := Prod.mk.inj (List.mem_singleton.mp hnew)
      rw [hj]
      exact accepting obj hobj he.symm

/-- An insert for a username that no row has keeps the usernames distinct and the inserted names
apart. -/
theorem RegInv.of_insert (inv : RegInv ts c) {cmd : Bytes} {n : Nat} {row : UserRow}
    (htrace : c'.trace = c.trace ++ [(i, ⟨.executeUpdate cmd, .ok n⟩)])
    (htable : c'.shared.userinfo = c.shared.userinfo ++ [row])
    (hparse : parse cmd = .insert row.username row.fd row.password)
    (free : ∀ row' ∈ c.shared.userinfo, row'.username ≠ row.username)
    {ss : List RegStage} {s' : RegStage} {t : Registration}
    (stages : ∀ j s, ss[j]? = some s → ∃ t, ts[j]? = some t ∧ Fits c j t s)
    (at' : RegStage.staged.At c' (ss.set i s')) (hself : ts[i]? = some t)
    (hfits : Fits c' i t s') (hselect : parse t.select ≠ .incomplete)
    (hinsert : t.InsertsAs row.username) : RegInv ts c' := by
  have hfree : row.username ∉ c.shared.userinfo.map UserRow.username := by
    intro hmem
    obtain ⟨row', hrow', heq⟩ := List.mem_map.mp hmem
    exact free row' hrow' heq
  have hnames : c'.shared.userinfo.map UserRow.username =
      c.shared.userinfo.map UserRow.username ++ [row.username] := by
    rw [htable, List.map_append, List.map_singleton]
  have hsame : ∀ j, Inserted c' j → Inserted c j ∨ j = i := by
    intro j hj
    exact ((inserted_append htrace j).mp hj).imp_right And.left
  have hgrows : ∀ j, Inserted c j → Inserted c' j := fun j hj =>
    (inserted_append htrace j).mpr (.inl hj)
  -- whoever inserted before left a row, so not under the new row's username
  have hother : ∀ j u username, Inserted c j → ts[j]? = some u → u.InsertsAs username →
      t.InsertsAs username → False := by
    intro j u username hj hu husername hself
    obtain ⟨u', name, hu', hname, -, hmem⟩ := inv.inserted j hj
    rw [hu] at hu'
    cases hu'
    rw [hname.unique husername, hself.unique hinsert] at hmem
    exact hfree hmem
  have rows : ∀ row' ∈ c'.shared.userinfo, row' ∈ c.shared.userinfo ∨
      InsertsName ⟨.executeUpdate cmd, .ok n⟩ row'.username := by
    intro row' hrow'
    rw [htable] at hrow'
    refine (List.mem_append.mp hrow').imp_right fun hnew => ?_
    rw [List.mem_singleton.mp hnew]
    exact ⟨cmd, n, row.fd, row.password, rfl, hparse⟩
  refine ⟨⟨_, at', stages_set htrace rows stages hself hfits⟩, ?_, ?_, ?_, ?_⟩
  · rw [hnames, List.nodup_append]
    refine ⟨inv.distinct, List.nodup_singleton _, ?_⟩
    intro a ha b hb
    rw [List.mem_singleton.mp hb]
    rintro rfl
    exact hfree ha
  · intro j hj
    rw [hnames]
    rcases hsame j hj with hold | rfl
    · obtain ⟨u, name, hu, hname, hincomplete, hmem⟩ := inv.inserted j hold
      exact ⟨u, name, hu, hname, hincomplete, List.mem_append_left _ hmem⟩
    · exact ⟨t, row.username, hself, hinsert, hselect,
        List.mem_append_right _ List.mem_cons_self⟩
  · intro j k u v username hj hk hu hv huname hvname
    rcases hsame j hj with hj | rfl
    · rcases hsame k hk with hk | rfl
      · exact inv.apart j k u v username hj hk hu hv huname hvname
      · rw [hself] at hv
        cases hv
        exact (hother j u username hj hu huname hvname).elim
    · rcases hsame k hk with hk | rfl
      · rw [hself] at hu
        cases hu
        exact (hother k v username hk hv hvname huname).elim
      · rfl
  · rintro j ⟨obj, hobj, hmem⟩
    rw [htrace] at hmem
    rcases List.mem_append.mp hmem with hold | hnew
    · exact hgrows j (inv.accepts j ⟨obj, hobj, hold⟩)
    · cases List.mem_singleton.mp hnew

theorem fits_refusal (j : Nat) (t : Registration) (text : Bytes) (u : Registration) :
    Fits c j u (.answer (t.refusal text)) := by
  intro haccept
  exact absurd haccept (t.refusal_ne_accept text)

/-- The answer to the `select` leads on to the insert if no row has the name. -/
theorem fits_afterSelect {t : Registration} {r : Except SqlFault ResultSet}
    (hanswer : World.answer E (.executeQuery t.select) c.shared = some (r, c'.shared)) :
    Fits c' i t (RegStage.afterSelect t r) := by
  rcases r with (_ | _ | _) | (_ | _)
  · trivial
  · trivial
  · trivial
  · refine ⟨rfl, not_incomplete_of_answer hanswer, fun username hparse row hrow hname => ?_⟩
    -- there is no such row yet
    have hnone := rows_of_answer hparse hanswer
    rw [eq_comm, List.map_eq_nil_iff, List.filter_eq_nil_iff] at hnone
    rw [userinfo_query hanswer] at hrow
    exact absurd (decide_eq_true hname) (hnone row hrow)
  · exact fits_refusal _ _ _ _

theorem fits_afterInsert_error (t : Registration) (fault : SqlFault) (j : Nat) :
    Fits c j t (RegStage.afterInsert t (.error fault)) := by
  cases fault with
  | noConnection => exact fits_refusal _ _ _ _
  | threw => exact fits_refusal _ _ _ _
  | escapes => trivial

theorem fits_afterMaxUserid (t : Registration) (r : Except SqlFault ResultSet) {j : Nat}
    (hj : Inserted c j) (u : Registration) : Fits c j u (RegStage.afterMaxUserid t r) := by
  rcases r with (_ | _ | _) | (_ | ⟨row, rows⟩)
  · trivial
  · trivial
  · trivial
  · exact fun _ => hj
  · rw [RegStage.afterMaxUserid]
    cases row.getInt .id with
    | none => trivial
    | some id => exact fun _ => hj

/-- **An admitted step keeps the invariant**, at every stage of its task and whatever the database
answers. -/
theorem regInv_step (inv : RegInv ts c) (meets : InsertMeets c i)
    (hstep : Pool.step (World.answer E) c i = some c') : RegInv ts c' := by
  obtain ⟨ss, hat, stages⟩ := inv.stages
  obtain ⟨s, o, next, r, s', hs, hview, hanswer, hshared, hat', htrace⟩ := Staged.step hat hstep
  obtain ⟨t, ht, hfits⟩ := stages i s hs
  rw [← hshared] at hanswer
  cases s with
  | select t' =>
    cases hview
    obtain rfl := hfits
    refine inv.of_quiet htrace (userinfo_query hanswer) (fun _ _ h => ?_) (fun _ _ h => ?_) stages
      hat' ht (fits_afterSelect hanswer)
    · cases h
    · cases h
  | insert t' =>
    cases hview
    obtain ⟨rfl, hselect, -⟩ := hfits
    have hthread := Staged.thread_of_view hat hs rfl
    rcases userinfo_update (meets _ _ hthread) hanswer with
      ⟨fault, rfl, htable⟩ | ⟨row, rfl, hparse, free, htable⟩
    · refine inv.of_quiet htrace htable (fun _ _ h => ?_) (fun _ _ h => ?_) stages hat' ht
        (fits_afterInsert_error _ _ _)
      · cases h
      · cases h
    · refine inv.of_insert htrace htable hparse free stages hat' ht ⟨rfl, ?_⟩ hselect
        ⟨row.fd, row.password, hparse⟩
      exact (inserted_append htrace i).mpr (.inr ⟨rfl, _, 1, Nat.one_pos, rfl⟩)
  | accept t' =>
    cases hview
    obtain ⟨rfl, hinserted⟩ := hfits
    refine inv.of_quiet htrace (userinfo_query hanswer) (fun _ _ h => ?_) (fun _ _ h => ?_) stages
      hat' ht (fits_afterMaxUserid _ _ ((inserted_append htrace i).mpr (.inl hinserted)) _)
    · cases h
    · cases h
  | answer obj =>
    cases hview
    have hworld := (Prod.mk.inj (Option.some.inj hanswer)).2
    have htable : c'.shared.userinfo = c.shared.userinfo := by rw [← hworld]
    refine inv.of_quiet htrace htable (fun _ _ h => ?_) (fun obj' hobj' h => ?_) stages hat' ht
      trivial
    · cases h
    · cases h
      exact hfits hobj'
  | stop why =>
    cases hview
    exact r.elim
  | finished => cases hview

/-- **A step that comes in time meets the condition**: the look has found no row of the username, and
any that had come since would be an insert of it. -/
theorem RegInv.meets (inv : RegInv ts c) (undisturbed : Undisturbed ts c i) : InsertMeets c i := by
  intro cmd k hthread
  obtain ⟨ss, hat, stages⟩ := inv.stages
  obtain ⟨s, next, hs, hview⟩ := Staged.view_of_thread hat hthread
  obtain ⟨t, ht, hfits⟩ := stages i s hs
  obtain ⟨reads, hsince⟩ := undisturbed t cmd k ht hthread
  unfold UpdateMeets
  unfold ReadsAsInsert at reads
  split at reads
  · rename_i username fd passwd hparse
    intro row hrow hname
    obtain ⟨hselect, hnobody⟩ := hsince username fd passwd hparse
    cases s with
    | insert t' =>
      obtain ⟨-, -, lookedUp⟩ := hfits
      obtain ⟨e, he, hinserts⟩ := lookedUp username hselect row hrow hname
      exact hnobody e he hinserts
    | _ => cases hview
  · trivial
  · exact reads.elim

end Steps

theorem regInv_start {w : World} (distinct : (w.userinfo.map UserRow.username).Nodup)
    (ts : List Registration) : RegInv ts (Pool.start w (ts.map Registration.task)) where
  stages := by
    refine ⟨ts.map RegStage.select, ?_, ?_⟩
    · show ts.map Registration.task = (ts.map RegStage.select).map RegStage.prog
      rw [List.map_map]
      rfl
    · intro i s hs
      rw [List.getElem?_map, Option.map_eq_some_iff] at hs
      obtain ⟨t, ht, rfl⟩ := hs
      exact ⟨t, ht, rfl⟩
  distinct := distinct
  inserted := by
    rintro i ⟨cmd, n, -, hmem⟩
    cases hmem
  apart := by
    rintro i j t u username ⟨cmd, n, -, hmem⟩
    cases hmem
  accepts := by
    rintro i ⟨obj, -, hmem⟩
    cases hmem

/-- Two accepted registrations of one name are one registration. -/
theorem RegInv.accepts_once {ts : List Registration} {c : RegPool} (inv : RegInv ts c) {i j : Nat}
    {t u : Registration} (ht : ts[i]? = some t) (hu : ts[j]? = some u) (hi : Accepts c i)
    (hj : Accepts c j) (hname : t.name = u.name) : i = j := by
  have hi := inv.accepts i hi
  have hj := inv.accepts j hj
  obtain ⟨t', a, ht', ⟨fd, passwd, ha⟩, hselect, -⟩ := inv.inserted i hi
  obtain ⟨u', b, hu', ⟨fd', passwd', hb⟩, -, -⟩ := inv.inserted j hj
  rw [ht] at ht'
  rw [hu] at hu'
  cases ht'
  cases hu'
  have hsame : a = b := by
    rw [Registration.insert] at ha hb
    rw [← hname] at hb
    exact insert_username hselect ha hb
  exact inv.apart i j t u a hi hj ht hu ⟨fd, passwd, ha⟩ ⟨fd', passwd', hsame ▸ hb⟩

/-- The usernames are distinct, and a name is accepted once. -/
structure Unique (ts : List Registration) (c : RegPool) : Prop where
  distinct : (c.shared.userinfo.map UserRow.username).Nodup
  once : ∀ i j t u, ts[i]? = some t → ts[j]? = some u → t.name = u.name →
    Accepts c i → Accepts c j → i = j

theorem RegInv.unique {ts : List Registration} {c : RegPool} (inv : RegInv ts c) : Unique ts c :=
  ⟨inv.distinct, fun _ _ _ _ ht hu hname hi hj => inv.accepts_once ht hu hi hj hname⟩

/-- **In every run in which each insert finds its username free, the usernames stay distinct and a
name is accepted once**, and so they do in every run in which no registration inserts a username
between another's look at it and its insert. -/
theorem registrations_unique (E : Mysql) {w : World}
    (distinct : (w.userinfo.map UserRow.username).Nodup) (ts : List Registration) (c : RegPool) :
    (Reaches (Pool.step (World.answer E)) InsertMeets (Pool.start w (ts.map Registration.task)) c →
      Unique ts c) ∧
    (Reaches (Pool.step (World.answer E)) (Undisturbed ts)
      (Pool.start w (ts.map Registration.task)) c → Unique ts c) := by
  refine ⟨fun reach => ?_, fun reach => ?_⟩
  · have inv : RegInv ts c := reach.invariant (regInv_start distinct ts)
      fun _ _ _ inv meets hstep => regInv_step inv meets hstep
    exact inv.unique
  · have inv : RegInv ts c := reach.invariant (regInv_start distinct ts)
      fun _ _ _ inv undisturbed hstep => regInv_step inv (inv.meets undisturbed) hstep
    exact inv.unique

/-! ## Two registrations of one name -/

/-- A registration of `bob` with the password `secret`, received on this connection. -/
def bobReg (fd : Int32) : Registration where
  obj := { TransObj.zero with
    msgType := msgReg
    msg := .ofBytes _ (ascii "bob" ++ List.replicate 21 0 ++ ascii "secret") }
  fd := fd
  past := []

theorem bobReg_name (fd : Int32) : (bobReg fd).name = ascii "bob" := by
  have hname : (bobReg 0).name = ascii "bob" := by decide
  exact hname

theorem bobReg_passwd (fd : Int32) : (bobReg fd).passwd = ascii "secret" := by
  have hpasswd : (bobReg 0).passwd = ascii "secret" := by decide
  exact hpasswd

/-- A name and a password that mean themselves are read from the statements as they are. -/
theorem parse_plainSelect {t : Registration} {name : Bytes} (hname : t.name = name)
    (hdecode : decodeBody name = some name) (hshort : name.length < nameMaxLen) :
    parse t.select = .select .password name := by
  rw [Registration.select, hname, parse_selectCmd _ hshort hdecode]

theorem parse_plainInsert {t : Registration} {name passwd : Bytes} (hname : t.name = name)
    (hpasswd : t.passwd = passwd) (hdecode : decodeBody name = some name)
    (hdecode' : decodeBody passwd = some passwd) (hshort : name.length + passwd.length ≤ 20) :
    parse t.insert = .insert name t.fd passwd := by
  rw [Registration.insert, hname, hpasswd]
  exact parse_insertCmd_uncut hdecode hdecode' (insertCmd_length_le t.fd (by omega))

theorem parse_bobSelect (fd : Int32) :
    parse (bobReg fd).select = .select .password (ascii "bob") :=
  parse_plainSelect (bobReg_name fd) (decodeBody_eq_self (by decide) (by decide)) (by decide)

theorem parse_bobInsert (fd : Int32) :
    parse (bobReg fd).insert = .insert (ascii "bob") fd (ascii "secret") :=
  parse_plainInsert (bobReg_name fd) (bobReg_passwd fd)
    (decodeBody_eq_self (by decide) (by decide)) (decodeBody_eq_self (by decide) (by decide))
    (by decide)

/-- The event of a task that looks its name up and is answered no row. -/
def Registration.looksUp (t : Registration) : Event Effect Effect.Ans :=
  ⟨.executeQuery t.select, .ok []⟩

section Steps

variable (w : World) (ss : List RegStage) (trace : List (Nat × Event Effect Effect.Ans))
  {i : Nat} {t : Registration}

/-- A task looks its name up and does not find it, and stands before its insert. -/
theorem step_regSelect {name : Bytes} (hs : ss[i]? = some (.select t))
    (hparse : parse t.select = .select .password name) (normal : w.sqlFaults = [])
    (free : ¬ ∃ row ∈ w.userinfo, row.username = name) :
    Pool.step (World.answer .reference) ⟨w, ss.map RegStage.prog, trace⟩ i =
      some ⟨w, (ss.set i (.insert t)).map RegStage.prog, trace ++ [(i, t.looksUp)]⟩ := by
  have hanswer := answer_executeQuery (E := .reference) normal t.select
  rw [Mysql.reference.query_select hparse, filter_username_nil free] at hanswer
  exact Staged.step_of_view (M := RegStage.staged) (c := ⟨w, ss.map RegStage.prog, trace⟩)
    rfl hs rfl hanswer

/-- A task inserts its row, with the next `userid`, and stands before the query for it. -/
theorem step_regInsert {name passwd : Bytes} {fd id : Int32} (hs : ss[i]? = some (.insert t))
    (hparse : parse t.insert = .insert name fd passwd) (normal : w.sqlFaults = [])
    (hid : nextUserid w.userinfo = some id) :
    ∃ trace', Pool.step (World.answer .reference) ⟨w, ss.map RegStage.prog, trace⟩ i =
      some ⟨{ w with userinfo := w.userinfo ++ [⟨id, name, fd, passwd⟩] },
        (ss.set i (.accept t)).map RegStage.prog, trace'⟩ := by
  have hupdate : Mysql.reference.update t.insert w.userinfo =
      some (1, w.userinfo ++ [⟨id, name, fd, passwd⟩]) := by
    simp only [Mysql.reference, hparse, hid, Option.map_some]
  have hanswer : World.answer .reference (.executeUpdate t.insert) w =
      some (.ok 1, { w with userinfo := w.userinfo ++ [⟨id, name, fd, passwd⟩] }) := by
    obtain ⟨userinfo, redis, outbound, sqlFaults, redisFaults⟩ := w
    cases normal
    simp only [World.answer, hupdate, List.tail_nil]
  exact ⟨_, Staged.step_of_view (M := RegStage.staged) (c := ⟨w, ss.map RegStage.prog, trace⟩)
    rfl hs rfl hanswer⟩

end Steps

def regRow (id fd : Int32) : UserRow := ⟨id, ascii "bob", fd, ascii "secret"⟩

/-- Both tasks have looked `bob` up, found no row, and stand before their inserts. -/
def bothLooked : RegPool where
  shared := emptyWorld
  threads := [.insert (bobReg 4), .insert (bobReg 5)].map RegStage.prog
  trace := [(0, (bobReg 4).looksUp), (1, (bobReg 5).looksUp)]

/-- Both look `bob` up and find the name free; then the first inserts it. -/
theorem bob_inserted (guard : RegPool → Nat → Prop)
    (select : ∀ (ss : List RegStage) trace {i : Nat} {fd : Int32},
      ss[i]? = some (.select (bobReg fd)) → guard ⟨emptyWorld, ss.map RegStage.prog, trace⟩ i)
    (insert : guard bothLooked 0) : ∃ trace, Reaches (Pool.step (World.answer .reference)) guard
      (Pool.start emptyWorld ([bobReg 4, bobReg 5].map Registration.task))
      ⟨{ emptyWorld with userinfo := [regRow 1 4] },
        [.accept (bobReg 4), .insert (bobReg 5)].map RegStage.prog, trace⟩ := by
  have free : ¬ ∃ row ∈ emptyWorld.userinfo, row.username = ascii "bob" := by
    rintro ⟨row, hrow, -⟩
    cases hrow
  have h₁ := step_regSelect emptyWorld [.select (bobReg 4), .select (bobReg 5)] []
    (i := 0) rfl (parse_bobSelect 4) rfl free
  have h₂ := step_regSelect emptyWorld [.insert (bobReg 4), .select (bobReg 5)]
    [(0, (bobReg 4).looksUp)] (i := 1) rfl (parse_bobSelect 5) rfl free
  obtain ⟨trace, h₃⟩ := step_regInsert emptyWorld [.insert (bobReg 4), .insert (bobReg 5)]
    bothLooked.trace (i := 0) rfl (parse_bobInsert 4) rfl
    (show nextUserid emptyWorld.userinfo = some 1 by decide)
  have reach := Reaches.step (Reaches.step .refl (select _ [] rfl) h₁) (select _ _ rfl) h₂
  exact ⟨trace, reach.step insert h₃⟩

/-- The first insert of `bob` comes in time: nobody has inserted since the look. -/
theorem undisturbed_bothLooked : Undisturbed [bobReg 4, bobReg 5] bothLooked 0 := by
  intro t cmd k ht hthread
  cases ht
  have hat : RegStage.staged.At bothLooked [.insert (bobReg 4), .insert (bobReg 5)] := rfl
  cases Staged.op_of_view hat (i := 0) rfl rfl hthread
  rw [ReadsAsInsert, parse_bobInsert]
  refine ⟨trivial, fun username fd passwd hparse => ?_⟩
  cases hparse
  refine ⟨parse_bobSelect 4, fun e he => ?_⟩
  rintro ⟨cmd, n, fd, passwd, hevent, -⟩
  -- the events so far are queries
  have hmem : e ∈ bothLooked.trace := (List.rtakeWhile_suffix _ _).subset he
  rcases List.mem_pair.mp hmem with rfl | rfl
  · cases hevent
  · cases hevent

/-- One registration of `bob` is through, and the other is about to insert. -/
theorem registrations_unique_bob : ∃ c : RegPool, c.shared.userinfo = [regRow 1 4] ∧
    Unique [bobReg 4, bobReg 5] c := by
  obtain ⟨trace, reach⟩ := bob_inserted (Undisturbed [bobReg 4, bobReg 5])
    (fun ss trace i fd hs t cmd k _ hthread => by
      cases Staged.op_of_view (M := RegStage.staged)
        (c := ⟨emptyWorld, ss.map RegStage.prog, trace⟩) rfl hs rfl hthread)
    undisturbed_bothLooked
  have distinct : (emptyWorld.userinfo.map UserRow.username).Nodup := List.nodup_nil
  exact ⟨_, rfl, (registrations_unique .reference distinct _ _).2 reach⟩

/-- Both have found the name free, and both insert it: the table has two rows of `bob`. -/
theorem registered_twice :
    ¬ ∀ (E : Mysql) (w : World) (ts : List Registration) (c : RegPool),
      (w.userinfo.map UserRow.username).Nodup →
      Reaches (Pool.step (World.answer E)) (fun _ _ => True)
        (Pool.start w (ts.map Registration.task)) c → Unique ts c := by
  intro claim
  obtain ⟨trace, reach⟩ := bob_inserted (fun _ _ => True) (fun _ _ _ _ _ => trivial)
    trivial
  obtain ⟨trace', hstep⟩ := step_regInsert { emptyWorld with userinfo := [regRow 1 4] }
    [.accept (bobReg 4), .insert (bobReg 5)] trace (i := 1) rfl (parse_bobInsert 5) rfl
    (show nextUserid [regRow 1 4] = some 2 by decide)
  have distinct := (claim .reference emptyWorld _ _ List.nodup_nil
    (.step reach trivial hstep)).distinct
  have htwice : ¬ (([regRow 1 4, regRow 2 5] : UserInfo).map UserRow.username).Nodup := by decide
  exact htwice distinct

end Smer
