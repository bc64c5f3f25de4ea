import Smer.Laws.Registration

/-!
# The id of a registration

An accepted registration is answered with a `userid`. The task does not learn it from its insert: it
asks for the largest `userid` of the table, some time later. Another insert in between has a larger
one, so two registrations can be answered with the same id, which is one task's row and not the
other's (`same_id`).

A run answers each task with the `userid` of its own row when no row is inserted while a task is
between its insert and that query (`registration_ids`). `IdRun` records which rows a task has added
to the table; the record is the run's, not the program's.

Nothing in the program makes a run meet that condition.
-/

namespace Smer

open Lib HandleMsg MysqlPool

/-! ## Runs with a record of the rows -/

/-- A run of registrations, with the rows that each task has added: the task and the `userid`. -/
structure IdRun where
  pool : RegPool
  ids : List (Nat × Int32)

namespace IdRun

def start (w : World) (ts : List Registration) : IdRun :=
  ⟨Pool.start w (ts.map Registration.task), []⟩

/-- The rows of a table that were not there before. -/
def added (i : Nat) (before after : UserInfo) : List (Nat × Int32) :=
  (after.drop before.length).map fun row => (i, row.userid)

/-- Task `i` performs its next operation, and if that adds a row, the row's `userid` is recorded as
the task's. -/
def step (E : Mysql) (r : IdRun) (i : Nat) : Option IdRun :=
  (Pool.step (World.answer E) r.pool i).map fun c =>
    ⟨c, r.ids ++ added i r.pool.shared.userinfo c.shared.userinfo⟩

theorem added_self (i : Nat) (t : UserInfo) : added i t t = [] := by
  rw [added, List.drop_length, List.map_nil]

theorem added_append (i : Nat) (t : UserInfo) (row : UserRow) :
    added i t (t ++ [row]) = [(i, row.userid)] := by
  rw [added, List.drop_left, List.map_singleton]

theorem step_pool {E : Mysql} {r : IdRun} {i : Nat} {c : RegPool}
    (hstep : Pool.step (World.answer E) r.pool i = some c) :
    r.step E i = some ⟨c, r.ids ++ added i r.pool.shared.userinfo c.shared.userinfo⟩ := by
  rw [step, hstep, Option.map_some]

end IdRun

/-- A task accepts with this id. -/
def AcceptsAs (c : RegPool) (i : Nat) (id : Int32) : Prop :=
  ∃ obj, obj.msgType = msgRegAccept ∧ obj.id = id ∧ (i, ⟨.push obj, ()⟩) ∈ c.trace

/-- Each task adds one row at most, a task accepts with the `userid` of the row that it has added,
and no two tasks accept with one id. -/
structure OwnIds (r : IdRun) : Prop where
  one : ∀ i a b, (i, a) ∈ r.ids → (i, b) ∈ r.ids → a = b
  own : ∀ i id, AcceptsAs r.pool i id → (i, id) ∈ r.ids
  apart : ∀ i j id, AcceptsAs r.pool i id → AcceptsAs r.pool j id → i = j

/-! ## The condition -/

/-- The task is about to ask for the largest `userid`. -/
def AwaitsId (c : RegPool) (j : Nat) : Prop :=
  ∃ k, c.threads[j]? = some (.vis (.executeQuery maxUseridText) k)

/-- A step that meets the condition: if it executes an `insert`, no task is between its own `insert`
and its query for the id. -/
def InsertAlone (c : RegPool) (i : Nat) : Prop :=
  ∀ cmd k, c.threads[i]? = some (.vis (.executeUpdate cmd) k) →
    ReadsAsInsert cmd ∧ ∀ j, ¬ AwaitsId c j

/-! ## The invariant -/

/-- What is known of a task's row at its stage. -/
def IdFits (r : IdRun) (i : Nat) : RegStage → Prop
  | .select _ => ∀ id, (i, id) ∉ r.ids
  | .insert _ => ∀ id, (i, id) ∉ r.ids
  | .accept _ => ∃ id, (i, id) ∈ r.ids ∧ maxUserid r.pool.shared.userinfo = some id
  | .answer obj => obj.msgType = msgRegAccept → (i, obj.id) ∈ r.ids
  | .stop _ => True
  | .finished => True

/-- The recorded rows are in the table, one for a task and each with a `userid` of its own; a task
that has yet to ask for its id has the largest one. -/
structure IdInv (r : IdRun) : Prop where
  stages : ∃ ss, RegStage.staged.At r.pool ss ∧ ∀ i s, ss[i]? = some s → IdFits r i s
  tasks : (r.ids.map Prod.fst).Nodup
  userids : (r.ids.map Prod.snd).Nodup
  listed : ∀ i id, (i, id) ∈ r.ids → ∃ row ∈ r.pool.shared.userinfo, row.userid = id
  own : ∀ i id, AcceptsAs r.pool i id → (i, id) ∈ r.ids

theorem IdInv.ownIds {r : IdRun} (inv : IdInv r) : OwnIds r where
  one _ _ _ ha hb := (Prod.mk.inj (List.inj_on_of_nodup_map inv.tasks ha hb rfl)).2
  own := inv.own
  apart i j id hi hj :=
    (Prod.mk.inj (List.inj_on_of_nodup_map inv.userids (inv.own i id hi) (inv.own j id hj) rfl)).1

section Steps

variable {E : Mysql} {r : IdRun} {c' : RegPool} {i : Nat} {ss : List RegStage} {s' : RegStage}

theorem acceptsAs_append {c : RegPool} {e : Event Effect Effect.Ans}
    (htrace : c'.trace = c.trace ++ [(i, e)]) {j : Nat} {id : Int32} (h : AcceptsAs c' j id) :
    AcceptsAs c j id ∨
      j = i ∧ ∃ obj, obj.msgType = msgRegAccept ∧ obj.id = id ∧ e = ⟨.push obj, ()⟩ := by
  obtain ⟨obj, htype, hid, hmem⟩ := h
  rw [htrace] at hmem
  rcases List.mem_append.mp hmem with hold | hnew
  · exact .inl ⟨obj, htype, hid, hold⟩
  · obtain ⟨hj, he⟩ := Prod.mk.inj (List.mem_singleton.mp hnew)
    exact .inr ⟨hj, obj, htype, hid, he.symm⟩

theorem nodup_map_concat {α β : Type} {f : α → β} {l : List α} {a : α} (distinct : (l.map f).Nodup)
    (fresh : ∀ b ∈ l, f b ≠ f a) : ((l ++ [a]).map f).Nodup := by
  rw [List.map_append, List.map_singleton]
  refine List.nodup_append.mpr ⟨distinct, List.nodup_singleton _, fun x hx y hy hxy => ?_⟩
  obtain ⟨b, hb, rfl⟩ := List.mem_map.mp hx
  exact fresh b hb (hxy.trans (List.mem_singleton.mp hy))

/-- An operation that leaves the table alone keeps the invariant, and an acceptance among them is
with the recorded id. -/
theorem IdInv.of_quiet (inv : IdInv r) {e : Event Effect Effect.Ans}
    (htable : c'.shared.userinfo = r.pool.shared.userinfo)
    (htrace : c'.trace = r.pool.trace ++ [(i, e)])
    (accepting : ∀ obj, obj.msgType = msgRegAccept → e = ⟨.push obj, ()⟩ → (i, obj.id) ∈ r.ids)
    (stages : ∀ j s, ss[j]? = some s → IdFits r j s)
    (at' : RegStage.staged.At c' (ss.set i s')) (hfits : IdFits r i s') : IdInv ⟨c', r.ids⟩ := by
  have hsame : ∀ j s, IdFits r j s → IdFits ⟨c', r.ids⟩ j s := by
    intro j s hs
    cases s with
    | select t => exact hs
    | insert t => exact hs
    | accept t =>
      obtain ⟨id, hmem, hmax⟩ := hs
      exact ⟨id, hmem, htable ▸ hmax⟩
    | answer obj => exact hs
    | stop why => trivial
    | finished => trivial
  refine ⟨⟨_, at', fun j s hs => ?_⟩, inv.tasks, inv.userids, ?_, ?_⟩
  · rcases Staged.stage_of_set hs with ⟨rfl, rfl⟩ | ⟨-, hs⟩
    · exact hsame j s hfits
    · exact hsame j s (stages j s hs)
  · show ∀ j id, (j, id) ∈ r.ids → ∃ row ∈ c'.shared.userinfo, row.userid = id
    rw [htable]
    exact inv.listed
  · intro j id hj
    rcases acceptsAs_append htrace hj with hold | ⟨rfl, obj, htype, rfl, he⟩
    · exact inv.own j id hold
    · exact accepting obj htype he

/-- A row is inserted while no task is between its insert and the query for its id, so the largest
`userid` is nobody else's. -/
theorem IdInv.of_insert (inv : IdInv r) {cmd : Bytes} {n : Nat} {t : Registration} {row : UserRow}
    (htable : c'.shared.userinfo = r.pool.shared.userinfo ++ [row])
    (above : ∀ row' ∈ r.pool.shared.userinfo, row'.userid < row.userid)
    (htrace : c'.trace = r.pool.trace ++ [(i, ⟨.executeUpdate cmd, .ok n⟩)])
    (stages : ∀ j s, ss[j]? = some s → IdFits r j s)
    (alone : ∀ (j : Nat) (u : Registration), ss[j]? ≠ some (.accept u))
    (at' : RegStage.staged.At c' (ss.set i (.accept t)))
    (fresh : ∀ id, (i, id) ∉ r.ids) : IdInv ⟨c', r.ids ++ [(i, row.userid)]⟩ := by
  have hnone : ∀ j, j ≠ i → (∀ id, (j, id) ∉ r.ids) →
      ∀ id, (j, id) ∉ r.ids ++ [(i, row.userid)] := by
    intro j hji hj id hmem
    rcases List.mem_append.mp hmem with hold | hnew
    · exact hj id hold
    · exact hji (Prod.mk.inj (List.mem_singleton.mp hnew)).1
  refine ⟨⟨_, at', fun j s hs => ?_⟩, ?_, ?_, ?_, ?_⟩
  · rcases Staged.stage_of_set hs with ⟨rfl, rfl⟩ | ⟨hji, hs⟩
    · have hmax : maxUserid c'.shared.userinfo = some row.userid := by
        rw [htable]
        exact maxUserid_append above
      exact ⟨row.userid, List.mem_append_right _ List.mem_cons_self, hmax⟩
    · have hfits := stages j s hs
      cases s with
      | select u => exact hnone j hji hfits
      | insert u => exact hnone j hji hfits
      | accept u => exact absurd hs (alone j u)
      | answer obj => exact fun hobj => List.mem_append_left _ (hfits hobj)
      | stop why => trivial
      | finished => trivial
  · refine nodup_map_concat inv.tasks fun ⟨j, id⟩ hmem heq => ?_
    obtain rfl : j = i := heq
    exact fresh id hmem
  · refine nodup_map_concat inv.userids fun ⟨j, id⟩ hmem heq => ?_
    obtain rfl : id = row.userid := heq
    obtain ⟨row', hrow', hid⟩ := inv.listed j _ hmem
    have hlt := above row' hrow'
    rw [hid] at hlt
    exact Int32.lt_irrefl hlt
  · show ∀ j id, (j, id) ∈ r.ids ++ [(i, row.userid)] → ∃ row ∈ c'.shared.userinfo, row.userid = id
    intro j id hmem
    rw [htable]
    rcases List.mem_append.mp hmem with hold | hnew
    · obtain ⟨row', hrow', hid⟩ := inv.listed j id hold
      exact ⟨row', List.mem_append_left _ hrow', hid⟩
    · cases List.mem_singleton.mp hnew
      exact ⟨row, List.mem_append_right _ List.mem_cons_self, rfl⟩
  · intro j id hj
    rcases acceptsAs_append htrace hj with hold | ⟨-, obj, -, -, he⟩
    · exact List.mem_append_left _ (inv.own j id hold)
    · cases he

/-- What the query for the largest `userid` answers. -/
theorem answer_maxUserid {w w' : World} {q : Except SqlFault ResultSet}
    (h : World.answer E (.executeQuery maxUseridText) w = some (q, w')) :
    (∃ fault, q = .error fault) ∨ q = .ok [[(.id, maxCell w.userinfo)]] := by
  simp only [World.answer, E.query_max parse_maxUserid] at h
  split at h
  · cases h
    exact .inl ⟨_, rfl⟩
  · cases h
    exact .inr rfl

theorem idFits_refusal (t : Registration) (text : Bytes) :
    IdFits r i (.answer (t.refusal text)) := by
  intro haccept
  exact absurd haccept (t.refusal_ne_accept text)

theorem idFits_afterSelect (t : Registration) (q : Except SqlFault ResultSet)
    (fresh : ∀ id, (i, id) ∉ r.ids) : IdFits r i (RegStage.afterSelect t q) := by
  rcases q with (_ | _ | _) | (_ | _)
  · trivial
  · trivial
  · trivial
  · exact fresh
  · exact idFits_refusal _ _

theorem idFits_afterInsert_error (t : Registration) (fault : SqlFault) :
    IdFits r i (RegStage.afterInsert t (.error fault)) := by
  cases fault with
  | noConnection => exact idFits_refusal _ _
  | threw => exact idFits_refusal _ _
  | escapes => trivial

/-- A task whose row has the largest `userid` answers with it. -/
theorem idFits_afterMaxUserid (t : Registration) {q : Except SqlFault ResultSet}
    {table : UserInfo} {id : Int32} (hmem : (i, id) ∈ r.ids) (hmax : maxUserid table = some id)
    (hq : (∃ fault, q = .error fault) ∨ q = .ok [[(.id, maxCell table)]]) :
    IdFits r i (RegStage.afterMaxUserid t q) := by
  rcases hq with ⟨fault, rfl⟩ | rfl
  · cases fault <;> trivial
  · rw [RegStage.afterMaxUserid, getInt_maxCell hmax]
    intro _
    rw [Registration.acceptance, TransObj.setMsg_id, TransObj.setId_id]
    exact hmem

/-- **An admitted step keeps the invariant**: a task that is about to ask for its id finds its own
row the largest. -/
theorem idInv_step {r' : IdRun} (inv : IdInv r) (meets : InsertAlone r.pool i)
    (hstep : r.step E i = some r') : IdInv r' := by
  obtain ⟨c', hpool, rfl⟩ := Option.map_eq_some_iff.mp hstep
  obtain ⟨ss, hat, stages⟩ := inv.stages
  obtain ⟨s, o, next, q, w', hs, hview, hanswer, hshared, hat', htrace⟩ := Staged.step hat hpool
  have hfits := stages i s hs
  rw [← hshared] at hanswer
  cases s with
  | select t =>
    cases hview
    have htable := userinfo_query hanswer
    rw [htable, IdRun.added_self, List.append_nil]
    refine inv.of_quiet htable htrace (fun _ _ h => ?_) stages hat' (idFits_afterSelect t q hfits)
    cases h
  | insert t =>
    cases hview
    obtain ⟨reads, alone⟩ := meets _ _ (Staged.thread_of_view hat hs rfl)
    rcases userinfo_insert reads hanswer with
      ⟨fault, rfl, htable⟩ | ⟨row, rfl, -, above, htable⟩
    · rw [htable, IdRun.added_self, List.append_nil]
      refine inv.of_quiet htable htrace (fun _ _ h => ?_) stages hat'
        (idFits_afterInsert_error t fault)
      cases h
    · rw [htable, IdRun.added_append]
      exact inv.of_insert htable above htrace stages
        (fun j u hu => alone j ⟨_, Staged.thread_of_view hat hu rfl⟩) hat' hfits
  | accept t =>
    cases hview
    have htable := userinfo_query hanswer
    obtain ⟨id, hmem, hmax⟩ := hfits
    rw [htable, IdRun.added_self, List.append_nil]
    refine inv.of_quiet htable htrace (fun _ _ h => ?_) stages hat'
      (idFits_afterMaxUserid t hmem hmax (answer_maxUserid hanswer))
    cases h
  | answer obj =>
    cases hview
    have hworld := (Prod.mk.inj (Option.some.inj hanswer)).2
    have htable : c'.shared.userinfo = r.pool.shared.userinfo := by rw [← hworld]
    rw [htable, IdRun.added_self, List.append_nil]
    refine inv.of_quiet htable htrace (fun obj' hobj' h => ?_) stages hat' trivial
    cases h
    exact hfits hobj'
  | stop why =>
    cases hview
    exact q.elim
  | finished => cases hview

end Steps

theorem idInv_start (w : World) (ts : List Registration) : IdInv (.start w ts) where
  stages := by
    refine ⟨ts.map RegStage.select, ?_, ?_⟩
    · show ts.map Registration.task = (ts.map RegStage.select).map RegStage.prog
      rw [List.map_map]
      rfl
    · intro i s hs
      rw [List.getElem?_map, Option.map_eq_some_iff] at hs
      obtain ⟨t, -, rfl⟩ := hs
      intro id hmem
      cases hmem
  tasks := List.nodup_nil
  userids := List.nodup_nil
  listed := by
    intro i id hmem
    cases hmem
  own := by
    rintro i id ⟨obj, -, -, hmem⟩
    cases hmem

/-- **In every run that inserts no row while a task awaits its id, each task accepts with the
`userid` of its own row.** -/
theorem registration_ids (E : Mysql) (w : World) (ts : List Registration) {r : IdRun}
    (reach : Reaches (IdRun.step E) (fun r i => InsertAlone r.pool i) (.start w ts) r) :
    OwnIds r := by
  have inv : IdInv r := reach.invariant (idInv_start w ts)
    fun _ _ _ inv meets hstep => idInv_step inv meets hstep
  exact inv.ownIds

/-! ## Two registrations -/

/-- A registration of `ann` with the password `secret`, received on this connection. -/
def annReg (fd : Int32) : Registration where
  obj := { TransObj.zero with
    msgType := msgReg
    msg := .ofBytes _ (ascii "ann" ++ List.replicate 21 0 ++ ascii "secret") }
  fd := fd
  past := []

theorem annReg_name (fd : Int32) : (annReg fd).name = ascii "ann" := by
  have hname : (annReg 0).name = ascii "ann" := by decide
  exact hname

theorem annReg_passwd (fd : Int32) : (annReg fd).passwd = ascii "secret" := by
  have hpasswd : (annReg 0).passwd = ascii "secret" := by decide
  exact hpasswd

theorem parse_annSelect (fd : Int32) :
    parse (annReg fd).select = .select .password (ascii "ann") :=
  parse_plainSelect (annReg_name fd) (decodeBody_eq_self (by decide) (by decide)) (by decide)

theorem parse_annInsert (fd : Int32) :
    parse (annReg fd).insert = .insert (ascii "ann") fd (ascii "secret") :=
  parse_plainInsert (annReg_name fd) (annReg_passwd fd)
    (decodeBody_eq_self (by decide) (by decide)) (decodeBody_eq_self (by decide) (by decide))
    (by decide)

/-- An operation that is no update meets the condition. -/
theorem insertAlone_of_view {c : RegPool} {ss : List RegStage} {i : Nat} {s : RegStage}
    {o : Effect} {next : o.Ans → RegStage} (hat : RegStage.staged.At c ss) (hs : ss[i]? = some s)
    (hview : RegStage.view s = some ⟨o, next⟩) (h : ∀ cmd, o ≠ .executeUpdate cmd) :
    InsertAlone c i := by
  intro cmd k hthread
  exact absurd (Staged.op_of_view hat hs hview hthread).symm (h cmd)

/-- An insert meets the condition while every task is at its insert. -/
theorem insertAlone_of_insert {c : RegPool} {ss : List RegStage} {i : Nat} {t : Registration}
    (hat : RegStage.staged.At c ss) (hs : ss[i]? = some (.insert t))
    (reads : ReadsAsInsert t.insert) (alone : ∀ s ∈ ss, ∃ u, s = .insert u) :
    InsertAlone c i := by
  intro cmd k hthread
  cases Staged.op_of_view hat hs rfl hthread
  refine ⟨reads, ?_⟩
  rintro j ⟨k', hawaits⟩
  have hstage := hawaits
  rw [hat, List.getElem?_map, Option.map_eq_some_iff] at hstage
  obtain ⟨s, hs', -⟩ := hstage
  obtain ⟨u, rfl⟩ := alone s (List.mem_of_getElem? hs')
  cases Staged.op_of_view hat hs' rfl hawaits

section Runs

variable {guard : IdRun → Nat → Prop} {r₀ : IdRun} {w : World} {ss : List RegStage}
  {trace : List (Nat × Event Effect Effect.Ans)} {ids : List (Nat × Int32)} {i : Nat}
  {t : Registration}

/-- A task looks its name up and does not find it; the table and the record are as they were. -/
theorem reaches_select {name : Bytes} (admits : ∀ r, InsertAlone r.pool i → guard r i)
    (reach : Reaches (IdRun.step .reference) guard r₀ ⟨⟨w, ss.map RegStage.prog, trace⟩, ids⟩)
    (hs : ss[i]? = some (.select t)) (hparse : parse t.select = .select .password name)
    (normal : w.sqlFaults = []) (free : ¬ ∃ row ∈ w.userinfo, row.username = name) :
    ∃ trace', Reaches (IdRun.step .reference) guard r₀
      ⟨⟨w, (ss.set i (.insert t)).map RegStage.prog, trace'⟩, ids⟩ := by
  have hstep := step_regSelect w ss trace hs hparse normal free
  have hrun := IdRun.step_pool (r := ⟨_, ids⟩) hstep
  rw [IdRun.added_self, List.append_nil] at hrun
  exact ⟨_, reach.step (admits _ (insertAlone_of_view rfl hs rfl fun _ h => by cases h)) hrun⟩

/-- A task inserts its row, and the record gets the row's `userid`. -/
theorem reaches_insert {name passwd : Bytes} {fd id : Int32}
    (reach : Reaches (IdRun.step .reference) guard r₀ ⟨⟨w, ss.map RegStage.prog, trace⟩, ids⟩)
    (admits : guard ⟨⟨w, ss.map RegStage.prog, trace⟩, ids⟩ i) (hs : ss[i]? = some (.insert t))
    (hparse : parse t.insert = .insert name fd passwd) (normal : w.sqlFaults = [])
    (hid : nextUserid w.userinfo = some id) :
    ∃ trace', Reaches (IdRun.step .reference) guard r₀
      ⟨⟨{ w with userinfo := w.userinfo ++ [⟨id, name, fd, passwd⟩] },
        (ss.set i (.accept t)).map RegStage.prog, trace'⟩, ids ++ [(i, id)]⟩ := by
  obtain ⟨trace', hstep⟩ := step_regInsert w ss trace hs hparse normal hid
  have hrun := IdRun.step_pool (r := ⟨_, ids⟩) hstep
  rw [IdRun.added_append] at hrun
  exact ⟨trace', reach.step admits hrun⟩

/-- A task asks for the largest `userid`, is answered this one, and accepts with it. -/
theorem reaches_accepted {id : Int32} (admits : ∀ r, InsertAlone r.pool i → guard r i)
    (reach : Reaches (IdRun.step .reference) guard r₀ ⟨⟨w, ss.map RegStage.prog, trace⟩, ids⟩)
    (hs : ss[i]? = some (.accept t)) (normal : w.sqlFaults = [])
    (hmax : maxUserid w.userinfo = some id) :
    ∃ c, Reaches (IdRun.step .reference) guard r₀ ⟨c, ids⟩ ∧ AcceptsAs c i id := by
  have hlen : i < ss.length := (List.getElem?_eq_some_iff.mp hs).1
  have hanswer := answer_executeQuery (E := .reference) normal maxUseridText
  rw [Mysql.reference.query_max parse_maxUserid] at hanswer
  have hask := Staged.step_of_view (M := RegStage.staged) (c := ⟨w, ss.map RegStage.prog, trace⟩)
    rfl hs rfl hanswer
  simp only [RegStage.afterMaxUserid, getInt_maxCell hmax] at hask
  have hask := IdRun.step_pool (r := ⟨_, ids⟩) hask
  rw [IdRun.added_self, List.append_nil] at hask
  have hset : (ss.set i (.answer (t.acceptance id)))[i]? = some (.answer (t.acceptance id)) :=
    List.getElem?_set_self hlen
  have hpush := IdRun.step_pool (r := ⟨_, ids⟩) (Staged.step_of_view (M := RegStage.staged)
    (h := World.answer .reference) (c := ⟨w, _, trace ++ [(i, ⟨.executeQuery maxUseridText,
      .ok [[(.id, maxCell w.userinfo)]]⟩)]⟩) rfl hset rfl rfl)
  rw [IdRun.added_self, List.append_nil] at hpush
  have reach := reach.step (admits _ (insertAlone_of_view rfl hs rfl fun _ h => by cases h)) hask
  have reach := reach.step (admits _ (insertAlone_of_view rfl hset rfl fun _ h => by cases h)) hpush
  refine ⟨_, reach, t.acceptance id, TransObj.setMsg_msgType _ _, ?_, ?_⟩
  · rw [Registration.acceptance, TransObj.setMsg_id, TransObj.setId_id]
  · exact List.mem_append_right _ List.mem_cons_self

end Runs

def annRow : UserRow := ⟨1, ascii "ann", 4, ascii "secret"⟩

/-- Both look their names up and find them free; then `ann` is inserted. -/
theorem ann_inserted : ∃ trace, Reaches (IdRun.step .reference)
    (fun r i => InsertAlone r.pool i) (.start emptyWorld [annReg 4, bobReg 5])
    ⟨⟨{ emptyWorld with userinfo := [annRow] },
      [.accept (annReg 4), .insert (bobReg 5)].map RegStage.prog, trace⟩, [(0, 1)]⟩ := by
  have free : ∀ name, ¬ ∃ row ∈ emptyWorld.userinfo, row.username = name := by
    rintro name ⟨row, hrow, -⟩
    cases hrow
  have reach : Reaches (IdRun.step .reference) (fun r i => InsertAlone r.pool i)
      (.start emptyWorld [annReg 4, bobReg 5])
      ⟨⟨emptyWorld, [.select (annReg 4), .select (bobReg 5)].map RegStage.prog, []⟩, []⟩ := .refl
  obtain ⟨trace₁, reach⟩ := reaches_select (i := 0) (fun _ h => h) reach rfl (parse_annSelect 4) rfl
    (free _)
  obtain ⟨trace₂, reach⟩ := reaches_select (i := 1) (fun _ h => h) reach rfl (parse_bobSelect 5) rfl
    (free _)
  refine reaches_insert (i := 0) reach ?_ rfl (parse_annInsert 4) rfl
    (show nextUserid emptyWorld.userinfo = some 1 by decide)
  refine insertAlone_of_insert rfl rfl ?_ ?_
  · rw [ReadsAsInsert, parse_annInsert]
    trivial
  · intro s hs
    rcases List.mem_cons.mp hs with rfl | hs
    · exact ⟨_, rfl⟩
    · exact ⟨_, List.mem_singleton.mp hs⟩

/-- `ann` is accepted with the id of her row. -/
theorem registration_ids_ann : ∃ r : IdRun, r.ids = [(0, 1)] ∧ AcceptsAs r.pool 0 1 ∧
    OwnIds r := by
  obtain ⟨trace, reach⟩ := ann_inserted
  obtain ⟨c, reach, haccepts⟩ := reaches_accepted (i := 0) (fun _ h => h) reach rfl rfl
    (show maxUserid [annRow] = some 1 by decide)
  exact ⟨_, rfl, haccepts, registration_ids .reference _ _ reach⟩

/-- `bob` is inserted before `ann` has asked for her id, and she is accepted with the id of his
row. -/
theorem same_id :
    ¬ ∀ (E : Mysql) (w : World) (ts : List Registration) (r : IdRun),
      (ts.map Registration.name).Nodup →
      Reaches (IdRun.step E) (fun _ _ => True) (.start w ts) r → OwnIds r := by
  intro claim
  obtain ⟨trace, reach⟩ := ann_inserted
  have reach : Reaches (IdRun.step .reference) (fun _ _ => True) _ _ :=
    reach.mono fun _ _ _ => trivial
  obtain ⟨trace', reach⟩ := reaches_insert (i := 1) reach trivial rfl
    (parse_bobInsert 5) rfl (show nextUserid [annRow] = some 2 by decide)
  obtain ⟨c, reach, haccepts⟩ := reaches_accepted (i := 0) (fun _ _ => trivial) reach rfl rfl
    (show maxUserid [annRow, ⟨2, ascii "bob", 5, ascii "secret"⟩] = some 2 by decide)
  have distinct : ([annReg 4, bobReg 5].map Registration.name).Nodup := by
    simp only [List.map_cons, List.map_nil, annReg_name, bobReg_name]
    decide
  have hown : (0, (2 : Int32)) ∈ [(0, 1), (1, 2)] :=
    (claim .reference _ _ _ distinct reach).own 0 2 haccepts
  exact absurd hown (by decide)

end Smer
