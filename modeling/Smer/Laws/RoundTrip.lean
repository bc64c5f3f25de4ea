import Smer.Laws.Registration
import Smer.Laws.Routing

/-!
# Registering and logging in

A name and a password are pasted between the quotes of an SQL text, and MySQL stores what it reads
there. A login pastes the name again but compares the password itself with the stored one. So the
account that a registration makes answers to its password when MySQL reads the password as it is:
without an escape, and with the `insert` whole behind it. And it answers at all when the name, which
is later a format, has a defined expansion.

`LoginFollows` says that an accepted registration can be logged in to with its own password and no
other, and `loginFollows_iff` says for which names and passwords that holds.

The two tasks run one after the other and alone, on any engine that reads the statements as the
hypotheses say.
-/

namespace Smer

open Lib HandleMsg ComManger MysqlPool

/-! ## Requests -/

/-- A text for an area of the object: not empty, shorter than the area, and without a zero. -/
structure AreaText (size : Nat) where
  text : Bytes
  ne_nil : text ≠ []
  short : text.length < size
  no_zero : (0 : UInt8) ∉ text

/-- The object of a request with a name and a password in their areas. -/
def request (msgType : UInt32) (name : AreaText nameMaxLen) (passwd : AreaText passwordMaxLen) :
    TransObj :=
  { TransObj.zero with
    msgType := msgType
    msg := (TransObj.zero.msg.write 0 name.text).write nameMaxLen passwd.text }

section Request

variable (msgType : UInt32) (name : AreaText nameMaxLen) (passwd : AreaText passwordMaxLen)
  (past : Bytes)

/-- The area of the name, with the zeros behind it. -/
theorem request_front : (TransObj.zero.msg.write 0 name.text).bytes =
    name.text ++ List.replicate (maxTransMsgLen - name.text.length) 0 := by
  have hshort := name.short
  have hname : nameMaxLen = 24 := rfl
  have hmsg : maxTransMsgLen = 64 := rfl
  exact CharArray.write_fill (by omega)

theorem request_getName : (request msgType name passwd).getName past = name.text := by
  have hshort := name.short
  have hname : nameMaxLen = 24 := rfl
  have hmsg : maxTransMsgLen = 64 := rfl
  obtain ⟨k, hk⟩ : ∃ k, nameMaxLen - name.text.length = k + 1 :=
    ⟨nameMaxLen - name.text.length - 1, by omega⟩
  have hfront : (request msgType name passwd).msg.bytes.take nameMaxLen =
      name.text ++ 0 :: List.replicate k 0 := by
    show (((TransObj.zero.msg.write 0 name.text).write nameMaxLen passwd.text).bytes).take
      nameMaxLen = _
    rw [CharArray.write_take _ le_rfl (by omega), request_front, List.take_append,
      List.take_of_length_le hshort.le, List.take_replicate, Nat.min_eq_left (by omega), hk,
      List.replicate_succ]
  rw [TransObj.getName, ← List.take_append_drop nameMaxLen (request msgType name passwd).msg.bytes,
    hfront]
  simp only [List.append_assoc, List.cons_append]
  exact cstr_append_zero name.no_zero _

theorem request_getPasswd : (request msgType name passwd).getPasswd past = passwd.text := by
  have hshort := name.short
  have hshort' := passwd.short
  have hname : nameMaxLen = 24 := rfl
  have hmsg : maxTransMsgLen = 64 := rfl
  have hpasswd : passwordMaxLen = 40 := rfl
  obtain ⟨k, hk⟩ : ∃ k, maxTransMsgLen - (nameMaxLen + passwd.text.length) = k + 1 :=
    ⟨maxTransMsgLen - (nameMaxLen + passwd.text.length) - 1, by omega⟩
  have hzeros : (TransObj.zero.msg.write 0 name.text).bytes.drop (nameMaxLen + passwd.text.length) =
      0 :: List.replicate k 0 := by
    rw [request_front, List.drop_append, List.drop_eq_nil_of_le (by omega), List.nil_append,
      List.drop_replicate, ← List.replicate_succ, ← hk]
    congr 1
    omega
  rw [TransObj.getPasswd]
  show cstr (((TransObj.zero.msg.write 0 name.text).write nameMaxLen passwd.text).bytes.drop
    nameMaxLen ++ past) = _
  rw [CharArray.write_drop _ (by omega), hzeros, List.append_assoc, List.cons_append]
  exact cstr_append_zero passwd.no_zero _

end Request

/-- The task comes to its end and has pushed one message, which is of this type. -/
def AnswersWith (E : Mysql) (w : World) (task : Task Unit) (msgType : UInt32) : Prop :=
  ∃ reply, (task.run (World.answer E) w).2.outbound = w.outbound ++ [reply] ∧
    reply.msgType = msgType

/-- The registration of a name and a password on a connection. -/
def registers (name : AreaText nameMaxLen) (passwd : AreaText passwordMaxLen) (fd : Int32)
    (past : Bytes) : Registration :=
  ⟨request msgReg name passwd, fd, past⟩

/-- A registration that is accepted is followed by a login that is accepted with the same password
and refused with any other, whatever the database held before, as long as it does not fail. -/
def LoginFollows (name : AreaText nameMaxLen) (passwd : AreaText passwordMaxLen) (fd : Int32) :
    Prop :=
  ∀ (E : Mysql) (w : World) (past : Bytes), w.sqlFaults = [] →
    AnswersWith E w (registers name passwd fd past).task msgRegAccept →
    ∀ (passwd' : AreaText passwordMaxLen) (fd' : Int32) (past' : Bytes),
      AnswersWith E ((registers name passwd fd past).task.run (World.answer E) w).2
        (userLogTask (request msgLogin name passwd') fd' past') msgLoginAccept ↔
          passwd'.text = passwd.text

/-! ## The condition -/

/-- The statements of the registration, as they are sent, are read as meant: the registration cannot
be accepted, because one of them breaks off, or the row that the `insert` makes has the password, as
a C string, and the name is a format with a defined expansion. -/
def ReadsAsMeant (name passwd : Bytes) (fd : Int32) : Prop :=
  parse ((selectCmd .password name).take 99) = .incomplete ∨
    parse ((insertCmd name fd passwd).take 99) = .incomplete ∨
    ∃ username password,
      parse ((selectCmd .password name).take 99) = .select .password username ∧
        parse ((insertCmd name fd passwd).take 99) = .insert username fd password ∧
          cstr password = passwd ∧ Expands name

/-! ## The registration -/

section Runs

variable {E : Mysql} {w : World} {task : Task Unit} {msgType : UInt32}

/-- A task that pushes one message, of another type, does not answer with this one. -/
theorem not_answersWith {reply : TransObj}
    (hout : (task.run (World.answer E) w).2.outbound = w.outbound ++ [reply])
    (htype : reply.msgType ≠ msgType) : ¬ AnswersWith E w task msgType := by
  rintro ⟨reply', hout', htype'⟩
  rw [hout] at hout'
  cases List.append_cancel_left hout'
  exact htype htype'

/-- A task that pushes nothing does not answer. -/
theorem not_answersWith_nothing (hout : (task.run (World.answer E) w).2.outbound = w.outbound) :
    ¬ AnswersWith E w task msgType := by
  rintro ⟨reply, hout', -⟩
  rw [hout] at hout'
  have hlen := congrArg List.length hout'
  rw [List.length_append, List.length_singleton] at hlen
  omega

/-- A task that pushes a refusal of a login does not accept it. -/
theorem not_answersWith_refused {obj : TransObj} {text : Bytes}
    (hout : (task.run (World.answer E) w).2.outbound =
      w.outbound ++ [((obj.setMsgType msgLoginRefuse).setMsg text).1]) :
    ¬ AnswersWith E w task msgLoginAccept := by
  refine not_answersWith hout ?_
  rw [TransObj.setMsg_msgType, TransObj.setMsgType_msgType]
  decide

variable {t : Registration}

/-- What the engine has said to a registration that is accepted. -/
theorem accepted_inv (normal : w.sqlFaults = []) (accepted : AnswersWith E w t.task msgRegAccept) :
    E.query t.select w.userinfo = some [] ∧
      ∃ count table, E.update t.insert w.userinfo = some (count, table) := by
  have hselect := answer_executeQuery (E := E) normal t.select
  have hrun : t.task.run (World.answer E) w = _ :=
    (congrArg (Prog.run (World.answer E) · w) (RegStage.prog_select t)).trans
      (Prog.run_vis_some hselect)
  cases hrows : E.query t.select w.userinfo with
  | none =>
    simp only [hrows] at hrun
    exact absurd accepted (not_answersWith_nothing (by rw [hrun]; rfl))
  | some rows =>
    simp only [hrows] at hrun
    cases rows with
    | cons row rows =>
      exact absurd accepted (not_answersWith (by rw [hrun]; rfl) (t.refusal_ne_accept _))
    | nil =>
      have hinsert := answer_executeUpdate (E := E) normal t.insert
      cases htable : E.update t.insert w.userinfo with
      | none =>
        simp only [htable] at hinsert
        have hrun : t.task.run (World.answer E) w = _ := hrun.trans
          ((congrArg (Prog.run (World.answer E) · w) (RegStage.prog_insert t)).trans
            (Prog.run_vis_some hinsert))
        exact absurd accepted (not_answersWith (by rw [hrun]; rfl) (t.refusal_ne_accept _))
      | some out => exact ⟨rfl, out.1, out.2, rfl⟩

/-- A registration whose row is inserted is accepted, and the table has the row. -/
theorem run_registration (normal : w.sqlFaults = []) {row : UserRow}
    (hselect : E.query t.select w.userinfo = some [])
    (hinsert : E.update t.insert w.userinfo = some (1, w.userinfo ++ [row]))
    (above : ∀ row' ∈ w.userinfo, row'.userid < row.userid) :
    t.task.run (World.answer E) w = (.ok (), { w with
      userinfo := w.userinfo ++ [row]
      outbound := w.outbound ++ [t.acceptance row.userid] }) := by
  have hselect' := answer_executeQuery (E := E) normal t.select
  have hinsert' := answer_executeUpdate (E := E) normal t.insert
  have hmax := answer_executeQuery (E := E) (w := { w with userinfo := w.userinfo ++ [row] }) normal
    maxUseridText
  simp only [hselect] at hselect'
  simp only [hinsert] at hinsert'
  rw [E.query_max parse_maxUserid] at hmax
  show (RegStage.prog (.select t)).run _ _ = _
  rw [RegStage.prog_select, Prog.run_vis_some hselect', RegStage.afterSelect, RegStage.prog_insert,
    Prog.run_vis_some hinsert', RegStage.afterInsert, if_pos Nat.one_pos, RegStage.prog_accept,
    Prog.run_vis_some hmax]
  simp only [RegStage.afterMaxUserid, getInt_maxCell (maxUserid_append above)]
  rfl

/-! ## The login -/

variable {name : AreaText nameMaxLen} {passwd : AreaText passwordMaxLen} (fd : Int32)
  (past : Bytes)

/-- A login goes on with what its `select` is answered. -/
theorem run_login (normal : w.sqlFaults = []) :
    (userLogTask (request msgLogin name passwd) fd past).run (World.answer E) w =
      (loginOn (request msgLogin name passwd) fd past
        (match E.query ((selectCmd .passwordUserid name.text).take 99) w.userinfo with
          | some rows => .ok rows
          | none => .error .threw)).run (World.answer E) w := by
  rw [userLogTask_eq (show (request msgLogin name passwd).len = 0 from rfl), loginSelect,
    request_getName]
  exact Prog.run_vis_some (answer_executeQuery normal _)

/-- A login whose `select` fails is refused. -/
theorem login_failed (normal : w.sqlFaults = [])
    (hrows : E.query ((selectCmd .passwordUserid name.text).take 99) w.userinfo = none) :
    ¬ AnswersWith E w (userLogTask (request msgLogin name passwd) fd past) msgLoginAccept := by
  refine not_answersWith_refused (?_ : _ = w.outbound ++ [((((request msgLogin name passwd).setMsgType
    msgLoginRefuse).setMsg (ascii "Login err! not found name\n")).1)])
  rw [run_login fd past normal, hrows]
  rfl

/-- A login that finds one row, with another password, is refused. -/
theorem login_wrong (normal : w.sqlFaults = []) {row : UserRow}
    (hrows : E.query ((selectCmd .passwordUserid name.text).take 99) w.userinfo =
      some [Columns.passwordUserid.project row]) (wrong : cstr row.password ≠ passwd.text) :
    ¬ AnswersWith E w (userLogTask (request msgLogin name passwd) fd past) msgLoginAccept := by
  rw [← request_getPasswd msgLogin name passwd past] at wrong
  refine not_answersWith_refused (?_ : _ = w.outbound ++ [((((request msgLogin name passwd).setMsgType
    msgLoginRefuse).setMsg (ascii "Login err! password not equal!\n")).1)])
  rw [run_login fd past normal, hrows]
  simp only [loginOn]
  rw [run_login_wrong wrong]

/-- A login that finds one row, with its password, is accepted if the name expands. -/
theorem login_right (normal : w.sqlFaults = []) {row : UserRow}
    (hrows : E.query ((selectCmd .passwordUserid name.text).take 99) w.userinfo =
      some [Columns.passwordUserid.project row]) (right : cstr row.password = passwd.text)
    (expands : Expands name.text) :
    AnswersWith E w (userLogTask (request msgLogin name passwd) fd past) msgLoginAccept := by
  have hname := request_getName msgLogin name passwd past
  have hpasswd := request_getPasswd msgLogin name passwd past
  rw [← hname] at expands
  rw [← hpasswd] at right
  obtain ⟨w', hrun, hout, -⟩ := run_login_right (E := E) (w := w) fd (hname ▸ name.short) expands
    right
  refine ⟨_, ?_, TransObj.setMsgType_msgType
    (((request msgLogin name passwd).setId row.userid).setFd fd) _⟩
  rw [run_login fd past normal, hrows]
  simp only [loginOn]
  rw [hrun, hout]

/-- A name that does not expand ends the login inside `addSessionTalker`. -/
theorem login_stuck (normal : w.sqlFaults = []) (normal' : w.redisFaults = []) {row : UserRow}
    (hrows : E.query ((selectCmd .passwordUserid name.text).take 99) w.userinfo =
      some [Columns.passwordUserid.project row]) (right : cstr row.password = passwd.text)
    (stuck : ¬ Expands name.text) :
    ¬ AnswersWith E w (userLogTask (request msgLogin name passwd) fd past) msgLoginAccept := by
  have hname := request_getName msgLogin name passwd past
  have hgetPasswd : (request msgLogin name passwd).getPasswd past = cstr row.password := by
    rw [request_getPasswd, right]
  have hpasswd : (Columns.passwordUserid.project row).getString .password = some row.password :=
    rfl
  have huserid : (Columns.passwordUserid.project row).getInt .userid = some row.userid := rfl
  have hlen : name.text.length ≤ 60 := by
    have hshort := name.short
    have hmax : nameMaxLen = 24 := rfl
    omega
  obtain ⟨o, w', hrun⟩ := addSessionTalker_stuck (E := E) normal' row.userid fd name.no_zero hlen
    stuck
  have only : (addSessionTalker row.userid name.text fd).Only (Pushes fun _ => False) :=
    addSessionTalker_pushes _ _ _
  obtain ⟨pushed, hout, hnone⟩ := Pushes.run (E := E) only w
  have hpushed : pushed = [] := List.eq_nil_iff_forall_not_mem.mpr hnone
  rw [hrun, hpushed, List.append_nil] at hout
  refine not_answersWith_nothing ?_
  rw [run_login fd past normal, hrows]
  simp only [loginOn, loginWithRow, hpasswd, ne_eq, hgetPasswd, not_true_eq_false, if_false,
    huserid, hname, TransObj.setFd_id, TransObj.setId_id]
  rw [Prog.run_bind_error hrun]
  exact hout

end Runs

section RoundTrip

variable {name : AreaText nameMaxLen} {passwd : AreaText passwordMaxLen} {fd : Int32}

/-- The statements of a registration are those of its name and its password. -/
theorem registers_select (past : Bytes) :
    (registers name passwd fd past).select = (selectCmd .password name.text).take 99 := by
  rw [Registration.select, Registration.name, registers, request_getName]

theorem registers_insert (past : Bytes) :
    (registers name passwd fd past).insert = (insertCmd name.text fd passwd.text).take 99 := by
  rw [Registration.insert, Registration.name, Registration.passwd, registers, request_getName,
    request_getPasswd]

/-- A name that its `select` reads is the inside of its literal. -/
theorem decodes_of_select {username : Bytes}
    (h : parse ((selectCmd .password name.text).take 99) = .select .password username) :
    decodeBody name.text = some username := by
  rw [selectCmd_take _ name.short, selectCmd, parse_select] at h
  exact decodes_of_parseSelect h

/-- An accepted registration whose statements are read as meant is followed by its login. -/
theorem ReadsAsMeant.loginFollows (h : ReadsAsMeant name.text passwd.text fd) :
    LoginFollows name passwd fd := by
  intro E w past normal accepted passwd' fd' past'
  obtain ⟨hselect, count, table, hinsert⟩ := accepted_inv normal accepted
  rcases h with incomplete | incomplete | ⟨username, password, hname, hpasswd, hcstr, expands⟩
  · rw [registers_select, E.query_incomplete incomplete] at hselect
    cases hselect
  · rw [registers_insert, E.update_incomplete incomplete] at hinsert
    cases hinsert
  · have hinserted := E.update_insert hpasswd w.userinfo
    rw [← registers_insert past] at hinserted
    rcases hinserted with hnone | ⟨id, above, hsome⟩
    · rw [hinsert] at hnone
      cases hnone
    · -- the new row is the only one of its username
      have hfree := hselect
      rw [registers_select, E.query_select hname, Option.some.injEq, List.map_eq_nil_iff] at hfree
      have hrun := run_registration normal hselect hsome above
      have hrows : E.query ((selectCmd .passwordUserid name.text).take 99)
          (w.userinfo ++ [⟨id, username, fd, password⟩]) =
            some [Columns.passwordUserid.project ⟨id, username, fd, password⟩] := by
        rw [E.query_select (parse_selectCmd _ name.short (decodes_of_select hname)),
          List.filter_append, hfree]
        simp only [List.filter_cons, List.filter_nil, decide_true, if_true, List.nil_append,
          List.map_cons, List.map_nil]
      rw [hrun]
      dsimp only
      constructor
      · intro accepted'
        by_contra wrong
        have wrong' : cstr password ≠ passwd'.text := by
          rw [hcstr]
          exact Ne.symm wrong
        exact absurd accepted' (login_wrong fd' past' normal hrows wrong')
      · intro right
        exact login_right fd' past' normal hrows (hcstr.trans right.symm) expands

/-! ## What an engine may do with the other statements -/

/-- An engine that refuses no text but one that breaks off. A lookup that `parse` does not know finds
nothing in an empty table and fails on another; an update that it does not know inserts a row under
the username given, without a password. -/
def Mysql.lenient (username : Bytes) : Mysql where
  query cmd t :=
    match parse cmd with
    | .select columns username =>
      some ((t.filter fun row => row.username = username).map columns.project)
    | .maxUserid => some [[(.id, maxCell t)]]
    | .incomplete => none
    | .insert _ _ _ | .other => if t = [] then some [] else none
  update cmd t :=
    match parse cmd with
    | .insert username fd password =>
      (nextUserid t).map fun id => (1, t ++ [⟨id, username, fd, password⟩])
    | .incomplete => none
    | .select _ _ | .maxUserid | .other =>
      (nextUserid t).map fun id => (1, t ++ [⟨id, username, 0, []⟩])
  query_select h t := by rw [h]
  query_max h t := by rw [h]
  query_incomplete h t := by rw [h]
  update_insert h t := by
    rw [h]
    cases hid : nextUserid t with
    | none => exact .inl rfl
    | some id => exact .inr ⟨id, userid_lt_next hid, rfl⟩
  update_incomplete h t := by rw [h]

/-- It inserts a row for every update that does not break off. -/
theorem lenient_update {cmd : Bytes} (username : Bytes) (complete : parse cmd ≠ .incomplete) :
    ∃ row, (Mysql.lenient username).update cmd [] = some (1, [row]) ∧
      (parse cmd = .insert row.username row.fd row.password ∨
        (∀ a fd b, parse cmd ≠ .insert a fd b) ∧ row.username = username ∧ row.password = []) := by
  have hid : nextUserid [] = some 1 := rfl
  by_cases inserts : ∃ a fd b, parse cmd = .insert a fd b
  · obtain ⟨a, fd, b, hparse⟩ := inserts
    refine ⟨⟨1, a, fd, b⟩, ?_, .inl hparse⟩
    simp only [Mysql.lenient, hparse, hid, Option.map_some, List.nil_append]
  · have other : ∀ a fd b, parse cmd ≠ .insert a fd b := fun a fd b h => inserts ⟨a, fd, b, h⟩
    refine ⟨⟨1, username, 0, []⟩, ?_, .inr ⟨other, rfl, rfl⟩⟩
    cases hparse : parse cmd with
    | insert a fd b => exact absurd hparse (other a fd b)
    | incomplete => exact absurd hparse complete
    | select columns a =>
      simp only [Mysql.lenient, hparse, hid, Option.map_some, List.nil_append]
    | maxUserid => simp only [Mysql.lenient, hparse, hid, Option.map_some, List.nil_append]
    | other => simp only [Mysql.lenient, hparse, hid, Option.map_some, List.nil_append]

/-- The login with the password of a registration that the engine accepts on an empty table. -/
theorem LoginFollows.lenient (follows : LoginFollows name passwd fd) {username : Bytes}
    {row : UserRow}
    (hselect : (Mysql.lenient username).query ((selectCmd .password name.text).take 99) [] =
      some [])
    (hinsert : (Mysql.lenient username).update ((insertCmd name.text fd passwd.text).take 99) [] =
      some (1, [row])) :
    ∃ w : World, w.userinfo = [row] ∧ w.sqlFaults = [] ∧ w.redisFaults = [] ∧
      AnswersWith (.lenient username) w (userLogTask (request msgLogin name passwd) 0 [])
        msgLoginAccept := by
  rw [← registers_select []] at hselect
  rw [← registers_insert []] at hinsert
  have above : ∀ row' ∈ emptyWorld.userinfo, row'.userid < row.userid := by
    intro row' hrow'
    cases hrow'
  have hrun := run_registration (w := emptyWorld) rfl hselect hinsert above
  have accepted : AnswersWith (.lenient username) emptyWorld (registers name passwd fd []).task
      msgRegAccept := by
    refine ⟨(registers name passwd fd []).acceptance row.userid, ?_, ?_⟩
    · rw [hrun]
    · rw [Registration.acceptance, TransObj.setMsg_msgType]
      rfl
  have haccept := (follows _ emptyWorld [] rfl accepted passwd 0 []).mpr rfl
  rw [hrun] at haccept
  exact ⟨_, rfl, rfl, rfl, haccept⟩

/-- **Where every engine lets the login follow, the statements are read as meant.** -/
theorem LoginFollows.readsAsMeant (follows : LoginFollows name passwd fd) :
    ReadsAsMeant name.text passwd.text fd := by
  by_contra hnot
  rw [ReadsAsMeant, not_or, not_or] at hnot
  obtain ⟨hselect, hinsert, hmeant⟩ := hnot
  have hcut : parse ((selectCmd .password name.text).take 99) =
      parseSelect .password (name.text ++ ascii "';") := by
    rw [selectCmd_take _ name.short, selectCmd, parse_select]
  rcases parseSelect_cases .password (name.text ++ ascii "';") with
    ⟨username, hname⟩ | hincomplete | hother
  · -- the name is read: the login finds the row that the registration has made
    rw [← hcut] at hname
    have hdecode := decodes_of_select hname
    obtain ⟨row, hupdate, hrow⟩ := lenient_update username hinsert
    have hfound : (Mysql.lenient username).query ((selectCmd .password name.text).take 99) [] =
        some [] := (Mysql.lenient username).query_select hname []
    obtain ⟨w, htable, normal, normal', haccept⟩ := follows.lenient hfound hupdate
    have hrows : row.username = username → (Mysql.lenient username).query
        ((selectCmd .passwordUserid name.text).take 99) w.userinfo =
          some [Columns.passwordUserid.project row] := by
      intro husername
      rw [(Mysql.lenient username).query_select (parse_selectCmd _ name.short hdecode), htable]
      simp only [List.filter_cons, husername, decide_true, if_true, List.filter_nil, List.map_cons,
        List.map_nil]
    rcases hrow with hparse | ⟨-, husername, hpassword⟩
    · obtain ⟨text, htext⟩ := parse_insertCmd name.short hdecode fd passwd.text
      have husername : row.username = username ∧ row.fd = fd := by
        rw [htext] at hparse
        rcases parsePassword_cases username fd text with ⟨password, h⟩ | h | h
        · rw [h] at hparse
          cases hparse
          exact ⟨rfl, rfl⟩
        · rw [h] at hparse
          cases hparse
        · rw [h] at hparse
          cases hparse
      by_cases right : cstr row.password = passwd.text
      · refine absurd haccept (login_stuck 0 [] normal normal' (hrows husername.1) right ?_)
        intro expands
        rw [husername.1, husername.2] at hparse
        exact hmeant ⟨username, row.password, hname, hparse, right, expands⟩
      · exact absurd haccept (login_wrong 0 [] normal (hrows husername.1) right)
    · refine absurd haccept (login_wrong 0 [] normal (hrows husername) ?_)
      rw [hpassword]
      exact fun h => passwd.ne_nil h.symm
  · rw [hcut] at hselect
    exact hselect hincomplete
  · -- a quote in the name ends its literal early: this engine finds no account to log in to
    obtain ⟨row, hupdate, -⟩ := lenient_update [] hinsert
    have hfound : (Mysql.lenient []).query ((selectCmd .password name.text).take 99) [] =
        some [] := by
      simp only [Mysql.lenient, hcut, hother, if_true]
    obtain ⟨w, htable, normal, -, haccept⟩ := follows.lenient hfound hupdate
    have hlost : parse ((selectCmd .passwordUserid name.text).take 99) = .other := by
      rw [selectCmd_take _ name.short, selectCmd, parse_select]
      exact parseSelect_other hother
    refine absurd haccept (login_failed 0 [] normal ?_)
    rw [htable]
    simp only [Mysql.lenient, hlost, List.cons_ne_nil, if_false]

/-- **An accepted registration is followed by its login exactly when its statements are read as
meant.** -/
theorem loginFollows_iff (name : AreaText nameMaxLen) (passwd : AreaText passwordMaxLen)
    (fd : Int32) : LoginFollows name passwd fd ↔ ReadsAsMeant name.text passwd.text fd :=
  ⟨fun follows => follows.readsAsMeant, fun h => h.loginFollows⟩

end RoundTrip

/-- What is read as meant: texts without quote and without backslash, of 26 bytes together, with no
percent sign in the name. -/
theorem readsAsMeant_plain {name passwd : Bytes} (fd : Int32) (hname : LoginName name)
    (hquote : (39 : UInt8) ∉ passwd) (hback : (92 : UInt8) ∉ passwd) (hzero : (0 : UInt8) ∉ passwd)
    (hshort : name.length + passwd.length ≤ 26) : ReadsAsMeant name passwd fd := by
  have hdecode := decodeBody_eq_self hname.no_quote hname.no_backslash
  have hdecode' := decodeBody_eq_self hquote hback
  exact .inr (.inr ⟨name, passwd, parse_selectCmd _ hname.short hdecode,
    parse_insertCmd_uncut hdecode hdecode' (insertCmd_length_le fd hshort), cstr_eq_self hzero,
    hname.expands⟩)

/-- The account of `bob` with the password `secret` is one. -/
theorem loginFollows_iff_bob :
    LoginFollows ⟨ascii "bob", by decide, by decide, by decide⟩
      ⟨ascii "secret", by decide, by decide, by decide⟩ 5 := by
  have hname : LoginName (ascii "bob") := ⟨by decide, by decide, by decide, by decide⟩
  exact (loginFollows_iff _ _ 5).mpr
    (readsAsMeant_plain 5 hname (by decide) (by decide) (by decide) (by decide))

/-- The backslash of the password `a\b` is taken for an escape: the account that is registered with
it refuses it. -/
theorem password_unescaped : ¬ ∀ (name : AreaText nameMaxLen) (passwd : AreaText passwordMaxLen)
    (fd : Int32), LoginFollows name passwd fd := by
  intro claim
  have hname : decodeBody (ascii "bob") = some (ascii "bob") := by decide
  have hpasswd : decodeBody (ascii "a\\b") = some [97, 8] := by decide
  have hselect := parse_selectCmd .password (show (ascii "bob").length < nameMaxLen by decide) hname
  have hinsert := parse_insertCmd_uncut hname hpasswd (insertCmd_length_le 5 (by decide))
  have hmeant := (claim ⟨ascii "bob", by decide, by decide, by decide⟩
    ⟨ascii "a\\b", by decide, by decide, by decide⟩ 5).readsAsMeant
  rcases hmeant with h | h | ⟨username, password, -, h, hcstr, -⟩
  · rw [hselect] at h
    cases h
  · rw [hinsert] at h
    cases h
  · rw [hinsert] at h
    cases h
    exact absurd hcstr (by decide)

end Smer
