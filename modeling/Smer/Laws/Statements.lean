import Smer.HandleMsg.Performs

/-!
# The texts of the statements

A name comes from a message and goes between the quotes of a statement as it is. MySQL reads back
the same name, and so selects its rows, exactly when the name has no quote and no backslash that
takes a byte with it (`selectsName_iff`).

`ExecQuery` and `ExecInsert` bound the text by a hundred bytes, where their buffer has two hundred.
The `select`s and the query for the new id fit. The `insert` of a registration fits when the name,
the password and the descriptor's numeral have 36 bytes together at most (`wholeStatements_iff`).

What an engine makes of a text that was cut is not established.
-/

namespace Smer

open Lib HandleMsg MysqlPool ComManger KGRedisClient

section Statements

variable {obj : TransObj} {fd : Int32} {past cmd : Bytes} {task : Task Unit}

/-! ## Names in statements -/

/-- The query that a task begins with. -/
def firstQuery : Task Unit → Option Bytes
  | .vis (.executeQuery cmd) _ => some cmd
  | _ => none

/-- The text of the query that a message's task begins with. -/
def queryText (obj : TransObj) (fd : Int32) (past : Bytes) : Option Bytes :=
  (handle obj fd past).bind firstQuery

/-- The columns that the query of a message selects. -/
def queriedColumns (msgType : UInt32) : Columns :=
  if msgType = msgLogin then .passwordUserid
  else if msgType = msgReg then .password
  else .userid

/-- The text is the `select` for a name: it is read as that, and selects the name's rows from every
table. -/
def SelectsName (cmd : Bytes) (columns : Columns) (name : Bytes) : Prop :=
  parse cmd = .select columns name ∧ ∀ (E : Mysql) (userinfo : UserInfo),
    E.query cmd userinfo =
      some ((userinfo.filter fun row => row.username = name).map columns.project)

theorem firstQuery_select (columns : Columns) (name : Bytes)
    (rest : Option ResultSet → Task Unit) :
    firstQuery (execQuery (selectFormat columns) [.str name] >>= rest) =
      some ((selectCmd columns name).take 99) := by
  rw [execQuery, vsnprintf_select]
  rfl

/-- The first query of the three messages that have a name. -/
theorem queryText_eq (htype : obj.msgType ∈ [msgLogin, msgReg, msgAskForFriend])
    (asked : queryText obj fd past = some cmd) :
    cmd = (selectCmd (queriedColumns obj.msgType) (obj.getName past)).take 99 := by
  obtain ⟨task, handled, hfirst⟩ := Option.bind_eq_some_iff.mp asked
  rcases handle_cases handled with ⟨htalk, -⟩ | ⟨hreg, rfl⟩ | ⟨hlogin, rfl⟩ | ⟨hask, rfl⟩ |
    ⟨haccept, -⟩
  · rw [htalk] at htype
    exact absurd htype (by decide)
  · rw [userRegTask, selectPassword_eq, firstQuery_select] at hfirst
    cases hfirst
    rw [hreg]
    rfl
  · rw [userLogTask] at hfirst
    split at hfirst
    · cases hfirst
    · rw [selectPasswordUserid_eq, firstQuery_select] at hfirst
      cases hfirst
      rw [hlogin]
      rfl
  · rw [askForFriendTask, selectUserid_eq, firstQuery_select] at hfirst
    cases hfirst
    rw [hask]
    rfl
  · rw [haccept] at htype
    exact absurd htype (by decide)

/-- The `select` for a short name is read as that exactly when the name decodes to itself. -/
theorem selectsName_selectCmd_iff (columns : Columns) {name : Bytes}
    (hname : name.length < nameMaxLen) :
    SelectsName ((selectCmd columns name).take 99) columns name ↔ SelfQuoted name := by
  rw [← decodeBody_eq_self_iff]
  constructor
  · rintro ⟨hparse, -⟩
    rw [selectCmd_take columns hname, selectCmd, parse_select] at hparse
    exact decodes_of_parseSelect hparse
  · intro hdecode
    have hparse := parse_selectCmd columns hname hdecode
    exact ⟨hparse, fun E userinfo => E.query_select hparse userinfo⟩

/-- **The query for a name selects the name's rows exactly when the name has no quote and every
backslash in it stands before a percent sign or an underscore.** -/
theorem selectsName_iff (htype : obj.msgType ∈ [msgLogin, msgReg, msgAskForFriend])
    (hname : (obj.getName past).length < nameMaxLen) (asked : queryText obj fd past = some cmd) :
    SelectsName cmd (queriedColumns obj.msgType) (obj.getName past) ↔
      SelfQuoted (obj.getName past) := by
  rw [queryText_eq htype asked]
  exact selectsName_selectCmd_iff _ hname

/-- The request for the friend of a name. -/
def friendObj (name : Bytes) : TransObj :=
  ((TransObj.make (.fill _ 0) 1 0 msgAskForFriend 0 5).setMsg name).1

theorem selectsName_iff_bob :
    SelectsName (ascii "select userid from userinfo where username = 'bob';") .userid
      ((friendObj (ascii "bob")).getName []) ↔
      SelfQuoted ((friendObj (ascii "bob")).getName []) := by
  have asked : queryText (friendObj (ascii "bob")) 5 [] =
      some (ascii "select userid from userinfo where username = 'bob';") := by decide +kernel
  exact selectsName_iff (by decide) (by decide +kernel) asked

/-- A name with a quote asks for all rows. -/
theorem name_escapes_quotes : ¬ ∀ (obj : TransObj) (fd : Int32) (past cmd : Bytes),
    obj.msgType ∈ [msgLogin, msgReg, msgAskForFriend] →
    (obj.getName past).length < nameMaxLen → queryText obj fd past = some cmd →
      SelectsName cmd (queriedColumns obj.msgType) (obj.getName past) := by
  intro claim
  obtain ⟨hparse, -⟩ := claim (friendObj (ascii "x' or '1'='1")) 5 []
    (ascii "select userid from userinfo where username = 'x' or '1'='1';") (by decide)
    (by decide +kernel) (by decide +kernel)
  revert hparse
  decide +kernel

/-! ## Whole statements -/

/-- The statements of a registration: their formats and the arguments. -/
def regStatements (obj : TransObj) (fd : Int32) (past : Bytes) : List (Bytes × List FmtArg) :=
  [(selectPassword, [.str (obj.getName past)]),
    (insertUser, [.str (obj.getName past), .int fd, .str (obj.getPasswd past)]),
    (selectMaxUserid, [])]

/-- The statements that handling a message issues. -/
def statements (obj : TransObj) (fd : Int32) (past : Bytes) : List (Bytes × List FmtArg) :=
  if obj.msgType = msgReg then regStatements obj fd past
  else if obj.msgType = msgLogin then [(selectPasswordUserid, [.str (obj.getName past)])]
  else if obj.msgType = msgAskForFriend then [(selectUserid, [.str (obj.getMsg past)])]
  else []

/-- A text is the complete expansion of one of these statements. -/
def Complete (issued : List (Bytes × List FmtArg)) (cmd : Bytes) : Prop :=
  ∃ statement ∈ issued, expand statement.1 statement.2 = some cmd

/-- An operation whose statement text, if it has one, is complete. -/
def Whole (issued : List (Bytes × List FmtArg)) : Effect → Prop
  | .executeQuery cmd | .executeUpdate cmd => Complete issued cmd
  | .redisCommand _ | .push _ | .abort _ => True

variable {issued : List (Bytes × List FmtArg)}

/-- A registration whose statements are complete sends complete statements only, on every path. -/
theorem userRegTask_whole {obj : TransObj} {past : Bytes}
    (complete : ∀ statement ∈ regStatements obj fd past, ∀ cmd,
      vsnprintf cmdBound statement.1 statement.2 = some cmd → Complete issued cmd) :
    (userRegTask obj fd past).Only (Whole issued) := by
  have aborts : ∀ why, Whole issued (.abort why) := fun _ => trivial
  simp only [regStatements, List.forall_mem_cons] at complete
  obtain ⟨hselect, hinsert, hmax, -⟩ := complete
  exact userRegTask_only aborts (execQuery_only aborts hselect) (execInsert_only aborts hinsert)
    (execQuery_only aborts hmax) fun _ _ => trivial

/-! ## Which statements are whole -/

/-- A statement whose text fits the bound is sent whole. -/
theorem complete_of_fits {format text : Bytes} {args : List FmtArg}
    (hmem : (format, args) ∈ issued) (hexpand : expand format args = some text)
    (hfits : text.length ≤ 99) :
    ∀ cmd, vsnprintf cmdBound format args = some cmd → Complete issued cmd := by
  intro cmd hcmd
  have htake : text.take (cmdBound - 1) = text := List.take_of_length_le hfits
  rw [vsnprintf, hexpand, Option.map_some, htake] at hcmd
  cases hcmd
  exact ⟨_, hmem, hexpand⟩

theorem selectCmd_length_le (columns : Columns) {name : Bytes} (hname : name.length < nameMaxLen) :
    (selectCmd columns name).length ≤ 99 := by
  have htake := congrArg List.length (selectCmd_take columns hname)
  rw [List.length_take] at htake
  omega

/-- The `select` for a short name is whole. -/
theorem complete_select {columns : Columns} {name : Bytes} (hname : name.length < nameMaxLen)
    (hmem : (selectFormat columns, [.str name]) ∈ issued) :
    ∀ cmd, vsnprintf cmdBound (selectFormat columns) [.str name] = some cmd →
      Complete issued cmd :=
  complete_of_fits hmem (expand_select columns name) (selectCmd_length_le columns hname)

/-- The `insert` of a registration is whole exactly when it fits. -/
theorem complete_insert_iff (obj : TransObj) (fd : Int32) (past : Bytes) :
    Complete (regStatements obj fd past)
        ((insertCmd (obj.getName past) fd (obj.getPasswd past)).take 99) ↔
      (obj.getName past).length + (toText fd.toInt).length + (obj.getPasswd past).length ≤ 36 := by
  have hlen := insertCmd_length (obj.getName past) fd (obj.getPasswd past)
  constructor
  · rintro ⟨statement, hmem, hexpand⟩
    simp only [regStatements, List.mem_cons, List.not_mem_nil, or_false] at hmem
    rcases hmem with rfl | rfl | rfl
    · rw [selectPassword_eq, expand_select] at hexpand
      cases congrArg List.head? (Option.some.inj hexpand)
    · rw [insertUser_eq, expand_insert] at hexpand
      have hcut := congrArg List.length (Option.some.inj hexpand)
      rw [List.length_take] at hcut
      omega
    · rw [selectMaxUserid_eq, expand_eq_self (by decide)] at hexpand
      cases congrArg List.head? (Option.some.inj hexpand)
  · intro hfits
    refine ⟨_, List.mem_cons_of_mem _ List.mem_cons_self, ?_⟩
    rw [insertUser_eq, expand_insert, List.take_of_length_le (by omega)]

/-- A registration whose name is short. -/
theorem userRegTask_whole_iff (obj : TransObj) (fd : Int32) (past : Bytes)
    (hname : (obj.getName past).length < nameMaxLen) :
    (userRegTask obj fd past).Only (Whole (regStatements obj fd past)) ↔
      (obj.getName past).length + (toText fd.toInt).length + (obj.getPasswd past).length ≤ 36 := by
  rw [← complete_insert_iff]
  constructor
  · intro only
    rw [userRegTask, selectPassword_eq, execQuery, vsnprintf_select] at only
    have hinsert : (regInsertTask (obj.setFd fd) fd past).Only (Whole (regStatements obj fd past)) :=
      (Prog.Only.vis_inv only).2 (.ok [])
    rw [regInsertTask, insertUser_eq, execInsert, vsnprintf_insert] at hinsert
    exact (Prog.Only.vis_inv hinsert).1
  · intro complete
    apply userRegTask_whole
    rw [regStatements, List.forall_mem_cons, List.forall_mem_cons, List.forall_mem_singleton]
    refine ⟨?_, ?_, ?_⟩
    · rw [selectPassword_eq]
      refine complete_select hname ?_
      rw [← selectPassword_eq]
      exact List.mem_cons_self
    · intro cmd hcmd
      rw [insertUser_eq, vsnprintf_insert] at hcmd
      cases hcmd
      exact complete
    · refine complete_of_fits ?_ (expand_eq_self (by decide)) (by decide)
      exact List.mem_cons_of_mem _ (List.mem_cons_of_mem _ List.mem_cons_self)

/-- **Every statement of a message is whole exactly when a registration's name, password and
descriptor have 36 bytes at most.** -/
theorem wholeStatements_iff (handled : handle obj fd past = some task)
    (hname : (obj.getName past).length < nameMaxLen) :
    task.Only (Whole (statements obj fd past)) ↔
      (obj.msgType = msgReg → (obj.getName past).length + (toText fd.toInt).length +
        (obj.getPasswd past).length ≤ 36) := by
  have aborts : ∀ why, Whole (statements obj fd past) (.abort why) := fun _ => trivial
  have online : ∀ id, (isTalkerOnline id).Only (Whole (statements obj fd past)) := fun _ =>
    isTalkerOnline_only aborts trivial
  have talkerFd : ∀ id, (getTalkerFd id).Only (Whole (statements obj fd past)) := fun _ =>
    getTalkerFd_only aborts trivial
  have talkerName : ∀ id, (getTalkerName id).Only (Whole (statements obj fd past)) := fun _ =>
    getTalkerName_only aborts trivial
  rcases handle_cases handled with ⟨htype, rfl⟩ | ⟨htype, rfl⟩ | ⟨htype, rfl⟩ | ⟨htype, rfl⟩ |
    ⟨htype, rfl⟩
  · refine iff_of_true (userSendTask_only online trivial) fun hreg => ?_
    cases htype.symm.trans hreg
  · rw [statements, if_pos htype]
    have hwhole := userRegTask_whole_iff obj fd past hname
    exact ⟨fun only _ => hwhole.mp only, fun hfits => hwhole.mpr (hfits htype)⟩
  · refine iff_of_true (userLogTask_only aborts (execQuery_only aborts ?_)
      (fun _ _ => addSessionTalker_only aborts fun _ => trivial) fun _ => trivial) fun hreg => ?_
    · rw [selectPasswordUserid_eq]
      refine complete_select hname ?_
      rw [statements, htype, ← selectPasswordUserid_eq]
      exact List.mem_cons_self
    · cases htype.symm.trans hreg
  · refine iff_of_true (askForFriendTask_only aborts (execQuery_only aborts ?_) online talkerFd
      (fun _ _ => trivial) trivial) fun hreg => ?_
    · rw [selectUserid_eq]
      refine complete_select hname ?_
      rw [statements, htype, ← selectUserid_eq]
      exact List.mem_cons_self
    · cases htype.symm.trans hreg
  · refine iff_of_true (askForFriendAcceptTask_only online talkerFd talkerName fun _ => trivial)
      fun hreg => ?_
    cases htype.symm.trans hreg

/-- A registration with the longest name and the longest password. -/
def longReg : TransObj :=
  { TransObj.zero with
    msgType := msgReg
    msg := ((CharArray.fill _ 97).write 23 [0]).write 63 [0] }

theorem wholeStatements_iff_long :
    (userRegTask longReg 1 []).Only (Whole (statements longReg 1 [])) ↔
      (longReg.msgType = msgReg → (longReg.getName []).length + (toText (1 : Int32).toInt).length +
        (longReg.getPasswd []).length ≤ 36) :=
  wholeStatements_iff rfl (by decide +kernel)

/-- The `insert` of the longest name and the longest password is cut. -/
theorem insert_cut : ¬ ∀ (obj : TransObj) (fd : Int32) (past : Bytes) (task : Task Unit),
    handle obj fd past = some task → (obj.getName past).length < nameMaxLen →
    (obj.getPasswd past).length < passwordMaxLen →
      task.Only (Whole (statements obj fd past)) := by
  intro claim
  have only := claim longReg 1 [] _ rfl (by decide +kernel) (by decide +kernel)
  have hfits := (userRegTask_whole_iff longReg 1 [] (by decide +kernel)).mp only
  revert hfits
  decide +kernel

end Statements

end Smer
