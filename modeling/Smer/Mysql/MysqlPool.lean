import Smer.Server.Effect

/-!
# Statements through the pool (`Mysql/src/mysql_pool.cpp`)

`execQuery` and `execInsert` format a statement and hand it to a connection of the pool. Both bound
the text by a hundred bytes, the final zero included. A failed query is a null result set.
-/

namespace Smer

open Lib

namespace MysqlPool

/-- The bound given to `vsnprintf`. -/
def cmdBound : Nat := 100

/-- `ExecQuery`: the result set, or null. -/
def execQuery (format : Bytes) (args : List FmtArg) : Task (Option ResultSet) :=
  match vsnprintf cmdBound format args with
  | none => Task.abort .undefinedFormat
  | some cmdBuf => .vis (.executeQuery cmdBuf) fun
    | .ok rows => pure (some rows)
    | .error .noConnection => pure none
    | .error .threw => pure none
    | .error .escapes => Task.abort .raised

/-- A query that has a text hands on its result set, or null where it failed inside of the pool. An
exception that leaves the pool ends the task. -/
theorem execQuery_bind {α : Type} {format cmdBuf : Bytes} {args : List FmtArg}
    {f : Option ResultSet → Task α} {k : Except SqlFault ResultSet → Task α}
    (htext : vsnprintf cmdBound format args = some cmdBuf)
    (selected : ∀ rows, f (some rows) = k (.ok rows))
    (unconnected : f none = k (.error .noConnection)) (threw : f none = k (.error .threw))
    (escapes : Task.abort .raised = k (.error .escapes)) :
    execQuery format args >>= f = .vis (.executeQuery cmdBuf) k := by
  rw [execQuery, htext]
  show Prog.vis _ _ >>= f = _
  rw [Prog.vis_bind]
  congr 1
  funext r
  cases r with
  | ok rows => exact selected rows
  | error fault =>
    cases fault with
    | noConnection => exact unconnected
    | threw => exact threw
    | escapes => exact (Task.abort_bind _ _).trans escapes

/-- `ExecInsert`. -/
def execInsert (format : Bytes) (args : List FmtArg) : Task Bool :=
  match vsnprintf cmdBound format args with
  | none => Task.abort .undefinedFormat
  | some cmdBuf => .vis (.executeUpdate cmdBuf) fun
    | .ok count => pure (decide (count > 0))
    | .error .noConnection => pure false
    | .error .threw => pure false
    | .error .escapes => Task.abort .raised

/-! ## The statement texts -/

/-- The format of a `select` by username. -/
def selectFormat (columns : Columns) : Bytes := selectText columns ++ ascii "%s';"

/-- The text of a `select` before it is cut. -/
def selectCmd (columns : Columns) (name : Bytes) : Bytes :=
  selectText columns ++ (name ++ ascii "';")

/-- The format of the `insert`. -/
def insertFormat : Bytes := insertText ++ ascii "%s', %d, '%s');"

/-- The text of the `insert` before it is cut. -/
def insertCmd (name : Bytes) (fd : Int32) (passwd : Bytes) : Bytes :=
  insertText ++ (name ++ (ascii "', " ++ toText fd.toInt ++ ascii ", '" ++ (passwd ++ ascii "');")))

theorem expand_select (columns : Columns) (name : Bytes) :
    expand (selectFormat columns) [.str name] = some (selectCmd columns name) := by
  have hplain : (37 : UInt8) ∉ selectText columns := by
    cases columns <;> decide +kernel
  have hrest : expand (ascii "%s';") [.str name] = some (name ++ ascii "';") := rfl
  rw [selectFormat, expand_append hplain, hrest]
  rfl

theorem expand_insert (name : Bytes) (fd : Int32) (passwd : Bytes) :
    expand insertFormat [.str name, .int fd, .str passwd] = some (insertCmd name fd passwd) := by
  have hplain : (37 : UInt8) ∉ insertText := by decide +kernel
  have hrest : expand (ascii "%s', %d, '%s');") [.str name, .int fd, .str passwd] =
      some (name ++ (39 :: 44 :: 32 :: (toText fd.toInt ++ (44 :: 32 :: 39 ::
        (passwd ++ ascii "');"))))) := rfl
  rw [insertFormat, expand_append hplain, hrest, Option.map_some, insertCmd,
    List.append_assoc (ascii "', " ++ _), List.append_assoc (ascii "', ")]
  rfl

theorem vsnprintf_select (columns : Columns) (name : Bytes) :
    vsnprintf cmdBound (selectFormat columns) [.str name] =
      some ((selectCmd columns name).take 99) := by
  rw [vsnprintf, expand_select]
  rfl

theorem vsnprintf_insert (name : Bytes) (fd : Int32) (passwd : Bytes) :
    vsnprintf cmdBound insertFormat [.str name, .int fd, .str passwd] =
      some ((insertCmd name fd passwd).take 99) := by
  rw [vsnprintf, expand_insert]
  rfl

theorem vsnprintf_maxUserid : vsnprintf cmdBound maxUseridText [] = some maxUseridText := by
  decide +kernel

theorem selectText_length (columns : Columns) : (selectText columns).length ≤ 56 := by
  cases columns <;> decide

/-- The text of a `select` with a short name is not cut. -/
theorem selectCmd_take (columns : Columns) {name : Bytes} (hname : name.length < nameMaxLen) :
    (selectCmd columns name).take 99 = selectCmd columns name := by
  have hlen := selectText_length columns
  have hend : (ascii "';").length = 2 := by decide
  have hmax : nameMaxLen = 24 := rfl
  rw [List.take_of_length_le]
  rw [selectCmd, List.length_append, List.length_append, hend]
  omega

theorem insertText_length : insertText.length = 54 := by decide

/-- The text of the `insert` behind the name. -/
def insertTail (fd : Int32) (passwd : Bytes) : Bytes :=
  ascii ", " ++ toText fd.toInt ++ ascii ", '" ++ (passwd ++ ascii "');")

theorem insertCmd_eq (name : Bytes) (fd : Int32) (passwd : Bytes) :
    insertCmd name fd passwd = insertText ++ (name ++ 39 :: insertTail fd passwd) := by
  simp only [insertCmd, insertTail, List.append_assoc]
  rfl

/-- An `insert` that the cut leaves whole, or whole but for its semicolon. -/
theorem insertCmd_uncut {name passwd : Bytes} {fd : Int32}
    (hlen : (insertCmd name fd passwd).length ≤ 100) :
    ∃ rest, (rest = ascii ")" ∨ rest = ascii ");") ∧ (insertCmd name fd passwd).take 99 =
      insertText ++ (name ++ 39 ::
        (ascii ", " ++ toText fd.toInt ++ ascii ", '" ++ (passwd ++ 39 :: rest))) := by
  have hfront : insertCmd name fd passwd = (insertText ++ (name ++ 39 ::
      (ascii ", " ++ toText fd.toInt ++ ascii ", '" ++ (passwd ++ 39 :: ascii ")")))) ++ [59] := by
    rw [insertCmd_eq, insertTail]
    simp only [List.append_assoc, List.cons_append]
    rfl
  by_cases hshort : (insertCmd name fd passwd).length ≤ 99
  · refine ⟨ascii ");", .inr rfl, ?_⟩
    rw [List.take_of_length_le hshort, insertCmd_eq]
    rfl
  · refine ⟨ascii ")", .inl rfl, ?_⟩
    have hcount := congrArg List.length hfront
    rw [List.length_append, List.length_singleton] at hcount
    rw [hfront]
    exact List.take_left' (by omega)

theorem insertCmd_length (name : Bytes) (fd : Int32) (passwd : Bytes) :
    (insertCmd name fd passwd).length =
      name.length + (toText fd.toInt).length + passwd.length + 63 := by
  rw [insertCmd_eq, List.length_append, insertText_length]
  simp only [insertTail, List.length_append, List.length_cons]
  show 54 + (name.length + (2 + (toText fd.toInt).length + 3 + (passwd.length + 3) + 1)) = _
  omega

/-- A name and a password of 26 bytes leave room for all else. -/
theorem insertCmd_length_le {name passwd : Bytes} (fd : Int32)
    (hshort : name.length + passwd.length ≤ 26) : (insertCmd name fd passwd).length ≤ 100 := by
  have hfd : (toText fd.toInt).length ≤ 11 := toText_length fd
  rw [insertCmd_length]
  omega

/-- A `select` for a short name that decodes. -/
theorem parse_selectCmd (columns : Columns) {name username : Bytes}
    (hname : name.length < nameMaxLen) (hdecode : decodeBody name = some username) :
    parse ((selectCmd columns name).take 99) = .select columns username := by
  rw [selectCmd_take columns hname, selectCmd, parse_select, parseSelect_decodes hdecode]

/-- An `insert` of a name and a password that decode, if it is not cut. -/
theorem parse_insertCmd_uncut {name username passwd password : Bytes} {fd : Int32}
    (hname : decodeBody name = some username) (hpasswd : decodeBody passwd = some password)
    (hlen : (insertCmd name fd passwd).length ≤ 100) :
    parse ((insertCmd name fd passwd).take 99) = .insert username fd password := by
  obtain ⟨rest, hrest, hcut⟩ := insertCmd_uncut hlen
  rw [hcut]
  exact parse_insert_decodes hname hpasswd fd hrest

/-- Where the cut of the `insert` leaves the whole name, it leaves the quote behind it. -/
theorem take_insertCmd {name : Bytes} (hname : name.length < 45) (fd : Int32) (passwd : Bytes) :
    (insertCmd name fd passwd).take 99 =
      insertText ++ (name ++ 39 :: (insertTail fd passwd).take (44 - name.length)) := by
  obtain ⟨k, hk⟩ : ∃ k, 45 - name.length = k + 1 := ⟨44 - name.length, by omega⟩
  have hrest : 44 - name.length = k := by omega
  rw [insertCmd_eq, List.take_append, insertText_length, List.take_of_length_le (by
    rw [insertText_length]; omega), List.take_append, List.take_of_length_le (by omega), hk,
    List.take_succ_cons, hrest]

/-- What the name's literal is followed by, however it is cut, is no quote. -/
theorem head_insertTail (fd : Int32) (passwd : Bytes) (n : Nat) :
    ((insertTail fd passwd).take n).head? ≠ some 39 := by
  intro hhead
  cases n with
  | zero => cases hhead
  | succ n =>
    have hcomma : (44 : UInt8) = 39 := Option.some.inj hhead
    exact absurd hcomma (by decide)

/-- The cut leaves an `insert` whose name is short and decodes whole up to its second quote. -/
theorem parse_insertCmd {name username : Bytes} (hname : name.length < nameMaxLen)
    (hdecode : decodeBody name = some username) (fd : Int32) (passwd : Bytes) :
    ∃ text, parse ((insertCmd name fd passwd).take 99) = parsePassword username fd text := by
  have hmax : nameMaxLen = 24 := rfl
  have hfd : (toText fd.toInt).length ≤ 11 := toText_length fd
  have hfront : (ascii ", " ++ toText fd.toInt ++ ascii ", '").length ≤ 44 - name.length := by
    simp only [List.length_append]
    have hcomma : (ascii ", ").length = 2 := by decide
    have hquote : (ascii ", '").length = 3 := by decide
    omega
  rw [take_insertCmd (by omega), parse_insert, parseInsert,
    scanLit_append_quote hdecode (head_insertTail fd passwd _)]
  simp only
  rw [insertTail, List.take_append, List.take_of_length_le hfront, parseFd_toText]
  exact ⟨_, rfl⟩

/-- **One name, one username**: the `insert`s made from one name are for one username, whatever
their descriptors and passwords, if the `select` made from that name is not one that breaks off. -/
theorem insert_username {name username₁ username₂ : Bytes} {fd₁ fd₂ g₁ g₂ : Int32}
    {passwd₁ passwd₂ q₁ q₂ : Bytes}
    (select : parse ((selectCmd .password name).take 99) ≠ .incomplete)
    (h₁ : parse ((insertCmd name fd₁ passwd₁).take 99) = .insert username₁ g₁ q₁)
    (h₂ : parse ((insertCmd name fd₂ passwd₂).take 99) = .insert username₂ g₂ q₂) :
    username₁ = username₂ := by
  by_cases hname : name.length < 45
  · rw [take_insertCmd hname, parse_insert] at h₁ h₂
    obtain ⟨rest₁, hscan₁⟩ := scanLit_of_parseInsert h₁
    obtain ⟨rest₂, hscan₂⟩ := scanLit_of_parseInsert h₂
    by_cases hquoted : StaysQuoted name
    · rcases hquoted.decodes_or_open with ⟨v, hv⟩ | ⟨-, hopen⟩
      · rw [scanLit_append_quote hv (head_insertTail _ _ _)] at hscan₁ hscan₂
        cases hscan₁
        cases hscan₂
        rfl
      · exfalso
        apply select
        have hcut : (selectCmd .password name).take 99 = selectCmd .password name := by
          have hlen : (selectText .password).length = 48 := by decide
          apply List.take_of_length_le
          rw [selectCmd, List.length_append, hlen, List.length_append]
          show 48 + (name.length + 2) ≤ 99
          omega
        have hscan : scanLit (name ++ ascii "';") = none := hopen [59] (by decide)
        rw [hcut, selectCmd, parse_select, parseSelect, hscan]
    · rw [StaysQuoted] at hquoted
      simp only [not_forall] at hquoted
      obtain ⟨v, rest, hscan, hrest⟩ := hquoted
      rw [scanLit_append hscan hrest] at hscan₁ hscan₂
      cases hscan₁
      cases hscan₂
      rfl
  · have hcut : ∀ fd passwd, (insertCmd name fd passwd).take 99 = insertText ++ name.take 45 := by
      intro fd passwd
      rw [insertCmd_eq, List.take_append, insertText_length, List.take_of_length_le (by
        rw [insertText_length]; omega), List.take_append_of_le_length (by omega)]
    rw [hcut, parse_insert] at h₁ h₂
    obtain ⟨rest₁, hscan₁⟩ := scanLit_of_parseInsert h₁
    obtain ⟨rest₂, hscan₂⟩ := scanLit_of_parseInsert h₂
    rw [hscan₁] at hscan₂
    cases hscan₂
    rfl

/-! ## What a statement reaches -/

/-- A query changes what is left of the database's faults and nothing else. -/
theorem run_execQuery_world {E : Mysql} (format : Bytes) (args : List FmtArg) (w : World) :
    ∃ faults,
      ((execQuery format args).run (World.answer E) w).2 = { w with sqlFaults := faults } := by
  unfold execQuery
  split
  · exact ⟨w.sqlFaults, rfl⟩
  · rename_i cmd hcmd
    obtain ⟨out, w', hanswer⟩ := answer_query_some E w cmd
    rw [Prog.run_vis_some hanswer]
    obtain ⟨faults, rfl⟩ := answer_query_world hanswer
    refine ⟨faults, ?_⟩
    rcases out with (_ | _ | _) | rows
    · rfl
    · rfl
    · rfl
    · rfl

/-! ## What a fault-free statement answers -/

section Normal

variable {E : Mysql} {w : World}

/-- A query whose text the engine accepts. -/
theorem run_execQuery_ok {format cmd : Bytes} {args : List FmtArg} {rows : ResultSet}
    (normal : w.sqlFaults = []) (hcmd : vsnprintf cmdBound format args = some cmd)
    (hrows : E.query cmd w.userinfo = some rows) :
    (execQuery format args).run (World.answer E) w = (.ok (some rows), w) := by
  have hanswer := answer_executeQuery (E := E) normal cmd
  rw [hrows] at hanswer
  rw [execQuery, hcmd]
  exact Prog.run_vis_some hanswer

/-- **A `select` for a short name that decodes answers the rows of that username.** -/
theorem run_select (columns : Columns) {name username : Bytes} (normal : w.sqlFaults = [])
    (hname : name.length < nameMaxLen) (hdecode : decodeBody name = some username) :
    (execQuery (selectFormat columns) [.str name]).run (World.answer E) w =
      (.ok (some ((w.userinfo.filter fun row => row.username = username).map columns.project)),
        w) := by
  exact run_execQuery_ok normal (vsnprintf_select columns name)
    (E.query_select (parse_selectCmd columns hname hdecode) _)

end Normal

end MysqlPool

end Smer
