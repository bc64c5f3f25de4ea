import Smer.Communication.Sessions
import Smer.HandleMsg.HandleMsgServer

/-!
# Login

`handleUserLogMsg` looks the name up, compares the password of the row it finds, and answers. Its
exits refuse, each with its reason, except one: when the name has no row at all, the body of the
test is skipped and the answer behind it is the acceptance. So the task does what a login must do
exactly when the name has a row (`loginSafe_iff`).

The task runs alone. What other tasks do between its database call and its session is not covered
here.
-/

namespace Smer

open Lib HandleMsg ComManger MysqlPool

/-! ## The runs -/

section Runs

variable {E : Mysql} {w : World} {obj : TransObj} {fd : Int32} {past : Bytes}

/-- A name that the login may carry: it is shorter than its area, and its text means itself in a
statement. -/
structure LoginName (name : Bytes) : Prop where
  short : name.length < nameMaxLen
  no_quote : (39 : UInt8) ∉ name
  no_backslash : (92 : UInt8) ∉ name
  no_percent : (37 : UInt8) ∉ name

/-- A name without a row is accepted: the test of the result set is skipped, and the acceptance
behind it is pushed, without a session and without the connection's descriptor. -/
theorem run_login_unknown (normal : w.sqlFaults = []) (hlen : obj.len = 0)
    (hname : LoginName (obj.getName past))
    (unknown : ¬ ∃ row ∈ w.userinfo, row.username = obj.getName past) :
    (userLogTask obj fd past).run (World.answer E) w =
      (.ok (), { w with outbound := w.outbound ++ [obj.setMsgType msgLoginAccept] }) := by
  have hselect := run_select (E := E) .passwordUserid normal hname.short
    (decodeBody_eq_self hname.no_quote hname.no_backslash)
  rw [filter_username_nil unknown] at hselect
  rw [userLogTask, if_neg (by rw [hlen]; decide), selectPasswordUserid_eq]
  exact Prog.run_bind_ok hselect

variable (fd) in
/-- A name with a row goes on with that row, the only one of its name. -/
theorem run_login_known (normal : w.sqlFaults = [])
    (distinct : (w.userinfo.map UserRow.username).Nodup) (hlen : obj.len = 0)
    (hname : LoginName (obj.getName past)) {row : UserRow} (hrow : row ∈ w.userinfo)
    (husername : row.username = obj.getName past) :
    (userLogTask obj fd past).run (World.answer E) w =
      (loginWithRow obj fd past (Columns.passwordUserid.project row)).run (World.answer E) w := by
  have hselect := run_select (E := E) .passwordUserid normal hname.short
    (decodeBody_eq_self hname.no_quote hname.no_backslash)
  rw [← husername, filter_username distinct hrow, husername] at hselect
  rw [userLogTask, if_neg (by rw [hlen]; decide), selectPasswordUserid_eq]
  exact Prog.run_bind_ok hselect

/-- A wrong password is refused. -/
theorem run_login_wrong {row : UserRow} (wrong : cstr row.password ≠ obj.getPasswd past) :
    (loginWithRow obj fd past (Columns.passwordUserid.project row)).run (World.answer E) w =
      (.ok (), { w with outbound := w.outbound ++
        [((obj.setMsgType msgLoginRefuse).setMsg (ascii "Login err! password not equal!\n")).1] })
    := by
  have hpasswd : (Columns.passwordUserid.project row).getString .password = some row.password :=
    rfl
  rw [loginWithRow, hpasswd]
  simp only [ne_eq, Ne.symm wrong, not_false_eq_true, if_true]
  rfl

theorem LoginName.expands {name : Bytes} (hname : LoginName name) : Expands name :=
  ⟨name, name, expand_eq_self hname.no_percent, expand_eq_self hname.no_percent⟩

variable (fd) in
/-- The right password enters the session and is accepted. -/
theorem run_login_right {row : UserRow} (short : (obj.getName past).length < nameMaxLen)
    (expands : Expands (obj.getName past)) (right : cstr row.password = obj.getPasswd past) :
    ∃ w', (loginWithRow obj fd past (Columns.passwordUserid.project row)).run (World.answer E) w =
        (.ok (), w') ∧
      w'.outbound = w.outbound ++ [((obj.setId row.userid).setFd fd).setMsgType msgLoginAccept] ∧
      w'.redis = ((addSessionTalker row.userid (obj.getName past) fd).run (World.answer E) w).2.redis
    := by
  have hpasswd : (Columns.passwordUserid.project row).getString .password = some row.password :=
    rfl
  have huserid : (Columns.passwordUserid.project row).getInt .userid = some row.userid := rfl
  obtain ⟨text, sent, htext, hsent⟩ := expands
  have hlen : (obj.getName past).length ≤ 60 := by
    have hmax : nameMaxLen = 24 := rfl
    omega
  have hzero : (0 : UInt8) ∉ obj.getName past := zero_notMem_cstr _
  obtain ⟨result, w₁, hrun, hout, -⟩ := addSessionTalker_returns (E := E) (w := w) row.userid fd
    hzero hlen htext hsent
  refine ⟨{ w₁ with outbound := w₁.outbound ++
    [((obj.setId row.userid).setFd fd).setMsgType msgLoginAccept] }, ?_, ?_, ?_⟩
  · rw [loginWithRow, hpasswd]
    simp only [ne_eq, right, not_true_eq_false, if_false, huserid]
    exact Prog.run_bind_ok hrun
  · rw [hout]
  · rw [hrun]

end Runs

/-! ## What a login must do -/

/-- The row that the login's name and password belong to. -/
def Matches (obj : TransObj) (past : Bytes) (row : UserRow) : Prop :=
  row.username = obj.getName past ∧ cstr row.password = obj.getPasswd past

/-- Login safety: the task pushes one reply; it is an acceptance iff some row matches; it then
carries that row's id, and the row's user has entered the session store; otherwise it is a refusal
and the session store is as it was. -/
def LoginSafe (E : Mysql) (w : World) (obj : TransObj) (fd : Int32) (past : Bytes) : Prop :=
  ∃ reply w', (userLogTask obj fd past).run (World.answer E) w = (.ok (), w') ∧
    w'.outbound = w.outbound ++ [reply] ∧
    (reply.msgType = msgLoginAccept ↔ ∃ row ∈ w.userinfo, Matches obj past row) ∧
    (∀ row ∈ w.userinfo, Matches obj past row → reply.id = row.userid ∧ w'.redis =
      ((addSessionTalker row.userid (obj.getName past) fd).run (World.answer E) w).2.redis) ∧
    ((¬ ∃ row ∈ w.userinfo, Matches obj past row) →
      reply.msgType = msgLoginRefuse ∧ w'.redis = w.redis)

/-- A login whose name has no row is accepted, which is not safe. -/
theorem not_loginSafe_unknown {E : Mysql} {w : World} (normal : w.sqlFaults = []) {obj : TransObj}
    {fd : Int32} {past : Bytes} (hlen : obj.len = 0) (hname : LoginName (obj.getName past))
    (unknown : ¬ ∃ row ∈ w.userinfo, row.username = obj.getName past) :
    ¬ LoginSafe E w obj fd past := by
  rintro ⟨reply, w', hrun, hout, haccept, -, -⟩
  rw [run_login_unknown normal hlen hname unknown] at hrun
  cases hrun
  have hreply := List.append_cancel_left hout
  cases hreply
  obtain ⟨row, hrow, hmatch⟩ := haccept.mp rfl
  exact unknown ⟨row, hrow, hmatch.1⟩

/-- **A login is safe exactly when its name has a row.** -/
theorem loginSafe_iff (E : Mysql) {w : World} (normal : w.sqlFaults = [])
    (distinct : (w.userinfo.map UserRow.username).Nodup) (buff past : Bytes) (fd : Int32)
    (hname : LoginName ((TransObj.decode buff).getName past)) :
    LoginSafe E w (TransObj.decode buff) fd past ↔
      ∃ row ∈ w.userinfo, row.username = (TransObj.decode buff).getName past := by
  have hlen : (TransObj.decode buff).len = 0 := TransObj.decode_len buff
  constructor
  · intro safe
    by_contra unknown
    exact not_loginSafe_unknown normal hlen hname unknown safe
  · rintro ⟨row, hrow, husername⟩
    have hrun := run_login_known (E := E) fd normal distinct hlen hname hrow husername
    have hunique : ∀ r ∈ w.userinfo, Matches (TransObj.decode buff) past r → r = row := by
      intro r hr hmatch
      have hmem : r ∈ w.userinfo.filter (fun s => s.username = row.username) :=
        List.mem_filter.mpr ⟨hr, decide_eq_true (hmatch.1.trans husername.symm)⟩
      rw [filter_username distinct hrow] at hmem
      exact List.mem_singleton.mp hmem
    by_cases right : cstr row.password = (TransObj.decode buff).getPasswd past
    · obtain ⟨w', hright, hout, hredis⟩ := run_login_right (E := E) (w := w) fd hname.short
        hname.expands right
      refine ⟨_, w', hrun.trans hright, hout, ⟨fun _ => ⟨row, hrow, husername, right⟩, fun _ => rfl⟩,
        ?_, ?_⟩
      · intro r hr hmatch
        rw [hunique r hr hmatch]
        exact ⟨rfl, hredis⟩
      · intro none
        exact absurd ⟨row, hrow, husername, right⟩ none
    · have none : ¬ ∃ r ∈ w.userinfo, Matches (TransObj.decode buff) past r := by
        rintro ⟨r, hr, hmatch⟩
        rw [hunique r hr hmatch] at hmatch
        exact right hmatch.2
      refine ⟨_, _, hrun.trans (run_login_wrong right), rfl, ?_, ?_, ?_⟩
      · refine iff_of_false (fun h => ?_) none
        rw [TransObj.setMsg_msgType, TransObj.setMsgType_msgType] at h
        exact absurd h (by decide)
      · intro r hr hmatch
        exact absurd ⟨r, hr, hmatch⟩ none
      · intro _
        exact ⟨TransObj.setMsg_msgType _ _, rfl⟩

/-- The object of a login as `bob`, with the password `secret`. -/
def bobLogin : TransObj :=
  { TransObj.zero with
    msgType := msgLogin
    msg := .ofBytes _ (ascii "bob" ++ List.replicate 21 0 ++ ascii "secret") }

theorem decode_bobLogin : TransObj.decode bobLogin.toBytes = bobLogin := by
  have h := bobLogin.decode_toBytes []
  rw [List.append_nil] at h
  exact h

theorem bobLogin_name : LoginName ((TransObj.decode bobLogin.toBytes).getName []) := by
  have hname : bobLogin.getName [] = ascii "bob" := by decide
  rw [decode_bobLogin, hname]
  exact ⟨by decide, by decide, by decide, by decide⟩

/-- A server whose table holds the rows given. -/
def tableWorld (t : UserInfo) : World := ⟨t, .empty, [], [], []⟩

theorem loginSafe_iff_bob :
    LoginSafe .reference (tableWorld [⟨1, ascii "bob", 7, ascii "secret"⟩])
      (TransObj.decode bobLogin.toBytes) 9 [] :=
  (loginSafe_iff .reference rfl (by decide) bobLogin.toBytes [] 9 bobLogin_name).mpr
    ⟨_, List.mem_cons_self, by rw [decode_bobLogin]; decide⟩

/-- A stranger is let in: `bob` is accepted by a server that knows nobody. -/
theorem login_stranger :
    ¬ ∀ (E : Mysql) (w : World) (buff past : Bytes) (fd : Int32),
      (TransObj.decode buff).msgType = msgLogin → w.sqlFaults = [] →
      (w.userinfo.map UserRow.username).Nodup → LoginName ((TransObj.decode buff).getName past) →
      LoginSafe E w (TransObj.decode buff) fd past := by
  intro claim
  have safe := claim .reference (tableWorld []) bobLogin.toBytes [] 9
    (congrArg TransObj.msgType decode_bobLogin) rfl List.nodup_nil bobLogin_name
  have unknown : ¬ ∃ row ∈ (tableWorld []).userinfo,
      row.username = (TransObj.decode bobLogin.toBytes).getName [] := by
    rintro ⟨row, hrow, -⟩
    cases hrow
  exact not_loginSafe_unknown rfl (TransObj.decode_len _) bobLogin_name unknown safe

end Smer
