import Smer.HandleMsg.Footprint
import Smer.Laws.Login

/-!
# Where a reply goes

The sender thread writes an object to the descriptor that the object itself names, and a task
answers with the object of its request. So a reply reaches the requester when the task has set its
`fd` to the connection's, and goes where the request said otherwise. A registration sets it first
thing, and a friend request that finds nobody sets it with its answer. A login sets it on acceptance
alone: its refusals, and its acceptance of a name without a row, go to the descriptor that the
request carried (`routed_iff`).

This is about the address alone: that the object is sent, and that it arrives, is not established
here.
-/

namespace Smer

open Lib HandleMsg MysqlPool

/-! ## The login behind its select -/

/-- What `handleUserLogMsg` does with the outcome of its select. -/
def loginOn (obj : TransObj) (fd : Int32) (past : Bytes) : Except SqlFault ResultSet → Task Unit
  | .error .escapes => Task.abort .raised
  | .error .noConnection | .error .threw =>
    refuseLogin obj (ascii "Login err! not found name\n")
  | .ok (row :: _) => loginWithRow obj fd past row
  | .ok [] => Task.push (obj.setMsgType msgLoginAccept)

/-- The text of the login's select. -/
def loginSelect (obj : TransObj) (past : Bytes) : Bytes :=
  (selectCmd .passwordUserid (obj.getName past)).take 99

theorem userLogTask_eq {obj : TransObj} (hlen : obj.len = 0) (fd : Int32) (past : Bytes) :
    userLogTask obj fd past = .vis (.executeQuery (loginSelect obj past)) (loginOn obj fd past) := by
  rw [userLogTask, if_neg (by rw [hlen]; decide), selectPasswordUserid_eq]
  refine execQuery_bind (vsnprintf_select _ _) (fun rows => ?_) rfl rfl rfl
  cases rows <;> rfl

/-- The outcome of a login's select on which the login does not answer with the request's `fd`: a
row with the login's password and a `userid`, or an exception, on which it does not answer at all. -/
def Rerouted (passwd : Bytes) : Except SqlFault ResultSet → Prop
  | .error .escapes => True
  | .error .noConnection | .error .threw => False
  | .ok [] => False
  | .ok (row :: _) => ∀ relPasswd, row.getString .password = some relPasswd →
      passwd = cstr relPasswd ∧ row.getInt .userid ≠ none

theorem refuseLogin_pushes {pushable : TransObj → Prop} {obj : TransObj} (reason : Bytes)
    (hobj : ∀ o : TransObj, o.fd = obj.fd → pushable o) :
    (refuseLogin obj reason).Only (Pushes pushable) :=
  .call (hobj _ (TransObj.setMsg_fd _ _))

/-- A login whose request names the connection, or whose select is as it should be, answers on the
connection. -/
theorem loginOn_pushes {obj : TransObj} {fd : Int32} {past : Bytes}
    {r : Except SqlFault ResultSet} (routes : obj.fd = fd ∨ Rerouted (obj.getPasswd past) r) :
    (loginOn obj fd past r).Only (Pushes fun o => o.fd = fd) := by
  rcases r with (_ | _ | _) | (_ | ⟨row, rows⟩)
  · rcases routes with hfd | hrow
    · exact refuseLogin_pushes _ fun o ho => ho.trans hfd
    · exact hrow.elim
  · rcases routes with hfd | hrow
    · exact refuseLogin_pushes _ fun o ho => ho.trans hfd
    · exact hrow.elim
  · exact .vis trivial fun e => e.elim
  · rcases routes with hfd | hrow
    · exact .call hfd
    · exact hrow.elim
  · unfold loginOn loginWithRow
    dsimp only
    split
    · exact .vis trivial fun e => e.elim
    · rename_i relPasswd hpasswd
      split
      · rename_i hwrong
        rcases routes with hfd | hrow
        · exact refuseLogin_pushes _ fun o ho => ho.trans hfd
        · exact absurd (hrow relPasswd hpasswd).1 hwrong
      · split
        · rename_i huserid
          rcases routes with hfd | hrow
          · exact refuseLogin_pushes _ fun o ho => ho.trans hfd
          · exact absurd huserid (hrow relPasswd hpasswd).2
        · exact (addSessionTalker_pushes _ _ _).bind fun _ => .call rfl

/-- On any other outcome the login answers with the `fd` of its request. -/
theorem loginOn_misses {E : Mysql} {obj : TransObj} (fd : Int32) {past : Bytes}
    {r : Except SqlFault ResultSet} (misses : ¬ Rerouted (obj.getPasswd past) r) (w : World) :
    ∃ reply : TransObj, ((loginOn obj fd past r).run (World.answer E) w).2.outbound =
        w.outbound ++ [reply] ∧ reply.fd = obj.fd ∧ reply.msgType ≠ msgAskForFriend := by
  have refuse_ne : msgLoginRefuse ≠ msgAskForFriend := by decide
  have accept_ne : msgLoginAccept ≠ msgAskForFriend := by decide
  have refused : ∀ reason, ∃ reply : TransObj,
      ((refuseLogin obj reason).run (World.answer E) w).2.outbound = w.outbound ++ [reply] ∧
        reply.fd = obj.fd ∧ reply.msgType ≠ msgAskForFriend := by
    intro reason
    refine ⟨_, rfl, TransObj.setMsg_fd _ _, ?_⟩
    rw [TransObj.setMsg_msgType]
    exact refuse_ne
  rcases r with (_ | _ | _) | (_ | ⟨row, rows⟩)
  · exact refused _
  · exact refused _
  · exact absurd trivial misses
  · exact ⟨_, rfl, rfl, accept_ne⟩
  · simp only [Rerouted, not_forall] at misses
    obtain ⟨relPasswd, hpasswd, hrow⟩ := misses
    rw [loginOn, loginWithRow, hpasswd]
    dsimp only
    split
    · exact refused _
    · rename_i hright
      split
      · exact refused _
      · rename_i id huserid
        refine absurd ⟨not_not.mp hright, ?_⟩ hrow
        rw [huserid]
        exact Option.some_ne_none id

/-! ## The law -/

/-- Every reply that the handler of a request pushes carries the connection's descriptor. A request
that is forwarded to somebody keeps its type `MSG_ASK_FOR_FRIEND`; whatever else a task pushes goes
back to the requester. -/
def Routed (E : Mysql) (w : World) (obj : TransObj) (fd : Int32) (past : Bytes) : Prop :=
  ∀ task, handle obj fd past = some task → ∀ pushed,
    (task.run (World.answer E) w).2.outbound = w.outbound ++ pushed →
      ∀ reply ∈ pushed, reply.msgType ≠ msgAskForFriend → reply.fd = fd

/-- A task that pushes replies with the right descriptor only. -/
theorem routed_of_only {E : Mysql} {w : World} {obj : TransObj} {fd : Int32} {past : Bytes}
    (only : ∀ task, handle obj fd past = some task →
      task.Only (Pushes fun o => o.msgType ≠ msgAskForFriend → o.fd = fd)) :
    Routed E w obj fd past := by
  intro task htask pushed hout reply hreply
  obtain ⟨pushed', hout', hpushed⟩ := Pushes.run (E := E) (only task htask) w
  rw [hout'] at hout
  rw [← List.append_cancel_left hout] at hreply
  exact hpushed reply hreply

theorem handle_reg {obj : TransObj} {fd : Int32} {past : Bytes} {task : Task Unit}
    (htype : obj.msgType = msgReg) (h : handle obj fd past = some task) :
    task = userRegTask obj fd past := by
  have hdispatch : handle obj fd past = handleUserRegMsg obj fd past := by
    rw [handle, htype]
    rfl
  rw [hdispatch, handleUserRegMsg, Option.ite_none_left_eq_some] at h
  exact (Option.some.inj h.2).symm

/-- The login's select was answered as it should be, or the request names the connection. -/
def LoginRoutes (E : Mysql) (w : World) (obj : TransObj) (fd : Int32) (past : Bytes) : Prop :=
  obj.fd = fd ∨ ∀ r w', World.answer E (.executeQuery (loginSelect obj past)) w = some (r, w') →
    Rerouted (obj.getPasswd past) r

section Login

variable {E : Mysql} {w : World} {obj : TransObj} {fd : Int32} {past : Bytes}

theorem routed_login (hlen : obj.len = 0) (hlogin : obj.msgType = msgLogin)
    (routes : LoginRoutes E w obj fd past) : Routed E w obj fd past := by
  intro task htask pushed hout reply hreply _
  rw [handle_login fd past hlogin, userLogTask_eq hlen] at htask
  cases htask
  obtain ⟨r, w', answered⟩ := answer_query_some E w (loginSelect obj past)
  rw [Prog.run_vis_some answered] at hout
  have only := loginOn_pushes (routes.imp_right fun h => h r w' answered)
  obtain ⟨pushed', hout', hpushed⟩ := Pushes.run (E := E) only w'
  obtain ⟨faults, rfl⟩ := answer_query_world answered
  rw [hout'] at hout
  rw [← List.append_cancel_left hout] at hreply
  exact hpushed reply hreply

/-- A login that goes another way answers with the `fd` of its request. -/
theorem login_misroutes (hlen : obj.len = 0) (hlogin : obj.msgType = msgLogin)
    (misses : ¬ LoginRoutes E w obj fd past) : ¬ Routed E w obj fd past := by
  intro routed
  rw [LoginRoutes, not_or] at misses
  obtain ⟨hfd, misses⟩ := misses
  apply misses
  intro r w' answered
  by_contra misses
  obtain ⟨reply, hout, hreply, htype⟩ := loginOn_misses (E := E) fd misses w'
  have hhandle := handle_login fd past hlogin
  rw [userLogTask_eq hlen] at hhandle
  obtain ⟨faults, rfl⟩ := answer_query_world answered
  have hrun := Prog.run_vis_some (k := loginOn obj fd past) answered
  have hsent := routed _ hhandle [reply] (by rw [hrun, hout]) reply List.mem_cons_self htype
  exact hfd (hreply.symm.trans hsent)

end Login

/-- A registration and a friend request answer on the connection. -/
theorem routed_other {E : Mysql} {w : World} {obj : TransObj} {fd : Int32} {past : Bytes}
    (request : obj.msgType = msgReg ∨ obj.msgType = msgAskForFriend) : Routed E w obj fd past := by
  apply routed_of_only
  intro task htask
  rcases request with hreg | hask
  · rw [handle_reg hreg htask]
    have only : (userRegTask obj fd past).Only
        (Footprint fun o => o.msgType ≠ msgAskForFriend → o.fd = fd) :=
      userRegTask_footprint _ _ _ fun _ hfd _ => hfd
    exact only.mono Pushes.of_footprint
  · rw [handle_askForFriend fd past hask] at htask
    cases htask
    have only : (askForFriendTask obj fd past).Only
        (Footprint fun o => o.msgType ≠ msgAskForFriend → o.fd = fd) :=
      askForFriendTask_footprint _ _ _ (fun _ _ hforward => absurd hask hforward) fun _ => rfl
    exact only.mono Pushes.of_footprint

/-- **Every reply to a registration, a login or a friend request goes to the requester iff the
message is no login, or carries the connection's descriptor, or its select answers with a row of its
password.** -/
theorem routed_iff (E : Mysql) (w : World) (buff past : Bytes) (fd : Int32)
    (request : (TransObj.decode buff).msgType ∈ [msgReg, msgLogin, msgAskForFriend]) :
    Routed E w (TransObj.decode buff) fd past ↔
      ((TransObj.decode buff).msgType = msgLogin →
        LoginRoutes E w (TransObj.decode buff) fd past) := by
  have hlen := TransObj.decode_len buff
  by_cases hlogin : (TransObj.decode buff).msgType = msgLogin
  · constructor
    · intro routed _
      by_contra misses
      exact login_misroutes hlen hlogin misses routed
    · intro routes
      exact routed_login hlen hlogin (routes hlogin)
  · refine iff_of_true (routed_other ?_) fun h => absurd h hlogin
    simp only [List.mem_cons, hlogin, List.not_mem_nil, or_false, false_or] at request
    exact request

/-- The select of `bob`'s login, on a table with one row of that name. -/
theorem answer_bobLogin (password : Bytes) :
    World.answer .reference (.executeQuery (loginSelect bobLogin []))
        (tableWorld [⟨1, ascii "bob", 7, password⟩]) =
      some (.ok [[(.password, .text password), (.userid, .int 1)]],
        tableWorld [⟨1, ascii "bob", 7, password⟩]) := by
  have hname : bobLogin.getName [] = ascii "bob" := by decide
  have hdecode : decodeBody (ascii "bob") = some (ascii "bob") :=
    decodeBody_eq_self (by decide) (by decide)
  have hparse : parse (loginSelect bobLogin []) = .select .passwordUserid (ascii "bob") := by
    rw [loginSelect, hname, selectCmd_take _ (by decide), selectCmd, parse_select,
      parseSelect_decodes hdecode]
  rw [answer_executeQuery rfl, Mysql.reference.query_select hparse]
  rfl

theorem bobLogin_passwd : bobLogin.getPasswd [] = ascii "secret" := by decide

theorem routed_iff_bob :
    Routed .reference (tableWorld [⟨1, ascii "bob", 7, ascii "secret"⟩])
      (TransObj.decode bobLogin.toBytes) 9 [] := by
  refine (routed_iff _ _ _ _ _ (by rw [decode_bobLogin]; decide)).mpr fun _ => .inr ?_
  rw [decode_bobLogin]
  intro r w' answered
  rw [answer_bobLogin] at answered
  cases answered
  intro relPasswd hpasswd
  cases hpasswd
  exact ⟨by rw [bobLogin_passwd]; decide, nofun⟩

/-- `bob` mistypes his password on connection 9, and the refusal goes to descriptor 0. -/
theorem refusal_misrouted :
    ¬ ∀ (E : Mysql) (w : World) (buff past : Bytes) (fd : Int32),
      (TransObj.decode buff).msgType ∈ [msgReg, msgLogin, msgAskForFriend] →
      Routed E w (TransObj.decode buff) fd past := by
  intro claim
  have routed := claim .reference (tableWorld [⟨1, ascii "bob", 7, ascii "other"⟩])
    bobLogin.toBytes [] 9 (by rw [decode_bobLogin]; decide)
  rw [decode_bobLogin] at routed
  refine login_misroutes rfl rfl ?_ routed
  rintro (hfd | hrow)
  · exact absurd hfd (by decide)
  · obtain ⟨heq, -⟩ := hrow _ _ (answer_bobLogin _) _ rfl
    rw [bobLogin_passwd] at heq
    exact absurd heq (by decide)

end Smer
