import Smer.Server.System
import Smer.Laws.Login

/-!
# Sessions and connections

A session names the connection that its user logged in on. The login writes it, and nothing takes it
away: `MSG_LOGOUT` is never dispatched, and a connection that ends is taken out of the loop without
a word to the session store. So a session outlives its connection (`ghost_session`).

What does hold: in a run in which no connection ends that a session names, every login that is
accepted finds its row, on a connection that is still there, and writes its session whole, every
session names a live connection, the one of the user's last accepted login (`sessions_live`).

A task completes in one step here. What falls between the two commands of a login is the matter of
`Laws.SessionReads` and `Laws.SessionWindows`.
-/

namespace Smer

open Lib ComManger HandleMsg MysqlPool

/-! ## The invariant -/

/-- Every user who is online has a recorded descriptor; it is a live connection, and the user's last
accepted login was made on it. -/
def SessionsLive (s : Server) : Prop :=
  ∀ id, Online s.world.redis id → ∃ fd,
    (s.world.redis.hashes (idText id)).lookup (ascii "fd") = some (idText fd) ∧
      s.loop.Live fd ∧ s.lastLogin id = some fd

/-- The hash of the user names the connection: its field `fd` is the text of the descriptor. -/
def Names (redis : RedisStore) (id fd : Int32) : Prop :=
  Online redis id ∧ (redis.hashes (idText id)).lookup (ascii "fd") = some (idText fd)

/-! ## The condition -/

/-- What the database answers to a login's `select`. -/
def selectAnswer (E : Mysql) (w : World) (obj : TransObj) (past : Bytes) :
    Except Effect (Option ResultSet) :=
  ((execQuery selectPasswordUserid [.str (obj.getName past)]).run (World.answer E) w).1

/-- A name that the session store keeps in one piece: its command is not cut, its two formats are
defined, and it has become an odd number of words. -/
def Recordable (name : Bytes) : Prop :=
  name.length ≤ 60 ∧ ∃ text sent, expand name [] = some text ∧ expand text [] = some sent ∧
    (words sent).length % 2 = 1

/-- A login whose name has no row concerns a user who is offline, or who is on that connection
anyway. A login with the right password is made on a live connection, under a name that can be
recorded, while Redis answers. -/
def LoginMeets (E : Mysql) (s : Server) (r : Request) (past : Bytes) : Prop :=
  match selectAnswer E s.world r.obj past with
  | .ok (some []) => Online s.world.redis r.obj.id → Names s.world.redis r.obj.id r.fd
  | .ok (some (row :: _)) =>
    (row.getString .password).map cstr = some (r.obj.getPasswd past) →
      s.loop.Live r.fd ∧ s.world.redisFaults = [] ∧ Recordable (r.obj.getName past)
  | _ => True

theorem loginMeets_of_row {E : Mysql} {s : Server} {r : Request} {past : Bytes} {row : ResultRow}
    {rows : ResultSet} (answer : selectAnswer E s.world r.obj past = .ok (some (row :: rows)))
    (h : s.loop.Live r.fd ∧ s.world.redisFaults = [] ∧ Recordable (r.obj.getName past)) :
    LoginMeets E s r past := by
  rw [LoginMeets, answer]
  exact fun _ => h

/-- The steps under which sessions stay with their connections. -/
def Meets (E : Mysql) (s : Server) : Action → Prop
  | .accept .. => True
  | .ready fd e read => e.Ends read → ∀ id, ¬ Names s.world.redis id fd
  | .complete i past =>
    ∀ r, s.pending[i]? = some r → r.obj.msgType = msgLogin → LoginMeets E s r past

/-! ## What a login does -/

section Login

variable {E : Mysql} {w : World} {obj : TransObj} {fd : Int32} {past : Bytes}

/-- A refused login pushes its refusal and touches nothing else. -/
theorem run_refuseLogin (obj : TransObj) (reason : Bytes) (w : World) :
    ∃ reply, reply.msgType = msgLoginRefuse ∧ (refuseLogin obj reason).run (World.answer E) w =
      (.ok (), { w with outbound := w.outbound ++ [reply] }) :=
  ⟨_, TransObj.setMsg_msgType _ _, rfl⟩

/-- The task neither touches Redis nor accepts. -/
def Refuses (w w' : World) : Prop :=
  w'.redis = w.redis ∧
    ∃ pushed, w'.outbound = w.outbound ++ pushed ∧ ∀ o ∈ pushed, o.msgType ≠ msgLoginAccept

theorem refuses_of_nothing {w' : World} (hredis : w'.redis = w.redis)
    (hout : w'.outbound = w.outbound) : Refuses w w' :=
  ⟨hredis, [], by rw [hout, List.append_nil], fun _ h => absurd h List.not_mem_nil⟩

theorem refuses_refuseLogin {w₁ : World} (hredis : w₁.redis = w.redis)
    (hout : w₁.outbound = w.outbound) (obj : TransObj) (reason : Bytes) :
    Refuses w ((refuseLogin obj reason).run (World.answer E) w₁).2 := by
  obtain ⟨reply, htype, hrun⟩ := run_refuseLogin (E := E) obj reason w₁
  rw [hrun]
  refine ⟨hredis, [reply], by rw [hout], fun o ho => ?_⟩
  rw [List.mem_singleton.mp ho, htype]
  decide

/-- What a login's task may do: refuse, accept a name that has no row, or go on with a row whose
password is the right one. -/
inductive LoginOutcome (E : Mysql) (w : World) (obj : TransObj) (fd : Int32) (past : Bytes)
    (w' : World) : Prop where
  | refused (refuses : Refuses w w')
  | rowless (answer : selectAnswer E w obj past = .ok (some []))
      (redis : w'.redis = w.redis)
      (outbound : w'.outbound = w.outbound ++ [obj.setMsgType msgLoginAccept])
  | row {row : ResultRow} {rows : ResultSet} {id : Int32} {w₁ : World}
      (answer : selectAnswer E w obj past = .ok (some (row :: rows)))
      (password : (row.getString .password).map cstr = some (obj.getPasswd past))
      (entered : w' = ((addSessionTalker id (obj.getName past) fd >>= fun _ =>
        Task.push (((obj.setId id).setFd fd).setMsgType msgLoginAccept)).run (World.answer E) w₁).2)
      (redis : w₁.redis = w.redis) (outbound : w₁.outbound = w.outbound)
      (faults : w₁.redisFaults = w.redisFaults)

/-- **Every run of a login's task is one of the three.** -/
theorem login_outcome (E : Mysql) (w : World) (obj : TransObj) (fd : Int32) (past : Bytes) :
    LoginOutcome E w obj fd past ((userLogTask obj fd past).run (World.answer E) w).2 := by
  unfold userLogTask
  split
  · exact .refused (refuses_refuseLogin rfl rfl obj _)
  · obtain ⟨faults, hworld⟩ := run_execQuery_world (E := E) selectPasswordUserid
      [.str (obj.getName past)] w
    cases hanswer : selectAnswer E w obj past with
    | error o =>
      have hrun : (execQuery selectPasswordUserid [.str (obj.getName past)]).run (World.answer E) w =
          (.error o, { w with sqlFaults := faults }) := Prod.ext hanswer hworld
      rw [Prog.run_bind_error hrun]
      exact .refused (refuses_of_nothing rfl rfl)
    | ok rows =>
      have hrun : (execQuery selectPasswordUserid [.str (obj.getName past)]).run (World.answer E) w =
          (.ok rows, { w with sqlFaults := faults }) := Prod.ext hanswer hworld
      rw [Prog.run_bind_ok hrun]
      rcases rows with _ | _ | ⟨row, rows⟩
      · exact .refused (refuses_refuseLogin rfl rfl obj _)
      · exact .rowless hanswer rfl rfl
      · simp only [loginWithRow]
        cases hpassword : row.getString .password with
        | none => exact .refused (refuses_of_nothing rfl rfl)
        | some relPasswd =>
          simp only
          split
          · exact .refused (refuses_refuseLogin rfl rfl obj _)
          · rename_i hequal
            cases hid : row.getInt .userid with
            | none => exact .refused (refuses_refuseLogin rfl rfl obj _)
            | some id =>
              refine .row hanswer ?_ rfl rfl rfl rfl
              rw [hpassword, Option.map_some, ← not_not.mp hequal]

/-- A session that is written whole: the user is online on the connection, accepted once, and the
other users are as they were. -/
theorem run_enter {w₁ : World} (normal : w₁.redisFaults = []) {name : Bytes} (id : Int32)
    (hname : Recordable name) (hzero : (0 : UInt8) ∉ name) (reply : TransObj) :
    ∃ w', ((addSessionTalker id name fd >>= fun _ => Task.push reply).run (World.answer E) w₁).2 =
        w' ∧ w'.outbound = w₁.outbound ++ [reply] ∧
      (w'.redis.hashes (idText id)).lookup (ascii "fd") = some (idText fd) ∧
      (∀ other, Online w'.redis other ↔ other = id ∨ Online w₁.redis other) ∧
      ∀ other, other ≠ id → w'.redis.hashes (idText other) = w₁.redis.hashes (idText other) := by
  obtain ⟨hlen, text, sent, htext, hsent, hodd⟩ := hname
  have hrun := run_addSessionTalker (E := E) normal id fd hzero hlen htext hsent
  obtain ⟨fields, hfields⟩ := Option.isSome_iff_exists.mp
    ((sessionFields_isSome (enter w₁.redis id) id fd sent).mpr hodd)
  rw [recorded, hfields] at hrun
  rw [Prog.run_bind_ok hrun]
  refine ⟨_, rfl, rfl, ?_, ?_, ?_⟩
  · show ((RedisStore.setHash _ (idText id) fields).hashes (idText id)).lookup _ = _
    rw [RedisStore.setHash_hashes_self]
    exact sessionFields_fd hfields
  · intro other
    exact online_setHash.trans online_enter
  · intro other hother
    have hkey : idText other ≠ idText id := fun h => hother (idText_injective h)
    exact RedisStore.setHash_hashes_ne _ hkey _

end Login

/-! ## Every admitted step keeps the invariant -/

section Steps

variable {E : Mysql} {s s' : Server}

theorem sessionsLive_start (start : s.Starts) : SessionsLive s := by
  intro id honline
  rw [start.redis] at honline
  exact absurd honline (Finset.notMem_empty _)

/-- Where sessions and logins stay, it is enough that the named connections do. -/
theorem SessionsLive.of_loop (live : SessionsLive s) (hworld : s'.world = s.world)
    (hlogins : s'.logins = s.logins)
    (hloop : ∀ id fd, Names s.world.redis id fd → s.loop.Live fd → s'.loop.Live fd) :
    SessionsLive s' := by
  intro id honline
  rw [hworld] at honline
  obtain ⟨fd, hfd, hlive, hlast⟩ := live id honline
  refine ⟨fd, ?_, hloop id fd ⟨honline, hfd⟩ hlive, ?_⟩
  · rw [hworld]
    exact hfd
  · rw [Server.lastLogin, hlogins]
    exact hlast

theorem acceptedLogins_of_append {r : Request} (login : r.obj.msgType = msgLogin) {w w' : World}
    {pushed : List TransObj} (hout : w'.outbound = w.outbound ++ pushed) :
    acceptedLogins r w w' =
      (pushed.filter fun o => o.msgType = msgLoginAccept).map fun o => (o.id, r.fd) := by
  rw [acceptedLogins, if_pos login, hout, List.drop_left]

/-- A task that leaves Redis as it was and accepts nobody. -/
theorem SessionsLive.of_quiet (live : SessionsLive s) (hredis : s'.world.redis = s.world.redis)
    (hloop : s'.loop = s.loop) (hlogins : s'.logins = s.logins) : SessionsLive s' := by
  intro id honline
  rw [hredis] at honline
  rw [hredis, hloop, Server.lastLogin, hlogins]
  exact live id honline

/-- A login that accepts a name without a row: the session of the user it answers, if there is one,
already names the connection. -/
theorem SessionsLive.of_rowless (live : SessionsLive s) {id fd : Int32}
    (hredis : s'.world.redis = s.world.redis) (hloop : s'.loop = s.loop)
    (hlogins : s'.logins = (id, fd) :: s.logins)
    (names : Online s.world.redis id → Names s.world.redis id fd) : SessionsLive s' := by
  intro other honline
  rw [hredis] at honline
  rw [hredis, hloop, Server.lastLogin, hlogins]
  obtain ⟨fd', hfd, hlive, hlast⟩ := live other honline
  by_cases hother : other = id
  · subst hother
    have hsame := (names honline).2
    rw [hfd] at hsame
    have heq : fd' = fd := idText_injective (Option.some.inj hsame)
    refine ⟨fd', hfd, hlive, ?_⟩
    rw [List.lookup_cons, beq_self_eq_true, heq]
  · refine ⟨fd', hfd, hlive, ?_⟩
    rw [List.lookup_cons, beq_false_of_ne hother]
    exact hlast

/-- A login that has entered its user and written the session keeps the sessions live: the new one
names a connection that is there, and the others are untouched. -/
theorem SessionsLive.of_entered (live : SessionsLive s) {id fd : Int32} (hloop : s'.loop = s.loop)
    (hlogins : s'.logins = (id, fd) :: s.logins) (hlive : s.loop.Live fd)
    (hself : (s'.world.redis.hashes (idText id)).lookup (ascii "fd") = some (idText fd))
    (honline : ∀ other, Online s'.world.redis other ↔ other = id ∨ Online s.world.redis other)
    (hothers : ∀ other, other ≠ id →
      s'.world.redis.hashes (idText other) = s.world.redis.hashes (idText other)) :
    SessionsLive s' := by
  intro other hmem
  rw [hloop, Server.lastLogin, hlogins]
  by_cases hother : other = id
  · subst hother
    refine ⟨fd, hself, hlive, ?_⟩
    rw [List.lookup_cons, beq_self_eq_true]
  · obtain ⟨fd', hfd, hlive', hlast⟩ := live other (((honline other).mp hmem).resolve_left hother)
    refine ⟨fd', ?_, hlive', ?_⟩
    · rw [hothers other hother]
      exact hfd
    · rw [List.lookup_cons, beq_false_of_ne hother]
      exact hlast

/-- A completed task keeps the sessions live when it meets the condition. Only a login has one to
meet, since no other task writes a session. -/
theorem sessionsLive_complete (live : SessionsLive s) {i : Nat} {past : Bytes}
    (meets : Meets E s (.complete i past)) (hstep : s.step E (.complete i past) = some s') :
    SessionsLive s' := by
  obtain ⟨r, hr, hworld, hloop, hlogins⟩ := Server.step_complete hstep
  by_cases login : r.obj.msgType = msgLogin
  · rw [HandleMsg.handle_login r.fd past login, World.runTask] at hworld
    have hmeets := meets r hr login
    rw [LoginMeets] at hmeets
    cases hworld ▸ login_outcome E s.world r.obj r.fd past with
    | refused refuses =>
      obtain ⟨hredis, pushed, hout, hnone⟩ := refuses
      have hfilter : (pushed.filter fun o => o.msgType = msgLoginAccept) = [] := by
        rw [List.filter_eq_nil_iff]
        intro o ho haccept
        exact hnone o ho (of_decide_eq_true haccept)
      rw [acceptedLogins_of_append login hout, hfilter, List.map_nil, List.nil_append] at hlogins
      exact live.of_quiet hredis hloop hlogins
    | rowless answer hredis hout =>
      rw [answer] at hmeets
      rw [acceptedLogins_of_append login hout] at hlogins
      exact live.of_rowless hredis hloop hlogins hmeets
    | @row row rows id w₁ answer password entered hredis hout hfaults =>
      rw [answer] at hmeets
      obtain ⟨hlive, normal, hname⟩ := hmeets password
      obtain ⟨w', hw', hout', hself, honline, hothers⟩ := run_enter (E := E)
        (hfaults.trans normal) id hname (zero_notMem_cstr _)
        (((r.obj.setId id).setFd r.fd).setMsgType msgLoginAccept)
      rw [← hw', ← entered] at hout' hself honline hothers
      rw [hredis] at honline hothers
      rw [hout] at hout'
      rw [acceptedLogins_of_append login hout'] at hlogins
      exact live.of_entered hloop hlogins hlive hself honline hothers
  · obtain ⟨hredis, hnone⟩ := Server.runTask_other login s'.world hworld
    rw [hnone, List.nil_append] at hlogins
    exact live.of_quiet hredis hloop hlogins

/-- **An admitted step keeps every session with its connection.** -/
theorem sessionsLive_step (live : SessionsLive s) {a : Action} (meets : Meets E s a)
    (hstep : s.step E a = some s') : SessionsLive s' := by
  cases a with
  | accept listener client buffer =>
    obtain ⟨loop, haccept, hs⟩ := Option.map_eq_some_iff.mp hstep
    cases hs
    exact live.of_loop rfl rfl fun id fd _ hlive => IOLoop.live_accept haccept hlive
  | ready fd e read =>
    obtain ⟨⟨loop, passed⟩, hready, hs⟩ := Option.map_eq_some_iff.mp hstep
    cases hs
    refine live.of_loop rfl rfl fun id other hnames hlive => ?_
    apply IOLoop.live_ready hready hlive
    intro ends heq
    exact meets ends id (heq ▸ hnames)
  | complete i past => exact sessionsLive_complete live meets hstep

end Steps

/-- **In every run whose steps all meet the condition, every session names a live connection, that
of the user's last accepted login.** -/
theorem sessions_live (E : Mysql) {s₀ s : Server} (start : s₀.Starts)
    (reach : Reaches (Server.step E) (Meets E) s₀ s) : SessionsLive s :=
  reach.invariant (sessionsLive_start start) fun _ _ _ live meets hstep =>
    sessionsLive_step live meets hstep

/-! ## A run -/

/-- A server that knows `bob`, with a listener on the descriptor 3. -/
def bobServer : Server where
  world := tableWorld [⟨1, ascii "bob", 7, ascii "secret"⟩]
  loop := ⟨AList.insert 3 .server ∅, [3]⟩
  pending := []
  logins := []

theorem bobServer_starts : bobServer.Starts := ⟨rfl, rfl, rfl⟩

/-- The loop of the server when connection 5 is there, with its handler. -/
def bobLoop (h : EchoHandler) : IOLoop := ⟨bobServer.loop.handlers.insert 5 (.echo h), [5, 3]⟩

/-- The listener is not a connection. -/
theorem not_live_bobServer (fd : Int32) : ¬ bobServer.loop.Live fd := by
  rintro ⟨h, hlookup⟩
  by_cases hfd : fd = 3
  · rw [hfd, bobServer, AList.lookup_insert] at hlookup
    cases hlookup
  · rw [bobServer, AList.lookup_insert_ne hfd, AList.lookup_empty] at hlookup
    cases hlookup

def bobRow : UserRow := ⟨1, ascii "bob", 7, ascii "secret"⟩

theorem bob_name : bobLogin.getName [] = ascii "bob" := by decide

theorem bob_answer : selectAnswer .reference bobServer.world bobLogin [] =
    .ok (some [Columns.passwordUserid.project bobRow]) := by
  have hdecode : decodeBody (ascii "bob") = some (ascii "bob") :=
    decodeBody_eq_self (by decide) (by decide)
  have hrun := run_select (E := .reference) (w := bobServer.world) .passwordUserid rfl
    (by decide) hdecode
  rw [selectAnswer, bob_name, selectPasswordUserid_eq, hrun]
  rfl

theorem bob_recordable : Recordable (ascii "bob") :=
  ⟨by decide, ascii "bob", ascii "bob", by decide, by decide, by decide⟩

/-- The server when `bob` has connected. -/
def bobConnects : Server := { bobServer with loop := bobLoop ⟨0, .fill _ 0⟩ }

/-- The server when `bob` has sent his login. -/
def bobAsks (h : EchoHandler) : Server :=
  { bobConnects with
    loop := bobConnects.loop.addHandler 5 (.echo h)
    pending := [⟨bobLogin, 5⟩] }

theorem bob_asks :
    ∃ h, Reaches (Server.step .reference) (Meets .reference) bobServer (bobAsks h) := by
  have hconnects : bobServer.step .reference (.accept 3 5 (.fill _ 0)) = some bobConnects := rfl
  have hadmitted : Meets .reference bobServer (.accept 3 5 (.fill _ 0)) := trivial
  obtain ⟨h, hready⟩ := ready_sendBuf (l := bobConnects.loop) (AList.lookup_insert _) bobLogin
  have hquiet : Meets .reference bobConnects (.ready 5 .epollin (some (Client.sendBuf bobLogin))) :=
    fun ends => absurd ends (not_ends_sendBuf _)
  exact ⟨h, .step (.step .refl hadmitted hconnects) hquiet (Server.step_ready hready)⟩

/-- What `bob`'s login leaves: the session of user 1 on connection 5, and the acceptance in the
queue. -/
def bobWorld : World := bobServer.world.runTask .reference (handle bobLogin 5 [])

/-- The server when `bob` is logged in. -/
def bobIn (h : EchoHandler) : Server where
  world := bobWorld
  loop := bobConnects.loop.addHandler 5 (.echo h)
  pending := []
  logins := acceptedLogins ⟨bobLogin, 5⟩ bobServer.world bobWorld

theorem bob_in :
    ∃ h, Reaches (Server.step .reference) (Meets .reference) bobServer (bobIn h) := by
  obtain ⟨h, hasks⟩ := bob_asks
  refine ⟨h, .step (a := .complete 0 []) hasks ?_ rfl⟩
  intro r hr _
  cases hr
  refine loginMeets_of_row bob_answer ⟨⟨h, AList.lookup_insert _⟩, rfl, ?_⟩
  rw [bob_name]
  exact bob_recordable

theorem sessions_live_bob : ∃ h, SessionsLive (bobIn h) := by
  obtain ⟨h, hin⟩ := bob_in
  exact ⟨h, sessions_live .reference bobServer_starts hin⟩

theorem bob_online : Online bobWorld.redis 1 := by
  have hname : LoginName (bobLogin.getName []) := by
    rw [bob_name]
    exact ⟨by decide, by decide, by decide, by decide⟩
  have hrun := run_login_known (E := .reference) (w := bobServer.world) 5 rfl (by decide) rfl hname
    List.mem_cons_self bob_name.symm
  have hpasswd : cstr bobRow.password = bobLogin.getPasswd [] := by decide
  obtain ⟨w', hright, -, hredis⟩ :=
    run_login_right (E := .reference) (w := bobServer.world) 5 hname.short hname.expands hpasswd
  obtain ⟨hlen, text, sent, htext, hsent, -⟩ := bob_recordable
  have hworld : bobWorld = w' := congrArg Prod.snd (hrun.trans hright)
  have henters := run_addSessionTalker (E := .reference) (w := bobServer.world) rfl bobRow.userid 5
    (by decide) hlen htext hsent
  rw [hworld, hredis, bob_name, henters]
  exact online_recorded.mpr (online_enter.mpr (.inl rfl))

/-- Once `bob` has hung up, nothing is live. -/
theorem not_live_hangup {h : EchoHandler} (fd : Int32) :
    ¬ (((bobIn h).loop.addHandler 5 (.echo h)).removeHandler 5).Live fd := by
  rintro ⟨h', hlookup⟩
  by_cases hfd : fd = 5
  · rw [hfd, IOLoop.removeHandler, AList.lookup_erase] at hlookup
    cases hlookup
  · apply not_live_bobServer fd
    refine ⟨h', ?_⟩
    rw [← hlookup]
    exact ((AList.lookup_erase_ne hfd).trans ((AList.lookup_insert_ne hfd).trans
      ((AList.lookup_insert_ne hfd).trans (AList.lookup_insert_ne hfd)))).symm

/-- `bob` hangs up: his handler is taken out of the loop, and his session stays in Redis and names a
connection that is no more. -/
theorem ghost_session :
    ¬ ∀ (E : Mysql) (s₀ s : Server), s₀.Starts →
      Reaches (Server.step E) (fun _ _ => True) s₀ s → SessionsLive s := by
  intro claim
  obtain ⟨h, hin⟩ := bob_in
  have hlookup : (bobIn h).loop.handlers.lookup 5 = some (.echo h) := AList.lookup_insert _
  have hhangs : (bobIn h).loop.ready 5 ⟨true, false, false, false⟩ none =
      some (((bobIn h).loop.addHandler 5 (.echo h)).removeHandler 5, none) := by
    rw [IOLoop.ready, hlookup]
    rfl
  have live := claim .reference bobServer _ bobServer_starts
    (.step (hin.mono fun _ _ _ => trivial) trivial (Server.step_ready hhangs))
  obtain ⟨fd, -, hlive, -⟩ := live 1 bob_online
  exact not_live_hangup fd hlive

end Smer
