import Smer.Laws.Chat
import Smer.Laws.RoundTrip
import Smer.Server.ChatService

/-!
# The server refines the chat service

The database's table and the session store of Redis hold a state of the `ChatService` (`Holds`), and
a task that runs alone on an object that means a request does what the service does
(`served_of_means`): through the statement's text, its cut and its parse, through the commands'
words and the hash of the session, and through the object that is answered in place. A task whose
operations are performed one by one, with no other task between them, comes to the same
(`Underway.operate`).

So every run of the server in which the tasks do not overlap, and are for such objects, is a run of
the service with the same answers, in the order in which the tasks complete (`refines_service`).
Which requests have been acknowledged then says what the stores hold, row by row and session by
session (`stores_acknowledged`). Both say what the stores hold where no task is under way. Neither
holds of runs whose tasks overlap: the counterexamples of `Laws.Registration` and
`Laws.RegistrationId` are such runs.
-/

namespace Smer

open Lib HandleMsg ComManger MysqlPool

/-- The account that a row of the table is: the same id, and the name and the password as the bytes
of the row. -/
structure RowOf (row : UserRow) (a : Account) : Prop where
  id : row.userid = a.id
  name : row.username = a.name.text
  passwd : cstr row.password = a.passwd

/-- The stores hold a state of the service, and nothing fails. -/
structure Holds (w : World) (s : ChatService) : Prop where
  sqlNormal : w.sqlFaults = []
  redisNormal : w.redisFaults = []
  accounts : List.Forall₂ RowOf w.userinfo s.accounts
  sessions : Represents w.redis s.sessions

theorem holds_empty : Holds emptyWorld .empty := ⟨rfl, rfl, .nil, represents_empty⟩

/-- The database refuses an account beside these: it does not insert the row in a table of theirs. -/
def Mysql.Refuses (E : Mysql) (accounts : List Account) (name : AccountName) (passwd : Bytes) : Prop :=
  ∃ t fd cmd, List.Forall₂ RowOf t accounts ∧ parse cmd = .insert name.text fd passwd ∧
    E.update cmd t = none

/-- A name is its text and a proof about it, so equal texts are equal names. -/
theorem AccountName.eq_of_text {a b : AccountName} (h : a.text = b.text) : a = b := by
  obtain ⟨⟨_, _, _, _, _, _⟩, _, _⟩ := a
  obtain ⟨⟨_, _, _, _, _, _⟩, _, _⟩ := b
  cases h
  rfl

theorem AccountName.loginName (name : AccountName) : LoginName name.text :=
  ⟨name.short, name.no_quote, name.no_backslash, name.no_percent⟩

theorem AccountName.decodes (name : AccountName) : decodeBody name.text = some name.text :=
  decodeBody_eq_self name.no_quote name.no_backslash

/-! ## Rows and accounts -/

/-- A row's account is in the service. -/
theorem account_of_row {t : UserInfo} {accounts : List Account} (h : List.Forall₂ RowOf t accounts)
    {row : UserRow} (hrow : row ∈ t) : ∃ a ∈ accounts, RowOf row a := by
  induction h with
  | nil => cases hrow
  | cons hof _ ih =>
    rcases List.mem_cons.mp hrow with rfl | hrow
    · exact ⟨_, List.mem_cons_self, hof⟩
    · obtain ⟨a, ha, hof⟩ := ih hrow
      exact ⟨a, List.mem_cons_of_mem _ ha, hof⟩

/-- An account's row is in the table. -/
theorem row_of_account {t : UserInfo} {accounts : List Account} (h : List.Forall₂ RowOf t accounts)
    {a : Account} (ha : a ∈ accounts) : ∃ row ∈ t, RowOf row a := by
  induction h with
  | nil => cases ha
  | cons hof _ ih =>
    rcases List.mem_cons.mp ha with rfl | ha
    · exact ⟨_, List.mem_cons_self, hof⟩
    · obtain ⟨row, hrow, hof⟩ := ih ha
      exact ⟨row, List.mem_cons_of_mem _ hrow, hof⟩

/-- An engine that counts its ids refuses nobody before it has given the last one. -/
theorem refuses_reference {accounts : List Account} {name : AccountName} {passwd : Bytes}
    (refuses : Mysql.reference.Refuses accounts name passwd) :
    ∃ a ∈ accounts, a.id.toInt = 2 ^ 31 - 1 := by
  obtain ⟨t, fd, cmd, rows, hparse, hnone⟩ := refuses
  simp only [Mysql.reference, hparse, Option.map_eq_none_iff] at hnone
  rw [nextUserid] at hnone
  split at hnone
  · rename_i m hm
    split at hnone
    · cases hnone
    · rename_i hlast
      obtain ⟨i, hi, rfl⟩ := Option.map_eq_some_iff.mp hm
      obtain ⟨hmem, -⟩ := List.max?_eq_some_iff.mp hi
      obtain ⟨row, hrow, rfl⟩ := List.mem_map.mp hmem
      obtain ⟨a, ha, hof⟩ := account_of_row rows hrow
      refine ⟨a, ha, ?_⟩
      have hhi := row.userid.toInt_lt
      rw [Int32.ofInt_toInt] at hlast
      rw [← hof.id]
      omega
  · cases hnone

/-- The table has the names of the accounts. -/
theorem usernames_eq {t : UserInfo} {accounts : List Account} (h : List.Forall₂ RowOf t accounts) :
    t.map UserRow.username = accounts.map fun a => a.name.text := by
  induction h with
  | nil => rfl
  | cons hof _ ih => rw [List.map_cons, List.map_cons, hof.name, ih]

section Holds

variable {E : Mysql} {w : World} {s : ChatService}

namespace Holds

variable (holds : Holds w s)
include holds

theorem distinct : (w.userinfo.map UserRow.username).Nodup := by
  rw [usernames_eq holds.accounts]
  exact s.names

/-- A name of no account is no row's. -/
theorem unknown {name : Bytes} (new : ∀ b ∈ s.accounts, b.name.text ≠ name) :
    ¬ ∃ row ∈ w.userinfo, row.username = name := by
  rintro ⟨row, hrow, hname⟩
  obtain ⟨a, ha, hof⟩ := account_of_row holds.accounts hrow
  exact new a ha (hof.name.symm.trans hname)

/-- What a `select` for a name answers: the row of its account, or nothing. -/
theorem filter_cases (name : AccountName) :
    (∃ a row, a ∈ s.accounts ∧ a.name = name ∧ RowOf row a ∧
        w.userinfo.filter (fun r => r.username = name.text) = [row]) ∨
      (∀ b ∈ s.accounts, b.name.text ≠ name.text) ∧
        w.userinfo.filter (fun r => r.username = name.text) = [] := by
  by_cases known : ∃ a ∈ s.accounts, a.name.text = name.text
  · obtain ⟨a, ha, hname⟩ := known
    obtain ⟨row, hrow, hof⟩ := row_of_account holds.accounts ha
    refine .inl ⟨a, row, ha, AccountName.eq_of_text hname, hof, ?_⟩
    rw [← hname, ← hof.name]
    exact filter_username holds.distinct hrow
  · have new : ∀ b ∈ s.accounts, b.name.text ≠ name.text := fun b hb hname =>
      known ⟨b, hb, hname⟩
    exact .inr ⟨new, filter_username_nil (holds.unknown new)⟩

/-- The members of the session set are exactly the users whom the service has a session for. -/
theorem online_iff (id : Int32) : Online w.redis id ↔ (s.sessions id).isSome := by
  have h := holds.sessions id
  cases hs : s.sessions id with
  | some entry =>
    rw [hs] at h
    exact iff_of_true h.1 rfl
  | none =>
    rw [hs] at h
    exact iff_of_false h.1 Bool.false_ne_true

/-- The descriptor that is looked up for a session. -/
theorem run_fd {id fd : Int32} {name : PlainName} (session : s.sessions id = some (name, fd)) :
    (getTalkerFd id).run (World.answer E) w = (.ok fd, w) := by
  have h := holds.sessions id
  rw [session] at h
  rw [run_getTalkerFd holds.redisNormal, h.2.1, found, Option.getD_some, cstr_idText, idText,
    atoi_toText]

/-- The name that is looked up for a sender is the one the service has for that session, empty where
it has none. -/
theorem run_name (id : Int32) :
    (getTalkerName id).run (World.answer E) w = (.ok (some (s.senderName id)), w) := by
  have h := holds.sessions id
  rw [run_getTalkerName holds.redisNormal, ChatService.senderName]
  cases hs : s.sessions id with
  | some entry =>
    rw [hs] at h
    rw [h.2.2]
    rfl
  | none =>
    rw [hs] at h
    rw [h.2.2]
    rfl

/-- Answers on the outbound queue leave the stores alone. -/
theorem outbound (queue : List TransObj) : Holds { w with outbound := queue } s :=
  ⟨holds.sqlNormal, holds.redisNormal, holds.accounts, holds.sessions⟩

end Holds

/-- A name under which messages are passed on is a text of an area. -/
theorem senderName_short (id : Int32) : (s.senderName id).length < nameMaxLen := by
  rw [ChatService.senderName]
  cases s.sessions id with
  | some entry => exact entry.1.short
  | none => decide

theorem cstr_senderName (id : Int32) : cstr (s.senderName id) = s.senderName id := by
  rw [ChatService.senderName]
  cases s.sessions id with
  | some entry => exact cstr_eq_self entry.1.no_zero
  | none => rfl

end Holds

/-! ## One request -/

/-- The request is served: the service answers it, and the stores hold what the service is then. -/
def Served (E : Mysql) (s : ChatService) (w w' : World) (obj : TransObj) (fd : Int32)
    (meant : ChatRequest) : Prop :=
  ∃ answer s', s.Step E.Refuses fd meant answer s' ∧ Holds w' s' ∧
    w'.outbound = w.outbound ++ (answer.map fun a => a.obj obj fd).toList

section Served

variable {E : Mysql} {w : World} {s : ChatService} (holds : Holds w s) {obj : TransObj}
  (fd : Int32) (past : Bytes)
include holds

/-- A request that is answered and changes nothing in the stores: the world gets one more object in
its outbound queue. -/
theorem served_answer {answer : ChatAnswer} {meant : ChatRequest}
    (step : s.Step E.Refuses fd meant (some answer) s) :
    Served E s w { w with outbound := w.outbound ++ [answer.obj obj fd] } obj fd meant :=
  ⟨some answer, s, step, holds.outbound _, rfl⟩

/-- A request that is dropped without a word leaves the world as it is. -/
theorem served_silent {meant : ChatRequest} (step : s.Step E.Refuses fd meant none s) :
    Served E s w w obj fd meant :=
  ⟨none, s, step, holds, (List.append_nil _).symm⟩

theorem served_talk (htype : obj.msgType = msgTalk) :
    Served E s w (w.runTask E (handle obj fd past)) obj fd (.talk obj.recverId) := by
  rw [handle_talk fd past htype, World.runTask, run_userSendTask holds.redisNormal]
  by_cases honline : Online w.redis obj.recverId
  · rw [if_pos honline]
    exact served_answer holds fd (.delivered ((holds.online_iff _).mp honline))
  · rw [if_neg honline]
    refine served_silent holds fd (.talkOffline ?_)
    rw [holds.online_iff, Option.not_isSome_iff_eq_none] at honline
    exact honline

theorem served_ask (htype : obj.msgType = msgAskForFriend) {name : AccountName}
    (hname : obj.getMsg past = name.text) :
    Served E s w (w.runTask E (handle obj fd past)) obj fd (.ask name) := by
  have hselect := run_select (E := E) .userid holds.sqlNormal name.short name.decodes
  rw [handle_askForFriend fd past htype, World.runTask, askForFriendTask, hname, selectUserid_eq]
  rcases holds.filter_cases name with ⟨a, row, ha, rfl, hof, hrows⟩ | ⟨new, hrows⟩
  · rw [hrows] at hselect
    rw [Prog.run_bind_ok hselect]
    have huserid : (Columns.userid.project row).getInt .userid = some a.id := by
      rw [← hof.id]
      rfl
    simp only [List.map_cons, List.map_nil, huserid]
    rw [Prog.run_bind_ok (run_isTalkerOnline holds.redisNormal _)]
    have hrecver : (obj.setrecverId a.id).recverId = a.id := rfl
    rw [hrecver]
    cases hsession : s.sessions a.id with
    | none =>
      have offline : ¬ Online w.redis a.id := by
        rw [holds.online_iff, hsession]
        exact Bool.false_ne_true
      rw [if_neg (by rw [decide_eq_true_eq]; exact offline)]
      exact served_silent holds fd (.askedOffline ha hsession)
    | some entry =>
      obtain ⟨name, talker⟩ := entry
      have online : Online w.redis a.id := (holds.online_iff _).mpr (by rw [hsession]; rfl)
      rw [if_pos (decide_eq_true online), Prog.run_bind_ok (holds.run_fd hsession)]
      exact served_answer holds fd (.asked ha hsession)
  · rw [hrows] at hselect
    rw [Prog.run_bind_ok hselect]
    exact served_answer holds fd (.notFound new)

theorem served_accept (htype : obj.msgType = msgAskForFriendAccept) :
    Served E s w (w.runTask E (handle obj fd past)) obj fd (.accept obj.id obj.recverId) := by
  rw [handle_askForFriendAccept fd past htype, World.runTask, askForFriendAcceptTask,
    Prog.run_bind_ok (run_isTalkerOnline holds.redisNormal _)]
  cases hsession : s.sessions obj.recverId with
  | none =>
    have offline : ¬ Online w.redis obj.recverId := by
      rw [holds.online_iff, hsession]
      exact Bool.false_ne_true
    rw [if_neg (by rw [decide_eq_true_eq]; exact offline)]
    exact served_silent holds fd (.acceptOffline _ hsession)
  | some entry =>
    obtain ⟨name, talker⟩ := entry
    have online : Online w.redis obj.recverId :=
      (holds.online_iff _).mpr (by rw [hsession]; rfl)
    rw [if_pos (decide_eq_true online), Prog.run_bind_ok (holds.run_fd hsession),
      Prog.run_bind_ok (holds.run_name _)]
    have hid : (obj.setFd talker).id = obj.id := rfl
    simp only [hid, cstr_senderName, ge_iff_le, Nat.not_le.mpr (senderName_short (s := s) obj.id),
      if_false]
    exact served_answer holds fd (.accepted obj.id hsession)

theorem served_login (htype : obj.msgType = msgLogin) (hlen : obj.len = 0) {name : AccountName}
    (hname : obj.getName past = name.text) :
    Served E s w (w.runTask E (handle obj fd past)) obj fd (.login name (obj.getPasswd past)) := by
  have login : LoginName (obj.getName past) := hname ▸ name.loginName
  rw [handle_login fd past htype, World.runTask]
  rcases holds.filter_cases name with ⟨a, row, ha, rfl, hof, -⟩ | ⟨new, -⟩
  · obtain ⟨row, hrow, hof⟩ := row_of_account holds.accounts ha
    rw [run_login_known fd holds.sqlNormal holds.distinct hlen login hrow (hof.name.trans hname.symm)]
    by_cases right : cstr row.password = obj.getPasswd past
    · have hpasswd : (Columns.passwordUserid.project row).getString .password =
          some row.password := rfl
      have huserid : (Columns.passwordUserid.project row).getInt .userid = some a.id := by
        rw [← hof.id]
        rfl
      have hadd := run_add (E := E) holds.redisNormal a.id fd a.name.toPlainName
      have hstep := represents_step (E := E) holds.redisNormal holds.sessions
        (.add a.id a.name.toPlainName fd)
      rw [SessionCall.task, hadd] at hstep
      have hrun : (loginWithRow obj fd past (Columns.passwordUserid.project row)).run
          (World.answer E) w = (.ok (), { w with
            redis := (enter w.redis a.id).setHash (idText a.id)
              (record (enter w.redis a.id) a.id a.name.toPlainName fd)
            outbound := w.outbound ++ [((obj.setId a.id).setFd fd).setMsgType msgLoginAccept] }) := by
        rw [loginWithRow, hpasswd]
        simp only [ne_eq, right, not_true_eq_false, if_false, huserid, hname]
        exact Prog.run_bind_ok hadd
      rw [hrun, ← right, hof.passwd]
      exact ⟨some (.loggedIn a.id), _, .loggedIn ha,
        ⟨holds.sqlNormal, holds.redisNormal, holds.accounts, hstep.2⟩, rfl⟩
    · rw [run_login_wrong right]
      refine served_answer holds fd (.wrongPasswd ha ?_)
      rw [← hof.passwd]
      exact Ne.symm right
  · rw [run_login_unknown holds.sqlNormal hlen login (hname ▸ holds.unknown new)]
    exact served_answer holds fd (.stranger _ new)

theorem served_register (htype : obj.msgType = msgReg) (hlen : obj.len = 0) {name : AccountName}
    (hname : obj.getName past = name.text) (hquote : (39 : UInt8) ∉ obj.getPasswd past)
    (hback : (92 : UInt8) ∉ obj.getPasswd past)
    (hshort : name.text.length + (obj.getPasswd past).length ≤ 26) :
    Served E s w (w.runTask E (handle obj fd past)) obj fd
      (.register name (obj.getPasswd past)) := by
  obtain ⟨t, ht⟩ : ∃ t : Registration, t = ⟨obj, fd, past⟩ := ⟨_, rfl⟩
  have htask : handle obj fd past = some t.task := by
    rw [handle, htype, ht]
    exact if_neg (by rw [hlen]; decide)
  have hselect : parse t.select = .select .password name.text := by
    rw [Registration.select, Registration.name, ht, hname]
    exact parse_selectCmd _ name.short name.decodes
  have hdecode := decodeBody_eq_self hquote hback
  have hinsert : parse t.insert = .insert name.text fd (obj.getPasswd past) := by
    rw [Registration.insert, Registration.name, Registration.passwd, ht, hname]
    exact parse_insertCmd_uncut name.decodes hdecode (insertCmd_length_le fd hshort)
  have hrows := E.query_select hselect w.userinfo
  have hrun : t.task.run (World.answer E) w = _ :=
    (congrArg (Prog.run (World.answer E) · w) (RegStage.prog_select t)).trans
      (Prog.run_vis_some (answer_executeQuery holds.sqlNormal t.select))
  rw [htask, World.runTask]
  rcases holds.filter_cases name with ⟨a, row, ha, rfl, hof, hfilter⟩ | ⟨new, hfilter⟩
  · simp only [hrows, hfilter, List.map_cons, List.map_nil] at hrun
    rw [hrun]
    have hrefusal : t.refusal (ascii "regin err! name reg exists already!") =
        ChatAnswer.nameTaken.obj obj fd := by rw [Registration.refusal, ht]; rfl
    have h : Served E s w _ obj fd _ := served_answer holds fd (.nameTaken (obj.getPasswd past) ha)
    rw [← hrefusal] at h
    exact h
  · rcases E.update_insert hinsert w.userinfo with hnone | ⟨id, above, hsome⟩
    · have hfail := answer_executeUpdate (E := E) holds.sqlNormal t.insert
      simp only [hnone] at hfail
      simp only [hrows, hfilter, List.map_nil] at hrun
      rw [hrun, RegStage.afterSelect, RegStage.prog_insert, Prog.run_vis_some hfail]
      have hrefusal : t.refusal (ascii "regin err! insert error!\n") =
          ChatAnswer.noAccount.obj obj fd := by rw [Registration.refusal, ht]; rfl
      have h : Served E s w _ obj fd _ :=
        served_answer holds fd (.noAccount new ⟨_, fd, _, holds.accounts, hinsert, hnone⟩)
      rw [← hrefusal] at h
      exact h
    · rw [hfilter, List.map_nil] at hrows
      rw [run_registration holds.sqlNormal hrows hsome above]
      have above' : ∀ b ∈ s.accounts, b.id < id := by
        intro b hb
        obtain ⟨row, hrow, hof⟩ := row_of_account holds.accounts hb
        rw [← hof.id]
        exact above row hrow
      have hcstr : cstr (obj.getPasswd past) = obj.getPasswd past :=
        cstr_eq_self (zero_notMem_cstr _)
      have haccept : t.acceptance id = (ChatAnswer.registered id).obj obj fd := by
        rw [Registration.acceptance, ht]
        rfl
      refine ⟨_, _, .registered (a := ⟨id, name, obj.getPasswd past⟩) new above', ?_, ?_⟩
      · exact ⟨holds.sqlNormal, holds.redisNormal,
          List.rel_append holds.accounts (.cons ⟨rfl, rfl, hcstr⟩ .nil), holds.sessions⟩
      · rw [haccept]
        rfl

theorem served_other (htype : obj.msgType ∉
    [msgReg, msgLogin, msgTalk, msgAskForFriend, msgAskForFriendAccept]) :
    Served E s w (w.runTask E (handle obj fd past)) obj fd .other := by
  have hnone : handle obj fd past = none := by
    rw [Option.eq_none_iff_forall_ne_some]
    intro task htask
    rcases handle_cases htask with ⟨h, -⟩ | ⟨h, -⟩ | ⟨h, -⟩ | ⟨h, -⟩ | ⟨h, -⟩
    all_goals
      rw [h] at htype
      exact absurd (by simp only [List.mem_cons, true_or, or_true]) htype
  rw [hnone, World.runTask]
  exact served_silent holds fd .other

/-- **A task serves the request that its object means.** -/
theorem served_of_means (hlen : obj.len = 0) {meant : ChatRequest} (means : Means obj past meant) :
    Served E s w (w.runTask E (handle obj fd past)) obj fd meant := by
  cases means with
  | register htype hname hquote hback hshort =>
    exact served_register holds fd past htype hlen hname hquote hback hshort
  | login htype hname => exact served_login holds fd past htype hlen hname
  | talk htype => exact served_talk holds fd past htype
  | ask htype hname => exact served_ask holds fd past htype hname
  | accept htype => exact served_accept holds fd past htype
  | other htype => exact served_other holds fd past htype

end Served

/-! ## A run -/

/-- What the tasks under way have made of a world: there is none, or one, and its rest comes to what
the whole task does alone. -/
inductive Underway (E : Mysql) (w : World) : List Begun → World → Prop where
  | none : Underway E w [] w
  | one {b : Begun} {w' : World} {meant : ChatRequest} (means : Means b.request.obj b.past meant)
      (decoded : b.request.obj.len = 0)
      (rest : (b.task.run (World.answer E) w').2 =
        w.runTask E (handle b.request.obj b.request.fd b.past)) : Underway E w [b] w'

/-- What the simulation keeps: its events are the completed requests, what they were answered is what
was sent, and the service is what the stores held when the task under way began. -/
structure Simulates (E : Mysql) (s : ServerLog) (events : List ChatEvent) (service : ChatService) :
    Prop where
  stores : ∃ w, Holds w service ∧ w.outbound = events.flatMap ChatEvent.sent ∧
    Underway E w s.begun s.world
  completed : s.completed = events.map fun e => (e.request, e.past)
  /-- the objects are as they were decoded -/
  decoded : ∀ r ∈ s.pending, r.obj.len = 0

section Run

variable {E : Mysql} {s s' : ServerLog} {events : List ChatEvent} {service : ChatService} {w : World}

/-- A world in which no task is under way is what the tasks have left. -/
theorem Underway.idle {w' : World} (underway : Underway E w [] w') : w' = w := by
  cases underway
  rfl

/-- One operation of the task under way, while no other task is: running the rest of it alone still
comes to the same world. -/
theorem Underway.operate {begun : List Begun} {w' w'' : World} (underway : Underway E w begun w')
    {j : Nat} {b : Begun} (hb : begun[j]? = some b) {o : Effect} {k : o.Ans → Task Unit}
    (htask : b.task = .vis o k) {answer : o.Ans}
    (answered : World.answer E o w' = some (answer, w'')) :
    Underway E w (begun.set j { b with task := k answer }) w'' := by
  cases underway with
  | none => cases hb
  | one means decoded rest =>
    rw [List.getElem?_singleton, Option.ite_none_right_eq_some] at hb
    obtain ⟨rfl, hb⟩ := hb
    cases hb
    rw [htask, Prog.run_vis_some answered] at rest
    exact .one means decoded rest

/-- The task under way has come to its end: the request is served. -/
theorem Underway.complete {begun : List Begun} {w' : World} (underway : Underway E w begun w')
    (holds : Holds w service) {j : Nat} {b : Begun} (hb : begun[j]? = some b) {u : Unit}
    (htask : b.task = .pure u) :
    begun.eraseIdx j = [] ∧ ∃ meant, Means b.request.obj b.past meant ∧
      Served E service w w' b.request.obj b.request.fd meant := by
  cases underway with
  | none => cases hb
  | one means decoded rest =>
    rw [List.getElem?_singleton, Option.ite_none_right_eq_some] at hb
    obtain ⟨rfl, hb⟩ := hb
    cases hb
    have served := served_of_means (E := E) holds b.request.fd b.past decoded means
    rw [htask, Prog.run_pure] at rest
    rw [← rest] at served
    exact ⟨rfl, _, means, served⟩

/-- When a task has come to its end, its request is one step of the service, with its answer as the
event. -/
theorem Simulates.serve (sim : Simulates E s events service) {w w' : World} {r : Request}
    {past : Bytes} {meant : ChatRequest} (means : Means r.obj past meant)
    (sent : w.outbound = events.flatMap ChatEvent.sent)
    (served : Served E service w w' r.obj r.fd meant) {loop : IOLoop} {pending : List Request}
    (hpending : pending ⊆ s.pending) :
    ∃ e service', ChatService.Next E.Refuses service e service' ∧
      Simulates E ⟨w', loop, pending, [], s.completed ++ [(r, past)]⟩ (events ++ [e]) service' := by
  obtain ⟨answer, service', step, holds', hsent⟩ := served
  refine ⟨⟨r, past, meant, means, answer⟩, service', step, ⟨w', holds', ?_, .none⟩, ?_,
    fun r' hr' => sim.decoded r' (hpending hr')⟩
  · rw [hsent, sent, List.flatMap_append, List.flatMap_singleton]
    rfl
  · rw [sim.completed, List.map_append, List.map_singleton]

theorem Simulates.step (sim : Simulates E s events service) {a : ServerLogAction}
    (oneByOne : s.OneByOne a) (h : s.step E a = some s') : Simulates E s' events service ∨
      ∃ e service', ChatService.Next E.Refuses service e service' ∧
        Simulates E s' (events ++ [e]) service' := by
  obtain ⟨w, holds, sent, underway⟩ := sim.stores
  cases a with
  | accept listener client buffer =>
    obtain ⟨loop, -, rfl⟩ := Option.map_eq_some_iff.mp h
    exact .inl ⟨sim.stores, sim.completed, sim.decoded⟩
  | ready fd e read =>
    obtain ⟨⟨loop, passed⟩, hready, rfl⟩ := Option.map_eq_some_iff.mp h
    refine .inl ⟨sim.stores, sim.completed, fun r hr => ?_⟩
    rcases List.mem_append.mp hr with hold | hnew
    · exact sim.decoded r hold
    · obtain ⟨obj, hobj, rfl⟩ := Option.map_eq_some_iff.mp (Option.mem_toList.mp hnew)
      rw [hobj] at hready
      exact IOLoop.len_of_ready hready
  | begins i past =>
    obtain ⟨r, hr, rfl⟩ := Option.map_eq_some_iff.mp h
    obtain ⟨idle, understood⟩ := oneByOne
    obtain ⟨meant, means⟩ := understood r hr
    have hlen := sim.decoded r (List.mem_of_getElem? hr)
    rw [idle] at underway
    obtain rfl := underway.idle
    cases htask : handle r.obj r.fd past with
    | none =>
      have served := served_of_means (E := E) holds r.fd past hlen means
      rw [htask, World.runTask] at served
      rw [idle]
      exact .inr (sim.serve means sent served List.eraseIdx_subset)
    | some task =>
      refine .inl ⟨⟨_, holds, sent, ?_⟩, sim.completed, fun r' hr' =>
        sim.decoded r' (List.mem_of_mem_eraseIdx hr')⟩
      rw [idle]
      refine .one means hlen ?_
      rw [htask]
      rfl
  | operate j =>
    obtain ⟨b, hb, h⟩ := Option.bind_eq_some_iff.mp h
    cases htask : b.task with
    | pure u =>
      rw [htask] at h
      cases h
    | vis o k =>
      simp only [htask] at h
      obtain ⟨⟨answer, world⟩, answered, rfl⟩ := Option.map_eq_some_iff.mp h
      exact .inl ⟨⟨w, holds, sent, underway.operate hb htask answered⟩, sim.completed, sim.decoded⟩
  | complete j =>
    obtain ⟨b, hb, h⟩ := Option.bind_eq_some_iff.mp h
    cases htask : b.task with
    | pure u =>
      simp only [htask] at h
      cases h
      obtain ⟨hrest, meant, means, served⟩ := underway.complete holds hb htask
      rw [hrest]
      exact .inr (sim.serve means sent served (List.Subset.refl _))
    | vis o k =>
      rw [htask] at h
      cases h

/-- Every run whose tasks do not overlap is simulated by a history of the service that starts with
nobody registered. -/
theorem simulates_of_reaches {loop : IOLoop}
    (reach : Reaches (ServerLog.step E) ServerLog.OneByOne (.start loop) s) :
    ∃ events service, History (ChatService.Next E.Refuses) .empty events service ∧
      Simulates E s events service :=
  reach.refines ⟨⟨_, holds_empty, rfl, .none⟩, rfl, fun r hr => by cases hr⟩
    fun _ _ _ _ _ sim oneByOne h => sim.step oneByOne h

/-- Where no task is under way, the stores hold the service. -/
theorem Simulates.idle (sim : Simulates E s events service) (idle : s.begun = []) :
    Holds s.world service ∧ s.world.outbound = events.flatMap ChatEvent.sent := by
  obtain ⟨w, holds, sent, underway⟩ := sim.stores
  rw [idle] at underway
  rw [underway.idle]
  exact ⟨holds, sent⟩

/-- **The server refines the chat service**: a run whose tasks do not overlap, and whose requests mean
something, is a run of the service on them, in the order of their completion. Where no task is under
way the stores hold the service, and exactly its answers are sent. -/
theorem refines_service {loop : IOLoop}
    (reach : Reaches (ServerLog.step E) ServerLog.OneByOne (.start loop) s) :
    ∃ events service, History (ChatService.Next E.Refuses) .empty events service ∧
      s.completed = events.map (fun e => (e.request, e.past)) ∧
      (s.begun = [] → Holds s.world service ∧
        s.world.outbound = events.flatMap ChatEvent.sent) := by
  obtain ⟨events, service, history, sim⟩ := simulates_of_reaches reach
  exact ⟨events, service, history, sim.completed, sim.idle⟩

/-- The stores are what the answers have acknowledged. -/
structure StoresAcknowledged (s : ServerLog) (events : List ChatEvent) : Prop where
  completed : s.completed = events.map fun e => (e.request, e.past)
  sent : s.world.outbound = events.flatMap ChatEvent.sent
  /-- every row is an acknowledged registration's, in the order of the acknowledgements -/
  rows : List.Forall₂ RowOf s.world.userinfo (events.filterMap ChatEvent.account)
  /-- every session is the last acknowledged login of its user -/
  sessions : Represents s.world.redis (sessionMap (events.filterMap ChatEvent.session))
  usernames : (s.world.userinfo.map UserRow.username).Nodup
  userids : s.world.userinfo.Pairwise fun a b => a.userid < b.userid

/-- Rows have their accounts' ids, so they are in the order of these. -/
theorem pairwise_userid {t : UserInfo} {accounts : List Account} (h : List.Forall₂ RowOf t accounts)
    (ids : accounts.Pairwise fun a b => a.id < b.id) :
    t.Pairwise fun a b => a.userid < b.userid := by
  induction h with
  | nil => exact .nil
  | cons hof rest ih =>
    obtain ⟨hfirst, hrest⟩ := List.pairwise_cons.mp ids
    refine List.pairwise_cons.mpr ⟨fun row hrow => ?_, ih hrest⟩
    obtain ⟨a, ha, hof'⟩ := account_of_row rest hrow
    rw [hof.id, hof'.id]
    exact hfirst a ha

end Run

/-! ## A registration -/

/-- One connection, with descriptor 5 beside the listener's 3, and nothing stored. -/
def oneConnection : IOLoop := ⟨(∅ : AList _).insert 5 (.echo ⟨0, .fill _ 0⟩), [5, 3]⟩

def bobAccount : AccountName :=
  ⟨⟨ascii "bob", by decide, by decide, by decide, by decide, by decide⟩, by decide, by decide⟩

/-- The object of `bob`'s registration means the registration of `bob` under the password `secret`.
-/
theorem means_bobReg : Means (bobReg 5).obj [] (.register bobAccount (ascii "secret")) := by
  have hpasswd : (bobReg 5).obj.getPasswd [] = ascii "secret" := by decide
  rw [← hpasswd]
  refine .register rfl (by decide) ?_ ?_ ?_
  all_goals
    rw [hpasswd]
    decide

/-- `bob` registers: his block is received, a worker begins the task, and performs it. -/
theorem registers_bob : ∃ s, Reaches (ServerLog.step .reference) ServerLog.OneByOne
    (.start oneConnection) s ∧ s.begun = [] ∧ s.completed = [(⟨(bobReg 5).obj, 5⟩, [])] := by
  obtain ⟨h, hready⟩ := ready_sendBuf (l := oneConnection) (AList.lookup_insert _) (bobReg 5).obj
  have asks : ServerLog.step .reference (.start oneConnection)
      (.ready 5 .epollin (some (Client.sendBuf (bobReg 5).obj))) = some
        ⟨emptyWorld, oneConnection.addHandler 5 (.echo h), [⟨(bobReg 5).obj, 5⟩], [], []⟩ := by
    rw [ServerLog.step, ServerLog.start, hready]
    rfl
  have begun : Reaches (ServerLog.step .reference) ServerLog.OneByOne (.start oneConnection) _ :=
    .step (.step .refl (a := .ready 5 .epollin _) trivial asks) (a := .begins 0 [])
      ⟨rfl, fun r hr => by
        cases hr
        exact ⟨_, means_bobReg⟩⟩ rfl
  have operates : ∀ {s s' : ServerLog}, s.step .reference (.operate 0) = some s' →
      Reaches (ServerLog.step .reference) ServerLog.OneByOne (.start oneConnection) s →
      Reaches (ServerLog.step .reference) ServerLog.OneByOne (.start oneConnection) s' :=
    fun h reach => .step reach (a := .operate 0) trivial h
  have performed := operates rfl (operates rfl (operates rfl (operates rfl begun)))
  exact ⟨_, .step performed (a := .complete 0) trivial rfl, rfl, rfl⟩

theorem refines_registration : ∃ s : ServerLog, s.begun = [] ∧
    s.completed = [(⟨(bobReg 5).obj, 5⟩, [])] ∧
    ∃ events service, History (ChatService.Next Mysql.reference.Refuses) .empty events service ∧
      s.completed = events.map (fun e => (e.request, e.past)) ∧
      (s.begun = [] → Holds s.world service ∧
        s.world.outbound = events.flatMap ChatEvent.sent) := by
  obtain ⟨s, reach, idle, hcompleted⟩ := registers_bob
  exact ⟨s, idle, hcompleted, refines_service reach⟩

end Smer
