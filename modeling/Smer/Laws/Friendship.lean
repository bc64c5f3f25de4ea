import Smer.Laws.Deployment

/-!
# Who one's friends are

A friend enters a client's list with a name and an id, from an acceptance that has reached the client
or from a request in its list that its player accepts. An acceptance bears the id of the player who
has typed it, and that is the id which the server has told to this player; a request bears none. So
nobody becomes a friend under an id that the server has not given to the one who accepts
(`befriended_of_reaches`), and one who is accepted is a friend without an id.

What holds of every run of a client holds of each client of a `Deployment` (`reaches_site`). What a
`Deployment` assumes is assumed here too: messages and objects arrive whole, and neither a handler
nor the reading of a line is interrupted. A line that is read inside `setPlayerLogin`, after the flag
and before the id, would bear the id that the player had before.
-/

namespace Smer

open Lib

/-! ## The ids of a client's messages -/

namespace ClientRun

/-- The ids that a client's messages bear: a request bears -1, and an acceptance the id under which
the server has accepted the player. -/
structure Identified (s : ClientRun) : Prop where
  /-- an acceptance bears an id that the server has told to this client -/
  accepts : ∀ obj ∈ s.game.buff, obj.msgType = msgAskForFriendAccept →
    ∃ e ∈ s.handled, e.1.msgType ∈ [msgLoginAccept, msgRegAccept] ∧ e.1.id = obj.id
  /-- and is addressed to the id of a request that has come -/
  addressed : ∀ obj ∈ s.game.buff, obj.msgType = msgAskForFriendAccept →
    ∃ req ∈ s.client.reqBuff.data, req.id = obj.recverId
  asks : ∀ obj ∈ s.game.buff, obj.msgType = msgAskForFriend → obj.id = -1

section Identified

variable {c : ClientState} {s s' : ClientRun}

theorem identified_start (settings : Termios) (c : ClientState) :
    (start settings c).Identified where
  accepts obj h := by cases h
  addressed obj h := by cases h
  asks obj h := by cases h

/-- An object that tells an id gives it to the player. -/
theorem identity_told {obj : TransObj} (htype : obj.msgType ∈ [msgLoginAccept, msgRegAccept])
    (past : Bytes) (data : PlayerData) : (obj.identity past data).id = obj.id := by
  rw [TransObj.identity]
  split
  · rfl
  · rename_i hreg
    rcases List.mem_cons.mp htype with hlogin | hother
    · rw [if_pos hlogin]
    · exact absurd (List.mem_singleton.mp hother) hreg

theorem identity_other {obj : TransObj} (htype : obj.msgType ∉ [msgLoginAccept, msgRegAccept])
    (past : Bytes) (data : PlayerData) : obj.identity past data = data := by
  simp only [List.mem_cons, List.not_mem_nil, or_false, not_or] at htype
  rw [TransObj.identity, if_neg htype.2, if_neg htype.1]

/-- The id of a player who was told one is that of an object handled. -/
theorem exists_of_identity (data : PlayerData) {handled : List (TransObj × Bytes)}
    (told : ∃ e ∈ handled, e.1.msgType ∈ [msgLoginAccept, msgRegAccept]) :
    ∃ e ∈ handled, e.1.msgType ∈ [msgLoginAccept, msgRegAccept] ∧
      e.1.id = (handled.foldl (fun data e => e.1.identity e.2 data) data).id := by
  induction handled using List.reverseRecOn with
  | nil =>
    obtain ⟨e, he, -⟩ := told
    cases he
  | append_singleton handled e ih =>
    rw [List.foldl_append, List.foldl_cons, List.foldl_nil]
    by_cases htype : e.1.msgType ∈ [msgLoginAccept, msgRegAccept]
    · exact ⟨e, List.mem_append_right _ List.mem_cons_self, htype, (identity_told htype _ _).symm⟩
    · rw [identity_other htype]
      obtain ⟨e', he', htype'⟩ := told
      rcases List.mem_append.mp he' with hold | hnew
      · obtain ⟨e'', he'', hwhy⟩ := ih ⟨e', hold, htype'⟩
        exact ⟨e'', List.mem_append_left _ he'', hwhy⟩
      · rw [List.mem_singleton.mp hnew] at htype'
        exact absurd htype' htype

/-- A step that types nothing makes no message, so the ids of the messages are as they were. -/
theorem Identified.quiet (ident : s.Identified) (buff : s'.game.buff = s.game.buff)
    (handled : s.handled ⊆ s'.handled)
    (requests : s.client.reqBuff.data ⊆ s'.client.reqBuff.data) : s'.Identified := by
  refine ⟨fun obj hobj htype => ?_, fun obj hobj htype => ?_, fun obj hobj => ?_⟩
  all_goals rw [buff] at hobj
  · obtain ⟨e, he, hwhy⟩ := ident.accepts obj hobj htype
    exact ⟨e, handled he, hwhy⟩
  · obtain ⟨req, hreq, hid⟩ := ident.addressed obj hobj htype
    exact ⟨req, requests hreq, hid⟩
  · exact ident.asks obj hobj

/-- A player who types an acceptance is logged in, and has been told an id by then. -/
theorem Identified.line (ident : s.Identified) (session : SessionOf c s)
    (hc : c.player.logined = false) {game : Game} {past : Bytes} {made : Option TransObj}
    {client : ClientState} {put : List SystemMsgObj} (typed : Typed past s.client made client)
    (buff : game.buff = s.game.buff ++ made.toList) :
    Identified { s with game := game, client := client, put := put } := by
  have hcases : ∀ obj ∈ game.buff, obj ∈ s.game.buff ∨ obj ∈ made := fun obj hobj => by
    rw [buff] at hobj
    exact (List.mem_append.mp hobj).imp_right Option.mem_toList.mp
  refine ⟨fun obj hobj htype => ?_, fun obj hobj htype => ?_, fun obj hobj htype => ?_⟩
  · rcases hcases obj hobj with hold | hmade
    · exact ident.accepts obj hold htype
    · have hlogined : s.client.player.logined = true := by
        refine (typed.gated obj hmade).resolve_right fun hgate => ?_
        rw [htype] at hgate
        exact absurd hgate (by decide)
      rw [session.logined, hc, Bool.false_or] at hlogined
      obtain ⟨e, he, hlogin⟩ := List.any_eq_true.mp hlogined
      have hlogin : e.1.msgType = msgLoginAccept := of_decide_eq_true hlogin
      have told := exists_of_identity c.player.data
        ⟨e, he, hlogin ▸ List.mem_cons_self⟩
      rwa [← session.data, ← typed.accepts obj hmade htype] at told
  · rw [typed.reqBuff]
    rcases hcases obj hobj with hold | hmade
    · exact ident.addressed obj hold htype
    · exact typed.addressed obj hmade htype
  · rcases hcases obj hobj with hold | hmade
    · exact ident.asks obj hold htype
    · exact typed.asks obj hmade htype

theorem Identified.move (ident : s.Identified) (session : SessionOf c s)
    (hc : c.player.logined = false) (move : ClientMove s s') : s'.Identified := by
  cases move with
  | receive obj => exact ident.quiet rfl (List.Subset.refl _) (List.Subset.refl _)
  | take past hsys buff pipe =>
    exact ident.quiet buff (List.Subset.refl _) (List.Subset.refl _)
  | handle hrcv handling grows buff pipe =>
    refine ident.quiet buff (List.subset_append_left _ _) ?_
    dsimp only
    rw [handling.reqBuff]
    split
    · exact List.subset_append_left _ _
    · exact List.Subset.refl _
  | print buff pipe => exact ident.quiet buff (List.Subset.refl _) (List.Subset.refl _)
  | line typed grows buff pipe => exact ident.line session hc typed buff
  | goesOn buff pipe => exact ident.quiet buff (List.Subset.refl _) (List.Subset.refl _)

/-- **A client's messages bear no id that the server has not told to it.** -/
theorem identified_of_reaches {settings : Termios} (hc : c.player.logined = false)
    (reach : Reaches step (fun _ _ => True) (start settings c) s) :
    SessionOf c s ∧ s.Identified := by
  refine reach.invariant (I := fun s => SessionOf c s ∧ s.Identified)
    ⟨sessionOf_start settings, identified_start settings c⟩ ?_
  intro s s' a inv _ h
  have move := move_of_step h
  exact ⟨inv.1.move move, inv.2.move inv.1 hc move⟩

end Identified

end ClientRun

/-! ## A client among others -/

namespace Deployment

/-- The clients that connect have neither friends nor requests yet. -/
def Strangers (_ : Deployment) : DeploymentAction → Prop
  | .join _ _ _ _ state => state.player.friends.entries = [] ∧ state.reqBuff.data = []
  | .client _ _ | .request _ _ | .event _ _ | .arrive _ | .server _ => True

instance (d : Deployment) : (a : DeploymentAction) → Decidable (Strangers d a)
  | .join _ _ _ _ _ => inferInstanceAs (Decidable (_ ∧ _))
  | .client _ _ | .request _ _ | .event _ _ | .arrive _ | .server _ => .isTrue trivial

/-- A run of a client's own, from where it connected as a stranger. -/
def RunsAlone (run : ClientRun) : Prop :=
  ∃ settings c, c.player.logined = false ∧ c.player.friends = ∅ ∧ c.reqBuff.data = [] ∧
    Reaches ClientRun.step (fun _ _ => True) (ClientRun.start settings c) run

/-- An id that the server has told to a site, on the site's own connection. -/
def Told (d : Deployment) (site : Site) (id : Int32) : Prop :=
  ∃ r req reply, d.answering.origin[r]? = some (some req) ∧ req.fd = site.fd ∧
    (r, reply) ∈ d.answering.sender.objs.pushed ∧
    reply.msgType ∈ [msgLoginAccept, msgRegAccept] ∧ reply.id = id

/-- A message that a site has made whose login the server has accepted. -/
def Made (d : Deployment) (site : Site) (obj : TransObj) : Prop :=
  site ∈ d.sites ∧ obj ∈ site.run.game.buff ∧ d.LoggedIn site

/-- The message `obj` of the site `other` has reached a site: the server has worked on it on the
connection of `other`, has addressed `reply` to the site, and the site has received that. -/
def Reached (d : Deployment) (site other : Site) (obj reply : TransObj) : Prop :=
  ∃ r, d.answering.origin[r]? = some (some ⟨obj.eraseLen, other.fd⟩) ∧
    (r, reply) ∈ d.answering.sender.objs.pushed ∧ reply.fd = site.fd ∧
    reply.eraseLen ∈ site.run.received

/-- Where a friend of that name and id in a site's list comes from. -/
inductive FriendOf (d : Deployment) (site : Site) (name : Bytes) (id : Int32) : Prop where
  /-- another has accepted, under the id that it was told, what it takes for a request of user -1;
  the site has handled the acceptance, and the name is the one that it read from it -/
  | accepted {other : Site} {obj reply : TransObj} (made : d.Made other obj)
      (accepts : obj.msgType = msgAskForFriendAccept) (own : obj.id = id) (told : d.Told other id)
      (addressed : obj.recverId = -1) (reached : d.Reached site other obj reply)
      (named : ∃ past, (reply.eraseLen, past) ∈ site.run.handled ∧
        reply.eraseLen.getName past = name)
  /-- or another has asked with that text, the request is in the site's list, and no id is known of
  the one who has asked -/
  | asked {other : Site} {obj reply : TransObj} (made : d.Made other obj)
      (asks : obj.msgType = msgAskForFriend) (reached : d.Reached site other obj reply)
      (listed : reply.eraseLen ∈ site.run.client.reqBuff.data)
      (text : ∃ past, obj.getMsg past = name) (unknown : id = -1)

section Friends

variable {E : Mysql} {d d' : Deployment} {site : Site}

/-- Where a site's run comes from in a step. -/
theorem site_of_step {a : DeploymentAction} (h : d.step E a = some d') (hsite : site ∈ d'.sites) :
    (∃ old ∈ d.sites, site.run = old.run ∨ ∃ b, old.run.step b = some site.run) ∨
      ∃ listener client buffer settings state, a = .join listener client buffer settings state ∧
        state.player.logined = false ∧ site.run = .start settings state := by
  -- a site in whose place the others stay
  have hset : ∀ {i : Nat} {old new : Site}, d.sites[i]? = some old → site ∈ d.sites.set i new →
      (new.run = old.run ∨ ∃ b, old.run.step b = some new.run) →
      ∃ old ∈ d.sites, site.run = old.run ∨ ∃ b, old.run.step b = some site.run := by
    intro i old new hi hmem hnew
    rcases Handover.mem_set_cases hmem with rfl | ⟨j, -, hj⟩
    · exact ⟨old, List.mem_of_getElem? hi, hnew⟩
    · exact ⟨site, List.mem_of_getElem? hj, .inl rfl⟩
  have hclient : ∀ {i : Nat} {b : ClientAction}, d.clientStep i b = some d' →
      ∃ old ∈ d.sites, site.run = old.run ∨ ∃ b, old.run.step b = some site.run := by
    intro i b h
    obtain ⟨old, hi, h⟩ := Option.bind_eq_some_iff.mp h
    obtain ⟨run, hrun, rfl⟩ := Option.map_eq_some_iff.mp h
    exact hset hi hsite (.inr ⟨b, hrun⟩)
  have hserver : ∀ {b : SenderAction}, d.serverStep E b = some d' →
      ∃ old ∈ d.sites, site.run = old.run ∨ ∃ b, old.run.step b = some site.run := by
    intro b h
    obtain ⟨answering, -, rfl⟩ := Option.map_eq_some_iff.mp h
    obtain ⟨old, hold, rfl⟩ := List.mem_map.mp hsite
    exact ⟨old, hold, .inl rfl⟩
  cases a with
  | join listener client buffer settings state =>
    rw [Deployment.step, Option.ite_none_left_eq_some] at h
    obtain ⟨answering, -, rfl⟩ := Option.map_eq_some_iff.mp h.2
    rcases List.mem_append.mp hsite with hold | hnew
    · exact .inl ⟨site, hold, .inl rfl⟩
    · cases List.mem_singleton.mp hnew
      exact .inr ⟨listener, client, buffer, settings, state, rfl, Bool.eq_false_iff.mpr h.1, rfl⟩
  | client i b =>
    cases b with
    | receive obj => cases h
    | game past outside => exact .inl (hclient h)
    | io heap past outside => exact .inl (hclient h)
  | request i past =>
    obtain ⟨old, hi, h⟩ := Option.bind_eq_some_iff.mp h
    obtain ⟨obj, -, h⟩ := Option.bind_eq_some_iff.mp h
    obtain ⟨answering, -, rfl⟩ := Option.map_eq_some_iff.mp h
    exact .inl (hset hi hsite (.inl rfl))
  | event fd e =>
    obtain ⟨answering, -, rfl⟩ := Option.map_eq_some_iff.mp h
    exact .inl ⟨site, hsite, .inl rfl⟩
  | arrive i =>
    obtain ⟨old, hi, h⟩ := Option.bind_eq_some_iff.mp h
    cases hwire : old.wire with
    | nil =>
      rw [hwire] at h
      cases h
    | cons obj wire =>
      rw [hwire] at h
      simp only [recvMsg_toBytes] at h
      obtain ⟨run, hrun, rfl⟩ := Option.map_eq_some_iff.mp h
      exact .inl (hset hi hsite (.inr ⟨_, hrun⟩))
  | server b =>
    cases b with
    | accept listener client buffer => cases h
    | ready fd e read past => cases h
    | task i => exact .inl (hserver h)
    | elsewhere userinfo redis sqlFaults redisFaults => exact .inl (hserver h)
    | pop => exact .inl (hserver h)
    | serverEnd recverId msg => exact .inl (hserver h)

/-- **Each client of a network takes a run of its own.** -/
theorem reaches_site {loop : IOLoop} {world : World}
    (reach : Reaches (Deployment.step E) Strangers (start loop world) d) :
    ∀ site ∈ d.sites, RunsAlone site.run := by
  refine reach.invariant (I := fun d => ∀ site ∈ d.sites, RunsAlone site.run)
    (fun site h => by cases h) fun d d' a alone strangers h site hsite => ?_
  rcases site_of_step h hsite with ⟨old, hold, hsame | ⟨b, hstep⟩⟩ |
    ⟨listener, client, buffer, settings, state, rfl, hc, hstart⟩
  · rw [hsame]
    exact alone old hold
  · obtain ⟨settings, c, hc, hfriends, hreqs, reach⟩ := alone old hold
    exact ⟨settings, c, hc, hfriends, hreqs, reach.step trivial hstep⟩
  · rw [hstart]
    exact ⟨settings, state, hc, AList.ext strangers.1, strangers.2, .refl⟩

/-- The server has told on a connection what its client has handled as told. -/
theorem Inv.told (inv : d.Inv) (hsite : site ∈ d.sites) {e : TransObj × Bytes}
    (he : e ∈ site.run.handled) (htype : e.1.msgType ∈ [msgLoginAccept, msgRegAccept]) :
    d.Told site e.1.id := by
  obtain ⟨r, req, reply, asker, horigin, hpushed, answers, hfd, hobj, -⟩ :=
    inv.genuine hsite (inv.arrived hsite he)
  rw [hobj] at htype
  have hreq := Answering.mem_requests_of_origin horigin
  refine ⟨r, req, reply, horigin, inv.welcomed hsite hreq answers hfd htype, hpushed, htype, ?_⟩
  rw [hobj]
  rfl

/-- Who makes anything but a login or a registration is logged in. -/
theorem Inv.made (inv : d.Inv) (hsite : site ∈ d.sites) {obj : TransObj}
    (hobj : obj ∈ site.run.game.buff) (htype : obj.msgType ∉ [msgLogin, msgReg]) :
    d.Made site obj := by
  obtain ⟨c, -, session⟩ := (inv.sites site hsite).session
  exact ⟨hsite, hobj, inv.login hsite ((session.gated obj hobj).resolve_left htype)⟩

/-- The list of requests holds requests that have come. -/
theorem mem_requests {reqBuff : ConcList TransObj} {objs : List TransObj} {req : TransObj}
    (h : req ∈ (objs.foldl ConcList.pushBack reqBuff).data) :
    req ∈ reqBuff.data ∨ req ∈ objs := by
  induction objs generalizing reqBuff with
  | nil => exact .inl h
  | cons obj objs ih =>
    rcases ih h with hold | hnew
    · rcases List.mem_append.mp hold with hold | hobj
      · exact .inl hold
      · exact .inr (List.mem_cons.mpr (.inl (List.mem_singleton.mp hobj)))
    · exact .inr (List.mem_cons_of_mem _ hnew)

theorem RunsAlone.session {run : ClientRun} (alone : RunsAlone run) :
    run.Identified ∧ ∃ c, c.player.friends = ∅ ∧ c.reqBuff.data = [] ∧
      ClientRun.SessionOf c run := by
  obtain ⟨settings, c, hc, hfriends, hreqs, reach⟩ := alone
  have both := ClientRun.identified_of_reaches hc reach
  exact ⟨both.2, c, hfriends, hreqs, both.1⟩

/-- A request in a client's list has come to it. -/
theorem Inv.requested (inv : d.Inv) (alone : ∀ site ∈ d.sites, RunsAlone site.run)
    (hsite : site ∈ d.sites) {req : TransObj} (hreq : req ∈ site.run.client.reqBuff.data) :
    req ∈ site.run.received ∧ req.msgType = msgAskForFriend := by
  obtain ⟨-, c, -, hreqs, session⟩ := (alone site hsite).session
  rw [session.requests] at hreq
  rcases mem_requests hreq with hold | hnew
  · rw [hreqs] at hold
    cases hold
  · obtain ⟨hmem, htype⟩ := List.mem_filter.mp hnew
    obtain ⟨e, he, rfl⟩ := List.mem_map.mp hmem
    exact ⟨inv.arrived hsite he, of_decide_eq_true htype⟩

/-- What a client has received was another's message. -/
theorem reached {other : Site} {o reply : TransObj} {r : Nat} {req : Request}
    (hreceived : reply.eraseLen ∈ site.run.received)
    (horigin : d.answering.origin[r]? = some (some req))
    (hpushed : (r, reply) ∈ d.answering.sender.objs.pushed) (hto : reply.fd = site.fd)
    (hfrom : other.fd = req.fd) (heq : o.eraseLen = req.obj) : d.Reached site other o reply := by
  refine ⟨r, ?_, hpushed, hto, hreceived⟩
  rw [heq, hfrom]
  exact horigin

/-- A request that has come is what a player has asked, and bears no id. -/
theorem Inv.friend_asked (inv : d.Inv) (alone : ∀ site ∈ d.sites, RunsAlone site.run)
    (hsite : site ∈ d.sites) {obj : TransObj} (hobj : obj ∈ site.run.received)
    (htype : obj.msgType = msgAskForFriend) :
    obj.id = -1 ∧ ∃ other o reply, d.Made other o ∧ o.msgType = msgAskForFriend ∧
      o.msg = obj.msg ∧ d.Reached site other o reply ∧ obj = reply.eraseLen := by
  obtain ⟨r, req, reply, other, horigin, hpushed, answers, hto, rfl, hother, hfrom, o, ho, heq⟩ :=
    inv.genuine hsite hobj
  obtain ⟨hreq, hid, hmsg⟩ := answers.of_ask htype
  have hmade : o.msgType = msgAskForFriend := (congrArg TransObj.msgType heq).trans hreq
  have hown : o.id = reply.id := (congrArg TransObj.id heq).trans hid.symm
  refine ⟨hown.symm.trans ((alone other hother).session.1.asks o ho hmade), other, o, reply,
    inv.made hother ho ?_, hmade, (congrArg TransObj.msg heq).trans hmsg.symm,
    reached hobj horigin hpushed hto hfrom heq, rfl⟩
  rw [hmade]
  decide

/-- An acceptance that the client has handled makes a friend under the id of the one who accepts. -/
theorem Inv.friend_accepted (inv : d.Inv) (alone : ∀ site ∈ d.sites, RunsAlone site.run)
    (hsite : site ∈ d.sites) {obj : TransObj} {past : Bytes}
    (hhandled : (obj, past) ∈ site.run.handled) (htype : obj.msgType = msgAskForFriendAccept) :
    d.FriendOf site (obj.getName past) obj.id := by
  have hobj : obj ∈ site.run.received := inv.arrived hsite hhandled
  obtain ⟨r, req, reply, other, horigin, hpushed, answers, hto, rfl, hother, hfrom, o, ho, heq⟩ :=
    inv.genuine hsite hobj
  obtain ⟨hreq, hid⟩ := answers.of_accept htype
  have hmade : o.msgType = msgAskForFriendAccept :=
    (congrArg TransObj.msgType heq).trans hreq
  have hown : o.id = reply.id := (congrArg TransObj.id heq).trans hid.symm
  have identified := (alone other hother).session.1
  obtain ⟨e, he, hwelcome, htold⟩ := identified.accepts o ho hmade
  obtain ⟨ask, hask, hrecver⟩ := identified.addressed o ho hmade
  obtain ⟨hcame, hasks⟩ := inv.requested alone hother hask
  refine .accepted (inv.made hother ho ?_) hmade hown ?_ ?_
    (reached hobj horigin hpushed hto hfrom heq) ⟨past, hhandled, rfl⟩
  · rw [hmade]
    decide
  · show d.Told other reply.id
    rw [← hown, ← htold]
    exact inv.told hother he hwelcome
  · rw [← hrecver]
    exact (inv.friend_asked alone hother hcame hasks).1

/-- **Nobody becomes a friend under an id that the server has not told to the one who accepts.** -/
theorem befriended_of_reaches {loop : IOLoop} {world : World}
    (reach : Reaches (Deployment.step E) Strangers (start loop world) d)
    (hsite : site ∈ d.sites) {name : Bytes} {id : Int32}
    (hfriend : site.run.client.player.friends.lookup name = some (some id)) :
    d.FriendOf site name id := by
  have inv : d.Inv := (reach.mono fun _ _ _ => trivial).invariant (inv_start loop world)
    fun _ _ _ inv _ h => inv.step h
  have alone := reaches_site reach
  obtain ⟨-, c, hfriends, -, session⟩ := (alone site hsite).session
  rcases session.friends name id hfriend with hstart |
    ⟨e, he, htype, rfl, rfl⟩ | ⟨req, hreq, past, rfl, rfl⟩
  · rw [hfriends, AList.lookup_empty] at hstart
    cases hstart
  · exact inv.friend_accepted alone hsite he htype
  · obtain ⟨hcame, htype⟩ := inv.requested alone hsite hreq
    obtain ⟨hid, other, o, reply, made, hasks, hmsg, hreached, rfl⟩ :=
      inv.friend_asked alone hsite hcame htype
    refine .asked made hasks hreached hreq ⟨past, ?_⟩ hid
    rw [TransObj.getMsg, hmsg]
    rfl

end Friends

/-- `bob` and `amy` have registered. -/
def twoKnown : World := { emptyWorld with
  userinfo := [⟨1, ascii "bob", 7, ascii "secret"⟩, ⟨2, ascii "amy", 7, ascii "secret"⟩] }

/-- The player of a client presses enter and types a line. -/
def types (i : Nat) (line : Bytes) : List DeploymentAction :=
  List.replicate 14 (.client i (.game [] pressingEnter)) ++
    List.replicate 8 (.client i (.io (.fill _ 0) [] { ClientRun.idle with line := line }))

/-- The server works on the next message of a client and sends what it replies. -/
def serves (i r steps : Nat) : List DeploymentAction :=
  .request i [] :: List.replicate steps (.server (.task r)) ++ [.server .pop]

/-- Client `i` goes through a frame of its game thread, in which it handles what has come. -/
def handles (i : Nat) : List DeploymentAction :=
  .arrive i :: List.replicate 10 (.client i (.game [] ClientRun.idle))

/-- Both log in, `amy` asks `bob`, and `bob` accepts. -/
def amyAsksBob : List DeploymentAction :=
  .join 3 5 (.fill _ 0) ClientRun.noSettings Util.startedClient ::
    .join 3 6 (.fill _ 0) ClientRun.noSettings Util.startedClient ::
    types 0 (ascii "li@bob|secret") ++ serves 0 0 13 ++ handles 0 ++
    types 1 (ascii "li@amy|secret") ++ serves 1 1 13 ++ handles 1 ++
    types 1 (ascii "ad@bob") ++ serves 1 2 10 ++ .arrive 0 :: types 0 (ascii "ar@0")

/-- The steps of a deployment whose clients join as strangers, without a friend or a request. -/
def strangerStep (d : Deployment) (a : DeploymentAction) : Option Deployment :=
  if Strangers d a then d.step .reference a else none

theorem befriended_bob :
    ∃ d, play strangerStep amyAsksBob (start listening twoKnown) = some d ∧
      ∃ site ∈ d.sites, site.run.client.player.friends.lookup (ascii "bob") = some (some (-1)) ∧
        d.FriendOf site (ascii "bob") (-1) := by
  have hplays : (play strangerStep amyAsksBob (start listening twoKnown)).map (fun d =>
      d.sites.map fun site => site.run.client.player.friends.lookup (ascii "bob")) =
        some [some (some (-1)), none] := by
    decide +kernel
  obtain ⟨d, hd, hfriends⟩ := Option.map_eq_some_iff.mp hplays
  obtain ⟨site, sites, hsites, hfriend, -⟩ := List.map_eq_cons_iff.mp hfriends
  have hsite : site ∈ d.sites := hsites ▸ List.mem_cons_self
  exact ⟨d, hd, site, hsite, hfriend, befriended_of_reaches (Reaches.of_play hd) hsite hfriend⟩

end Deployment

end Smer
