import Smer.Laws.ClientSession
import Smer.Server.Deployment

/-!
# From the keyboard of one client to the screen of another

The laws of the parts, put together for every run of a `Deployment` (`endToEnd_of_reaches`). What
the server works on for a connection is what its client has made, in order and each message at most
once. What a client receives is what was sent to its descriptor, in order, and each object of it is an
answer to a request. So nobody is logged in without having asked for it: a player who is logged in
has typed a login that the server has received on this connection and accepted.

Every block and every object is received whole and alone here, a handler and a line are one step of
a client, and the objects of the keys are left out. On a stream that is cut in another way none of
this is established: `Laws.Framing` says what arrives then.
-/

namespace Smer

open Lib

/-! ## What the server's steps leave alone -/

/-- What the sender has sent stays at the front of what it has sent after more pops. -/
theorem Client.sent_append (pops more : List (Option TransObj)) :
    ∃ new, Client.sent (pops ++ more) = Client.sent pops ++ new := by
  induction pops with
  | nil => exact ⟨Client.sent more, rfl⟩
  | cons pop pops ih =>
    obtain ⟨new, hnew⟩ := ih
    cases pop with
    | none => exact ⟨new, hnew⟩
    | some obj =>
      rw [List.cons_append, Client.sent, Client.sent]
      split
      · exact ⟨[], rfl⟩
      · exact ⟨new, by rw [hnew, List.cons_append]⟩

namespace IOLoop

/-- The descriptor of a connection that is accepted is one that the loop has never had open:
descriptors are not closed, so none comes again. -/
theorem opened_accept {l l' : IOLoop} {listener client : Int32} {buffer : CharArray bufferSize}
    (h : l.accept listener client buffer = some l') :
    0 ≤ client ∧ client ∉ l.opened ∧ l'.opened = client :: l.opened := by
  unfold accept at h
  split at h
  · split at h
    · cases h
    · rename_i hfresh
      rw [not_or] at hfresh
      cases h
      exact ⟨Int32.not_lt.mp hfresh.1, hfresh.2, rfl⟩
  · cases h

/-- An event of a connection opens no descriptor and closes none, also when it ends the connection.
-/
theorem opened_ready {l l' : IOLoop} {fd : Int32} {e : Events} {read : Option Bytes}
    {passed : Option TransObj} (h : l.ready fd e read = some (l', passed)) :
    l'.opened = l.opened := by
  unfold ready at h
  split at h
  · split at h
    · cases h
    · cases h
      split <;> rfl
  · cases h

/-- An event without data passes nothing on. -/
theorem ready_none {l l' : IOLoop} {fd : Int32} {e : Events} {passed : Option TransObj}
    (h : l.ready fd e none = some (l', passed)) : passed = none := by
  unfold ready at h
  split at h
  · split at h
    · cases h
    · cases h
      unfold EchoHandler.handle
      split
      · rfl
      · split
        · rfl
        · dsimp only
          split
          · rfl
          · rfl
  · cases h

/-- An event with one whole block passes its object on, with `len` zero. -/
theorem ready_passed {l l' : IOLoop} {fd : Int32} {obj : TransObj} {passed : Option TransObj}
    (h : l.ready fd .epollin (some (Client.sendBuf obj)) = some (l', passed)) :
    passed = some obj.eraseLen := by
  cases hfd : l.handlers.lookup fd with
  | none =>
    rw [ready, hfd] at h
    cases h
  | some handler =>
    cases handler with
    | server =>
      rw [ready, hfd] at h
      cases h
    | echo handler =>
      obtain ⟨handler', hready⟩ := ready_sendBuf hfd obj
      rw [hready] at h
      cases h
      rfl

end IOLoop

namespace ReplyTo

variable {req : Request} {reply : TransObj}

/-- An acceptance of a login answers a login. -/
theorem of_loginAccept (answers : ReplyTo req reply) (htype : reply.msgType = msgLoginAccept) :
    req.obj.msgType = msgLogin := by
  cases answers with
  | talk hreq =>
    rw [hreq] at htype
    exact absurd htype (by decide)
  | register hreq hreply hfd =>
    rw [htype] at hreply
    exact absurd hreply (by decide)
  | loggedIn id hreq => exact hreq
  | stranger hreq => exact hreq
  | refused reason hreq => exact hreq
  | ask id fd hreq =>
    have hsame : req.obj.msgType = msgLoginAccept := htype
    rw [hreq] at hsame
    exact absurd hsame (by decide)
  | notFound hreq =>
    exact absurd (show msgAskForFriendNotFound = msgLoginAccept from htype) (by decide)
  | accept hreq hreply hid hrecver =>
    rw [hreply] at htype
    exact absurd htype (by decide)

/-- A talk that is sent is the talk that was received, unchanged. -/
theorem of_talk (answers : ReplyTo req reply) (htype : reply.msgType = msgTalk) :
    reply = req.obj := by
  cases answers with
  | talk hreq => rfl
  | register hreq hreply hfd =>
    rw [htype] at hreply
    exact absurd hreply (by decide)
  | loggedIn id hreq | stranger hreq => exact absurd htype (by decide : msgLoginAccept ≠ msgTalk)
  | refused reason hreq =>
    rw [TransObj.setMsg_msgType] at htype
    exact absurd htype (by decide : msgLoginRefuse ≠ msgTalk)
  | ask id fd hreq =>
    have hsame : req.obj.msgType = msgTalk := htype
    rw [hreq] at hsame
    exact absurd hsame (by decide)
  | notFound hreq => exact absurd (show msgAskForFriendNotFound = msgTalk from htype) (by decide)
  | accept hreq hreply hid hrecver =>
    rw [hreply] at htype
    exact absurd htype (by decide)

/-- An acceptance of a friendship keeps the id of its sender. -/
theorem of_accept (answers : ReplyTo req reply) (htype : reply.msgType = msgAskForFriendAccept) :
    req.obj.msgType = msgAskForFriendAccept ∧ reply.id = req.obj.id := by
  cases answers with
  | talk hreq => exact ⟨htype, rfl⟩
  | register hreq hreply hfd =>
    rw [htype] at hreply
    exact absurd hreply (by decide)
  | loggedIn id hreq | stranger hreq =>
    exact absurd htype (by decide : msgLoginAccept ≠ msgAskForFriendAccept)
  | refused reason hreq =>
    rw [TransObj.setMsg_msgType] at htype
    exact absurd htype (by decide : msgLoginRefuse ≠ msgAskForFriendAccept)
  | ask id fd hreq => exact ⟨htype, rfl⟩
  | notFound hreq =>
    exact absurd (show msgAskForFriendNotFound = msgAskForFriendAccept from htype) (by decide)
  | accept hreq hreply hid hrecver => exact ⟨hreq, hid⟩

/-- A friend request that is sent answers one, and has the id and the text that it came with. -/
theorem of_ask (answers : ReplyTo req reply) (htype : reply.msgType = msgAskForFriend) :
    req.obj.msgType = msgAskForFriend ∧ reply.id = req.obj.id ∧ reply.msg = req.obj.msg := by
  cases answers with
  | talk hreq => exact ⟨htype, rfl, rfl⟩
  | register hreq hreply hfd =>
    rw [htype] at hreply
    exact absurd hreply (by decide)
  | loggedIn id hreq | stranger hreq =>
    exact absurd htype (by decide : msgLoginAccept ≠ msgAskForFriend)
  | refused reason hreq =>
    rw [TransObj.setMsg_msgType] at htype
    exact absurd htype (by decide : msgLoginRefuse ≠ msgAskForFriend)
  | ask id fd hreq => exact ⟨hreq, rfl, rfl⟩
  | notFound hreq =>
    exact absurd (show msgAskForFriendNotFound = msgAskForFriend from htype) (by decide)
  | accept hreq hreply hid hrecver =>
    rw [hreply] at htype
    exact absurd htype (by decide)

/-- A login or a registration is accepted on its connection, or where its block says. -/
theorem of_welcome (answers : ReplyTo req reply)
    (htype : reply.msgType ∈ [msgLoginAccept, msgRegAccept]) :
    reply.fd = req.fd ∨ req.obj.msgType ∈ [msgLogin, msgReg] ∧ reply.fd = req.obj.fd := by
  have hother : ∀ t, t ∉ [msgLoginAccept, msgRegAccept] → reply.msgType ≠ t := by
    rintro t ht rfl
    exact ht htype
  cases answers with
  | talk hreq => exact absurd hreq (hother _ (by decide))
  | register hreq hreply hfd => exact .inl hfd
  | loggedIn id hreq => exact .inl rfl
  | stranger hreq => exact .inr ⟨hreq ▸ List.mem_cons_self, rfl⟩
  | refused reason hreq => exact .inr ⟨hreq ▸ List.mem_cons_self, TransObj.setMsg_fd _ _⟩
  | ask id fd hreq => exact absurd hreq (hother _ (by decide))
  | notFound hreq =>
    exact absurd (show _ = msgAskForFriendNotFound from rfl) (hother _ (by decide))
  | accept hreq hreply hid hrecver => exact absurd hreply (hother _ (by decide))

end ReplyTo

namespace Answering

variable {E : Mysql} {s s' : Answering}

/-- A step that makes no object receives nothing. -/
theorem requests_quiet (sender : Sender) (origin : List (Option Request)) :
    requests ⟨sender, origin ++ []⟩ = requests ⟨s.sender, origin⟩ := by
  rw [List.append_nil]
  rfl

/-- Where an object in memory comes from is a request. -/
theorem mem_requests_of_origin {r : Nat} {req : Request} (h : s.origin[r]? = some (some req)) :
    req ∈ s.requests := List.mem_filterMap.mpr ⟨some req, List.mem_of_getElem? h, rfl⟩

theorem step_accept {listener client : Int32} {buffer : CharArray bufferSize}
    (h : s.step E (.accept listener client buffer) = some s') :
    s'.sender.sent = s.sender.sent ∧ s'.requests = s.requests ∧ 0 ≤ client ∧
      client ∉ s.sender.loop.opened ∧ s'.sender.loop.opened = client :: s.sender.loop.opened := by
  obtain ⟨sender, hsender, rfl⟩ := Option.map_eq_some_iff.mp h
  obtain ⟨loop, hloop, rfl⟩ := Option.map_eq_some_iff.mp hsender
  exact ⟨rfl, requests_quiet _ _, IOLoop.opened_accept hloop⟩

/-- What an event passes on is a request, if the dispatch makes a task of it. -/
theorem step_ready {fd : Int32} {e : Events} {read : Option Bytes} {past : Bytes}
    (h : s.step E (.ready fd e read past) = some s') :
    s'.sender.sent = s.sender.sent ∧ s'.sender.loop.opened = s.sender.loop.opened ∧
      ∃ loop passed, s.sender.loop.ready fd e read = some (loop, passed) ∧
        (s'.requests = s.requests ∨
          ∃ obj ∈ passed, s'.requests = s.requests ++ [⟨obj, fd⟩]) := by
  obtain ⟨sender, hsender, rfl⟩ := Option.map_eq_some_iff.mp h
  obtain ⟨⟨loop, passed⟩, hready, rfl⟩ := Option.map_eq_some_iff.mp hsender
  have hpopped : (Sender.dispatch s.sender.objs fd past passed).popped = s.sender.objs.popped := by
    unfold Sender.dispatch
    split
    · rfl
    · split <;> rfl
  refine ⟨?_, IOLoop.opened_ready hready, loop, passed, hready, ?_⟩
  · rw [Sender.sent, hpopped]
    rfl
  · simp only [requests, arrivals, hready, Option.bind_some]
    cases passed with
    | none => exact .inl (congrArg _ (List.append_nil _))
    | some obj =>
      dsimp only
      split
      · exact .inr ⟨obj, rfl, by rw [List.filterMap_append]; rfl⟩
      · exact .inl (congrArg _ (List.append_nil _))

/-- The steps that neither accept nor receive. -/
theorem step_other {a : SenderAction} (notAccept : ∀ listener client buffer,
      a ≠ .accept listener client buffer) (notReady : ∀ fd e read past, a ≠ .ready fd e read past)
    (h : s.step E a = some s') :
    (∃ more, s'.sender.sent = s.sender.sent ++ more) ∧ s'.requests = s.requests ∧
      s'.sender.loop.opened = s.sender.loop.opened := by
  obtain ⟨sender, hsender, rfl⟩ := Option.map_eq_some_iff.mp h
  cases a with
  | accept listener client buffer => exact absurd rfl (notAccept listener client buffer)
  | ready fd e read past => exact absurd rfl (notReady fd e read past)
  | task i =>
    obtain ⟨objs, hobjs, rfl⟩ := Option.map_eq_some_iff.mp hsender
    refine ⟨⟨[], ?_⟩, requests_quiet _ _, rfl⟩
    rw [Sender.sent, Handover.step_popped hobjs, List.append_nil]
    rfl
  | elsewhere userinfo redis sqlFaults redisFaults =>
    cases hsender
    exact ⟨⟨[], (List.append_nil _).symm⟩, requests_quiet _ _, rfl⟩
  | pop =>
    rw [Sender.step, Option.ite_none_left_eq_some] at hsender
    obtain ⟨objs, hobjs, rfl⟩ := Option.map_eq_some_iff.mp hsender.2
    obtain ⟨r, queue, v, -, -, rfl⟩ := Handover.pop_eq_some hobjs
    refine ⟨?_, requests_quiet _ _, rfl⟩
    rw [Sender.sent, Sender.sent, List.map_append]
    exact Client.sent_append _ _
  | serverEnd recverId msg =>
    rw [Sender.step, Option.ite_none_right_eq_some] at hsender
    cases hsender.2
    refine ⟨⟨[], (List.append_nil _).symm⟩, ?_, rfl⟩
    rw [requests, arrivals, List.filterMap_append]
    exact List.append_nil _

/-- What was sent was pushed for a request, and is an answer to it. -/
theorem Inv.sent_answers (inv : s.Inv) {obj : TransObj} (hobj : obj ∈ s.sender.sent) :
    ∃ r req, s.origin[r]? = some (some req) ∧ (r, obj) ∈ s.sender.objs.pushed ∧ ReplyTo req obj := by
  obtain ⟨hpop, hbutton⟩ := Client.mem_sent hobj
  obtain ⟨e, he, heq⟩ := List.mem_map.mp hpop
  cases heq
  rcases List.mem_append.mp (inv.sender.sound.popped e he) with hpushed | hinjected
  · obtain ⟨req, horigin, hreply⟩ := inv.answers.fit e hpushed
    exact ⟨e.1, req, horigin, hpushed, hreply⟩
  · rw [inv.sender.buttons e hinjected] at hbutton
    cases hbutton

end Answering

/-! ## What holds of the whole -/

namespace Deployment

/-- The objects that the server works on for a descriptor. -/
def requestsOn (requests : List Request) (fd : Int32) : List TransObj :=
  (requests.filter fun req => req.fd = fd).map Request.obj

/-- The objects that were sent to a descriptor, as they are received. -/
def sentTo (sent : List TransObj) (fd : Int32) : List TransObj :=
  (sent.filter fun obj => obj.fd = fd).map TransObj.eraseLen

/-- An object that a site received: the answer to a request that a client has made. -/
def Genuine (d : Deployment) (site : Site) (obj : TransObj) : Prop :=
  ∃ r req reply, ∃ asker : Site, d.answering.origin[r]? = some (some req) ∧
    (r, reply) ∈ d.answering.sender.objs.pushed ∧ ReplyTo req reply ∧ reply.fd = site.fd ∧
    obj = reply.eraseLen ∧ asker ∈ d.sites ∧ asker.fd = req.fd ∧
    ∃ o ∈ asker.run.game.buff, o.eraseLen = req.obj

/-- A login of the site's own that the server has received on its connection and accepted. -/
def LoggedIn (d : Deployment) (site : Site) : Prop :=
  ∃ o ∈ site.run.game.buff, o.msgType = msgLogin ∧
    ∃ r reply, d.answering.origin[r]? = some (some ⟨o.eraseLen, site.fd⟩) ∧
      (r, reply) ∈ d.answering.sender.objs.pushed ∧ reply.msgType = msgLoginAccept

/-- A talk that a client has made whose login the server has accepted. -/
def Spoken (d : Deployment) (obj : TransObj) : Prop :=
  ∃ speaker ∈ d.sites, ∃ o ∈ speaker.run.game.buff, o.eraseLen = obj ∧ d.LoggedIn speaker

structure EndToEnd (d : Deployment) : Prop where
  /-- the server works on what a client has made, in order and each message at most once -/
  requests : ∀ site ∈ d.sites, (requestsOn d.answering.requests site.fd).Sublist
    (site.run.game.buff.map TransObj.eraseLen)
  /-- what has arrived and what is on the way are the last that was sent -/
  replies : ∀ site ∈ d.sites,
    site.run.received ++ site.wire.map TransObj.eraseLen <:+ sentTo d.sent site.fd
  genuine : ∀ site ∈ d.sites, ∀ obj ∈ site.run.received, d.Genuine site obj
  login : ∀ site ∈ d.sites, site.run.client.player.logined = true → d.LoggedIn site
  talk : ∀ site ∈ d.sites, ∀ obj ∈ site.run.received, obj.msgType = msgTalk → d.Spoken obj

/-! ## The invariant -/

/-- What holds of a client, given what the server has received and sent. -/
structure SiteInv (requests : List Request) (sent : List TransObj) (site : Site) : Prop where
  session : ∃ c : ClientState, c.player.logined = false ∧ ClientRun.SessionOf c site.run
  display : site.run.DisplayInv
  /-- what has arrived and what is on the way are the last that was sent -/
  replies : site.run.received ++ site.wire.map TransObj.eraseLen <:+ sentTo sent site.fd
  requests : (requestsOn requests site.fd).Sublist
    ((site.run.game.buff.take site.reached).map TransObj.eraseLen)

structure Inv (d : Deployment) : Prop where
  answering : d.answering.Inv
  sites : ∀ site ∈ d.sites, SiteInv d.answering.requests d.sent site
  /-- every request is a client's -/
  own : ∀ req ∈ d.answering.requests, req.fd ∈ d.sites.map Site.fd
  fds : (d.sites.map Site.fd).Nodup
  opened : ∀ fd ∈ d.sites.map Site.fd, 0 ≤ fd ∧ fd ∈ d.answering.sender.loop.opened

section Inv

variable {E : Mysql} {d d' : Deployment} {i : Nat} {site : Site}

theorem requestsOn_append (requests more : List Request) (fd : Int32) :
    requestsOn (requests ++ more) fd = requestsOn requests fd ++ requestsOn more fd := by
  rw [requestsOn, List.filter_append, List.map_append]
  rfl

theorem sentTo_append (sent more : List TransObj) (fd : Int32) :
    sentTo (sent ++ more) fd = sentTo sent fd ++ sentTo more fd := by
  rw [sentTo, List.filter_append, List.map_append]
  rfl

/-- A site that changes and keeps its descriptor leaves the list of descriptors as it is. -/
theorem map_fd_set {sites : List Site} {site site' : Site} (hi : sites[i]? = some site)
    (hfd : site'.fd = site.fd) : (sites.set i site').map Site.fd = sites.map Site.fd := by
  have hget : (sites.map Site.fd)[i]? = some site'.fd := by
    rw [List.getElem?_map, hi, hfd]
    rfl
  obtain ⟨hlt, hget⟩ := List.getElem?_eq_some_iff.mp hget
  rw [List.map_set, ← hget, List.set_getElem_self]

/-- Sites of different places have different descriptors. -/
theorem fd_ne (inv : d.Inv) (hi : d.sites[i]? = some site) {j : Nat} {other : Site} (hne : j ≠ i)
    (hj : d.sites[j]? = some other) : other.fd ≠ site.fd := by
  intro heq
  apply hne
  have hi' : (d.sites.map Site.fd)[i]? = some site.fd := by
    rw [List.getElem?_map, hi, Option.map_some]
  have hj' : (d.sites.map Site.fd)[j]? = some site.fd := by
    rw [List.getElem?_map, hj, Option.map_some, heq]
  exact (List.getElem?_inj (List.getElem?_eq_some_iff.mp hj').1 inv.fds).mp (hj'.trans hi'.symm)

/-- A move of a client that receives nothing keeps what is known of its site: what it has made
grows, and what has arrived stays. -/
theorem SiteInv.run {requests : List Request} {sent : List TransObj}
    (inv : SiteInv requests sent site) {run : ClientRun} (move : ClientMove site.run run)
    (received : run.received = site.run.received)
    (buff : ∃ made, run.game.buff = site.run.game.buff ++ made) :
    SiteInv requests sent { site with run := run } := by
  obtain ⟨c, hc, session⟩ := inv.session
  obtain ⟨made, hmade⟩ := buff
  refine ⟨⟨c, hc, session.move move⟩, inv.display.move move, ?_, ?_⟩
  · show run.received ++ _ <:+ _
    rw [received]
    exact inv.replies
  · show (requestsOn requests site.fd).Sublist ((run.game.buff.take site.reached).map _)
    refine inv.requests.trans (List.Sublist.map _ ?_)
    rw [hmade, List.take_append]
    exact List.sublist_append_left _ _

/-- The threads of a client receive nothing. -/
theorem gameStep_received {run run' : ClientRun} {past : Bytes} {outside : Outside}
    (h : run.gameStep past outside = some run') : run'.received = run.received := by
  unfold ClientRun.gameStep at h
  split at h
  · obtain ⟨game, -, rfl⟩ := Option.map_eq_some_iff.mp h
    dsimp only
    split <;> rfl
  · obtain ⟨run₁, hrecv, h⟩ := Option.bind_eq_some_iff.mp h
    obtain ⟨game, -, rfl⟩ := Option.map_eq_some_iff.mp h
    unfold ClientRun.handleRecvMsg at hrecv
    split at hrecv
    · cases hrecv
      rfl
    · obtain ⟨out, -, rfl⟩ := Option.map_eq_some_iff.mp hrecv
      rfl
  · obtain ⟨game, -, rfl⟩ := Option.map_eq_some_iff.mp h
    rfl

theorem ioStep_received {run run' : ClientRun} {heap : CharArray maxTransMsgLen} {past : Bytes}
    {outside : Outside} (h : run.ioStep heap past outside = some run') :
    run'.received = run.received := by
  unfold ClientRun.ioStep at h
  split at h
  · obtain ⟨game, -, rfl⟩ := Option.map_eq_some_iff.mp h
    rfl
  · obtain ⟨⟨made, run₁⟩, htalk, h⟩ := Option.bind_eq_some_iff.mp h
    obtain ⟨game, -, rfl⟩ := Option.map_eq_some_iff.mp h
    unfold ClientRun.handleTalk at htalk
    split at htalk
    · cases htalk
      rfl
    · obtain ⟨out, -, hout⟩ := Option.map_eq_some_iff.mp htalk
      cases hout
      rfl
  · obtain ⟨game, -, rfl⟩ := Option.map_eq_some_iff.mp h
    rfl

/-- No step of a client takes back one of its messages. -/
theorem move_buff {run run' : ClientRun} (move : ClientMove run run') :
    ∃ made, run'.game.buff = run.game.buff ++ made := by
  cases move with
  | receive obj => exact ⟨[], (List.append_nil _).symm⟩
  | take past hsys buff pipe => exact ⟨[], by rw [buff, List.append_nil]⟩
  | handle hrcv handling grows buff pipe => exact ⟨[], by rw [buff, List.append_nil]⟩
  | print buff pipe => exact ⟨[], by rw [buff, List.append_nil]⟩
  | line typed grows buff pipe => exact ⟨_, buff⟩
  | goesOn buff pipe => exact ⟨[], by rw [buff, List.append_nil]⟩

theorem step_received {run run' : ClientRun} {a : ClientAction}
    (notReceive : ∀ obj, a ≠ .receive obj) (h : run.step a = some run') :
    run'.received = run.received := by
  cases a with
  | receive obj => exact absurd rfl (notReceive obj)
  | game past outside => exact gameStep_received h
  | io heap past outside => exact ioStep_received h

/-- One site moves on its own: the invariant of the deployment needs only that of this site again.
-/
theorem Inv.set (inv : d.Inv) (hi : d.sites[i]? = some site) {site' : Site}
    (hfd : site'.fd = site.fd) (hsite : SiteInv d.answering.requests d.sent site') :
    Inv { d with sites := d.sites.set i site' } := by
  have hfds : (d.sites.set i site').map Site.fd = d.sites.map Site.fd := map_fd_set hi hfd
  refine ⟨inv.answering, fun s hs => ?_, ?_, ?_, ?_⟩
  · rcases Handover.mem_set_cases hs with rfl | ⟨j, -, hj⟩
    · exact hsite
    · exact inv.sites s (List.mem_of_getElem? hj)
  · show ∀ req ∈ d.answering.requests, req.fd ∈ (d.sites.set i site').map Site.fd
    rw [hfds]
    exact inv.own
  · show ((d.sites.set i site').map Site.fd).Nodup
    rw [hfds]
    exact inv.fds
  · show ∀ fd ∈ (d.sites.set i site').map Site.fd, _
    rw [hfds]
    exact inv.opened

/-- A client connects: its descriptor is new, so nothing that was sent is addressed to it, and it
starts with nothing made and nothing received. -/
theorem Inv.join (inv : d.Inv) {listener client : Int32} {buffer : CharArray bufferSize}
    {settings : Termios} {state : ClientState} (hstate : state.player.logined = false)
    {answering : Answering}
    (h : d.answering.step E (.accept listener client buffer) = some answering) :
    Inv ⟨answering, d.sites ++ [⟨client, .start settings state, 0, []⟩]⟩ := by
  obtain ⟨hsent, hrequests, hclient, hnew, hopened⟩ := Answering.step_accept h
  have hfresh : client ∉ d.sites.map Site.fd := fun hmem => hnew (inv.opened client hmem).2
  refine ⟨inv.answering.step h, fun s hs => ?_, fun req hreq => ?_, ?_, fun fd hfd => ?_⟩
  · show SiteInv answering.requests answering.sender.sent s
    rw [hsent, hrequests]
    rcases List.mem_append.mp hs with hold | hnew
    · exact inv.sites s hold
    · cases List.mem_singleton.mp hnew
      refine ⟨⟨state, hstate, ClientRun.sessionOf_start settings⟩,
        ClientRun.displayInv_start settings state, List.nil_suffix, ?_⟩
      have hnone : requestsOn d.answering.requests client = [] := by
        rw [requestsOn, List.map_eq_nil_iff, List.filter_eq_nil_iff]
        intro req hreq heq
        rw [decide_eq_true_eq] at heq
        exact hfresh (heq ▸ inv.own req hreq)
      show (requestsOn d.answering.requests client).Sublist _
      rw [hnone]
      exact List.nil_sublist _
  · rw [hrequests] at hreq
    rw [List.map_append]
    exact List.mem_append_left _ (inv.own req hreq)
  · rw [List.map_append, List.nodup_append]
    refine ⟨inv.fds, List.nodup_singleton _, fun a ha b hb heq => ?_⟩
    rw [List.map_singleton, List.mem_singleton] at hb
    rw [heq, hb] at ha
    exact hfresh ha
  · show 0 ≤ fd ∧ fd ∈ answering.sender.loop.opened
    rw [hopened]
    rw [List.map_append] at hfd
    rcases List.mem_append.mp hfd with hold | hnew
    · exact ⟨(inv.opened fd hold).1, List.mem_cons_of_mem _ (inv.opened fd hold).2⟩
    · rw [List.map_singleton, List.mem_singleton] at hnew
      rw [hnew]
      exact ⟨hclient, List.mem_cons_self⟩

/-- A client's next message reaches the server, which makes a request of it: the requests of the
connection are again the front of what its client has made. -/
theorem Inv.request (inv : d.Inv) (hi : d.sites[i]? = some site) {obj : TransObj}
    (hobj : site.run.game.buff[site.reached]? = some obj) {past : Bytes} {answering : Answering}
    (h : d.answering.step E (.ready site.fd .epollin (some (Client.sendBuf obj)) past) =
      some answering) :
    Inv ⟨answering, d.sites.set i { site with reached := site.reached + 1 }⟩ := by
  obtain ⟨hsent, hopened, loop, passed, hready, hrequests⟩ := Answering.step_ready h
  have hmem := List.mem_of_getElem? hi
  have hfds : (d.sites.set i { site with reached := site.reached + 1 }).map Site.fd =
      d.sites.map Site.fd := map_fd_set hi rfl
  have hpassed := IOLoop.ready_passed hready
  have hmore : ∃ more : List Request, answering.requests = d.answering.requests ++ more ∧
      more.Sublist [⟨obj.eraseLen, site.fd⟩] := by
    rcases hrequests with hsame | ⟨o, ho, hnew⟩
    · exact ⟨[], by rw [hsame, List.append_nil], List.nil_sublist _⟩
    · rw [hpassed] at ho
      cases ho
      exact ⟨_, hnew, List.Sublist.refl _⟩
  obtain ⟨more, hrequests, hsub⟩ := hmore
  have hon : ∀ req ∈ more, req.fd = site.fd := by
    intro req hreq
    rw [List.mem_singleton.mp (hsub.subset hreq)]
  refine ⟨inv.answering.step h, fun s hs => ?_, fun req hreq => ?_, ?_, ?_⟩
  · show SiteInv answering.requests answering.sender.sent s
    rw [hsent, hrequests]
    rcases Handover.mem_set_cases hs with rfl | ⟨j, hne, hj⟩
    · have hsite := inv.sites site hmem
      refine ⟨hsite.session, hsite.display, hsite.replies, ?_⟩
      show (requestsOn _ site.fd).Sublist ((site.run.game.buff.take (site.reached + 1)).map _)
      rw [requestsOn_append, List.take_add_one, hobj, List.map_append]
      refine hsite.requests.append ?_
      exact (List.Sublist.map Request.obj List.filter_sublist).trans
        (List.Sublist.map Request.obj hsub)
    · have hsite := inv.sites s (List.mem_of_getElem? hj)
      refine ⟨hsite.session, hsite.display, hsite.replies, ?_⟩
      have hnone : requestsOn more s.fd = [] := by
        rw [requestsOn, List.map_eq_nil_iff, List.filter_eq_nil_iff]
        intro req hreq heq
        rw [decide_eq_true_eq] at heq
        exact fd_ne inv hi hne hj (heq.symm.trans (hon req hreq))
      rw [requestsOn_append, hnone, List.append_nil]
      exact hsite.requests
  · show req.fd ∈ (d.sites.set i _).map Site.fd
    rw [hfds]
    rw [hrequests] at hreq
    rcases List.mem_append.mp hreq with hold | hnew
    · exact inv.own req hold
    · rw [hon req hnew]
      exact List.mem_map_of_mem hmem
  · show ((d.sites.set i _).map Site.fd).Nodup
    rw [hfds]
    exact inv.fds
  · show ∀ fd ∈ (d.sites.set i _).map Site.fd, 0 ≤ fd ∧ fd ∈ answering.sender.loop.opened
    rw [hfds, hopened]
    exact inv.opened

/-- An event without data, such as a hang-up, changes no request. -/
theorem Inv.event (inv : d.Inv) {fd : Int32} {e : Events} {answering : Answering}
    (h : d.answering.step E (.ready fd e none []) = some answering) :
    Inv { d with answering := answering } := by
  obtain ⟨hsent, hopened, loop, passed, hready, hrequests⟩ := Answering.step_ready h
  have hsame : answering.requests = d.answering.requests := by
    rcases hrequests with hsame | ⟨o, ho, -⟩
    · exact hsame
    · rw [IOLoop.ready_none hready] at ho
      cases ho
  refine ⟨inv.answering.step h, fun s hs => ?_, ?_, inv.fds, ?_⟩
  · show SiteInv answering.requests answering.sender.sent s
    rw [hsent, hsame]
    exact inv.sites s hs
  · show ∀ req ∈ answering.requests, _
    rw [hsame]
    exact inv.own
  · show ∀ fd ∈ d.sites.map Site.fd, 0 ≤ fd ∧ fd ∈ answering.sender.loop.opened
    rw [hopened]
    exact inv.opened

/-- The server goes on with a task, with the sender, or with a change from outside: what it sends
goes to the wire of its descriptor. -/
theorem Inv.server (inv : d.Inv) {a : SenderAction}
    (notAccept : ∀ listener client buffer, a ≠ .accept listener client buffer)
    (notReady : ∀ fd e read past, a ≠ .ready fd e read past) (h : d.serverStep E a = some d') :
    d'.Inv := by
  obtain ⟨answering, hstep, rfl⟩ := Option.map_eq_some_iff.mp h
  obtain ⟨⟨more, hsent⟩, hrequests, hopened⟩ := Answering.step_other notAccept notReady hstep
  have hdrop : answering.sender.sent.drop d.sent.length = more := by
    rw [hsent]
    exact List.drop_left
  simp only [hdrop]
  have hfds : (d.sites.map fun site => site.deliver more).map Site.fd = d.sites.map Site.fd := by
    rw [List.map_map]
    rfl
  refine ⟨inv.answering.step hstep, fun s hs => ?_, ?_, ?_, ?_⟩
  · show SiteInv answering.requests answering.sender.sent s
    obtain ⟨site, hsite, rfl⟩ := List.mem_map.mp hs
    have hold := inv.sites site hsite
    rw [hrequests, hsent]
    refine ⟨hold.session, hold.display, ?_, hold.requests⟩
    show site.run.received ++ (site.wire ++ more.filter fun obj => obj.fd = site.fd).map _ <:+
      sentTo (d.sent ++ more) site.fd
    rw [List.map_append, ← List.append_assoc, sentTo_append]
    obtain ⟨before, hbefore⟩ := hold.replies
    exact ⟨before, by rw [← List.append_assoc, hbefore]; rfl⟩
  · show ∀ req ∈ answering.requests, req.fd ∈ (d.sites.map _).map Site.fd
    rw [hrequests, hfds]
    exact inv.own
  · show ((d.sites.map fun site => site.deliver more).map Site.fd).Nodup
    rw [hfds]
    exact inv.fds
  · show ∀ fd ∈ (d.sites.map fun site => site.deliver more).map Site.fd,
      0 ≤ fd ∧ fd ∈ answering.sender.loop.opened
    rw [hfds, hopened]
    exact inv.opened

/-- The first object on a wire arrives at its client, and what has arrived with what is on its way
is still what was sent. -/
theorem Inv.arrive (inv : d.Inv) (hi : d.sites[i]? = some site) {obj : TransObj}
    {wire : List TransObj} (hwire : site.wire = obj :: wire) {run : ClientRun}
    (h : site.run.step (.receive obj.eraseLen) = some run) :
    Inv { d with sites := d.sites.set i { site with run := run, wire := wire } } := by
  cases h
  have hold := inv.sites site (List.mem_of_getElem? hi)
  obtain ⟨c, hc, session⟩ := hold.session
  refine inv.set hi rfl ⟨⟨c, hc, session.move (.receive _)⟩, hold.display.move (.receive _), ?_,
    hold.requests⟩
  show (site.run.received ++ [obj.eraseLen]) ++ wire.map TransObj.eraseLen <:+ _
  rw [List.append_assoc, List.singleton_append, ← List.map_cons, ← hwire]
  exact hold.replies

/-- A thread of a client takes a step in which nothing arrives. -/
theorem Inv.client (inv : d.Inv) {a : ClientAction} (notReceive : ∀ obj, a ≠ .receive obj)
    (h : d.clientStep i a = some d') : d'.Inv := by
  obtain ⟨site, hi, h⟩ := Option.bind_eq_some_iff.mp h
  obtain ⟨run, hrun, rfl⟩ := Option.map_eq_some_iff.mp h
  have hold := inv.sites site (List.mem_of_getElem? hi)
  have move := ClientRun.move_of_step hrun
  exact inv.set hi rfl (hold.run move (step_received notReceive hrun) (move_buff move))

theorem Inv.step (inv : d.Inv) {a : DeploymentAction} (h : d.step E a = some d') : d'.Inv := by
  cases a with
  | join listener client buffer settings state =>
    rw [Deployment.step, Option.ite_none_left_eq_some] at h
    obtain ⟨answering, hstep, rfl⟩ := Option.map_eq_some_iff.mp h.2
    exact inv.join (Bool.eq_false_iff.mpr h.1) hstep
  | client i a =>
    cases a with
    | receive obj => cases h
    | game past outside => exact inv.client (by rintro _ ⟨⟩) h
    | io heap past outside => exact inv.client (by rintro _ ⟨⟩) h
  | request i past =>
    obtain ⟨site, hi, h⟩ := Option.bind_eq_some_iff.mp h
    obtain ⟨obj, hobj, h⟩ := Option.bind_eq_some_iff.mp h
    obtain ⟨answering, hstep, rfl⟩ := Option.map_eq_some_iff.mp h
    exact inv.request hi hobj hstep
  | event fd e =>
    obtain ⟨answering, hstep, rfl⟩ := Option.map_eq_some_iff.mp h
    exact inv.event hstep
  | arrive i =>
    obtain ⟨site, hi, h⟩ := Option.bind_eq_some_iff.mp h
    cases hwire : site.wire with
    | nil =>
      rw [hwire] at h
      cases h
    | cons obj wire =>
      rw [hwire] at h
      simp only [recvMsg_toBytes] at h
      obtain ⟨run, hrun, rfl⟩ := Option.map_eq_some_iff.mp h
      exact inv.arrive hi hwire hrun
  | server a =>
    cases a with
    | accept listener client buffer => cases h
    | ready fd e read past => cases h
    | task i => exact inv.server (by rintro _ _ _ ⟨⟩) (by rintro _ _ _ _ ⟨⟩) h
    | elsewhere userinfo redis sqlFaults redisFaults =>
      exact inv.server (by rintro _ _ _ ⟨⟩) (by rintro _ _ _ _ ⟨⟩) h
    | pop => exact inv.server (by rintro _ _ _ ⟨⟩) (by rintro _ _ _ _ ⟨⟩) h
    | serverEnd recverId msg => exact inv.server (by rintro _ _ _ ⟨⟩) (by rintro _ _ _ _ ⟨⟩) h

theorem inv_start (loop : IOLoop) (world : World) : (start loop world).Inv where
  answering := Answering.inv_start loop world
  sites s hs := by cases hs
  own req hreq := by cases hreq
  fds := List.nodup_nil
  opened fd hfd := by cases hfd

/-- Every request is a message that some client has made, on the connection of that client. -/
theorem Inv.asker (inv : d.Inv) {req : Request} (hreq : req ∈ d.answering.requests) :
    ∃ asker ∈ d.sites, asker.fd = req.fd ∧ ∃ o ∈ asker.run.game.buff, o.eraseLen = req.obj := by
  obtain ⟨asker, hasker, hfd⟩ := List.mem_map.mp (inv.own req hreq)
  have hon : req.obj ∈ requestsOn d.answering.requests asker.fd :=
    List.mem_map_of_mem (List.mem_filter.mpr ⟨hreq, decide_eq_true hfd.symm⟩)
  obtain ⟨o, ho, hobj⟩ := List.mem_map.mp ((inv.sites asker hasker).requests.subset hon)
  exact ⟨asker, hasker, hfd, o, List.mem_of_mem_take ho, hobj⟩

/-- What a client has received was pushed for a request. -/
theorem Inv.genuine (inv : d.Inv) (hsite : site ∈ d.sites) {obj : TransObj}
    (hobj : obj ∈ site.run.received) : Genuine d site obj := by
  have hsent : obj ∈ sentTo d.sent site.fd :=
    (inv.sites site hsite).replies.subset (List.mem_append_left _ hobj)
  obtain ⟨reply, hreply, rfl⟩ := List.mem_map.mp hsent
  obtain ⟨hreply, hfd⟩ := List.mem_filter.mp hreply
  obtain ⟨r, req, horigin, hpushed, answers⟩ := inv.answering.sent_answers hreply
  have hreq := Answering.mem_requests_of_origin horigin
  obtain ⟨asker, hasker, haskerFd, o, ho, heq⟩ := inv.asker hreq
  exact ⟨r, req, reply, asker, horigin, hpushed, answers, of_decide_eq_true hfd, rfl, hasker,
    haskerFd, o, ho, heq⟩

/-- The acceptance of a login or a registration comes to the connection of its request, since these
name no descriptor. -/
theorem Inv.welcomed (inv : d.Inv) (hsite : site ∈ d.sites) {req : Request} {reply : TransObj}
    (hreq : req ∈ d.answering.requests) (answers : ReplyTo req reply) (hfd : reply.fd = site.fd)
    (htype : reply.msgType ∈ [msgLoginAccept, msgRegAccept]) : req.fd = site.fd := by
  rcases answers.of_welcome htype with hown | ⟨hreqType, hblock⟩
  · exact hown.symm.trans hfd
  · obtain ⟨asker, hasker, -, o, ho, heq⟩ := inv.asker hreq
    obtain ⟨c, -, session⟩ := (inv.sites asker hasker).session
    have hmade : o.eraseLen.msgType = req.obj.msgType := congrArg TransObj.msgType heq
    have hsame : o.eraseLen.fd = req.obj.fd := congrArg TransObj.fd heq
    have hnone : site.fd = -1 := by
      rw [← hfd, hblock, ← hsame]
      exact session.unaddressed o ho (hmade ▸ hreqType)
    have hopened := (inv.opened _ (List.mem_map_of_mem hsite)).1
    rw [hnone] at hopened
    exact absurd hopened (by decide)

/-- What a client has handled has come to it. -/
theorem Inv.arrived (inv : d.Inv) (hsite : site ∈ d.sites) {e : TransObj × Bytes}
    (he : e ∈ site.run.handled) : e.1 ∈ site.run.received := by
  rw [(inv.sites site hsite).display.arrived]
  exact List.mem_append_left _ (List.mem_map_of_mem he)

/-- Nobody is logged in without having asked for it. -/
theorem Inv.login (inv : d.Inv) (hsite : site ∈ d.sites)
    (hlogined : site.run.client.player.logined = true) : LoggedIn d site := by
  obtain ⟨c, hc, session⟩ := (inv.sites site hsite).session
  rw [session.logined, hc, Bool.false_or] at hlogined
  obtain ⟨e, he, htype⟩ := List.any_eq_true.mp hlogined
  rw [decide_eq_true_eq] at htype
  obtain ⟨r, req, reply, asker, horigin, hpushed, answers, hfd, hobj, hasker, haskerFd, o, ho,
    heq⟩ := inv.genuine hsite (inv.arrived hsite he)
  have hreply : reply.msgType = msgLoginAccept := by
    rw [hobj] at htype
    exact htype
  have hmade : o.eraseLen.msgType = req.obj.msgType := congrArg TransObj.msgType heq
  have hreq := Answering.mem_requests_of_origin horigin
  have hown : req.fd = site.fd :=
    inv.welcomed hsite hreq answers hfd (hreply ▸ List.mem_cons_self)
  have hself : asker = site :=
    List.inj_on_of_nodup_map inv.fds hasker hsite (haskerFd.trans hown)
  subst hself
  refine ⟨o, ho, hmade.trans (answers.of_loginAccept hreply), r, reply, ?_, hpushed, hreply⟩
  rw [horigin, heq, ← hown]

/-- A talk is received as one of the players who are logged in has made it. -/
theorem Inv.talk (inv : d.Inv) (hsite : site ∈ d.sites) {obj : TransObj}
    (hobj : obj ∈ site.run.received) (htype : obj.msgType = msgTalk) : Spoken d obj := by
  obtain ⟨r, req, reply, asker, horigin, hpushed, answers, hfd, rfl, hasker, -, o, ho, heq⟩ :=
    inv.genuine hsite hobj
  have hreply : reply = req.obj := answers.of_talk htype
  obtain ⟨c, -, session⟩ := (inv.sites asker hasker).session
  have hsame : o.eraseLen = reply.eraseLen := by
    rw [hreply, ← heq]
    rfl
  have hmade : o.eraseLen.msgType = reply.eraseLen.msgType := congrArg TransObj.msgType hsame
  have hspoken : o.msgType = msgTalk := hmade.trans htype
  refine ⟨asker, hasker, o, ho, hsame, ?_⟩
  rcases session.gated o ho with hgate | hlogined
  · rw [hspoken] at hgate
    exact absurd hgate (by decide)
  · exact inv.login hasker hlogined

/-- **What every run of a server and its clients keeps.** -/
theorem endToEnd_of_reaches {loop : IOLoop} {world : World}
    (reach : Reaches (Deployment.step E) (fun _ _ => True) (start loop world) d) : d.EndToEnd := by
  have inv : d.Inv := reach.invariant (inv_start loop world) fun _ _ _ inv _ h => inv.step h
  refine ⟨fun site hsite => ?_, fun site hsite => ?_, fun site hsite obj => inv.genuine hsite,
    fun site hsite => inv.login hsite, fun site hsite obj => inv.talk hsite⟩
  · exact (inv.sites site hsite).requests.trans
      (List.Sublist.map _ (List.take_sublist _ _))
  · exact (inv.sites site hsite).replies

end Inv

/-- A loop with its listener on descriptor 3, and nobody connected. -/
def listening : IOLoop := ⟨AList.singleton 3 .server, [3]⟩

/-- A table in which `bob` is user 1. -/
def bobKnown : World := { emptyWorld with userinfo := [⟨1, ascii "bob", 7, ascii "secret"⟩] }

def pressingEnter : Outside := { ClientRun.idle with key := 10 }

def typingLogin : Outside := { ClientRun.idle with line := ascii "li@bob|secret" }

/-- A client connects, its player presses enter and types a login, the server works on it and
answers, and the client handles the answer. -/
def bobLogsIn : List DeploymentAction :=
  .join 3 5 (.fill _ 0) ClientRun.noSettings Util.startedClient ::
    List.replicate 14 (.client 0 (.game [] pressingEnter)) ++
    List.replicate 8 (.client 0 (.io (.fill _ 0) [] typingLogin)) ++
    .request 0 [] :: List.replicate 13 (.server (.task 0)) ++
    [.server .pop, .arrive 0] ++ List.replicate 10 (.client 0 (.game [] ClientRun.idle))

theorem endToEnd_bob :
    ∃ d, play (step .reference) bobLogsIn (start listening bobKnown) = some d ∧
      (d.sites.map fun site => site.run.client.player.logined) = [true] ∧ d.EndToEnd := by
  have hplays : (play (step .reference) bobLogsIn (start listening bobKnown)).map
      (fun d => d.sites.map fun site => site.run.client.player.logined) = some [true] := by
    decide +kernel
  obtain ⟨d, hd, hlogined⟩ := Option.map_eq_some_iff.mp hplays
  exact ⟨d, hd, hlogined, endToEnd_of_reaches (Reaches.play .refl hd)⟩

end Deployment

end Smer
