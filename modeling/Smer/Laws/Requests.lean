import Smer.HandleMsg.HandleMsgClient
import Smer.Laws.Friends
import Smer.Laws.Grammar

/-!
# The list of friend requests

`sr` shows the pending requests with their labels, and `ar@` with a label accepts one. The text that
is shown has no line, because the list is handed to `getAllRequests` by value: it agrees with what
is accepted exactly while nothing is pending (`showsRequests_iff`).

Accepting sends the answer and adds the friend, and leaves the request where it is: `eraseOneReq` is
never called. Its argument goes through `atoi`, for which any text that is not a numeral is 0. So an
argument does what it should exactly when it reads as no index (`acceptsAsMeant_iff`), and a run
accepts each request at most once, as it should, exactly when it accepts none (`acceptsOnce_iff`).

A run is one client's objects and commands, one after the other.
-/

namespace Smer

open Lib ClientM Util

section Shown

variable {past : Bytes} {c : ClientState}

/-- The request that is accepted for an index: every message that an argument of this value makes
goes to its sender. -/
def AcceptedAt (past : Bytes) (c : ClientState) (index : Nat) (req : TransObj) : Prop :=
  ∀ heap arg obj c', (atoi (cstr arg)).toInt = index →
    (handleInputOfAccRequest heap past arg .standard).run c = some (some obj, c') →
      obj.msgType = msgAskForFriendAccept ∧ obj.recverId = req.id

/-- A text lists the pending requests: each label once, on a line with the text of the request that
the label is accepted as. -/
def Lists (past : Bytes) (c : ClientState) (text : Bytes) : Prop :=
  ∃ lines : List (Nat × Bytes),
    text = requestsHeader ++ lines.flatMap (fun line => requestLine line.1 line.2) ∧
    (lines.map Prod.fst).Perm (List.range c.reqBuff.data.length) ∧
    ∀ line ∈ lines, ∃ req, c.reqBuff.getOneRequest line.1 = some req ∧
      AcceptedAt past c line.1 req ∧ line.2 = req.getMsg past

/-- What is shown lists the pending requests. -/
def ShowsRequests (past : Bytes) (c : ClientState) : Prop :=
  ∀ sysObj, ∃ text, handleSysMsgOfShowAskForFriendReq (some sysObj) past c = some text ∧
    Lists past c text

/-- What is shown is the header alone, whatever is pending: the loop runs over a list that was
passed by value and stayed empty. -/
theorem shown_eq (sysObj : SystemMsgObj) :
    handleSysMsgOfShowAskForFriendReq (some sysObj) past c = some requestsHeader :=
  congrArg some (List.append_nil _)

theorem requestLine_ne_nil (label : Nat) (msg : Bytes) : requestLine label msg ≠ [] := by
  rw [requestLine]
  exact List.append_ne_nil_of_right_ne_nil _ (by decide)

/-- The header alone lists the requests exactly when there are none. -/
theorem lists_header_iff : Lists past c requestsHeader ↔ c.reqBuff.data = [] := by
  constructor
  · rintro ⟨lines, htext, hlabels, -⟩
    have hrendered : lines.flatMap (fun line => requestLine line.1 line.2) = [] :=
      List.append_cancel_left ((htext.symm.trans (List.append_nil _).symm))
    have hnone : lines = [] := by
      cases lines with
      | nil => rfl
      | cons line rest =>
        rw [List.flatMap_cons, List.append_eq_nil_iff] at hrendered
        exact absurd hrendered.1 (requestLine_ne_nil _ _)
    rw [hnone, List.map_nil] at hlabels
    have hlen := hlabels.length_eq
    rw [List.length_range] at hlen
    exact List.length_eq_zero_iff.mp hlen.symm
  · intro hdata
    refine ⟨[], (List.append_nil _).symm, ?_, fun line hline => absurd hline List.not_mem_nil⟩
    rw [hdata]
    exact .refl _

/-- **The shown requests agree with the accepted ones exactly when none is pending.** -/
theorem showsRequests_iff (past : Bytes) (c : ClientState) :
    ShowsRequests past c ↔ c.reqBuff.data = [] := by
  constructor
  · intro shows
    obtain ⟨text, hshown, hlists⟩ := shows ⟨sysShowAskForFriendReq, none⟩
    cases (shown_eq _).symm.trans hshown
    exact lists_header_iff.mp hlists
  · intro hdata sysObj
    exact ⟨requestsHeader, shown_eq sysObj, lists_header_iff.mpr hdata⟩

/-- The request of the user 2, `bob`. -/
def bobRequest : TransObj :=
  ((TransObj.make (.fill _ 0) 2 (-1) msgAskForFriend (.ofNat maxTransMsgLen) (-1)).setMsg
    (ascii "bob")).1

/-- The client of user 1 with bob's request. -/
def askedClient : ClientState :=
  { (pairPeer 1 (ascii "ann") 5).client with reqBuff := ConcList.empty.pushBack bobRequest }

/-- A client with one pending request is shown the header without a line. -/
theorem request_not_shown : ¬ ∀ past c, ShowsRequests past c := by
  intro claim
  obtain ⟨text, hshown, hlists⟩ := claim [] askedClient ⟨sysShowAskForFriendReq, none⟩
  cases (shown_eq _).symm.trans hshown
  cases lists_header_iff.mp hlists

end Shown

/-! ## Accepting -/

section Accept

variable {past : Bytes} {heap : CharArray maxTransMsgLen} {c : ClientState} {arg : Bytes}

/-- A call accepted the request at an index: the answer goes to its sender, the sender is a friend,
and the request is gone. -/
def AcceptsRequest (past : Bytes) (c : ClientState) (index : Nat) (req : TransObj)
    (out : Option (Option TransObj × ClientState)) : Prop :=
  ∃ obj c', out = some (some obj, c') ∧
    obj.msgType = msgAskForFriendAccept ∧ obj.recverId = req.id ∧
    FriendAdded c.player c'.player (req.getMsg past) req.id ∧
    c'.reqBuff.data = c.reqBuff.data.eraseIdx index

/-- The call makes no message and leaves the friends and the requests as they were. -/
def AcceptsNone (c : ClientState) (out : Option (Option TransObj × ClientState)) : Prop :=
  ∃ c', out = some (none, c') ∧ c'.player.friends = c.player.friends ∧ c'.reqBuff = c.reqBuff

/-- The argument of an acceptance does what it says: a pending request's index accepts that request,
and any other text accepts nothing. -/
structure AcceptsAsMeant (past : Bytes) (heap : CharArray maxTransMsgLen) (c : ClientState)
    (arg : Bytes) : Prop where
  numeral : ∀ (k : Nat) req, arg = toText k → c.reqBuff.data[k]? = some req →
    AcceptsRequest past c k req ((handleInputOfAccRequest heap past arg .standard).run c)
  other : (∀ k : Nat, k < c.reqBuff.data.length → arg ≠ toText k) →
    AcceptsNone c ((handleInputOfAccRequest heap past arg .standard).run c)

/-- The argument is no pending request's index, and does not read as one. -/
structure ReadsAsNone (c : ClientState) (arg : Bytes) : Prop where
  numeral : ∀ k : Nat, k < c.reqBuff.data.length → arg ≠ toText k
  read : c.reqBuff.getOneRequest (atoi (cstr arg)).toInt = none

/-- **Accepting leaves the list of requests as it is.** -/
theorem run_accRequest_reqBuff {made : Option TransObj} {c' : ClientState}
    (hlogin : c.player.logined = true)
    (hrun : (handleInputOfAccRequest heap past arg .standard).run c = some (made, c')) :
    c'.reqBuff = c.reqBuff := by
  cases hreq : c.reqBuff.getOneRequest (atoi (cstr arg)).toInt with
  | none =>
    obtain ⟨told, hout⟩ := run_accRequest_none past heap .standard arg hlogin hreq
    cases hout.symm.trans hrun
    rfl
  | some req =>
    have hout := (run_accRequest past heap .standard arg hlogin hreq).symm.trans hrun
    obtain ⟨added, -, hdone⟩ := Option.map_eq_some_iff.mp hout
    cases hdone
    rfl

/-- **An argument does what it says exactly when it reads as no index.** -/
theorem acceptsAsMeant_iff (past : Bytes) (heap : CharArray maxTransMsgLen)
    (hlogin : c.player.logined = true) (arg : Bytes) :
    AcceptsAsMeant past heap c arg ↔ ReadsAsNone c arg := by
  constructor
  · intro meant
    have hnumeral : ∀ k : Nat, k < c.reqBuff.data.length → arg ≠ toText k := by
      intro k hk harg
      obtain ⟨obj, c', hout, -, -, -, hdata⟩ :=
        meant.numeral k _ harg (List.getElem?_eq_getElem hk)
      rw [run_accRequest_reqBuff hlogin hout] at hdata
      have hlen := congrArg List.length hdata
      rw [List.length_eraseIdx_of_lt hk] at hlen
      omega
    refine ⟨hnumeral, ?_⟩
    obtain ⟨c', hout, -, -⟩ := meant.other hnumeral
    cases hreq : c.reqBuff.getOneRequest (atoi (cstr arg)).toInt with
    | none => rfl
    | some req =>
      rw [run_accRequest past heap .standard arg hlogin hreq] at hout
      obtain ⟨added, -, hdone⟩ := Option.map_eq_some_iff.mp hout
      cases hdone
  · intro reads
    obtain ⟨told, hout⟩ := run_accRequest_none past heap .standard arg hlogin reads.read
    refine ⟨fun k req harg hreq => ?_, fun _ => ⟨_, hout, rfl, rfl⟩⟩
    obtain ⟨hk, -⟩ := List.getElem?_eq_some_iff.mp hreq
    exact absurd harg (reads.numeral k hk)

end Accept

/-! ## Runs -/

/-- What happens at a client: an object comes in, or a command is typed. -/
inductive RequestEvent where
  | receive (obj : TransObj)
  | command (cmd : Command) (heap : CharArray maxTransMsgLen) (arg : Bytes)

namespace RequestEvent

variable (past : Bytes)

/-- The client behind an event: a received object is handled, and a command is read with its
argument. -/
def next (c : ClientState) : RequestEvent → Option ClientState
  | .receive obj => ((HandleMsgClient.handle obj past).run c).map Prod.snd
  | .command cmd heap arg => ((cmd.handler heap past arg .standard).run c).map Prod.snd

/-- The request that an event brings. -/
def received : RequestEvent → List TransObj
  | .receive obj => if obj.msgType = msgAskForFriend then [obj] else []
  | .command _ _ _ => []

/-- The request that an event accepts. -/
def accepted (c : ClientState) : RequestEvent → List TransObj
  | .command .accRequest _ arg =>
    if c.player.logined then (c.reqBuff.getOneRequest (atoi (cstr arg)).toInt).toList else []
  | _ => []

/-- An event that is an acceptance does what it says. -/
def Meant (c : ClientState) : RequestEvent → Prop
  | .command .accRequest heap arg => c.player.logined = true → AcceptsAsMeant past heap c arg
  | _ => True

/-- An event that is an acceptance reads as no index. -/
def Reads (c : ClientState) : RequestEvent → Prop
  | .command .accRequest _ arg => c.player.logined = true → ReadsAsNone c arg
  | _ => True

/-- Every event of a run is as `P` says. The run ends where an event has no result. -/
def Always (P : ClientState → RequestEvent → Prop) : ClientState → List RequestEvent → Prop
  | _, [] => True
  | c, e :: es => P c e ∧
      match e.next past c with
      | none => True
      | some c' => Always P c' es

/-- What the events of a run give, in order. -/
def collect (f : ClientState → RequestEvent → List TransObj) :
    ClientState → List RequestEvent → List TransObj
  | _, [] => []
  | c, e :: es => f c e ++
      match e.next past c with
      | none => []
      | some c' => collect f c' es

variable {past}

theorem meant_iff {c : ClientState} {e : RequestEvent} : e.Meant past c ↔ e.Reads c := by
  unfold Meant Reads
  split
  · exact forall_congr' fun hlogin => acceptsAsMeant_iff past _ hlogin _
  · exact Iff.rfl

/-- An acceptance that reads as no index accepts nothing. -/
theorem Reads.accepted {c : ClientState} {e : RequestEvent} (reads : e.Reads c) :
    e.accepted c = [] := by
  unfold RequestEvent.accepted
  unfold Reads at reads
  split
  · split
    · rename_i hlogin
      rw [(reads hlogin).read]
      rfl
    · rfl
  · rfl

theorem always_congr {P Q : ClientState → RequestEvent → Prop} (h : ∀ c e, P c e ↔ Q c e)
    (c : ClientState) (es : List RequestEvent) : Always past P c es ↔ Always past Q c es := by
  have hsame : P = Q := funext fun c => funext fun e => propext (h c e)
  rw [hsame]

/-- A run whose events give nothing gives nothing. -/
theorem collect_eq_nil {P : ClientState → RequestEvent → Prop}
    {f : ClientState → RequestEvent → List TransObj} (h : ∀ c e, P c e → f c e = [])
    {c : ClientState} {es : List RequestEvent} (always : Always past P c es) :
    collect past f c es = [] := by
  induction es generalizing c with
  | nil => rfl
  | cons e es ih =>
    obtain ⟨hfirst, hrest⟩ := always
    rw [collect, h c e hfirst, List.nil_append]
    cases hnext : e.next past c with
    | none => rfl
    | some c' =>
      rw [hnext] at hrest
      exact ih hrest

end RequestEvent

open RequestEvent

/-- Every acceptance of a run does what it says, and each request that was pending or came in is
accepted at most once. -/
def AcceptsOnce (past : Bytes) (c : ClientState) (es : List RequestEvent) : Prop :=
  Always past (Meant past) c es ∧
    (collect past accepted c es).Subperm (c.reqBuff.data ++ collect past (fun _ => received) c es)

/-- **A run accepts its requests once each, as it should, exactly when every acceptance reads as no
index.** -/
theorem acceptsOnce_iff (past : Bytes) (c : ClientState) (es : List RequestEvent) :
    AcceptsOnce past c es ↔ Always past Reads c es := by
  have hmeant : Always past (Meant past) c es ↔ Always past Reads c es :=
    always_congr (fun _ _ => meant_iff) c es
  constructor
  · rintro ⟨always, -⟩
    exact hmeant.mp always
  · intro always
    refine ⟨hmeant.mpr always, ?_⟩
    rw [collect_eq_nil (fun _ _ reads => reads.accepted) always]
    exact List.nil_subperm

/-- Bob's request is accepted and stays in the list, so the next `ar@0` accepts it again. -/
theorem accepted_request_stays : ¬ ∀ past c es, AcceptsOnce past c es := by
  intro claim
  have haccept : AcceptsAsMeant [] (.fill _ 0) askedClient (ascii "0") :=
    (claim [] askedClient [.command .accRequest (.fill _ 0) (ascii "0")]).1.1 rfl
  exact ((acceptsAsMeant_iff [] (.fill _ 0) rfl (ascii "0")).mp haccept).numeral 0 (by decide) rfl

end Smer
