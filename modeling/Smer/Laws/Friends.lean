import Smer.HandleMsg.Footprint
import Smer.Server.Wire
import Smer.Util.Input

/-!
# The friend handshake

One user asks (`add@` and a name), the server looks the name up and passes the request on, and the
other user accepts an entry of the list of requests (`ar@` and an index). Each leg is one hop of a
typed line from one client over the server to the other (`hop`).

The request never says who asks. It is made with the sender -1 and with the name of the asked user
as its text, the server changes its receiver and its descriptor only, and the asked client keeps it
as it came. So the entry is not the asker's for any two users (`not_handshakeAgrees`), and what is
accepted later is an answer to user -1.

The legs run alone and are received whole. The law is negative, so runs with more going on have
nothing to add.
-/

namespace Smer

open Lib ClientM ComManger

/-! ## Hops -/

/-- A client with its connection: the descriptor and the handler that the server has for it, what
its heap held before, and what lies behind its objects. -/
structure Peer where
  client : ClientState
  fd : Int32
  handler : EchoHandler
  heap : CharArray maxTransMsgLen
  past : Bytes

/-- The objects pushed for a descriptor reach the client there, whole and in order. -/
def Peer.deliver (q : Peer) : List TransObj → Option Peer
  | [] => some q
  | obj :: objs =>
    if obj.fd = q.fd then
      (q.client.receives q.past obj).bind fun c => { q with client := c }.deliver objs
    else q.deliver objs

/-- A line typed at `p`: its message goes to the server, its task runs, and what the task pushes
for `q` is handled by `q`. -/
def hop (E : Mysql) (past : Bytes) (w : World) (p q : Peer) (line : Bytes) :
    Option (World × Peer × Peer) :=
  ((Util.getMsgFromInput p.heap p.past line).run p.client).bind fun (made, c) =>
    let p := { p with client := c }
    match made with
    | none => some (w, p, q)
    | some obj =>
      let w' := w.receives E p.fd p.handler past obj
      (q.deliver (w'.outbound.drop w.outbound.length)).map fun q => (w', p, q)

/-! ## The handshake -/

def askLine (name : Bytes) : Bytes := ascii "add" ++ 64 :: name

def acceptLine (index : Nat) : Bytes := ascii "ar" ++ 64 :: toText index

/-- A friend was added to a player and no other friend changed. -/
def FriendAdded (before after : Player) (name : Bytes) (id : Int32) : Prop :=
  after.friends.lookup name = some (some id) ∧
    ∀ other, other ≠ name → after.friends.lookup other = before.friends.lookup other

/-- The handshake agrees: the asked user `q` has one more request, which is the asker's, and after
the two have handled its acceptance each is the other's friend. -/
def HandshakeAgrees (E : Mysql) (past : Bytes) (w : World) (p q : Peer) (a b : Int32)
    (na nb : Bytes) : Prop :=
  ∃ w₁ p₁ q₁ entry, hop E past w p q (askLine nb) = some (w₁, p₁, q₁) ∧
    q₁.client.reqBuff.data = q.client.reqBuff.data ++ [entry] ∧
    entry.id = a ∧ entry.getMsg q.past = na ∧
    ∃ w₂ p₂ q₂,
      hop E past w₁ q₁ p₁ (acceptLine q.client.reqBuff.data.length) = some (w₂, q₂, p₂) ∧
      FriendAdded q.client.player q₂.client.player na a ∧
      FriendAdded p.client.player p₂.client.player nb b

/-! ## The request as it is made -/

/-- The request for a name, as the line makes it: sender -1, receiver -1, and the name of the asked
user as its text. -/
def askObj (heap : CharArray maxTransMsgLen) (name : Bytes) : TransObj :=
  ((TransObj.make heap (-1) (-1) msgAskForFriend (.ofNat maxTransMsgLen) (-1)).setMsg
    (cstr name)).1

/-- The only message that asking for a name can make. -/
theorem made_ask {heap : CharArray maxTransMsgLen} {past name : Bytes} {c c' : ClientState}
    {obj : TransObj}
    (typed : (Util.getMsgFromInput heap past (askLine name)).run c = some (some obj, c')) :
    obj = askObj heap name ∧ name.length < nameMaxLen := by
  have htype : (64 : UInt8) ∉ ascii "add" := by decide
  rw [askLine] at typed
  by_cases hat : (64 : UInt8) ∈ name
  · rw [Util.getMsgFromInput_many htype hat] at typed
    cases typed
  · rw [Util.getMsgFromInput_command Util.handleInputOfAskForFriend htype hat rfl,
      Util.handleInputOfAskForFriend, StateT.run_bind] at typed
    cases logined : c.player.logined with
    | false =>
      obtain ⟨c₁, hfirst⟩ := Util.run_tryLoginFirst_not logined
      rw [hfirst] at typed
      cases typed
    | true =>
      rw [Util.run_tryLoginFirst logined] at typed
      by_cases hlen : name.length ≥ nameMaxLen
      · simp only [Option.bind_eq_bind, Option.bind_some, Bool.false_eq_true, if_false,
          if_pos hlen] at typed
        cases typed
      · simp only [Option.bind_eq_bind, Option.bind_some, Bool.false_eq_true, if_false,
          if_neg hlen] at typed
        cases typed
        exact ⟨rfl, Nat.lt_of_not_le hlen⟩

/-- The text of the request is the name that was asked for. -/
theorem askObj_getMsg (heap : CharArray maxTransMsgLen) {name : Bytes}
    (hname : name.length < nameMaxLen) (hzero : (0 : UInt8) ∉ name) (past : Bytes) :
    (askObj heap name).getMsg past = name := by
  have hfits : name.length < maxTransMsgLen := hname.trans (by decide)
  rw [askObj, cstr_eq_self hzero]
  exact TransObj.getMsg_setMsg _ hfits hzero past

/-! ## What a client's handlers do to its requests -/

/-- A routine that leaves the list of requests alone. -/
def KeepsRequests {α : Type} (m : ClientM α) : Prop :=
  ∀ c a c', m.run c = some (a, c') → c'.reqBuff = c.reqBuff

section Requests

variable {α β : Type}

theorem keeps_pure (a : α) : KeepsRequests (pure a) := fun c _ c' h => by
  cases h
  rfl

theorem keeps_bind {m : ClientM α} {f : α → ClientM β} (first : KeepsRequests m)
    (rest : ∀ a, KeepsRequests (f a)) : KeepsRequests (m >>= f) := fun c b c' h => by
  rw [StateT.run_bind] at h
  obtain ⟨⟨a, c₁⟩, h₁, h₂⟩ := Option.bind_eq_some_iff.mp h
  exact (rest a c₁ b c' h₂).trans (first c a c₁ h₁)

theorem keeps_modify {f : ClientState → ClientState} (hf : ∀ c, (f c).reqBuff = c.reqBuff) :
    KeepsRequests (modify f) := fun c _ c' h => by
  cases h
  exact hf c

theorem keeps_output (text : Bytes) : KeepsRequests (output text) := keeps_modify fun _ => rfl

theorem keeps_addFriend (name : Bytes) (id : Int32) : KeepsRequests (addFriend name id) := by
  intro c added c' h
  obtain ⟨⟨player, b⟩, -, hout⟩ := Option.map_eq_some_iff.mp h
  cases hout
  rfl

open HandleMsgClient in
/-- **A handled object is the only request that can be new.** -/
theorem requests_handle {obj : TransObj} {past : Bytes} {c c' : ClientState} {u : Unit}
    (h : (HandleMsgClient.handle obj past).run c = some (u, c')) :
    c'.reqBuff.data = c.reqBuff.data ∨ c'.reqBuff.data = c.reqBuff.data ++ [obj] := by
  have keeps : ∀ {m : ClientM Unit}, KeepsRequests m → m.run c = some (u, c') →
      c'.reqBuff.data = c.reqBuff.data ∨ c'.reqBuff.data = c.reqBuff.data ++ [obj] :=
    fun hm hrun => .inl (congrArg ConcList.data (hm c u c' hrun))
  rw [HandleMsgClient.handle] at h
  cases hfind : gMsgHandle.find? fun entry => entry.1 = obj.msgType with
  | none =>
    rw [hfind] at h
    exact keeps (keeps_pure ()) h
  | some entry =>
    rw [hfind] at h
    have hrun : (entry.2 obj past).run c = some (u, c') := h
    have hmem := List.mem_of_find?_eq_some hfind
    simp only [gMsgHandle, List.mem_cons, List.not_mem_nil, or_false] at hmem
    rcases hmem with rfl | rfl | rfl | rfl | rfl | rfl | rfl | rfl | rfl | rfl | rfl
    · exact keeps (keeps_pure ()) hrun
    · exact keeps (keeps_output _) hrun
    · exact keeps (keeps_pure ()) hrun
    · exact keeps (keeps_output _) hrun
    · refine keeps ?_ hrun
      exact keeps_bind (keeps_modify fun _ => rfl) fun _ => keeps_output _
    · exact keeps (keeps_pure ()) hrun
    · exact keeps (keeps_output _) hrun
    · refine keeps ?_ hrun
      exact keeps_bind (keeps_modify fun _ => rfl) fun _ =>
        keeps_bind (keeps_modify fun _ => rfl) fun _ => keeps_output _
    · cases hrun
      exact .inr rfl
    · exact keeps (keeps_output _) hrun
    · refine keeps ?_ hrun
      simp only [handleAskForFriendAcceptMsg]
      split
      · exact keeps_pure ()
      · refine keeps_bind (keeps_addFriend _ _) fun added => ?_
        split
        · exact keeps_output _
        · exact keeps_pure ()

/-- The requests that delivered objects become are some of these objects. -/
theorem requests_deliver {objs : List TransObj} {msg : CharArray maxTransMsgLen}
    (hobjs : ∀ obj ∈ objs, obj.msg = msg) {q q' : Peer} (h : q.deliver objs = some q') :
    ∃ new, q'.client.reqBuff.data = q.client.reqBuff.data ++ new ∧ ∀ r ∈ new, r.msg = msg := by
  induction objs generalizing q with
  | nil =>
    cases h
    exact ⟨[], (List.append_nil _).symm, fun r hr => absurd hr List.not_mem_nil⟩
  | cons obj objs ih =>
    have hrest : ∀ o ∈ objs, o.msg = msg := fun o ho => hobjs o (List.mem_cons_of_mem _ ho)
    rw [Peer.deliver] at h
    split at h
    · obtain ⟨c, hc, htail⟩ := Option.bind_eq_some_iff.mp h
      rw [clientReceives_eq] at hc
      obtain ⟨⟨u, c₁⟩, hrun, rfl⟩ := Option.map_eq_some_iff.mp hc
      obtain ⟨new, hnew, hmsg⟩ := ih hrest htail
      rcases requests_handle hrun with hsame | hgrown
      · rw [hsame] at hnew
        exact ⟨new, hnew, hmsg⟩
      · rw [hgrown, List.append_assoc] at hnew
        refine ⟨obj.eraseLen :: new, hnew, fun r hr => ?_⟩
        rcases List.mem_cons.mp hr with rfl | hr
        · exact hobjs obj List.mem_cons_self
        · exact hmsg r hr
    · exact ih hrest h

end Requests

/-! ## The request that arrives -/

/-- The server pushes a request with its text as it came. -/
theorem kept_ask {E : Mysql} {past : Bytes} {fd : Int32} {h : EchoHandler} (w : World)
    (heap : CharArray maxTransMsgLen) (name : Bytes) :
    Kept (fun o => o.msg = (askObj heap name).msg) w
      (w.receives E fd h past (askObj heap name)) := by
  have htype : (askObj heap name).eraseLen.msgType = msgAskForFriend := TransObj.setMsg_msgType _ _
  generalize askObj heap name = obj at htype
  rw [receives_eq, HandleMsg.handle_askForFriend fd past htype, World.runTask]
  have only : (HandleMsg.askForFriendTask obj.eraseLen fd past).Only
      (Footprint fun o => o.msg = obj.msg) :=
    HandleMsg.askForFriendTask_footprint _ _ _ (fun _ _ => rfl) rfl
  exact Footprint.run only w

/-- **Every request that asking for a name leaves at a client has that name as its text**, whatever
state the two clients and the server are in. -/
theorem asked_text {E : Mysql} {past : Bytes} {w w' : World} {p q p' q' : Peer} {name : Bytes}
    (hzero : (0 : UInt8) ∉ name) (asked : hop E past w p q (askLine name) = some (w', p', q')) :
    ∃ new, q'.client.reqBuff.data = q.client.reqBuff.data ++ new ∧
      ∀ r ∈ new, r.getMsg q.past = name := by
  obtain ⟨⟨made, c⟩, htyped, hrest⟩ := Option.bind_eq_some_iff.mp asked
  cases made with
  | none =>
    cases hrest
    exact ⟨[], (List.append_nil _).symm, fun r hr => absurd hr List.not_mem_nil⟩
  | some obj =>
    obtain ⟨rfl, hname⟩ := made_ask htyped
    obtain ⟨q₁, hdeliver, hout⟩ := Option.map_eq_some_iff.mp hrest
    have hclient : q₁ = q' := congrArg (fun out => out.2.2) hout
    obtain ⟨-, pushed, hpushed, hmsg⟩ := @kept_ask E past p.fd p.handler w p.heap name
    rw [hpushed, List.drop_left] at hdeliver
    obtain ⟨new, hnew, htext⟩ := requests_deliver hmsg hdeliver
    rw [← hclient]
    refine ⟨new, hnew, fun r hr => ?_⟩
    rw [TransObj.getMsg, htext r hr]
    exact askObj_getMsg p.heap hname hzero q.past

/-- A handshake that agrees asks a user for that user's own name. -/
theorem HandshakeAgrees.same_name {E : Mysql} {past : Bytes} {w : World} {p q : Peer}
    {a b : Int32} {na nb : Bytes} (hzero : (0 : UInt8) ∉ nb)
    (agrees : HandshakeAgrees E past w p q a b na nb) : na = nb := by
  obtain ⟨w₁, p₁, q₁, entry, hasked, hdata, -, htext, -⟩ := agrees
  obtain ⟨new, hnew, hname⟩ := asked_text hzero hasked
  have hentry : entry ∈ new := by
    rw [hnew, List.append_cancel_left_eq] at hdata
    rw [hdata]
    exact List.mem_cons_self
  rw [← htext]
  exact hname entry hentry

/-- **The handshake of two users of different names never agrees.** -/
theorem not_handshakeAgrees (E : Mysql) (past : Bytes) (w : World) (p q : Peer) (a b : Int32)
    {na nb : Bytes} (distinct : na ≠ nb) (hzero : (0 : UInt8) ∉ nb) :
    ¬ HandshakeAgrees E past w p q a b na nb :=
  fun agrees => distinct (agrees.same_name hzero)

/-! ## Two users -/

/-- A client's user is logged in and online on the client's connection. -/
structure LoggedIn (w : World) (p : Peer) (id : Int32) (name : Bytes) : Prop where
  logined : p.client.player.logined = true
  playerId : p.client.player.data.id = id
  playerName : p.client.player.data.name = name
  registered : ∃ row ∈ w.userinfo, row.userid = id ∧ row.username = name
  online : Online w.redis id
  fd : (w.redis.hashes (idText id)).lookup (ascii "fd") = some (idText p.fd)
  name : (w.redis.hashes (idText id)).lookup (ascii "name") = some name

/-- The hash of a session, with its two fields. -/
def sessionHash (name : Bytes) (fd : Int32) : RedisHash :=
  AList.insert (ascii "fd") (idText fd) (AList.insert (ascii "name") name ∅)

theorem sessionHash_fd (name : Bytes) (fd : Int32) :
    (sessionHash name fd).lookup (ascii "fd") = some (idText fd) := AList.lookup_insert _

theorem sessionHash_name (name : Bytes) (fd : Int32) :
    (sessionHash name fd).lookup (ascii "name") = some name := by
  rw [sessionHash, AList.lookup_insert_ne (by decide)]
  exact AList.lookup_insert _

/-- The users 1, `ann`, on the descriptor 5, and 2, `bob`, on the descriptor 6. -/
def pairWorld : World where
  userinfo := [⟨1, ascii "ann", 5, ascii "a"⟩, ⟨2, ascii "bob", 6, ascii "b"⟩]
  redis := ((enter (enter .empty 1) 2).setHash (idText 1) (sessionHash (ascii "ann") 5)).setHash
    (idText 2) (sessionHash (ascii "bob") 6)
  outbound := []
  sqlFaults := []
  redisFaults := []

def pairPeer (id : Int32) (name : Bytes) (fd : Int32) : Peer where
  client := ⟨⟨true, ⟨id, name, []⟩, false, [], ∅, none, true⟩, .empty, [], []⟩
  fd := fd
  handler := ⟨0, .fill _ 0⟩
  heap := .fill _ 0
  past := []

theorem pairWorld_hash_one : pairWorld.redis.hashes (idText 1) = sessionHash (ascii "ann") 5 := by
  have hne : idText 1 ≠ idText 2 := fun h => absurd (idText_injective h) (by decide)
  rw [pairWorld, RedisStore.setHash_hashes_ne _ hne, RedisStore.setHash_hashes_self]

theorem pairWorld_hash_two : pairWorld.redis.hashes (idText 2) = sessionHash (ascii "bob") 6 :=
  RedisStore.setHash_hashes_self _ _ _

theorem loggedIn_ann : LoggedIn pairWorld (pairPeer 1 (ascii "ann") 5) 1 (ascii "ann") where
  logined := rfl
  playerId := rfl
  playerName := rfl
  registered := ⟨_, List.mem_cons_self, rfl, rfl⟩
  online := online_enter.mpr (.inr (online_enter.mpr (.inl rfl)))
  fd := by rw [pairWorld_hash_one]; exact sessionHash_fd _ _
  name := by rw [pairWorld_hash_one]; exact sessionHash_name _ _

theorem loggedIn_bob : LoggedIn pairWorld (pairPeer 2 (ascii "bob") 6) 2 (ascii "bob") where
  logined := rfl
  playerId := rfl
  playerName := rfl
  registered := ⟨_, List.mem_cons_of_mem _ List.mem_cons_self, rfl, rfl⟩
  online := online_enter.mpr (.inl rfl)
  fd := by rw [pairWorld_hash_two]; exact sessionHash_fd _ _
  name := by rw [pairWorld_hash_two]; exact sessionHash_name _ _

theorem not_handshakeAgrees_pair :
    ¬ HandshakeAgrees .reference [] pairWorld (pairPeer 1 (ascii "ann") 5)
      (pairPeer 2 (ascii "bob") 6) 1 2 (ascii "ann") (ascii "bob") :=
  not_handshakeAgrees .reference [] pairWorld _ _ 1 2 (by decide) (by decide)

/-- `ann` asks `bob`, with nothing else stored and nothing failing, and they do not become
friends. -/
theorem handshake_anonymous :
    ¬ ∀ (E : Mysql) (past : Bytes) (w : World) (p q : Peer) (a b : Int32) (na nb : Bytes),
      w.sqlFaults = [] → w.redisFaults = [] → (w.userinfo.map UserRow.username).Nodup →
      a ≠ b → na ≠ nb → (0 : UInt8) ∉ na → (0 : UInt8) ∉ nb →
      LoggedIn w p a na → LoggedIn w q b nb → HandshakeAgrees E past w p q a b na nb := by
  intro claim
  have agrees := claim .reference [] pairWorld (pairPeer 1 (ascii "ann") 5)
    (pairPeer 2 (ascii "bob") 6) 1 2 (ascii "ann") (ascii "bob") rfl rfl (by decide) (by decide)
    (by decide) (by decide) (by decide) loggedIn_ann loggedIn_bob
  exact absurd (agrees.same_name (by decide)) (by decide)

end Smer
