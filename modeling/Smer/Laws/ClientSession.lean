import Smer.Laws.Display

/-!
# What a client has become

A client's state is written by the game thread, from the objects that arrive, and by the IO thread,
from the lines that are typed. In every run of its threads it is what the handled objects make of the
start (`sessionOf_of_reaches`): the player is logged in once an acceptance was handled, under the
identity of the last one, and the list of requests is that of the requests that came. The lines add
nothing but friends who have asked.

Two lists go to the one outbound queue: the messages of the lines, `game.buff`, and the `MSG_CMD`
objects of the keys, `readKey.buff`. Before the player is logged in a line makes nothing but logins
and registrations; a key is pushed at any time, and it is always a command of the actor.

The player is not locked. `setPlayerLogin` sets the flag before the identity, and a line that is read
between the two is logged in under the old identity; here a handler is one step, and nothing is said
of such a line.
-/

namespace Smer

open Lib ClientM

namespace ClientRun

/-- Why a friend is one: an acceptance of that name and id was handled, or a request of that text and
id is in the list. -/
def Befriended (s : ClientRun) (name : Bytes) (id : Int32) : Prop :=
  (∃ e ∈ s.handled, e.1.msgType = msgAskForFriendAccept ∧ e.1.getName e.2 = name ∧ e.1.id = id) ∨
    ∃ req ∈ s.client.reqBuff.data, ∃ past, req.getMsg past = name ∧ req.id = id

/-- What a client that started as `c` has become: each part of its state, as what the handled
objects and the typed lines make of the start. -/
structure SessionOf (c : ClientState) (s : ClientRun) : Prop where
  logined : s.client.player.logined =
    (c.player.logined || s.handled.any fun e => e.1.msgType = msgLoginAccept)
  data : s.client.player.data =
    s.handled.foldl (fun data e => e.1.identity e.2 data) c.player.data
  requests : s.client.reqBuff =
    ((s.handled.map Prod.fst).filter fun obj => obj.msgType = msgAskForFriend).foldl
      ConcList.pushBack c.reqBuff
  /-- a friend was one at the start or has become one -/
  friends : ∀ name id, s.client.player.friends.lookup name = some (some id) →
    c.player.friends.lookup name = some (some id) ∨ s.Befriended name id
  /-- before the login the lines make nothing but logins and registrations -/
  gated : ∀ obj ∈ s.game.buff,
    obj.msgType ∈ [msgLogin, msgReg] ∨ s.client.player.logined = true
  /-- and these name no descriptor -/
  unaddressed : ∀ obj ∈ s.game.buff, obj.msgType ∈ [msgLogin, msgReg] → obj.fd = -1
  /-- beside the lines only the actor's commands go out, which no login guards -/
  commands : ∀ type ∈ s.game.readKey.buff, ReadKey.isActorCmd type = true

section Session

variable {c : ClientState} {s s' : ClientRun}

theorem sessionOf_start (settings : Termios) : SessionOf c (start settings c) where
  logined := (Bool.or_false _).symm
  data := rfl
  requests := rfl
  friends _ _ h := .inl h
  gated obj hobj := by cases hobj
  unaddressed obj hobj := by cases hobj
  commands type htype := by cases htype

/-- A friend of a list with one more entry is that entry or was one before. -/
theorem lookup_insert_cases {friends : Friends} {name other : Bytes} {id id' : Int32}
    (h : (friends.insert other (some id')).lookup name = some (some id)) :
    friends.lookup name = some (some id) ∨ other = name ∧ id' = id := by
  by_cases hname : name = other
  · rw [hname, AList.lookup_insert] at h
    cases h
    exact .inr ⟨hname.symm, rfl⟩
  · rw [AList.lookup_insert_ne hname] at h
    exact .inl h

/-- The friends of a client stay befriended when it handles more and has more requests. -/
theorem Befriended.mono {name : Bytes} {id : Int32} (h : s.Befriended name id)
    (handled : s.handled ⊆ s'.handled) (requests : s.client.reqBuff.data ⊆ s'.client.reqBuff.data) :
    s'.Befriended name id := by
  rcases h with ⟨e, he, hwhy⟩ | ⟨req, hreq, hwhy⟩
  · exact .inl ⟨e, handled he, hwhy⟩
  · exact .inr ⟨req, requests hreq, hwhy⟩

/-- Handling an object adds it to what the client has become: its login, its identity, its request,
its friend. -/
theorem SessionOf.handle (session : SessionOf c s) {game : Game} {obj : TransObj}
    {rest : List TransObj} {past : Bytes} {client : ClientState} {put : List SystemMsgObj}
    (handling : Handling obj past s.client client) (buff : game.buff = s.game.buff)
    (keys : s.game.readKey.Grows game.readKey) :
    SessionOf c { s with
      game := game, client := client, rcvBuff := rest, put := put
      handled := s.handled ++ [(obj, past)] } := by
  have hrequests : s.client.reqBuff.data ⊆ client.reqBuff.data := by
    rw [handling.reqBuff]
    split
    · exact List.subset_append_left _ _
    · exact List.Subset.refl _
  refine ⟨?_, ?_, ?_, fun name id h => ?_, fun o ho => ?_, fun o ho => ?_, fun type htype => ?_⟩
  · show client.player.logined = (_ || (s.handled ++ [(obj, past)]).any _)
    rw [handling.logined, session.logined, List.any_append, Bool.or_assoc]
    simp only [List.any_cons, List.any_nil, Bool.or_false]
  · show client.player.data = (s.handled ++ [(obj, past)]).foldl _ _
    rw [handling.data, session.data, List.foldl_append]
    rfl
  · show client.reqBuff = (((s.handled ++ [(obj, past)]).map Prod.fst).filter _).foldl _ _
    rw [handling.reqBuff, session.requests, List.map_append, List.filter_append, List.foldl_append]
    by_cases hask : obj.msgType = msgAskForFriend
    · rw [if_pos hask, List.map_singleton, List.filter_singleton, decide_eq_true hask]
      rfl
    · rw [if_neg hask, List.map_singleton, List.filter_singleton, decide_eq_false hask]
      rfl
  · have hold : s.client.player.friends.lookup name = some (some id) →
        c.player.friends.lookup name = some (some id) ∨ Befriended { s with
          game := game, client := client, rcvBuff := rest, put := put
          handled := s.handled ++ [(obj, past)] } name id := fun h =>
      (session.friends name id h).imp_right fun why =>
        why.mono (List.subset_append_left _ _) hrequests
    rcases handling.friends with hsame | ⟨htype, hnew⟩
    · exact hold (hsame ▸ h)
    · rw [hnew] at h
      rcases lookup_insert_cases h with h | ⟨hname, hid⟩
      · exact hold h
      · exact .inr (.inl ⟨(obj, past), List.mem_append_right _ List.mem_cons_self, htype, hname, hid⟩)
  · rw [buff] at ho
    refine (session.gated o ho).imp_right fun hlogin => ?_
    show client.player.logined = true
    rw [handling.logined, hlogin, Bool.true_or]
  · rw [buff] at ho
    exact session.unaddressed o ho
  · exact (keys type htype).elim (session.commands type) id

/-- A typed line adds its message, and the friend whose request it accepts. -/
theorem SessionOf.line (session : SessionOf c s) {game : Game} {past : Bytes}
    {made : Option TransObj} {client : ClientState} {put : List SystemMsgObj}
    (typed : Typed past s.client made client) (buff : game.buff = s.game.buff ++ made.toList)
    (keys : s.game.readKey.Grows game.readKey) :
    SessionOf c { s with game := game, client := client, put := put } := by
  have hrequests : s.client.reqBuff.data ⊆ client.reqBuff.data := by
    rw [typed.reqBuff]
    exact List.Subset.refl _
  refine ⟨typed.logined.trans session.logined, typed.data.trans session.data,
    typed.reqBuff.trans session.requests, fun name id h => ?_, fun o ho => ?_, fun o ho => ?_,
    fun type htype => (keys type htype).elim (session.commands type) id⟩
  · have hold : s.client.player.friends.lookup name = some (some id) →
        c.player.friends.lookup name = some (some id) ∨
          Befriended { s with game := game, client := client, put := put } name id := fun h =>
      (session.friends name id h).imp_right fun why => why.mono (List.Subset.refl _) hrequests
    rcases typed.friends with hsame | ⟨req, hreq, hnew⟩
    · exact hold (hsame ▸ h)
    · rw [hnew] at h
      rcases lookup_insert_cases h with h | ⟨hname, hid⟩
      · exact hold h
      · exact .inr (.inr ⟨req, hrequests hreq, past, hname, hid⟩)
  · show _ ∨ client.player.logined = true
    rw [typed.logined]
    rw [buff] at ho
    rcases List.mem_append.mp ho with hold | hnew
    · exact session.gated o hold
    · exact (typed.gated o (Option.mem_toList.mp hnew)).symm
  · rw [buff] at ho
    rcases List.mem_append.mp ho with hold | hnew
    · exact session.unaddressed o hold
    · exact typed.unaddressed o (Option.mem_toList.mp hnew)

/-- A step that neither handles an object nor reads a line. -/
theorem SessionOf.quiet (session : SessionOf c s) (player : s'.client.player = s.client.player)
    (reqBuff : s'.client.reqBuff = s.client.reqBuff) (handled : s'.handled = s.handled)
    (buff : s'.game.buff = s.game.buff) (keys : s.game.readKey.Grows s'.game.readKey) :
    SessionOf c s' := by
  refine ⟨?_, ?_, ?_, fun name id h => ?_, fun o ho => ?_, fun o ho => ?_, fun type htype => ?_⟩
  · rw [player, handled]
    exact session.logined
  · rw [player, handled]
    exact session.data
  · rw [reqBuff, handled]
    exact session.requests
  · rw [player] at h
    refine (session.friends name id h).imp_right fun why => why.mono ?_ ?_
    · rw [handled]
      exact List.Subset.refl _
    · rw [reqBuff]
      exact List.Subset.refl _
  · rw [player]
    rw [buff] at ho
    exact session.gated o ho
  · rw [buff] at ho
    exact session.unaddressed o ho
  · exact (keys type htype).elim (session.commands type) id

theorem SessionOf.move (session : SessionOf c s) (move : ClientMove s s') : SessionOf c s' := by
  cases move with
  | receive obj => exact session.quiet rfl rfl rfl rfl (.of_eq rfl)
  | take past hsys buff pipe keys => exact session.quiet rfl rfl rfl buff keys
  | handle hrcv handling grows buff pipe keys => exact session.handle handling buff keys
  | print buff pipe keys => exact session.quiet rfl rfl rfl buff keys
  | line typed grows buff pipe keys => exact session.line typed buff keys
  | goesOn buff pipe keys => exact session.quiet rfl rfl rfl buff keys

/-- No routine of a client deletes a friend. -/
theorem undeleted_move (undeleted : s.client.player.Undeleted) (move : ClientMove s s') :
    s'.client.player.Undeleted := by
  have kept : ∀ {p : Player}, p.friends = s.client.player.friends → p.Undeleted := by
    intro p hsame name
    rw [hsame]
    exact undeleted name
  cases move with
  | handle hrcv handling grows buff pipe =>
    rcases handling.friends with hsame | ⟨-, hnew⟩
    · exact kept hsame
    · exact undeleted.insert hnew
  | line typed grows buff pipe =>
    rcases typed.friends with hsame | ⟨req, -, hnew⟩
    · exact kept hsame
    · exact undeleted.insert hnew
  | receive | take | print | goesOn => exact undeleted

/-- **A client's friends are never null pointers**, if none was at the start. -/
theorem undeleted_of_reaches {settings : Termios} (undeleted : c.player.Undeleted)
    (reach : Reaches step (fun _ _ => True) (start settings c) s) : s.client.player.Undeleted :=
  reach.invariant (I := fun s => s.client.player.Undeleted) undeleted
    fun _ _ _ undeleted _ h => undeleted_move undeleted (move_of_step h)

/-- **A client is what the objects that it has handled have made of it.** -/
theorem sessionOf_of_reaches {settings : Termios}
    (reach : Reaches step (fun _ _ => True) (start settings c) s) : SessionOf c s :=
  reach.invariant (sessionOf_start settings) fun _ _ _ session _ h => session.move (move_of_step h)

end Session

/-- The acceptance of a login as user 7. -/
def acceptObj : TransObj := { TransObj.zero with msgType := msgLoginAccept, id := 7 }

/-- The acceptance arrives, and two steps of the game thread later it is handled. -/
def accepting : List ClientAction := .receive acceptObj :: List.replicate 2 (.game [] idle)

theorem sessionOf_accepting :
    ∃ s, play step accepting (start noSettings Util.startedClient) = some s ∧
      s.client.player.logined = true ∧ SessionOf Util.startedClient s := by
  obtain ⟨s, hs, hlogined⟩ :
      ∃ s, play step accepting (start noSettings Util.startedClient) = some s ∧
        s.client.player.logined = true := ⟨_, rfl, rfl⟩
  exact ⟨s, hs, hlogined, sessionOf_of_reaches (Reaches.play .refl hs)⟩

end ClientRun

end Smer
