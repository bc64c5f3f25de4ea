import Smer.Lib.Refinement
import Smer.Laws.Session
import Smer.Server.System

/-!
# The chat service

What the server is for, without its texts: accounts with names and passwords, sessions of the users
who are logged in, and for each request what is answered (`ChatService.Step`). No SQL, no Redis
commands and no C strings. The state carries what makes it one: the names of the accounts are
distinct, their ids grow, and every session is an account's.

The service answers as the program does, with its omissions: a login under a name that nobody has is
accepted without a session, and a talk to a user who is not there is not answered at all. Which new
accounts the database refuses is a parameter. `Means` says which received objects mean which requests,
and `ChatAnswer.obj` what object an answer is.

`ServerLog` is the server with its tasks operation by operation, and any number of them under way.
Several workers do overlap in the program, and then two registrations of one name can both be
accepted, and an id can be another's. The laws of `ServerLog` are about the runs in which a task
begins when no other is under way (`ServerLog.OneByOne`); they establish nothing about the others.
-/

namespace Smer

open Lib

/-- A name that means itself in a command and in a statement. -/
structure AccountName extends PlainName where
  no_quote : (39 : UInt8) ∉ text
  no_backslash : (92 : UInt8) ∉ text

structure Account where
  id : Int32
  name : AccountName
  passwd : Bytes

structure ChatService where
  /-- in the order of their registration -/
  accounts : List Account
  sessions : SessionMap
  names : (accounts.map fun a => a.name.text).Nodup
  ids : accounts.Pairwise fun a b => a.id < b.id
  known : ∀ id name fd, sessions id = some (name, fd) →
    ∃ a ∈ accounts, a.id = id ∧ a.name.toPlainName = name

inductive ChatRequest where
  | register (name : AccountName) (passwd : Bytes)
  | login (name : AccountName) (passwd : Bytes)
  | talk (recver : Int32)
  | ask (name : AccountName)
  | accept (sender recver : Int32)
  /-- a message that the server does not handle -/
  | other

inductive ChatAnswer where
  | nameTaken
  /-- the database refuses another account -/
  | noAccount
  | registered (id : Int32)
  | wrongPasswd
  /-- the acceptance of a login under a name that nobody has -/
  | stranger
  | loggedIn (id : Int32)
  | delivered
  | notFound
  | asked (id fd : Int32)
  | accepted (fd : Int32) (name : Bytes)

namespace ChatService

/-- The service when nobody has registered and nobody is online. -/
def empty : ChatService where
  accounts := []
  sessions := fun _ => none
  names := List.nodup_nil
  ids := .nil
  known := fun id name fd h => by cases h

/-- The service with another account, under a new name and with an id above all others. -/
def register (s : ChatService) (a : Account)
    (new : ∀ b ∈ s.accounts, b.name.text ≠ a.name.text) (above : ∀ b ∈ s.accounts, b.id < a.id) :
    ChatService where
  accounts := s.accounts ++ [a]
  sessions := s.sessions
  names := by
    rw [List.map_append, List.map_singleton, ← List.concat_eq_append]
    refine s.names.concat fun hmem => ?_
    obtain ⟨b, hb, heq⟩ := List.mem_map.mp hmem
    exact new b hb heq
  ids := List.pairwise_append.mpr ⟨s.ids, List.pairwise_singleton _ _, fun b hb c hc => by
    rw [List.mem_singleton.mp hc]
    exact above b hb⟩
  known := fun id name fd h => by
    obtain ⟨b, hb, hid, hname⟩ := s.known id name fd h
    exact ⟨b, List.mem_append_left _ hb, hid, hname⟩

/-- The service when an account has logged in: it has a session on this connection, and any older
one is replaced. -/
def login (s : ChatService) (a : Account) (ha : a ∈ s.accounts) (fd : Int32) : ChatService where
  accounts := s.accounts
  sessions := s.sessions.step (.add a.id a.name.toPlainName fd)
  names := s.names
  ids := s.ids
  known := fun id name fd' h => by
    by_cases hid : id = a.id
    · rw [SessionMap.step, hid, Function.update_self] at h
      cases h
      exact ⟨a, ha, hid.symm, rfl⟩
    · rw [SessionMap.step, Function.update_of_ne hid] at h
      exact s.known id name fd' h

/-- The name under which a user's messages are passed on. -/
def senderName (s : ChatService) (id : Int32) : Bytes :=
  (s.sessions id).elim [] fun entry => entry.1.text

/-- One request on a connection: what it is answered, and the service after it. `refuses` is where
the database takes no other account. -/
inductive Step (refuses : List Account → AccountName → Bytes → Prop) (s : ChatService) (fd : Int32) :
    ChatRequest → Option ChatAnswer → ChatService → Prop where
  | nameTaken {a : Account} (passwd : Bytes) : a ∈ s.accounts →
      Step refuses s fd (.register a.name passwd) (some .nameTaken) s
  | noAccount {name : AccountName} {passwd : Bytes} :
      (∀ b ∈ s.accounts, b.name.text ≠ name.text) → refuses s.accounts name passwd →
      Step refuses s fd (.register name passwd) (some .noAccount) s
  | registered {a : Account} (new : ∀ b ∈ s.accounts, b.name.text ≠ a.name.text)
      (above : ∀ b ∈ s.accounts, b.id < a.id) :
      Step refuses s fd (.register a.name a.passwd) (some (.registered a.id)) (s.register a new above)
  | stranger {name : AccountName} (passwd : Bytes) :
      (∀ b ∈ s.accounts, b.name.text ≠ name.text) →
      Step refuses s fd (.login name passwd) (some .stranger) s
  | wrongPasswd {a : Account} {passwd : Bytes} : a ∈ s.accounts → passwd ≠ a.passwd →
      Step refuses s fd (.login a.name passwd) (some .wrongPasswd) s
  | loggedIn {a : Account} (ha : a ∈ s.accounts) :
      Step refuses s fd (.login a.name a.passwd) (some (.loggedIn a.id)) (s.login a ha fd)
  | talkOffline {recver : Int32} : s.sessions recver = none → Step refuses s fd (.talk recver) none s
  | delivered {recver : Int32} : (s.sessions recver).isSome →
      Step refuses s fd (.talk recver) (some .delivered) s
  | notFound {name : AccountName} : (∀ b ∈ s.accounts, b.name.text ≠ name.text) →
      Step refuses s fd (.ask name) (some .notFound) s
  | askedOffline {a : Account} : a ∈ s.accounts → s.sessions a.id = none →
      Step refuses s fd (.ask a.name) none s
  | asked {a : Account} {name : PlainName} {talker : Int32} : a ∈ s.accounts →
      s.sessions a.id = some (name, talker) → Step refuses s fd (.ask a.name) (some (.asked a.id talker)) s
  | acceptOffline (sender : Int32) {recver : Int32} : s.sessions recver = none →
      Step refuses s fd (.accept sender recver) none s
  | accepted (sender : Int32) {recver talker : Int32} {name : PlainName} :
      s.sessions recver = some (name, talker) →
      Step refuses s fd (.accept sender recver) (some (.accepted talker (s.senderName sender))) s
  | other : Step refuses s fd .other none s

end ChatService

/-! ## Requests and answers as objects -/

/-- What a received object means, with what lies behind it in memory. -/
inductive Means (obj : TransObj) (past : Bytes) : ChatRequest → Prop where
  /-- the password means itself in a statement, and the statement is not cut -/
  | register {name : AccountName} : obj.msgType = msgReg →
      obj.getName past = name.text → (39 : UInt8) ∉ obj.getPasswd past →
      (92 : UInt8) ∉ obj.getPasswd past → name.text.length + (obj.getPasswd past).length ≤ 26 →
      Means obj past (.register name (obj.getPasswd past))
  | login {name : AccountName} : obj.msgType = msgLogin → obj.getName past = name.text →
      Means obj past (.login name (obj.getPasswd past))
  | talk : obj.msgType = msgTalk → Means obj past (.talk obj.recverId)
  | ask {name : AccountName} : obj.msgType = msgAskForFriend → obj.getMsg past = name.text →
      Means obj past (.ask name)
  | accept : obj.msgType = msgAskForFriendAccept → Means obj past (.accept obj.id obj.recverId)
  | other : obj.msgType ∉ [msgReg, msgLogin, msgTalk, msgAskForFriend, msgAskForFriendAccept] →
      Means obj past .other

/-- The object of an answer, made of the request's object in place. -/
def ChatAnswer.obj (obj : TransObj) (fd : Int32) : ChatAnswer → TransObj
  | nameTaken => (((obj.setFd fd).setMsgType msgRegRefuse).setMsg
      (ascii "regin err! name reg exists already!")).1
  | noAccount => (((obj.setFd fd).setMsgType msgRegRefuse).setMsg
      (ascii "regin err! insert error!\n")).1
  | registered id => ((((obj.setFd fd).setMsgType msgRegAccept).setId id).setMsg
      (ascii "regin accepted! \n")).1
  | wrongPasswd => ((obj.setMsgType msgLoginRefuse).setMsg
      (ascii "Login err! password not equal!\n")).1
  | stranger => obj.setMsgType msgLoginAccept
  | loggedIn id => ((obj.setId id).setFd fd).setMsgType msgLoginAccept
  | delivered => obj
  | notFound => (obj.setMsgType msgAskForFriendNotFound).setFd fd
  | asked id talker => (obj.setrecverId id).setFd talker
  | accepted talker name => ((obj.setFd talker).setMsg name).1

/-- A request that was answered, or dropped. -/
structure ChatEvent where
  request : Request
  past : Bytes
  meant : ChatRequest
  means : Means request.obj past meant
  answer : Option ChatAnswer

namespace ChatEvent

/-- The object that is sent for an event, if its request was answered. -/
def sent (e : ChatEvent) : List TransObj :=
  (e.answer.map fun answer => answer.obj e.request.obj e.request.fd).toList

/-- The account that its answer acknowledges. -/
def account (e : ChatEvent) : Option Account :=
  match e.meant, e.answer with
  | .register name passwd, some (.registered id) => some ⟨id, name, passwd⟩
  | _, _ => none

/-- The session that its answer acknowledges. -/
def session (e : ChatEvent) : Option SessionCall :=
  match e.meant, e.answer with
  | .login name _, some (.loggedIn id) => some (.add id name.toPlainName e.request.fd)
  | _, _ => none

end ChatEvent

namespace ChatService

variable {refuses : List Account → AccountName → Bytes → Prop}

/-- A step of the service, labelled with its event: the received object, what it means, and what is
answered. -/
def Next (refuses : List Account → AccountName → Bytes → Prop) (s : ChatService) (e : ChatEvent)
    (s' : ChatService) : Prop :=
  s.Step refuses e.request.fd e.meant e.answer s'

/-- The service is what it has acknowledged: its accounts and its sessions are those of the answers,
in their order. -/
structure Acknowledged (events : List ChatEvent) (s : ChatService) : Prop where
  accounts : s.accounts = events.filterMap ChatEvent.account
  sessions : s.sessions = sessionMap (events.filterMap ChatEvent.session)

/-- An event adds to the service what its answer acknowledges, and nothing else. -/
theorem Next.acknowledges {s s' : ChatService} {e : ChatEvent} (next : Next refuses s e s') :
    s'.accounts = s.accounts ++ e.account.toList ∧
      s'.sessions = e.session.toList.foldl SessionMap.step s.sessions := by
  obtain ⟨request, past, meant, means, answer⟩ := e
  cases next with
  | registered new above => exact ⟨rfl, rfl⟩
  | loggedIn ha => exact ⟨(List.append_nil _).symm, rfl⟩
  | nameTaken | noAccount | stranger | wrongPasswd | talkOffline | delivered | notFound |
    askedOffline | asked | acceptOffline | accepted | other =>
    exact ⟨(List.append_nil _).symm, rfl⟩

/-- **Nothing is kept that was not acknowledged, and nothing acknowledged is lost.** -/
theorem acknowledged_of_history {events : List ChatEvent} {s : ChatService}
    (history : History (Next refuses) empty events s) : Acknowledged events s := by
  refine history.invariant ⟨rfl, rfl⟩ fun events s e s' ack next => ?_
  obtain ⟨haccounts, hsessions⟩ := next.acknowledges
  refine ⟨?_, ?_⟩
  · rw [haccounts, ack.accounts, List.filterMap_append, List.filterMap_cons, List.filterMap_nil]
    cases e.account <;> rfl
  · rw [hsessions, ack.sessions, sessionMap, sessionMap, List.filterMap_append, List.foldl_append,
      List.filterMap_cons, List.filterMap_nil]
    cases e.session <;> rfl

end ChatService

/-! ## The server with its completed requests -/

/-- A task under way: its request, what lies behind the object, and what is left of the task. -/
structure Begun where
  request : Request
  past : Bytes
  task : Task Unit

/-- The server, with the tasks that workers have begun, and the requests whose tasks have completed
with what lay behind their objects. -/
structure ServerLog where
  world : World
  loop : IOLoop
  /-- passed on, and not begun -/
  pending : List Request
  begun : List Begun
  completed : List (Request × Bytes)

inductive ServerLogAction where
  | accept (listener client : Int32) (buffer : CharArray bufferSize)
  | ready (fd : Int32) (e : Events) (read : Option Bytes)
  /-- a worker begins a pending request's task, or there is none for its type -/
  | begins (i : Nat) (past : Bytes)
  /-- a task performs its next operation -/
  | operate (j : Nat)
  /-- a task has come to its end -/
  | complete (j : Nat)

namespace ServerLog

/-- Nothing stored and nobody connected. -/
def start (loop : IOLoop) : ServerLog := ⟨emptyWorld, loop, [], [], []⟩

def step (E : Mysql) (s : ServerLog) : ServerLogAction → Option ServerLog
  | .accept listener client buffer =>
    (s.loop.accept listener client buffer).map fun loop => { s with loop := loop }
  | .ready fd e read =>
    (s.loop.ready fd e read).map fun (loop, passed) =>
      { s with
        loop := loop
        pending := s.pending ++ (passed.map fun obj => ⟨obj, fd⟩).toList }
  | .begins i past =>
    s.pending[i]?.map fun r =>
      match HandleMsg.handle r.obj r.fd past with
      | none => { s with
          pending := s.pending.eraseIdx i
          completed := s.completed ++ [(r, past)] }
      | some task => { s with
          pending := s.pending.eraseIdx i
          begun := s.begun ++ [⟨r, past, task⟩] }
  | .operate j =>
    s.begun[j]?.bind fun b =>
      match b.task with
      | .pure _ => none
      | .vis o k =>
        (World.answer E o s.world).map fun (answer, world) =>
          { s with world := world, begun := s.begun.set j { b with task := k answer } }
  | .complete j =>
    s.begun[j]?.bind fun b =>
      match b.task with
      | .pure _ => some { s with
          begun := s.begun.eraseIdx j
          completed := s.completed ++ [(b.request, b.past)] }
      | .vis _ _ => none

/-- A task begins when no other is under way, and its request means something to the service. -/
def OneByOne (s : ServerLog) : ServerLogAction → Prop
  | .begins i past => s.begun = [] ∧ ∀ r, s.pending[i]? = some r → ∃ meant, Means r.obj past meant
  | .accept _ _ _ | .ready _ _ _ | .operate _ | .complete _ => True

end ServerLog

end Smer
