import Smer.Lib.Run
import Smer.Server.Zepoll

/-!
# The event loop's pointers (`Server/inc/Zepoll.h`)

`IOLoop::start` takes a batch of events from the kernel and calls a handler for each, through the
pointers of `handlers_`. While a batch is being handled, handlers are made, deleted and taken out of
the map, and the kernel's set of descriptors changes with them. This module keeps all of that apart:
the map, whose `operator[]` makes null entries, the handler objects that are alive, the kernel's set
with the `data.fd` that each descriptor was registered with, the open descriptors, and the events of
the batch that are still to come.

A `fault` ends the process. What the kernel promises is not part of a step but of the runs
(`Honest`).
-/

namespace Smer

open Lib

/-- What a descriptor is registered with: its events and `data.fd`, which a call may leave unset. -/
structure Interest where
  inn : Bool
  out : Bool
  data : Option Int32

/-- An event of a batch: the descriptor it is about, the `data.fd` it carries, and its bits. -/
structure EpollEvent where
  fd : Int32
  data : Int32
  events : Events

inductive Fault where
  /-- `handle` is called on null -/
  | nullCall
  /-- `handle` is called on a handler that was deleted -/
  | deadCall
  /-- a handler is deleted twice -/
  | doubleDelete
  deriving DecidableEq

structure EventLoop where
  listener : Int32
  /-- `handlers_`: the pointers, null or not -/
  handlers : AList fun _ : Int32 => Option Nat
  /-- the handlers that are alive, and the address of the next one -/
  objects : AList fun _ : Nat => Handler
  fresh : Nat
  interest : AList fun _ : Int32 => Interest
  /-- the open descriptors that `accept` has returned -/
  clients : List Int32
  /-- the open descriptors of the rest of the process -/
  others : List Int32
  batch : List EpollEvent
  fault : Option Fault

namespace EventLoop

/-- `handlers_[fd]`, which enters a null pointer where the map has no entry. -/
def index (l : EventLoop) (fd : Int32) : EventLoop × Option Nat :=
  match l.handlers.lookup fd with
  | some handler => (l, handler)
  | none => ({ l with handlers := l.handlers.insert fd none }, none)

def delete (l : EventLoop) : Option Nat → EventLoop
  | none => l
  | some ref =>
    if (l.objects.lookup ref).isSome then { l with objects := l.objects.erase ref }
    else { l with fault := some .doubleDelete }

/-- `new`: the handler lives at the next number, which no handler had before. -/
def newHandler (l : EventLoop) (h : Handler) : EventLoop × Nat :=
  ({ l with objects := l.objects.insert l.fresh h, fresh := l.fresh + 1 }, l.fresh)

/-- `addHandler`, which is always called for `EPOLLIN`. A descriptor that is in the kernel's set is
refused there. -/
def addHandler (l : EventLoop) (fd : Int32) (handler : Nat) : EventLoop :=
  { l with
    handlers := l.handlers.insert fd (some handler)
    interest :=
      if (l.interest.lookup fd).isSome then l.interest
      else l.interest.insert fd ⟨true, false, some fd⟩ }

/-- `modifyHandler`, which is always called for `EPOLLIN`. It leaves `data.fd` unset. -/
def modifyHandler (l : EventLoop) (fd : Int32) : EventLoop :=
  { l with
    interest :=
      if (l.interest.lookup fd).isSome then l.interest.insert fd ⟨true, false, none⟩
      else l.interest }

def removeHandler (l : EventLoop) (fd : Int32) : EventLoop :=
  let (l, handler) := l.index fd
  let l := { l with handlers := l.handlers.erase fd }.delete handler
  { l with interest := l.interest.erase fd }

/-- `ServerHandler::handle`, on what `accept` returns. The new handler's buffer is not set. -/
def serverHandle (l : EventLoop) (accepted : Option Int32) (buffer : CharArray bufferSize) :
    EventLoop :=
  match accepted with
  | none => l
  | some client =>
    let (l, handler) := { l with clients := client :: l.clients }.newHandler (.echo ⟨0, buffer⟩)
    l.addHandler client handler

/-- `EchoHandler::handle`, called on the handler `h` at `ref`. -/
def echoHandle (l : EventLoop) (fd : Int32) (ref : Nat) (h : EchoHandler) (e : Events)
    (read : Option Bytes) : EventLoop :=
  let handled := h.handle e read
  let l := { l with objects := l.objects.insert ref (.echo handled.handler) }
  let l := if !e.hup && !e.err && e.out then l.modifyHandler fd else l
  if handled.removed then l.removeHandler fd else l

/-- The body of the inner loop of `start`, on one event, on what `accept` returns should it be
called, and on what `recv` returns should it be. -/
def dispatch (l : EventLoop) (e : EpollEvent) (accepted : Option Int32)
    (buffer : CharArray bufferSize) (read : Option Bytes) : EventLoop :=
  let (l, handler) := l.index e.data
  match handler with
  | none => { l with fault := some .nullCall }
  | some ref =>
    match l.objects.lookup ref with
    | none => { l with fault := some .deadCall }
    | some .server => l.serverHandle accepted buffer
    | some (.echo h) => l.echoHandle e.data ref h e.events read

end EventLoop

inductive LoopAction where
  /-- `epoll_wait` returns a batch -/
  | wait (batch : List EpollEvent)
  /-- the next event of the batch is handled -/
  | handle (accepted : Option Int32) (buffer : CharArray bufferSize) (read : Option Bytes)
  /-- the rest of the process opens and closes descriptors of its own -/
  | others (fds : List Int32)

namespace EventLoop

def step (l : EventLoop) (a : LoopAction) : Option EventLoop :=
  if l.fault.isSome then none
  else
    match a with
    | .wait batch => if l.batch = [] then some { l with batch := batch } else none
    | .handle accepted buffer read =>
      match l.batch with
      | [] => none
      | e :: rest => some ({ l with batch := rest }.dispatch e accepted buffer read)
    | .others fds => some { l with others := fds }

/-- What `epoll_wait` promises of a batch: events of registered descriptors, each once, with the
`data.fd` that was registered, and with no bit that was not asked for but a hang-up or an error. -/
structure Reported (l : EventLoop) (batch : List EpollEvent) : Prop where
  once : (batch.map EpollEvent.fd).Nodup
  registered : ∀ e ∈ batch, ∃ r, l.interest.lookup e.fd = some r ∧
    (∀ data ∈ r.data, e.data = data) ∧ (e.events.inn → r.inn) ∧ (e.events.out → r.out)

/-- What the kernel promises of a step: `epoll_wait` as above, and `accept` returns a descriptor
that is not open. -/
def Honest (l : EventLoop) : LoopAction → Prop
  | .wait batch => l.Reported batch
  | .handle accepted _ _ =>
    ∀ client ∈ accepted, ¬ client < 0 ∧ client ≠ l.listener ∧ client ∉ l.clients ∧
      client ∉ l.others
  | .others _ => True

/-- The loop before its first batch: the listener is registered and nothing else. -/
def started (listener : Int32) (others : List Int32) : EventLoop where
  listener := listener
  handlers := AList.insert listener (some 0) ∅
  objects := AList.insert 0 .server ∅
  fresh := 1
  interest := AList.insert listener ⟨true, false, some listener⟩ ∅
  clients := []
  others := others
  batch := []
  fault := none

/-! ## What the operations do to the map -/

section Operations

variable (l : EventLoop)

theorem index_eq {fd : Int32} {handler : Option Nat} (h : l.handlers.lookup fd = some handler) :
    l.index fd = (l, handler) := by
  rw [index, h]

/-- No operation of the map closes a descriptor. -/
theorem removeHandler_clients (fd : Int32) : (l.removeHandler fd).clients = l.clients := by
  have hindex : (l.index fd).1.clients = l.clients := by
    unfold index
    split <;> rfl
  have hdelete : ∀ (l : EventLoop) handler, (l.delete handler).clients = l.clients := by
    intro l handler
    unfold delete
    split
    · rfl
    · split <;> rfl
  exact (hdelete _ _).trans hindex

/-- A live handler is taken out and deleted. -/
theorem removeHandler_eq {fd : Int32} {ref : Nat} {h : Handler}
    (hfd : l.handlers.lookup fd = some (some ref)) (hlive : l.objects.lookup ref = some h) :
    l.removeHandler fd = { l with
      handlers := l.handlers.erase fd
      objects := l.objects.erase ref
      interest := l.interest.erase fd } := by
  rw [removeHandler, index_eq l hfd]
  simp only [delete, hlive, Option.isSome_some, if_true]

/-- What a dispatch does where the event's handler is alive. -/
theorem dispatch_server {e : EpollEvent} {ref : Nat} {accepted : Option Int32}
    {buffer : CharArray bufferSize} {read : Option Bytes}
    (hfd : l.handlers.lookup e.data = some (some ref))
    (hlive : l.objects.lookup ref = some .server) :
    l.dispatch e accepted buffer read = l.serverHandle accepted buffer := by
  rw [dispatch, index_eq l hfd]
  simp only [hlive]

theorem dispatch_echo {e : EpollEvent} {ref : Nat} {h : EchoHandler} {accepted : Option Int32}
    {buffer : CharArray bufferSize} {read : Option Bytes}
    (hfd : l.handlers.lookup e.data = some (some ref))
    (hlive : l.objects.lookup ref = some (.echo h)) :
    l.dispatch e accepted buffer read = l.echoHandle e.data ref h e.events read := by
  rw [dispatch, index_eq l hfd]
  simp only [hlive]

end Operations

end EventLoop

end Smer
