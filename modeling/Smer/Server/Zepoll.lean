import Smer.Client.Client
import Mathlib.Data.List.AList

/-!
# The event loop (`Server/inc/Zepoll.h`)

`IOLoop` maps descriptors to handlers. The listener's handler accepts connections and gives each
its own `EchoHandler`; an `EchoHandler` reads one piece of its connection's stream at a time and
hands one object for each to `MsgHandler::handle`.

`EchoHandler.handle` answers everything one event makes it do: what it writes, whether it takes
itself out of the loop, and the object it passes on. Taking a handler out of the loop does not close
its descriptor, so the kernel never gives that descriptor to a later connection.
-/

namespace Smer

open Lib

def bufferSize : Nat := 512

/-- The event bits that `handle` tests. -/
structure Events where
  hup : Bool
  err : Bool
  out : Bool
  inn : Bool
  deriving DecidableEq

/-- A readable connection and nothing else: the event the loop registers for. -/
def Events.epollin : Events := ⟨false, false, false, true⟩

/-- A connection's handler: the number of bytes of its last message, and its buffer, which outlives
a message. -/
structure EchoHandler where
  received : Int
  buffer : CharArray bufferSize

/-- What one call of `EchoHandler.handle` does. -/
structure Handled where
  handler : EchoHandler
  /-- the bytes written back -/
  echoed : Option Bytes
  /-- `IOLoop::removeHandler` was called on the descriptor -/
  removed : Bool
  /-- the object passed to `MsgHandler::handle` -/
  passed : Option TransObj
  ret : Int

namespace EchoHandler

/-- `received = recv(fd, buffer, BUFFER_SIZE, 0)`: a failed read is `none`, a closed peer is the
empty piece. -/
def recv (h : EchoHandler) : Option Bytes → EchoHandler
  | none => { h with received := -1 }
  | some piece => ⟨piece.length, h.buffer.write 0 piece⟩

/-- `handle`, on an event and on what `recv` returns should it be called. -/
def handle (h : EchoHandler) (e : Events) (read : Option Bytes) : Handled :=
  if e.hup then ⟨h, none, true, none, -1⟩
  else if e.err then ⟨h, none, false, none, -1⟩
  else
    let echoed := if e.out && h.received > 0 then some (h.buffer.bytes.take h.received.toNat)
      else none
    if e.inn then
      let h := h.recv read
      if h.received ≤ 0 then ⟨h, echoed, true, none, 0⟩
      else ⟨h, echoed, false, some (TransObj.decode h.buffer.bytes), 0⟩
    else ⟨h, echoed, false, none, 0⟩

/-- A connection that is readable again and again: the objects passed to `MsgHandler::handle`. -/
def serve (h : EchoHandler) : List Bytes → List TransObj
  | [] => []
  | piece :: pieces =>
    let handled := h.handle .epollin (some piece)
    handled.passed.toList ++ serve handled.handler pieces

/-- An object that is passed on has the length 0. -/
theorem len_of_passed {h : EchoHandler} {e : Events} {read : Option Bytes} {obj : TransObj}
    (passed : (h.handle e read).passed = some obj) : obj.len = 0 := by
  unfold handle at passed
  split at passed
  · cases passed
  · split at passed
    · cases passed
    · dsimp only at passed
      split at passed
      · split at passed
        · cases passed
        · cases passed
          exact TransObj.decode_len _
      · cases passed

/-- A piece that is not empty is taken for one object, decoded from the whole buffer, whatever the
piece's length. -/
theorem handle_piece (h : EchoHandler) {piece : Bytes} (hpiece : piece ≠ []) :
    h.handle .epollin (some piece) =
      ⟨⟨piece.length, h.buffer.write 0 piece⟩, none, false,
        some (TransObj.decode (h.buffer.write 0 piece).bytes), 0⟩ := by
  have hlen : ¬ (piece.length : Int) ≤ 0 := by
    have := List.length_pos_iff.mpr hpiece
    omega
  simp only [handle, Events.epollin, recv, Bool.false_eq_true, if_false, Bool.false_and, if_true,
    if_neg hlen]

/-- A connection's handler is the receiver of `Lib.Framing`, whatever its buffer held. -/
theorem serve_eq (h : EchoHandler) {pieces : List Bytes} (nonempty : ∀ p ∈ pieces, p ≠ [])
    (fits : ∀ p ∈ pieces, p.length ≤ bufferSize) :
    h.serve pieces = receive TransObj.decode h.buffer.bytes pieces := by
  induction pieces generalizing h with
  | nil => rfl
  | cons piece pieces ih =>
    have hwrite := h.buffer.write_eq_overlay (fits piece List.mem_cons_self)
    rw [serve, handle_piece h (nonempty piece List.mem_cons_self), receive_cons, ← hwrite]
    simp only [Option.toList_some, List.cons_append, List.nil_append]
    rw [ih _ (fun p hp => nonempty p (List.mem_cons_of_mem _ hp))
      fun p hp => fits p (List.mem_cons_of_mem _ hp)]

end EchoHandler

/-! ## The loop -/

/-- What a descriptor is registered with: the listener's `ServerHandler`, or a connection's
handler. -/
inductive Handler where
  | server
  | echo (h : EchoHandler)

/-- `IOLoop`: the map `handlers_`, and the descriptors that the process holds open. -/
structure IOLoop where
  handlers : AList fun _ : Int32 => Handler
  opened : List Int32

namespace IOLoop

def addHandler (l : IOLoop) (fd : Int32) (handler : Handler) : IOLoop :=
  { l with handlers := l.handlers.insert fd handler }

/-- `removeHandler`. The descriptor stays open. -/
def removeHandler (l : IOLoop) (fd : Int32) : IOLoop :=
  { l with handlers := l.handlers.erase fd }

/-- `ServerHandler::handle` when `accept` has returned the descriptor `client`, which is one that
was not open. The new handler's buffer is not set. -/
def accept (l : IOLoop) (listener client : Int32) (buffer : CharArray bufferSize) :
    Option IOLoop :=
  match l.handlers.lookup listener with
  | some .server =>
    if client < 0 ∨ client ∈ l.opened then none
    else some ({ l with opened := client :: l.opened }.addHandler client (.echo ⟨0, buffer⟩))
  | _ => none

/-- An event on a connection, with what `recv` returns should it be called, and the object that is
passed on. The loop registers for `EPOLLIN` alone, so a connection is never reported writable. -/
def ready (l : IOLoop) (fd : Int32) (e : Events) (read : Option Bytes) :
    Option (IOLoop × Option TransObj) :=
  match l.handlers.lookup fd with
  | some (.echo h) =>
    if e.out then none
    else
      let handled := h.handle e read
      let l := l.addHandler fd (.echo handled.handler)
      some (if handled.removed then l.removeHandler fd else l, handled.passed)
  | _ => none

/-- The descriptor is a live connection. -/
def Live (l : IOLoop) (fd : Int32) : Prop := ∃ h, l.handlers.lookup fd = some (.echo h)

end IOLoop

/-- An event that ends its connection: a hang-up, or a read that fails or finds the peer closed. -/
def Events.Ends (e : Events) (read : Option Bytes) : Prop :=
  e.hup ∨ (e.err = false ∧ e.inn ∧ read.getD [] = [])

namespace EchoHandler

/-- The handler takes itself out of the loop exactly on an event that ends its connection. -/
theorem handle_removed_iff (h : EchoHandler) (e : Events) (read : Option Bytes) :
    (h.handle e read).removed = true ↔ e.Ends read := by
  obtain ⟨hup, err, out, inn⟩ := e
  cases hup with
  | true => exact iff_of_true rfl (.inl rfl)
  | false =>
    cases err with
    | true =>
      refine iff_of_false Bool.false_ne_true ?_
      rintro (hhup | ⟨herr, -, -⟩)
      · cases hhup
      · cases herr
    | false =>
      cases inn with
      | false =>
        refine iff_of_false Bool.false_ne_true ?_
        rintro (hhup | ⟨-, hinn, -⟩)
        · cases hhup
        · cases hinn
      | true =>
        rcases read with _ | _ | ⟨b, piece⟩
        · exact iff_of_true rfl (.inr ⟨rfl, rfl, rfl⟩)
        · exact iff_of_true rfl (.inr ⟨rfl, rfl, rfl⟩)
        · have hlen : ¬ (h.recv (some (b :: piece))).received ≤ 0 := by
            show ¬ ((b :: piece).length : Int) ≤ 0
            rw [List.length_cons]
            omega
          refine iff_of_false ?_ ?_
          · simp only [handle, Bool.false_eq_true, if_false, if_true, if_neg hlen,
              not_false_eq_true]
          · rintro (hhup | ⟨-, -, hempty⟩)
            · cases hhup
            · cases hempty

end EchoHandler

namespace IOLoop

variable {l l' : IOLoop}

/-- A new connection is live, and the others stay as they are. -/
theorem live_accept {listener client : Int32} {buffer : CharArray bufferSize}
    (h : l.accept listener client buffer = some l') {fd : Int32} (live : l.Live fd) :
    l'.Live fd := by
  unfold accept at h
  split at h
  · split at h
    · cases h
    · cases h
      obtain ⟨handler, hfd⟩ := live
      by_cases heq : fd = client
      · rw [heq]
        exact ⟨_, AList.lookup_insert _⟩
      · exact ⟨handler, (AList.lookup_insert_ne heq).trans hfd⟩
  · cases h

/-- An event takes away the connection that it ends, and no other. -/
theorem live_ready {fd : Int32} {e : Events} {read : Option Bytes} {passed : Option TransObj}
    (h : l.ready fd e read = some (l', passed)) {other : Int32} (live : l.Live other)
    (stays : e.Ends read → other ≠ fd) : l'.Live other := by
  unfold ready at h
  split at h
  · rename_i handler hfd
    split at h
    · cases h
    · cases h
      have hadded : (l.addHandler fd (.echo (handler.handle e read).handler)).Live other := by
        obtain ⟨hother, hlookup⟩ := live
        by_cases heq : other = fd
        · rw [heq]
          exact ⟨_, AList.lookup_insert _⟩
        · exact ⟨hother, (AList.lookup_insert_ne heq).trans hlookup⟩
      split
      · rename_i hremoved
        have hne := stays ((handler.handle_removed_iff e read).mp hremoved)
        obtain ⟨hother, hlookup⟩ := hadded
        exact ⟨hother, (AList.lookup_erase_ne hne).trans hlookup⟩
      · exact hadded
  · cases h

/-- An object that an event passes on has the length 0. -/
theorem len_of_ready {fd : Int32} {e : Events} {read : Option Bytes} {obj : TransObj}
    (h : l.ready fd e read = some (l', some obj)) : obj.len = 0 := by
  unfold ready at h
  split at h
  · split at h
    · cases h
    · exact EchoHandler.len_of_passed (congrArg Prod.snd (Option.some.inj h))
  · cases h

end IOLoop

end Smer
