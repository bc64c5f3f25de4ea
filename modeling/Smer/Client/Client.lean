import Smer.Lib.Framing
import Smer.Seqeue.TransObj

/-!
# The sender and receiver threads (`Client/src/Client.cpp`)

One class serves both programs. `run` drains the outbound queue onto sockets: built for the client
it writes a full 512-byte buffer to the one server connection, built for the server it writes
`sizeof(TransObj)` bytes to the descriptor the object names. `recvMsg` is the client's receive loop.

A send is assumed to take all its bytes. A receive is a piece of the stream, of any length the
buffer admits.
-/

namespace Smer

open Lib

def maxLenOfSendBuff : Nat := 512

/-- The compile-time switch: `CLIENT_COMPARE` or `SERVER_COMPARE`. -/
inductive Build where
  | client
  | server
  deriving DecidableEq

/-- One `send` call: the descriptor and the bytes. -/
structure Send where
  fd : Int32
  data : Bytes
  deriving DecidableEq

/-- The object on which `run` leaves its loop. -/
def isButton (obj : TransObj) : Bool := obj.msgType = msgButton

namespace Client

/-- `buf` after the `memset` and the `memcpy` of the object. -/
def sendBuf (tansObj : TransObj) : Bytes :=
  tansObj.toBytes ++ List.replicate (maxLenOfSendBuff - sizeofTransObj) 0

/-- The `send` that one object causes. `client` is the client's own socket. -/
def sendOne (build : Build) (client : Int32) (tansObj : TransObj) : Send :=
  match build with
  | .server => ⟨tansObj.fd, (sendBuf tansObj).take sizeofTransObj⟩
  | .client => ⟨client, sendBuf tansObj⟩

/-- `run`, on the values the queue's `pop` returns: null is skipped, `MSG_BUTTON` ends the loop. -/
def run (build : Build) (client : Int32) : List (Option TransObj) → List Send
  | [] => []
  | none :: pops => run build client pops
  | some tansObj :: pops =>
    if tansObj.msgType = msgButton then []
    else sendOne build client tansObj :: run build client pops

/-- The objects `run` sends, in order. -/
def sent : List (Option TransObj) → List TransObj
  | [] => []
  | none :: pops => sent pops
  | some tansObj :: pops => if tansObj.msgType = msgButton then [] else tansObj :: sent pops

/-- The bytes written to one descriptor, in order. -/
def streamTo (fd : Int32) (sends : List Send) : Bytes :=
  ((sends.filter fun s => s.fd = fd).map Send.data).flatten

/-- `recvMsg`, on the pieces `recv` returns: the objects pushed to the receive queue. The buffer is
never cleared between two pieces. -/
def recvLoop : CharArray maxLenOfSendBuff → List Bytes → List TransObj
  | _, [] => []
  | rcvBuf, piece :: pieces =>
    let rcvBuf := rcvBuf.write 0 piece
    let (recvTansObj, ok) := TransObj.zero.transBuff2Obj (some rcvBuf.bytes)
    if ok then recvTansObj :: recvLoop rcvBuf pieces else recvLoop rcvBuf pieces

/-- `recvMsg` starts from a zeroed buffer. -/
def recvMsg (pieces : List Bytes) : List TransObj := recvLoop (.fill _ 0) pieces

/-! ## What is sent -/

theorem run_eq (build : Build) (client : Int32) (pops : List (Option TransObj)) :
    run build client pops = (sent pops).map (sendOne build client) := by
  induction pops with
  | nil => rfl
  | cons pop pops ih =>
    cases pop with
    | none => exact ih
    | some tansObj =>
      simp only [run, sent]
      split
      · rfl
      · rw [List.map_cons, ih]

/-- What is sent was popped, and is no `MSG_BUTTON`. -/
theorem mem_sent {pops : List (Option TransObj)} {obj : TransObj} (h : obj ∈ sent pops) :
    some obj ∈ pops ∧ isButton obj = false := by
  induction pops with
  | nil => cases h
  | cons pop pops ih =>
    cases pop with
    | none => exact ⟨List.mem_cons_of_mem _ (ih h).1, (ih h).2⟩
    | some tansObj =>
      rw [sent] at h
      split at h
      · cases h
      · rename_i htype
        rcases List.mem_cons.mp h with rfl | h
        · exact ⟨List.mem_cons_self, decide_eq_false htype⟩
        · exact ⟨List.mem_cons_of_mem _ (ih h).1, (ih h).2⟩

/-- The client writes every object to its one connection, as a 512-byte block. -/
theorem streamTo_client (client : Int32) (pops : List (Option TransObj)) :
    streamTo client (run .client client pops) = ((sent pops).map sendBuf).flatten := by
  rw [run_eq, streamTo]
  congr 1
  induction sent pops with
  | nil => rfl
  | cons o os ih =>
    rw [List.map_cons, List.filter_cons_of_pos (by simp only [sendOne, decide_true]), List.map_cons,
      ih]
    rfl

/-- The server writes to a descriptor the memory of the objects that name it. -/
theorem streamTo_server (client fd : Int32) (pops : List (Option TransObj)) :
    streamTo fd (run .server client pops) =
      (((sent pops).filter fun o => o.fd = fd).map TransObj.toBytes).flatten := by
  rw [run_eq, streamTo]
  congr 1
  induction sent pops with
  | nil => rfl
  | cons o os ih =>
    rw [List.map_cons, List.filter_cons, List.filter_cons]
    by_cases hfd : o.fd = fd
    · have hsend : (sendOne .server client o).fd = fd := hfd
      have hdata : (sendOne .server client o).data = o.toBytes :=
        List.take_left' (TransObj.toBytes_length o)
      rw [if_pos (decide_eq_true hsend), if_pos (decide_eq_true hfd), List.map_cons, List.map_cons,
        ih, hdata]
    · have hsend : (sendOne .server client o).fd ≠ fd := hfd
      rw [if_neg (by simpa only [decide_eq_true_eq] using hsend),
        if_neg (by simpa only [decide_eq_true_eq] using hfd), ih]

@[simp] theorem sendBuf_length (o : TransObj) : (sendBuf o).length = maxLenOfSendBuff := by
  rw [sendBuf, List.length_append, TransObj.toBytes_length, List.length_replicate]
  rfl

/-! ## What is received -/

/-- The receive loop is the receiver of `Lib.Framing`. -/
theorem recvLoop_eq (rcvBuf : CharArray maxLenOfSendBuff) {pieces : List Bytes}
    (fits : ∀ p ∈ pieces, p.length ≤ maxLenOfSendBuff) :
    recvLoop rcvBuf pieces = receive TransObj.decode rcvBuf.bytes pieces := by
  induction pieces generalizing rcvBuf with
  | nil => rfl
  | cons piece pieces ih =>
    have hwrite := rcvBuf.write_eq_overlay (fits piece List.mem_cons_self)
    rw [receive_cons, ← hwrite, ← ih _ fun p hp => fits p (List.mem_cons_of_mem _ hp)]
    rfl

end Client

end Smer
