import Smer.Lib.CMemory
import Smer.Lib.Formats

/-!
# The message object and its bytes (`Seqeue/inc/SeqAbleObj.h`)

`TransObj` is the one message of the system: five 32-bit fields and 64 bytes of text. It crosses
the network as its memory, so its layout is part of the model: `toBytes` is what `memcpy` copies out
of an object, and `ofBytes` is what a cast of a buffer to `TransObj*` reads.

`transBuff2Obj` copies every field but `len`. A fresh object therefore decodes a block to the
object that was sent, with `len` zero (`decode_toBytes`), whatever lies behind the block.

The text area is read as C strings: a name at its start, a password 24 bytes in. Nothing ends these
strings inside the area, so the getters take the memory behind the object as well (`past`).

The setters of a name and a password use the text that they are given as a format. What `snprintf`
makes of it is a parameter: as far as the standard defines it, or what a machine does.
-/

namespace Smer

open Lib

/-! ## Message types (`SmerSystem/inc/MyEnum.h`) -/

def msgCmd : UInt32 := 0
def msgTalk : UInt32 := 1
def msgReg : UInt32 := 3
def msgRegAccept : UInt32 := 4
def msgRegRefuse : UInt32 := 5
def msgLogin : UInt32 := 6
def msgLoginAccept : UInt32 := 7
def msgLoginRefuse : UInt32 := 8
def msgLogout : UInt32 := 9
def msgAskForFriend : UInt32 := 10
def msgAskForFriendNotFound : UInt32 := 11
def msgAskForFriendAccept : UInt32 := 12
def msgButton : UInt32 := 14

/-! ## Sizes -/

def maxTransMsgLen : Nat := 64
def nameMaxLen : Nat := 24
def passwordMaxLen : Nat := maxTransMsgLen - nameMaxLen

/-- `sizeof(TransObj)`. -/
def sizeofTransObj : Nat := 20 + maxTransMsgLen

/-- The message object. -/
@[ext] structure TransObj where
  msgType : UInt32
  len : UInt32
  id : Int32
  recverId : Int32
  fd : Int32
  msg : CharArray maxTransMsgLen
  deriving DecidableEq

namespace TransObj

/-- `TransObj()`: everything zero. -/
def zero : TransObj := ⟨0, 0, 0, 0, 0, .fill _ 0⟩

/-- `TransObj(id, recverId, msgType, len, fd)`. The constructor leaves `msg` alone: it holds what
the heap cell held before. -/
def make (heap : CharArray maxTransMsgLen) (id recverId : Int32) (msgType len : UInt32)
    (fd : Int32) : TransObj :=
  ⟨msgType, len, id, recverId, fd, heap⟩

def setMsgType (o : TransObj) (msgType : UInt32) : TransObj := { o with msgType := msgType }
def setId (o : TransObj) (id : Int32) : TransObj := { o with id := id }
def setFd (o : TransObj) (fd : Int32) : TransObj := { o with fd := fd }
def setrecverId (o : TransObj) (recverId : Int32) : TransObj := { o with recverId := recverId }
def clearMsg (o : TransObj) : TransObj := { o with msg := .fill _ 0 }

def clearName (o : TransObj) : TransObj :=
  { o with msg := o.msg.write 0 (List.replicate nameMaxLen 0) }

def clearPasswd (o : TransObj) : TransObj :=
  { o with msg := o.msg.write nameMaxLen (List.replicate passwordMaxLen 0) }

/-- `setMsg`, on the C string `s`. -/
def setMsg (o : TransObj) (s : Bytes) : TransObj × Bool :=
  if s.length ≥ maxTransMsgLen then (o, false)
  else ({ o.clearMsg with msg := o.clearMsg.msg.write 0 s }, true)

/-- `setName`, on the C string `s`. The string is itself the format of the `snprintf`, so a percent
sign in it is a directive. -/
def setName (o : TransObj) (s : Bytes) (snprintf : Snprintf := .standard) :
    Option (TransObj × Bool) :=
  if s.length ≥ nameMaxLen then some (o, false)
  else (snprintf nameMaxLen s).map fun text =>
    ({ o.clearName with msg := o.clearName.msg.write 0 (text ++ [0]) }, true)

/-- `setPasswd`, on the C string `s`; a format as in `setName`. -/
def setPasswd (o : TransObj) (s : Bytes) (snprintf : Snprintf := .standard) :
    Option (TransObj × Bool) :=
  if s.length ≥ passwordMaxLen then some (o, false)
  else (snprintf passwordMaxLen s).map fun text =>
    ({ o.clearPasswd with msg := o.clearPasswd.msg.write nameMaxLen (text ++ [0]) }, true)

def setNamePasswd (o : TransObj) (name passwd : Bytes) (snprintf : Snprintf := .standard) :
    Option (TransObj × Bool) :=
  if name.length ≥ nameMaxLen || passwd.length ≥ passwordMaxLen then some (o, false)
  else do
    let (o, _) ← o.clearMsg.setName name snprintf
    let (o, _) ← o.setPasswd passwd snprintf
    return (o, true)

/-- The name: the C string at the start of the text area. -/
def getName (o : TransObj) (past : Bytes) : Bytes := cstr (o.msg.bytes ++ past)

/-- The password: the C string `nameMaxLen` bytes into the text area. -/
def getPasswd (o : TransObj) (past : Bytes) : Bytes := cstr (o.msg.bytes.drop nameMaxLen ++ past)

/-- The text: the C string at the start of the text area. -/
def getMsg (o : TransObj) (past : Bytes) : Bytes := cstr (o.msg.bytes ++ past)

/-! ## The object in memory -/

/-- The object's memory. -/
def toBytes (o : TransObj) : Bytes :=
  le32 o.msgType ++ le32 o.len ++ le32 o.id.toUInt32 ++ le32 o.recverId.toUInt32 ++
    le32 o.fd.toUInt32 ++ o.msg.bytes

/-- The object that a cast of a buffer reads. -/
def ofBytes (buff : Bytes) : TransObj where
  msgType := read32 buff
  len := read32 (buff.drop 4)
  id := (read32 (buff.drop 8)).toInt32
  recverId := (read32 (buff.drop 12)).toInt32
  fd := (read32 (buff.drop 16)).toInt32
  msg := .ofBytes _ (buff.drop 20)

/-- `transBuff2Obj`. The first `setMsg` copies the text when it ends inside 64 bytes; the `memcpy`
behind it copies all 64 bytes in every case. -/
def transBuff2Obj (o : TransObj) (buff : Option Bytes) : TransObj × Bool :=
  match buff with
  | none => (o, false)
  | some buff =>
    let b := ofBytes buff
    let o := (((o.setrecverId b.recverId).setFd b.fd).setId b.id).setMsgType b.msgType
    let o := (o.setMsg (cstr (buff.drop 20))).1
    ({ o with msg := b.msg }, true)

/-- What a receiver makes of its buffer: a fresh object, filled by `transBuff2Obj`. -/
def decode (buff : Bytes) : TransObj := (zero.transBuff2Obj (some buff)).1

/-- An object with its `len` forgotten: the field `transBuff2Obj` does not copy. -/
def eraseLen (o : TransObj) : TransObj := { o with len := 0 }

/-! ## Small facts -/

@[simp] theorem setMsgType_msgType (o : TransObj) (t : UInt32) : (o.setMsgType t).msgType = t := rfl
@[simp] theorem setMsgType_id (o : TransObj) (t : UInt32) : (o.setMsgType t).id = o.id := rfl
@[simp] theorem setMsgType_fd (o : TransObj) (t : UInt32) : (o.setMsgType t).fd = o.fd := rfl
@[simp] theorem setMsgType_msg (o : TransObj) (t : UInt32) : (o.setMsgType t).msg = o.msg := rfl
@[simp] theorem setId_id (o : TransObj) (i : Int32) : (o.setId i).id = i := rfl
@[simp] theorem setId_msgType (o : TransObj) (i : Int32) : (o.setId i).msgType = o.msgType := rfl
@[simp] theorem setFd_fd (o : TransObj) (fd : Int32) : (o.setFd fd).fd = fd := rfl
@[simp] theorem setFd_id (o : TransObj) (fd : Int32) : (o.setFd fd).id = o.id := rfl
@[simp] theorem setFd_msg (o : TransObj) (fd : Int32) : (o.setFd fd).msg = o.msg := rfl
@[simp] theorem setFd_msgType (o : TransObj) (fd : Int32) : (o.setFd fd).msgType = o.msgType := rfl

/-- `setMsg` changes the text and nothing else. -/
theorem setMsg_fields (o : TransObj) (s : Bytes) :
    ∃ msg, (o.setMsg s).1 = { o with msg := msg } := by
  unfold setMsg
  split
  · exact ⟨o.msg, rfl⟩
  · exact ⟨_, rfl⟩

@[simp] theorem setMsg_msgType (o : TransObj) (s : Bytes) : (o.setMsg s).1.msgType = o.msgType := by
  obtain ⟨msg, h⟩ := setMsg_fields o s
  rw [h]

@[simp] theorem setMsg_id (o : TransObj) (s : Bytes) : (o.setMsg s).1.id = o.id := by
  obtain ⟨msg, h⟩ := setMsg_fields o s
  rw [h]

@[simp] theorem setMsg_recverId (o : TransObj) (s : Bytes) :
    (o.setMsg s).1.recverId = o.recverId := by
  obtain ⟨msg, h⟩ := setMsg_fields o s
  rw [h]

@[simp] theorem setMsg_fd (o : TransObj) (s : Bytes) : (o.setMsg s).1.fd = o.fd := by
  obtain ⟨msg, h⟩ := setMsg_fields o s
  rw [h]

/-- A text that fits fills the front of the area, and zeros fill the rest. -/
theorem setMsg_bytes (o : TransObj) {s : Bytes} (hs : s.length < maxTransMsgLen) :
    (o.setMsg s).1.msg.bytes = s ++ List.replicate (maxTransMsgLen - s.length) 0 := by
  rw [setMsg, if_neg (Nat.not_le_of_lt hs)]
  exact CharArray.write_fill hs.le

/-- A text that fits and holds no zero reads back, whatever lies behind the object. -/
theorem getMsg_setMsg (o : TransObj) {s : Bytes} (hs : s.length < maxTransMsgLen)
    (hzero : (0 : UInt8) ∉ s) (past : Bytes) : (o.setMsg s).1.getMsg past = s := by
  obtain ⟨k, hk⟩ : ∃ k, maxTransMsgLen - s.length = k + 1 := ⟨maxTransMsgLen - s.length - 1, by omega⟩
  rw [getMsg, setMsg_bytes o hs, hk, List.replicate_succ, List.append_assoc, List.cons_append]
  exact cstr_append_zero hzero _

/-! ## What a receiver decodes -/

@[simp] theorem toBytes_length (o : TransObj) : o.toBytes.length = sizeofTransObj := by
  simp only [toBytes, List.length_append, le32_length, o.msg.length_bytes]
  rfl

/-- A cast reads the object back from its memory. -/
theorem ofBytes_toBytes (o : TransObj) (rest : Bytes) : ofBytes (o.toBytes ++ rest) = o := by
  have fields : o.toBytes ++ rest = le32 o.msgType ++ (le32 o.len ++ (le32 o.id.toUInt32 ++
      (le32 o.recverId.toUInt32 ++ (le32 o.fd.toUInt32 ++ (o.msg.bytes ++ rest))))) := by
    simp only [toBytes, List.append_assoc]
  have drop4 : ∀ (x : UInt32) (n : Nat) (bs : Bytes), (le32 x ++ bs).drop (n + 4) = bs.drop n :=
    fun _ _ _ => rfl
  have hmsg : (CharArray.ofBytes maxTransMsgLen (o.msg.bytes ++ rest)) = o.msg :=
    CharArray.ext (CharArray.ofBytes_append o.msg.length_bytes rest)
  rw [fields]
  apply TransObj.ext
  · simp only [ofBytes, read32_le32]
  · simp only [ofBytes, drop4 _ 0, List.drop_zero, read32_le32]
  · simp only [ofBytes, drop4 _ 4, drop4 _ 0, List.drop_zero, read32_le32, Int32.toInt32_toUInt32]
  · simp only [ofBytes, drop4 _ 8, drop4 _ 4, drop4 _ 0, List.drop_zero, read32_le32,
      Int32.toInt32_toUInt32]
  · simp only [ofBytes, drop4 _ 12, drop4 _ 8, drop4 _ 4, drop4 _ 0, List.drop_zero, read32_le32,
      Int32.toInt32_toUInt32]
  · simp only [ofBytes, drop4 _ 16, drop4 _ 12, drop4 _ 8, drop4 _ 4, drop4 _ 0, List.drop_zero,
      hmsg]

/-- `transBuff2Obj` makes of any object what the cast reads, but for its `len`. -/
theorem transBuff2Obj_eq (o : TransObj) (buff : Bytes) :
    o.transBuff2Obj (some buff) = ({ ofBytes buff with len := o.len }, true) := by
  obtain ⟨msg, hmsg⟩ := setMsg_fields ((((o.setrecverId (ofBytes buff).recverId).setFd
    (ofBytes buff).fd).setId (ofBytes buff).id).setMsgType (ofBytes buff).msgType)
    (cstr (buff.drop 20))
  simp only [transBuff2Obj]
  rw [hmsg]
  rfl

/-- A decoded object is what the cast reads, with `len` zero. -/
theorem decode_eq (buff : Bytes) : decode buff = (ofBytes buff).eraseLen := by
  rw [decode, transBuff2Obj_eq]
  rfl

/-- **A block decodes to the object that was sent**, with `len` zero, whatever lies behind it. -/
theorem decode_toBytes (o : TransObj) (rest : Bytes) : decode (o.toBytes ++ rest) = o.eraseLen := by
  rw [decode_eq, ofBytes_toBytes]

/-- A decoded object has no length. -/
@[simp] theorem decode_len (buff : Bytes) : (decode buff).len = 0 := by
  rw [decode_eq]
  rfl

end TransObj

end Smer
