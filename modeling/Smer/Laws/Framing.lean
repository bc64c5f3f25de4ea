import Smer.Server.Zepoll

/-!
# Message framing on the wire

Both directions send a `TransObj` as a block of bytes, and both receivers take each receive for one
message. The laws say on which cuts of the stream this works:

* client to server, 512-byte blocks: exactly when every receive returned a whole block
  (`serve_eq_sent_iff`). As many objects come out as receives were made, so a single short receive
  is enough to hand on an object that nobody sent;
* server to client, 84-byte blocks: a cut delivers whatever is sent exactly when every receive
  returned one block (`recvMsg_eq_sent_iff`). Any other cut loses some sequence of messages
  (`Lib.delivers_iff`).

A receive that fails and a connection that ends are no part of these streams.
-/

namespace Smer

open Lib

/-- Forgetting `len` does nothing to a decoded object. -/
theorem TransObj.eraseLen_decode (buff : Bytes) : (decode buff).eraseLen = decode buff := by
  rw [decode_eq]
  rfl

/-- A 512-byte block decodes to the object it was made of. -/
theorem decode_sendBuf (o : TransObj) (rest : Bytes) :
    TransObj.decode (Client.sendBuf o ++ rest) = o.eraseLen := by
  rw [Client.sendBuf, List.append_assoc, TransObj.decode_toBytes]

/-! ## Client to server -/

/-- **The server handles exactly the objects the client sent iff every receive returned a whole
block.** -/
theorem serve_eq_sent_iff (socket : Int32) (pops : List (Option TransObj)) (h : EchoHandler)
    {pieces : List Bytes}
    (stream : pieces.flatten = Client.streamTo socket (Client.run .client socket pops))
    (nonempty : ∀ p ∈ pieces, p ≠ []) (fits : ∀ p ∈ pieces, p.length ≤ bufferSize) :
    (h.serve pieces).map TransObj.eraseLen = (Client.sent pops).map TransObj.eraseLen ↔
      ∀ p ∈ pieces, p.length = bufferSize := by
  rw [Client.streamTo_client] at stream
  have hserve := h.serve_eq nonempty fits
  have hlength : (pieces.map List.length).sum = bufferSize * (Client.sent pops).length := by
    rw [← List.length_flatten, stream, length_blocks Client.sendBuf_length]
    rfl
  constructor
  · intro same p hp
    have hcount := congrArg List.length same
    rw [List.length_map, List.length_map, hserve, receive_length] at hcount
    refine eq_of_sum_eq (pieces.map List.length) (fun s hs => ?_) ?_ p.length
      (List.mem_map_of_mem hp)
    · obtain ⟨q, hq, rfl⟩ := List.mem_map.mp hs
      exact fits q hq
    · rw [hlength, List.length_map, hcount]
  · intro full
    have hcount : pieces.length = (Client.sent pops).length := by
      have hsum := sum_of_eq (n := bufferSize) (pieces.map List.length) fun s hs => by
        obtain ⟨q, hq, rfl⟩ := List.mem_map.mp hs
        exact full q hq
      rw [hlength, List.length_map] at hsum
      exact (Nat.eq_of_mul_eq_mul_left (by decide) hsum).symm
    have hblocks := pieces_eq_blocks Client.sendBuf_length stream full hcount
    rw [hserve, hblocks, receive_blocks decode_sendBuf, List.map_map]
    rfl

/-- One object whose block arrives in two receives. -/
def helloPops : List (Option TransObj) :=
  [some ((TransObj.zero.setMsgType msgTalk).setMsg (ascii "hello")).1]

/-- A fresh connection's handler, with a buffer of zeros. -/
def quietHandler : EchoHandler := ⟨0, .fill _ 0⟩

/-- Two objects, and nothing to send in between. -/
def talkPops : List (Option TransObj) :=
  helloPops ++ [none, some ((TransObj.zero.setMsgType msgTalk).setMsg (ascii "there")).1]

/-- Two blocks, in two receives. -/
theorem serve_eq_sent_iff_whole :
    (quietHandler.serve [(Client.streamTo 3 (Client.run .client 3 talkPops)).take 512,
        (Client.streamTo 3 (Client.run .client 3 talkPops)).drop 512]).map
      TransObj.eraseLen = (Client.sent talkPops).map TransObj.eraseLen :=
  (serve_eq_sent_iff 3 talkPops quietHandler
    (by rw [List.flatten_cons, List.flatten_singleton, List.take_append_drop])
    (by decide +kernel) (by decide +kernel)).mpr (by decide +kernel)

/-- A block cut after its first byte: the server handles two objects where one was sent. -/
theorem serve_split_block :
    ¬ ∀ (socket : Int32) (pops : List (Option TransObj)) (h : EchoHandler) (pieces : List Bytes),
      pieces.flatten = Client.streamTo socket (Client.run .client socket pops) →
      (∀ p ∈ pieces, 1 ≤ p.length ∧ p.length ≤ bufferSize) →
      (h.serve pieces).map TransObj.eraseLen = (Client.sent pops).map TransObj.eraseLen := by
  intro claim
  have h := claim 3 helloPops quietHandler
    [(Client.streamTo 3 (Client.run .client 3 helloPops)).take 1,
      (Client.streamTo 3 (Client.run .client 3 helloPops)).drop 1]
    (by decide +kernel) (by decide +kernel)
  exact absurd (congrArg List.length h) (by decide +kernel)

/-! ## Server to client -/

/-- An object that the server sends to the descriptor `fd`. -/
structure SentTo (fd : Int32) where
  obj : TransObj
  to_fd : obj.fd = fd
  not_button : obj.msgType ≠ msgButton

/-- `run` sends nothing of the type `MSG_BUTTON`. -/
theorem not_button_of_sent {pops : List (Option TransObj)} {o : TransObj}
    (ho : o ∈ Client.sent pops) : o.msgType ≠ msgButton := by
  induction pops with
  | nil => cases ho
  | cons pop pops ih =>
    cases pop with
    | none => exact ih ho
    | some first =>
      rw [Client.sent] at ho
      split at ho
      · cases ho
      · rename_i hfirst
        rcases List.mem_cons.mp ho with rfl | ho
        · exact hfirst
        · exact ih ho

namespace SentTo

variable {fd : Int32}

/-- A queue of objects for `fd` is sent whole. -/
theorem sent_map (os : List (SentTo fd)) :
    (Client.sent (os.map fun o => some o.obj)).filter (fun o => o.fd = fd) = os.map obj := by
  induction os with
  | nil => rfl
  | cons o os ih =>
    have hto : decide (o.obj.fd = fd) = true := decide_eq_true o.to_fd
    rw [List.map_cons, Client.sent, if_neg o.not_button, List.filter_cons, if_pos hto, ih,
      List.map_cons]

/-- What `run` sends to `fd` is a list of objects for `fd`. -/
theorem exists_of_sent (fd : Int32) (pops : List (Option TransObj)) :
    ∃ os : List (SentTo fd), os.map obj = (Client.sent pops).filter fun o => o.fd = fd := by
  refine ⟨((Client.sent pops).filter fun o => o.fd = fd).attach.map fun o =>
    ⟨o.1, by simpa only [decide_eq_true_eq] using (List.mem_filter.mp o.2).2,
      not_button_of_sent (List.mem_filter.mp o.2).1⟩, ?_⟩
  rw [List.map_map]
  exact List.attach_map_subtype_val _

/-! Three objects with marks, for the cuts that fail. -/

/-- An object with nothing in it but its descriptor. -/
def blank (fd : Int32) : SentTo fd where
  obj := TransObj.zero.setFd fd
  to_fd := rfl
  not_button := fun h => absurd h (by decide : TransObj.zero.msgType ≠ msgButton)

/-- An object of the type `mark`, with nothing else in it. -/
def typed (fd : Int32) (mark : UInt8) (hmark : mark.toUInt32 ≠ msgButton) : SentTo fd where
  obj := (TransObj.zero.setFd fd).setMsgType mark.toUInt32
  to_fd := rfl
  not_button := hmark

/-- An object whose last text byte is `mark`, with nothing else in it. -/
def ended (fd : Int32) (mark : UInt8) : SentTo fd where
  obj := { TransObj.zero.setFd fd with
    msg := ⟨List.replicate 63 0 ++ [mark], by
      rw [List.length_append, List.length_replicate, List.length_singleton]
      rfl⟩ }
  to_fd := rfl
  not_button := fun h => absurd h (by decide : TransObj.zero.msgType ≠ msgButton)

/-- Among five of the server's message types one is not a byte of the descriptor. -/
theorem exists_mark (fd : Int32) :
    ∃ mark ∈ ([1, 4, 5, 7, 8] : List UInt8), mark ∉ le32 fd.toUInt32 := by
  by_contra none
  have hsub : ([1, 4, 5, 7, 8] : List UInt8) ⊆ le32 fd.toUInt32 := by
    intro mark hmem
    by_contra hfd
    exact none ⟨mark, hmem, hfd⟩
  have hle := (List.subperm_of_subset (by decide) hsub).length_le
  rw [le32_length] at hle
  exact absurd hle (by decide)

/-- The memory of an object with a type, a descriptor and a text. -/
theorem toBytes_bare (msgType : UInt32) (fd : Int32) (msg : CharArray maxTransMsgLen) :
    TransObj.toBytes ⟨msgType, 0, 0, 0, fd, msg⟩ =
      le32 msgType ++ (List.replicate 12 0 ++ (le32 fd.toUInt32 ++ msg.bytes)) := by
  simp only [TransObj.toBytes, List.append_assoc]
  rfl

/-- A byte that is neither zero nor in the descriptor is not in the memory of such an object when
it is not in the type or the text. -/
theorem notMem_bare {mark : UInt8} (hzero : mark ≠ 0) (hfd : mark ∉ le32 fd.toUInt32)
    {front back : Bytes} (hfront : mark ∉ front) (hback : mark ∉ back) {k : Nat} :
    mark ∉ front ++ (List.replicate k 0 ++ (le32 fd.toUInt32 ++ back)) := by
  simp only [List.mem_append, List.mem_replicate]
  rintro (h | ⟨-, h⟩ | h | h)
  · exact hfront h
  · exact hzero h
  · exact hfd h
  · exact hback h

/-- A buffer that decodes to an object of a one-byte type begins with that byte. -/
theorem head_of_decode {mark : UInt8} (hmark : mark ≠ 0) {hbutton : mark.toUInt32 ≠ msgButton}
    {b : Bytes} (hb : TransObj.decode b = (typed fd mark hbutton).obj.eraseLen) :
    b.head? = some mark := by
  rw [TransObj.decode_eq] at hb
  have htype : read32 b = mark.toUInt32 := congrArg TransObj.msgType hb
  have hzero : mark.toUInt32 ≠ 0 := by
    intro h
    have hval := congrArg UInt32.toNat h
    rw [UInt8.toNat_toUInt32] at hval
    exact hmark (UInt8.toNat_inj.mp hval)
  match b, htype with
  | [], h => exact absurd h.symm hzero
  | [_], h => exact absurd h.symm hzero
  | [_, _], h => exact absurd h.symm hzero
  | [_, _, _], h => exact absurd h.symm hzero
  | a :: b :: c :: d :: _, h =>
    have hval := congrArg UInt32.toNat h
    have ha := a.toNat_lt
    have hb := b.toNat_lt
    have hc := c.toNat_lt
    have hd := d.toNat_lt
    have hm := mark.toNat_lt
    simp only [read32, UInt32.toNat_ofNat', UInt8.toNat_toUInt32] at hval
    have hbyte : a = mark := UInt8.toNat_inj.mp (by omega)
    rw [hbyte, List.head?_cons]

/-- A buffer that decodes to an object with a marked last byte holds the mark. -/
theorem mem_of_decode {mark : UInt8} (hmark : mark ≠ 0) {b : Bytes}
    (hb : TransObj.decode b = (ended fd mark).obj.eraseLen) : mark ∈ b := by
  rw [TransObj.decode_eq] at hb
  have hmsg : (CharArray.ofBytes maxTransMsgLen (b.drop 20)).bytes =
      List.replicate 63 0 ++ [mark] := congrArg (fun o => o.msg.bytes) hb
  have hmem : mark ∈ (CharArray.ofBytes maxTransMsgLen (b.drop 20)).bytes := by
    rw [hmsg]
    exact List.mem_append_right _ List.mem_cons_self
  rcases List.mem_append.mp hmem with hmem | hmem
  · exact List.mem_of_mem_drop (List.mem_of_mem_take hmem)
  · exact absurd (List.eq_of_mem_replicate hmem) hmark

/-- The cuts that deliver every sequence of `m` objects for `fd`. -/
theorem delivers_iff {sizes : List Nat} {m : Nat} (total : sizes.sum = sizeofTransObj * m) :
    (∀ os : List (SentTo fd), os.length = m →
        receive TransObj.decode (List.replicate maxLenOfSendBuff 0)
          (sizes.splitLengths (os.map fun o => o.obj.toBytes).flatten) =
            os.map fun o => o.obj.eraseLen) ↔
      ∀ s ∈ sizes, s = sizeofTransObj := by
  obtain ⟨mark, hmem, hfd⟩ := exists_mark fd
  have hfacts : mark ≠ 0 ∧ mark.toUInt32 ≠ msgButton ∧ le32 mark.toUInt32 = [mark, 0, 0, 0] := by
    simp only [List.mem_cons, List.not_mem_nil, or_false] at hmem
    rcases hmem with rfl | rfl | rfl | rfl | rfl
    all_goals exact ⟨by decide, by decide, rfl⟩
  obtain ⟨hzero, hbutton, htype⟩ := hfacts
  have hzeros : ∀ k, mark ∉ List.replicate k 0 := fun k h => hzero (List.eq_of_mem_replicate h)
  have hblank : mark ∉ (blank fd).obj.toBytes := by
    show mark ∉ TransObj.toBytes ⟨0, 0, 0, 0, fd, .fill _ 0⟩
    rw [toBytes_bare]
    exact notMem_bare hzero hfd (hzeros 4) (hzeros 64)
  have hfirst : (typed fd mark hbutton).obj.toBytes = mark ::
      ([0, 0, 0] ++ (List.replicate 12 0 ++ (le32 fd.toUInt32 ++ List.replicate 64 0))) := by
    show TransObj.toBytes ⟨mark.toUInt32, 0, 0, 0, fd, .fill _ 0⟩ = _
    rw [toBytes_bare, htype]
    rfl
  have hlast : (ended fd mark).obj.toBytes = (List.replicate 4 0 ++ (List.replicate 12 0 ++
      (le32 fd.toUInt32 ++ List.replicate 63 0))) ++ [mark] := by
    show TransObj.toBytes ⟨0, 0, 0, 0, fd, (ended fd mark).obj.msg⟩ = _
    rw [toBytes_bare]
    simp only [List.append_assoc]
    rfl
  exact Lib.delivers_iff (blank fd) (fun o => o.obj.toBytes_length)
    (fun o rest => o.obj.decode_toBytes rest)
    hfirst (notMem_bare hzero hfd (hzeros 3) (hzeros 64)) hblank
    (fun b hb => head_of_decode hzero hb)
    hlast (notMem_bare hzero hfd (hzeros 4) (hzeros 63)) hblank (hzeros _)
    (fun b hb => mem_of_decode hzero hb) total

end SentTo

/-- The receive loop under a cut, with `len` put aside. -/
theorem recvMsg_eraseLen {sizes : List Nat} (fits : ∀ s ∈ sizes, s ≤ maxLenOfSendBuff)
    (stream : Bytes) : (Client.recvMsg (sizes.splitLengths stream)).map TransObj.eraseLen =
      receive TransObj.decode (List.replicate maxLenOfSendBuff 0) (sizes.splitLengths stream) := by
  have hpieces : ∀ p ∈ sizes.splitLengths stream, p.length ≤ maxLenOfSendBuff := by
    intro p hp
    obtain ⟨s, hs, hle⟩ := length_le_of_mem_splitLengths hp
    exact hle.trans (fits s hs)
  rw [Client.recvMsg, Client.recvLoop_eq _ hpieces, receive, List.map_map]
  exact List.map_congr_left fun b _ => TransObj.eraseLen_decode b

/-- **A cut of the server's stream delivers whatever `m` messages the server sends iff every receive
returned one message.** -/
theorem recvMsg_eq_sent_iff (client fd : Int32) {sizes : List Nat} {m : Nat}
    (total : sizes.sum = sizeofTransObj * m) (fits : ∀ s ∈ sizes, s ≤ maxLenOfSendBuff) :
    (∀ pops : List (Option TransObj),
        ((Client.sent pops).filter fun o => o.fd = fd).length = m →
        (Client.recvMsg (sizes.splitLengths
            (Client.streamTo fd (Client.run .server client pops)))).map TransObj.eraseLen =
          ((Client.sent pops).filter fun o => o.fd = fd).map TransObj.eraseLen) ↔
      ∀ s ∈ sizes, s = sizeofTransObj := by
  rw [← @SentTo.delivers_iff fd _ _ total]
  constructor
  · intro delivers os hlen
    have hsent := SentTo.sent_map os
    have h := delivers (os.map fun o => some o.obj) (by rw [hsent, List.length_map, hlen])
    rw [recvMsg_eraseLen fits, Client.streamTo_server, hsent, List.map_map, List.map_map] at h
    exact h
  · intro delivers pops hlen
    obtain ⟨os, hos⟩ := SentTo.exists_of_sent fd pops
    have h := delivers os (by rw [← List.length_map SentTo.obj, hos, hlen])
    rw [recvMsg_eraseLen fits, Client.streamTo_server, ← hos, List.map_map, List.map_map]
    exact h

/-- Two replies to one connection, one behind the other. -/
def repliesPops : List (Option TransObj) :=
  [some ((TransObj.zero.setFd 7).setMsgType msgLoginAccept),
    some (((TransObj.zero.setFd 7).setMsgType msgTalk).setMsg (ascii "hello")).1]

theorem recvMsg_eq_sent_iff_whole :
    (Client.recvMsg ([sizeofTransObj, sizeofTransObj].splitLengths
        (Client.streamTo 7 (Client.run .server 0 repliesPops)))).map TransObj.eraseLen =
      ((Client.sent repliesPops).filter fun o => o.fd = 7).map TransObj.eraseLen :=
  (recvMsg_eq_sent_iff 0 7 (m := 2) (by decide) (by decide)).mpr (by decide) repliesPops
    (by decide +kernel)

/-- Two messages that arrive in one receive: the second is lost. -/
theorem recvMsg_merged :
    ¬ ∀ (client fd : Int32) (pops : List (Option TransObj)) (pieces : List Bytes),
      pieces.flatten = Client.streamTo fd (Client.run .server client pops) →
      (∀ p ∈ pieces, 1 ≤ p.length ∧ p.length ≤ maxLenOfSendBuff) →
      (Client.recvMsg pieces).map TransObj.eraseLen =
        ((Client.sent pops).filter fun o => o.fd = fd).map TransObj.eraseLen := by
  intro claim
  have h := claim 0 7 repliesPops [Client.streamTo 7 (Client.run .server 0 repliesPops)]
    (by simp only [List.flatten_singleton]) (by decide +kernel)
  exact absurd (congrArg List.length h) (by decide +kernel)

end Smer
