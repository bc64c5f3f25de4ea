import Smer.Server.Zepoll

/-!
# What a receiver makes of the bytes it got

`transBuff2Obj` casts a buffer to an object and copies it field by field. The laws say what of the
sender's object arrives, and what of it the receiver may rely on:

* every field arrives but `len`, which stays what it was (`roundTrip_iff`). The handlers decode into
  a new object, so their tests of `len` see zero;
* the handler's buffer outlives a message, and nothing looks at how many bytes came. A message is
  read from its own bytes alone exactly when it covers an object and ends its text in a zero
  (`reads_received_iff`);
* the text area is copied as it is. The name and the password end inside their areas exactly when
  the sender put a zero into each (`terminated_transBuff2Obj_iff`), as `setNamePasswd` does.

Each law is about one decode. That the receives fall on the messages is not established here
(`Laws.Framing`).
-/

namespace Smer

open Lib

/-! ## The round trip -/

/-- What arrives of a client's object: everything but `len`, which stays. -/
theorem transBuff2Obj_sendBuf (o r : TransObj) :
    (r.transBuff2Obj (some (Client.sendBuf o))).1 = { o with len := r.len } := by
  rw [TransObj.transBuff2Obj_eq, Client.sendBuf, TransObj.ofBytes_toBytes]

/-- **An object arrives whole exactly when the receiver's `len` was the sender's.** -/
theorem roundTrip_iff (o r : TransObj) :
    (r.transBuff2Obj (some (Client.sendBuf o))).1 = o ↔ r.len = o.len := by
  rw [transBuff2Obj_sendBuf]
  constructor
  · intro whole
    have hlen := congrArg TransObj.len whole
    exact hlen
  · intro same
    rw [same]

/-- A login as the client makes it: with `MAX_TRANS_MSG_LEN` for its `len`. -/
def clientLogin : TransObj := .make (.fill _ 0) (-1) (-1) msgLogin 64 (-1)

/-- A client's login does not arrive whole at a new object. -/
theorem roundTrip_login :
    ¬ ∀ o r : TransObj, (r.transBuff2Obj (some (Client.sendBuf o))).1 = o := by
  intro claim
  have whole := congrArg TransObj.len (claim clientLogin .zero)
  rw [transBuff2Obj_sendBuf] at whole
  have differ : (0 : UInt32) ≠ 64 := by decide
  exact differ whole

/-! ## The bytes that are read -/

/-- How many bytes of its first string `strcmp` reads: up to the first one that differs from the
second string's, or that ends both. -/
def strcmpSpan : Bytes → Bytes → Nat
  | a :: s, b :: t => if a = b ∧ a ≠ 0 then strcmpSpan s t + 1 else 1
  | _, _ => 0

theorem strcmpSpan_le (s t : Bytes) : strcmpSpan s t ≤ t.length := by
  induction s generalizing t with
  | nil => exact Nat.zero_le _
  | cons a s ih =>
    cases t with
    | nil => exact Nat.zero_le _
    | cons b t =>
      rw [strcmpSpan, List.length_cons]
      split
      · exact Nat.succ_le_succ (ih t)
      · exact Nat.succ_le_succ (Nat.zero_le _)

/-- The indices of a buffer that `transBuff2Obj` reads: the four fields it copies, the text up to
its zero for `strlen`, and the text area for `memcpy`. Behind the buffer lies `past`. -/
def transBuff2ObjReads (buff past : Bytes) : List Nat :=
  List.range' 12 4 ++ List.range' 16 4 ++ List.range' 8 4 ++ List.range' 0 4 ++
    List.range' 20 ((cstr ((buff ++ past).drop 20)).length + 1) ++ List.range' 20 maxTransMsgLen

/-- The indices of its buffer that `EchoHandler::handle` reads behind a receive. -/
def EchoHandler.reads (h : EchoHandler) (past : Bytes) : List Nat :=
  List.range' 0 (strcmpSpan (h.buffer.bytes ++ past) (ascii "stop" ++ [0])) ++
    transBuff2ObjReads h.buffer.bytes past

/-- The last byte of an object is read, however few bytes came. -/
theorem last_mem_reads (h : EchoHandler) (past : Bytes) : 83 ∈ h.reads past := by
  refine List.mem_append_right _ (List.mem_append_right _ ?_)
  exact List.mem_range'_1.mpr (by decide)

/-- A cast reads the first bytes of its buffer and no more. -/
theorem TransObj.ofBytes_append {b : Bytes} (covers : sizeofTransObj ≤ b.length) (rest : Bytes) :
    ofBytes (b ++ rest) = ofBytes b := by
  have hsize : sizeofTransObj = 84 := rfl
  have hdrop : ∀ n ≤ 20, (b ++ rest).drop n = b.drop n ++ rest := by
    intro n hn
    exact List.drop_append_of_le_length (by omega)
  have hread : ∀ n ≤ 16, read32 (b.drop n ++ rest) = read32 (b.drop n) := by
    intro n hn
    apply read32_append
    rw [List.length_drop]
    omega
  have hread0 := hread 0 (by omega)
  rw [List.drop_zero] at hread0
  have hmsg : CharArray.ofBytes maxTransMsgLen (b.drop 20 ++ rest) =
      .ofBytes maxTransMsgLen (b.drop 20) := by
    apply CharArray.ofBytes_append_of_le
    rw [List.length_drop]
    show 64 ≤ b.length - 20
    omega
  unfold ofBytes
  rw [hdrop 4 (by omega), hdrop 8 (by omega), hdrop 12 (by omega), hdrop 16 (by omega),
    hdrop 20 (by omega), hread0, hread 4 (by omega), hread 8 (by omega), hread 12 (by omega),
    hread 16 (by omega), hmsg]

/-- The buffer of a handler behind a receive: the bytes that came, then what was there. -/
theorem handle_buffer (h : EchoHandler) {b : Bytes} (nonempty : b ≠ [])
    (fits : b.length ≤ bufferSize) :
    (h.handle .epollin (some b)).handler.buffer.bytes = b ++ h.buffer.bytes.drop b.length ∧
      (h.handle .epollin (some b)).passed =
        some (TransObj.decode (b ++ h.buffer.bytes.drop b.length)) := by
  have hwrite := h.buffer.write_eq_overlay fits
  rw [h.handle_piece nonempty]
  unfold overlay at hwrite
  exact ⟨hwrite, by rw [hwrite]⟩

/-- The text that starts at byte 20 ends inside the bytes that came iff a zero is among them. -/
theorem text_ends_iff {b : Bytes} (covers : sizeofTransObj ≤ b.length) (rest : Bytes) :
    20 + (cstr ((b ++ rest).drop 20)).length < b.length ↔ 0 ∈ b.drop 20 := by
  have hsize : sizeofTransObj = 84 := rfl
  have hdrop : (b ++ rest).drop 20 = b.drop 20 ++ rest :=
    List.drop_append_of_le_length (by omega)
  have hlen : (b.drop 20).length = b.length - 20 := List.length_drop
  have ends : (cstr (b.drop 20 ++ rest)).length < b.length - 20 ↔
      0 ∈ (b.drop 20 ++ rest).take (b.length - 20) :=
    cstr_length_lt_iff (by rw [List.length_append]; omega)
  rw [← hlen, List.take_left, hlen] at ends
  rw [hdrop, ← ends]
  omega

/-- **A message is read from its own bytes alone exactly when it covers an object and ends its text
in a zero.** -/
theorem reads_received_iff {b : Bytes} (nonempty : b ≠ []) (fits : b.length ≤ bufferSize) :
    (∀ (h₁ h₂ : EchoHandler) (past : Bytes),
      (h₁.handle .epollin (some b)).passed = (h₂.handle .epollin (some b)).passed ∧
        ∀ i ∈ (h₁.handle .epollin (some b)).handler.reads past, i < b.length) ↔
      sizeofTransObj ≤ b.length ∧ 0 ∈ b.drop 20 := by
  constructor
  · intro alone
    obtain ⟨-, within⟩ := alone ⟨0, .fill _ 0⟩ ⟨0, .fill _ 0⟩ []
    obtain ⟨hbuffer, -⟩ := handle_buffer ⟨0, .fill _ 0⟩ nonempty fits
    have covers : sizeofTransObj ≤ b.length := within 83 (last_mem_reads _ _)
    refine ⟨covers, ?_⟩
    rw [← text_ends_iff covers ((EchoHandler.mk 0 (.fill _ 0)).buffer.bytes.drop b.length ++ [])]
    apply within
    refine List.mem_append_right _ (List.mem_append_left _ (List.mem_append_right _ ?_))
    rw [hbuffer, List.append_assoc]
    exact List.mem_range'_1.mpr ⟨Nat.le_add_right _ _, by omega⟩
  · rintro ⟨covers, ends⟩ h₁ h₂ past
    have hsize : sizeofTransObj = 84 := rfl
    obtain ⟨hbuffer, hpassed₁⟩ := handle_buffer h₁ nonempty fits
    obtain ⟨-, hpassed₂⟩ := handle_buffer h₂ nonempty fits
    constructor
    · rw [hpassed₁, hpassed₂, TransObj.decode_eq, TransObj.decode_eq,
        TransObj.ofBytes_append covers, TransObj.ofBytes_append covers]
    · intro i hi
      rw [EchoHandler.reads, hbuffer] at hi
      rcases List.mem_append.mp hi with hi | hi
      · have hspan := strcmpSpan_le (b ++ h₁.buffer.bytes.drop b.length ++ past)
          (ascii "stop" ++ [0])
        have hstop : (ascii "stop" ++ [0]).length = 5 := by decide
        obtain ⟨-, hi⟩ := List.mem_range'_1.mp hi
        omega
      · have htext := (text_ends_iff covers (h₁.buffer.bytes.drop b.length ++ past)).mpr ends
        rw [← List.append_assoc] at htext
        unfold transBuff2ObjReads at hi
        simp only [List.mem_append, List.mem_range'_1] at hi
        have hmax : maxTransMsgLen = 64 := rfl
        omega

/-- What a client sends for a login is read alike by an empty buffer and by a full one. -/
theorem reads_received_iff_login :
    (EchoHandler.handle ⟨0, .fill _ 0⟩ .epollin (some (Client.sendBuf clientLogin))).passed =
        (EchoHandler.handle ⟨5, .fill _ 1⟩ .epollin (some (Client.sendBuf clientLogin))).passed ∧
      ∀ i ∈ (EchoHandler.handle ⟨0, .fill _ 0⟩ .epollin
        (some (Client.sendBuf clientLogin))).handler.reads [],
          i < (Client.sendBuf clientLogin).length :=
  (reads_received_iff (by decide +kernel) (by decide +kernel)).mpr (by decide +kernel) _ _ []

/-- Four bytes are read as an object all the same. -/
theorem reads_stop :
    ¬ ∀ b : Bytes, b ≠ [] → b.length ≤ bufferSize → ∀ (h₁ h₂ : EchoHandler) (past : Bytes),
      (h₁.handle .epollin (some b)).passed = (h₂.handle .epollin (some b)).passed ∧
        ∀ i ∈ (h₁.handle .epollin (some b)).handler.reads past, i < b.length := by
  intro claim
  obtain ⟨-, within⟩ := claim (ascii "stop") (by decide) (by decide) ⟨0, .fill _ 0⟩
    ⟨0, .fill _ 0⟩ []
  have hlast := within 83 (last_mem_reads _ _)
  exact absurd hlast (by decide)

/-! ## Names and passwords -/

namespace TransObj

/-- What the setters guarantee of the text area: the name and the password end inside their own
areas. -/
def Terminated (o : TransObj) : Prop :=
  ∀ past, (o.getName past).length < nameMaxLen ∧ (o.getPasswd past).length < passwordMaxLen

/-- The name and the password end inside their areas exactly when both areas hold a zero. -/
theorem terminated_iff (o : TransObj) :
    o.Terminated ↔ 0 ∈ o.msg.bytes.take nameMaxLen ∧ 0 ∈ o.msg.bytes.drop nameMaxLen := by
  have hlen := o.msg.length_bytes
  have hmax : maxTransMsgLen = 64 := rfl
  have hname : nameMaxLen = 24 := rfl
  have hpasswd : passwordMaxLen = 40 := rfl
  have name : ∀ past, (o.getName past).length < nameMaxLen ↔ 0 ∈ o.msg.bytes.take nameMaxLen := by
    intro past
    rw [getName, cstr_length_lt_iff (by rw [List.length_append]; omega),
      List.take_append_of_le_length (by omega)]
  have passwd : ∀ past, (o.getPasswd past).length < passwordMaxLen ↔
      0 ∈ o.msg.bytes.drop nameMaxLen := by
    intro past
    have harea : (o.msg.bytes.drop nameMaxLen).length = passwordMaxLen := by
      rw [List.length_drop]
      omega
    rw [getPasswd, cstr_length_lt_iff (by rw [List.length_append]; omega), ← harea, List.take_left]
  constructor
  · intro terminated
    obtain ⟨hn, hp⟩ := terminated []
    exact ⟨(name []).mp hn, (passwd []).mp hp⟩
  · rintro ⟨hn, hp⟩ past
    exact ⟨(name past).mpr hn, (passwd past).mpr hp⟩

/-- A text with its zero, written over an area that has room for it: the area holds a zero. -/
theorem zero_mem_write {n : Nat} (a : CharArray n) (ofs : Nat) {size : Nat} {text : Bytes}
    (room : text.length < size) (fits : ofs + size ≤ n) :
    0 ∈ ((a.write ofs (text ++ [0])).bytes.drop ofs).take size := by
  have hlen : (text ++ [0]).length = text.length + 1 := List.length_append
  rw [CharArray.write_drop a (by omega), List.take_append, List.take_of_length_le (by omega)]
  exact List.mem_append_left _ (List.mem_append_right _ List.mem_cons_self)

theorem vsnprintf_length_lt {size : Nat} (hsize : 0 < size) {format text : Bytes}
    {args : List FmtArg} (h : vsnprintf size format args = some text) : text.length < size := by
  obtain ⟨full, -, rfl⟩ := Option.map_eq_some_iff.mp h
  rw [List.length_take]
  omega

/-- `setName` ends the name inside its area. -/
theorem setName_ends {o o' : TransObj} {s : Bytes} {done : Bool} (hs : s.length < nameMaxLen)
    (h : o.setName s = some (o', done)) : 0 ∈ o'.msg.bytes.take nameMaxLen := by
  rw [setName, if_neg (Nat.not_le_of_lt hs)] at h
  obtain ⟨text, htext, hout⟩ := Option.map_eq_some_iff.mp h
  cases hout
  have ends := zero_mem_write o.clearName.msg 0 (vsnprintf_length_lt (by decide) htext)
    (by decide : 0 + nameMaxLen ≤ maxTransMsgLen)
  rw [List.drop_zero] at ends
  exact ends

/-- `setPasswd` ends the password inside its area and leaves the name alone. -/
theorem setPasswd_ends {o o' : TransObj} {s : Bytes} {done : Bool} (hs : s.length < passwordMaxLen)
    (h : o.setPasswd s = some (o', done)) :
    0 ∈ o'.msg.bytes.drop nameMaxLen ∧
      o'.msg.bytes.take nameMaxLen = o.msg.bytes.take nameMaxLen := by
  rw [setPasswd, if_neg (Nat.not_le_of_lt hs)] at h
  obtain ⟨text, htext, hout⟩ := Option.map_eq_some_iff.mp h
  cases hout
  constructor
  · have ends := zero_mem_write o.clearPasswd.msg nameMaxLen
      (vsnprintf_length_lt (by decide) htext)
      (by decide : nameMaxLen + passwordMaxLen ≤ maxTransMsgLen)
    exact List.mem_of_mem_take ends
  · exact (CharArray.write_take _ le_rfl (by decide) _).trans
      (CharArray.write_take _ le_rfl (by decide) _)

/-- **What `setNamePasswd` sets is terminated**, whatever the name and the password are that fit. -/
theorem terminated_setNamePasswd {o o' : TransObj} {name passwd : Bytes}
    (h : o.setNamePasswd name passwd = some (o', true)) : o'.Terminated := by
  unfold setNamePasswd at h
  split at h
  · cases h
  · rename_i hfits
    rw [Bool.or_eq_true, decide_eq_true_eq, decide_eq_true_eq, not_or, Nat.not_le, Nat.not_le]
      at hfits
    obtain ⟨⟨o₁, done₁⟩, hname, h⟩ := Option.bind_eq_some_iff.mp h
    obtain ⟨⟨o₂, done₂⟩, hpasswd, h⟩ := Option.bind_eq_some_iff.mp h
    cases h
    have name_ends := setName_ends hfits.1 hname
    obtain ⟨passwd_ends, kept⟩ := setPasswd_ends hfits.2 hpasswd
    rw [terminated_iff, kept]
    exact ⟨name_ends, passwd_ends⟩

end TransObj

/-- **The decoder terminates a name and a password exactly when the sender did.** -/
theorem terminated_transBuff2Obj_iff (r : TransObj) {buff : Bytes}
    (hlen : buff.length = bufferSize) :
    (r.transBuff2Obj (some buff)).1.Terminated ↔
      0 ∈ (buff.drop 20).take nameMaxLen ∧ 0 ∈ (buff.drop 44).take passwordMaxLen := by
  have hsize : bufferSize = 512 := rfl
  have hmsg : (r.transBuff2Obj (some buff)).1.msg.bytes = (buff.drop 20).take 64 := by
    rw [TransObj.transBuff2Obj_eq]
    show (CharArray.ofBytes 64 (buff.drop 20)).bytes = _
    rw [CharArray.ofBytes]
    simp only []
    rw [List.length_drop, Nat.sub_eq_zero_of_le (by omega), List.replicate_zero, List.append_nil]
  rw [TransObj.terminated_iff, hmsg, List.take_take, List.drop_take, List.drop_drop]
  rfl

/-- A block of 512 bytes that decodes to a registration and holds no zero behind its fields. -/
def unendingReg : Bytes :=
  le32 msgReg ++ List.replicate 16 0 ++ List.replicate 492 65

/-- What a client has set is terminated, and it arrives so. -/
theorem terminated_transBuff2Obj_iff_login : ∃ o,
    clientLogin.setNamePasswd (ascii "bob") (ascii "secret") = some (o, true) ∧ o.Terminated ∧
      (TransObj.zero.transBuff2Obj (some (Client.sendBuf o))).1.Terminated := by
  obtain ⟨o, hset, hname, hpasswd⟩ : ∃ o,
      clientLogin.setNamePasswd (ascii "bob") (ascii "secret") = some (o, true) ∧
        0 ∈ ((Client.sendBuf o).drop 20).take nameMaxLen ∧
        0 ∈ ((Client.sendBuf o).drop 44).take passwordMaxLen :=
    ⟨_, rfl, by decide +kernel, by decide +kernel⟩
  exact ⟨o, hset, TransObj.terminated_setNamePasswd hset,
    (terminated_transBuff2Obj_iff .zero (Client.sendBuf_length o)).mpr ⟨hname, hpasswd⟩⟩

/-- A registration without a zero is decoded, and its name runs out of its area. -/
theorem decode_unendingReg :
    ¬ ∀ (r : TransObj) (buff : Bytes), buff.length = bufferSize →
      (r.transBuff2Obj (some buff)).2 = true →
      ((r.transBuff2Obj (some buff)).1.msgType = msgReg ∨
        (r.transBuff2Obj (some buff)).1.msgType = msgLogin) →
      (r.transBuff2Obj (some buff)).1.Terminated := by
  intro claim
  have terminated := claim .zero unendingReg (by decide +kernel) (by decide +kernel)
    (by decide +kernel)
  obtain ⟨hname, -⟩ := (TransObj.terminated_iff _).mp terminated
  exact absurd hname (by decide +kernel)

end Smer
