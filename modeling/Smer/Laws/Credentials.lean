import Smer.Seqeue.TransObj

/-!
# Setting a name and a password

`setName` and `setPasswd` write one area each of the 64 bytes of text: they test the length, clear
their area, and print the text into it. `Area` is what the two have in common.

The text is its own format in that print, so a percent sign in it is dropped or leaves the call
undefined. A name and a password are set as they should be exactly when the texts that fit have no
percent sign (`credentials_iff`).

The setters are called one after the other, on an object that nobody else writes.
-/

namespace Smer

open Lib

/-- A part of an object's text area, for one text. -/
structure Area where
  ofs : Nat
  size : Nat
  nonempty : 0 < size
  fits : ofs + size ≤ maxTransMsgLen

def nameArea : Area := ⟨0, nameMaxLen, by decide, by decide⟩
def passwdArea : Area := ⟨nameMaxLen, passwordMaxLen, by decide, by decide⟩

namespace Area

/-- The C string that starts with the area. -/
def text (a : Area) (o : TransObj) (past : Bytes) : Bytes := cstr (o.msg.bytes.drop a.ofs ++ past)

/-- The bytes of the area. -/
def bytes (a : Area) (o : TransObj) : Bytes := (o.msg.bytes.drop a.ofs).take a.size

/-- The setter of an area: it tests the length, clears the area, and prints the text into it, with
the text as its own format. -/
def set (a : Area) (o : TransObj) (s : Bytes) : Option (TransObj × Bool) :=
  if s.length ≥ a.size then some (o, false)
  else (vsnprintf a.size s []).map fun text =>
    ({ o with msg := (o.msg.write a.ofs (List.replicate a.size 0)).write a.ofs (text ++ [0]) }, true)

/-- A text and the zeros that fill its area behind it. -/
def padded (a : Area) (s : Bytes) : Bytes := s ++ List.replicate (a.size - s.length) 0

/-- A byte of the text area that is not the area's. -/
def Outside (a : Area) (i : Nat) : Prop := i < a.ofs ∨ a.ofs + a.size ≤ i

/-- An area that another one does not reach into. -/
def Disjoint (a b : Area) : Prop := a.ofs + a.size ≤ b.ofs ∨ b.ofs + b.size ≤ a.ofs

end Area

/-- What a call of a setter comes to: it answers whether the text fits; a text that was set reads
back, whatever lies behind the object, and everything outside the area is as before; a text that was
not set leaves the whole object as before. -/
def SetsText (a : Area) (get : TransObj → Bytes → Bytes) (out : Option (TransObj × Bool))
    (o : TransObj) (s : Bytes) : Prop :=
  ∃ o' done, out = some (o', done) ∧ (done = true ↔ s.length < a.size) ∧
    (done = true → (∀ past, get o' past = s) ∧ { o' with msg := o.msg } = o ∧
      ∀ i, a.Outside i → o'.msg.bytes[i]? = o.msg.bytes[i]?) ∧
    (done = false → o' = o)

/-- An object carries a name and a password, and the fields of another one. -/
structure TransObj.Carries (o' : TransObj) (name passwd : Bytes) (o : TransObj) : Prop where
  getName : ∀ past, o'.getName past = name
  getPasswd : ∀ past, o'.getPasswd past = passwd
  fields : { o' with msg := o.msg } = o

/-- The setters do on a name and a password what they are for. -/
structure SetsCredentials (o : TransObj) (name passwd : Bytes) : Prop where
  setName : SetsText nameArea TransObj.getName (o.setName name) o name
  setPasswd : SetsText passwdArea TransObj.getPasswd (o.setPasswd passwd) o passwd
  /-- in either order -/
  nameFirst : ∀ o₁ o₂, o.setName name = some (o₁, true) → o₁.setPasswd passwd = some (o₂, true) →
    o₂.Carries name passwd o
  passwdFirst : ∀ o₁ o₂, o.setPasswd passwd = some (o₁, true) →
    o₁.setName name = some (o₂, true) → o₂.Carries name passwd o
  /-- both at once, on a cleared text area -/
  setNamePasswd : ∃ o' done, o.setNamePasswd name passwd = some (o', done) ∧
    (done = true ↔ name.length < nameMaxLen ∧ passwd.length < passwordMaxLen) ∧
    (done = true → o'.Carries name passwd o ∧
      o'.msg.bytes = nameArea.padded name ++ passwdArea.padded passwd) ∧
    (done = false → o' = o)

/-! ## One area -/

namespace Area

section Set

variable {a b : Area} {o o' : TransObj} {s : Bytes} {done : Bool}

/-- An area that holds a text and zeros behind it reads as the text. -/
theorem text_of_bytes (hs : s.length < a.size) (hzero : (0 : UInt8) ∉ s)
    (h : a.bytes o = a.padded s) (past : Bytes) : a.text o past = s := by
  obtain ⟨k, hk⟩ : ∃ k, a.size - s.length = k + 1 := ⟨a.size - s.length - 1, by omega⟩
  rw [text, ← List.take_append_drop a.size (o.msg.bytes.drop a.ofs)]
  rw [bytes] at h
  rw [h, padded, hk, List.replicate_succ, List.append_assoc, List.append_assoc, List.cons_append]
  exact cstr_append_zero hzero _

/-- What is outside an area is the bytes of an area disjoint from it. -/
theorem bytes_eq_of_outside (disjoint : a.Disjoint b)
    (h : ∀ i, a.Outside i → o'.msg.bytes[i]? = o.msg.bytes[i]?) : b.bytes o' = b.bytes o := by
  apply List.ext_getElem?
  intro i
  rw [bytes, bytes, List.getElem?_take, List.getElem?_take]
  split
  · rw [List.getElem?_drop, List.getElem?_drop]
    apply h
    rcases disjoint with h | h
    · exact .inr (by omega)
    · exact .inl (by omega)
  · rfl

/-- A text that does not fit is refused and the object is as it was. -/
theorem set_long (hs : a.size ≤ s.length) : a.set o s = some (o, false) := if_pos hs

/-- A text that fits is printed into its area. -/
theorem set_fits (hs : s.length < a.size) : a.set o s =
    (expand s []).map fun text => ({ o with
      msg := (o.msg.write a.ofs (List.replicate a.size 0)).write a.ofs (text ++ [0]) }, true) := by
  have hcut : ∀ text ∈ expand s [], text.take (a.size - 1) = text := by
    intro text htext
    have hle := expand_length_le htext
    exact List.take_of_length_le (by omega)
  rw [set, if_neg (Nat.not_le_of_lt hs), vsnprintf, Option.map_map]
  cases htext : expand s [] with
  | none => rfl
  | some text =>
    simp only [Option.map_some, Function.comp_apply, hcut text htext]

/-- The text area after a text that fits was printed. -/
theorem msg_written (o : TransObj) (hs : s.length < a.size) :
    ((o.msg.write a.ofs (List.replicate a.size 0)).write a.ofs (s ++ [0])).bytes =
      o.msg.bytes.take a.ofs ++ a.padded s ++ o.msg.bytes.drop (a.ofs + a.size) :=
  CharArray.write_cleared o.msg hs a.fits

/-- A text without a percent sign is set, and nothing else. -/
theorem set_plain (hs : s.length < a.size) (plain : (37 : UInt8) ∉ s) :
    ∃ o', a.set o s = some (o', true) ∧ a.bytes o' = a.padded s ∧ { o' with msg := o.msg } = o ∧
      ∀ i, a.Outside i → o'.msg.bytes[i]? = o.msg.bytes[i]? := by
  have hlen := o.msg.length_bytes
  have hfits := a.fits
  have hwritten := msg_written o hs
  have hfront : (o.msg.bytes.take a.ofs).length = a.ofs := by
    rw [List.length_take]
    omega
  have harea : (a.padded s).length = a.size := by
    rw [padded, List.length_append, List.length_replicate]
    omega
  refine ⟨{ o with
    msg := (o.msg.write a.ofs (List.replicate a.size 0)).write a.ofs (s ++ [0]) },
    by rw [set_fits hs, expand_eq_self plain]; rfl, ?_, rfl, fun i hi => ?_⟩
  · rw [bytes, hwritten, List.append_assoc, List.drop_left' hfront, List.take_left' harea]
  · rw [hwritten]
    rcases hi with hi | hi
    · rw [List.append_assoc, List.getElem?_append_left (by omega), List.getElem?_take, if_pos hi]
    · rw [List.getElem?_append_right (by rw [List.length_append]; omega), List.getElem?_drop,
        List.length_append, hfront, harea]
      congr 1
      omega

/-- A text with a percent sign is not what its area reads back. -/
theorem text_ne_of_percent (hs : s.length < a.size) (percent : (37 : UInt8) ∈ s)
    (h : a.set o s = some (o', done)) : a.text o' [] ≠ s := by
  intro htext
  rw [set_fits hs] at h
  obtain ⟨text, hexpand, hout⟩ := Option.map_eq_some_iff.mp h
  cases hout
  have hlt := expand_length_lt hexpand percent
  have hlen := o.msg.length_bytes
  have hfits := a.fits
  have hfront : (o.msg.bytes.take a.ofs).length = a.ofs := by
    rw [List.length_take]
    omega
  obtain ⟨k, hk⟩ : ∃ k, a.size - text.length = k + 1 := ⟨a.size - text.length - 1, by omega⟩
  rw [Area.text, msg_written o (by omega), List.append_assoc, List.drop_left' hfront, padded, hk,
    List.replicate_succ, List.append_nil, List.append_assoc, List.cons_append] at htext
  have hle := cstr_append_zero_le text (List.replicate k 0 ++ o.msg.bytes.drop (a.ofs + a.size))
  rw [htext] at hle
  omega

/-- **A setter does what it is for exactly on the texts that do not fit or have no percent sign.** -/
theorem setsText_iff (o : TransObj) (hzero : (0 : UInt8) ∉ s) :
    SetsText a a.text (a.set o s) o s ↔ (s.length < a.size → (37 : UInt8) ∉ s) := by
  constructor
  · rintro ⟨o', done, hout, hdone, hset, -⟩ hs percent
    exact text_ne_of_percent hs percent hout ((hset (hdone.mpr hs)).1 [])
  · intro plain
    by_cases hs : s.length < a.size
    · obtain ⟨o', hout, hbytes, hfields, houtside⟩ := set_plain (o := o) hs (plain hs)
      exact ⟨o', true, hout, iff_of_true rfl hs,
        fun _ => ⟨text_of_bytes hs hzero hbytes, hfields, houtside⟩, by rintro ⟨⟩⟩
    · refine ⟨o, false, set_long (Nat.le_of_not_lt hs), iff_of_false (by decide) hs, ?_,
        fun _ => rfl⟩
      rintro ⟨⟩

/-- Two texts that two setters set, one after the other, are both there. -/
theorem set_set {o₁ o₂ : TransObj} {t : Bytes} (disjoint : a.Disjoint b)
    (hs : s.length < a.size → (37 : UInt8) ∉ s) (ht : t.length < b.size → (37 : UInt8) ∉ t)
    (first : a.set o s = some (o₁, true)) (second : b.set o₁ t = some (o₂, true)) :
    s.length < a.size ∧ t.length < b.size ∧ a.bytes o₂ = a.padded s ∧ b.bytes o₂ = b.padded t ∧
      { o₂ with msg := o.msg } = o := by
  by_cases hsfits : s.length < a.size
  · by_cases htfits : t.length < b.size
    · obtain ⟨o', hout, hbytes, hfields, -⟩ := set_plain (o := o) hsfits (hs hsfits)
      rw [hout] at first
      cases first
      obtain ⟨o'', hout', hbytes', hfields', houtside'⟩ := set_plain (o := o₁) htfits (ht htfits)
      rw [hout'] at second
      cases second
      refine ⟨hsfits, htfits, ?_, hbytes', ?_⟩
      · rw [bytes_eq_of_outside disjoint.symm houtside', hbytes]
      · rw [← hfields, ← hfields']
    · rw [set_long (Nat.le_of_not_lt htfits)] at second
      cases second
  · rw [set_long (Nat.le_of_not_lt hsfits)] at first
    cases first

end Set

end Area

/-! ## The three setters -/

section Setters

variable {o : TransObj} {name passwd : Bytes}

theorem setName_eq (o : TransObj) (name : Bytes) : o.setName name = nameArea.set o name := rfl

theorem setPasswd_eq (o : TransObj) (passwd : Bytes) :
    o.setPasswd passwd = passwdArea.set o passwd := rfl

/-- An object whose two areas hold a name and a password carries them. -/
theorem carries_of_bytes {o' : TransObj} (hname : name.length < nameMaxLen)
    (hpasswd : passwd.length < passwordMaxLen) (nameZero : (0 : UInt8) ∉ name)
    (passwdZero : (0 : UInt8) ∉ passwd) (nameBytes : nameArea.bytes o' = nameArea.padded name)
    (passwdBytes : passwdArea.bytes o' = passwdArea.padded passwd)
    (fields : { o' with msg := o.msg } = o) : o'.Carries name passwd o where
  getName := nameArea.text_of_bytes hname nameZero nameBytes
  getPasswd := passwdArea.text_of_bytes hpasswd passwdZero passwdBytes
  fields := fields

/-- The text area is the name's area and the password's. -/
theorem msg_bytes (o : TransObj) : o.msg.bytes = nameArea.bytes o ++ passwdArea.bytes o := by
  have hlen := o.msg.length_bytes
  have hpasswd : passwdArea.bytes o = o.msg.bytes.drop nameMaxLen := by
    apply List.take_of_length_le
    rw [List.length_drop, hlen]
    decide
  rw [hpasswd]
  exact (List.take_append_drop nameMaxLen o.msg.bytes).symm

/-- A name and a password without percent signs are set at once. -/
theorem setNamePasswd_plain (hname : name.length < nameMaxLen)
    (hpasswd : passwd.length < passwordMaxLen) (namePlain : (37 : UInt8) ∉ name)
    (passwdPlain : (37 : UInt8) ∉ passwd) :
    ∃ o', o.setNamePasswd name passwd = some (o', true) ∧
      nameArea.bytes o' = nameArea.padded name ∧ passwdArea.bytes o' = passwdArea.padded passwd ∧
      { o' with msg := o.msg } = o := by
  obtain ⟨o₁, hout₁, -⟩ := nameArea.set_plain (o := o.clearMsg) hname namePlain
  obtain ⟨o₂, hout₂, -⟩ := passwdArea.set_plain (o := o₁) hpasswd passwdPlain
  obtain ⟨-, -, nameBytes, passwdBytes, fields⟩ := Area.set_set (a := nameArea)
    (b := passwdArea) (.inl le_rfl) (fun _ => namePlain) (fun _ => passwdPlain) hout₁ hout₂
  refine ⟨o₂, ?_, nameBytes, passwdBytes, ?_⟩
  · have hfits : ¬ (decide (name.length ≥ nameMaxLen) || decide (passwd.length ≥ passwordMaxLen)) =
        true := by
      simp only [Bool.or_eq_true, decide_eq_true_eq]
      omega
    rw [TransObj.setNamePasswd, if_neg hfits, setName_eq, hout₁]
    show (o₁.setPasswd passwd >>= fun out => some (out.1, true)) = _
    rw [setPasswd_eq, hout₂]
    rfl
  · exact congrArg (fun o' : TransObj => { o' with msg := o.msg }) fields

/-- **The setters do what they are for exactly on names and passwords that do not fit or have no
percent sign.** -/
theorem credentials_iff (o : TransObj) (nameZero : (0 : UInt8) ∉ name)
    (passwdZero : (0 : UInt8) ∉ passwd) :
    SetsCredentials o name passwd ↔
      (name.length < nameMaxLen → (37 : UInt8) ∉ name) ∧
        (passwd.length < passwordMaxLen → (37 : UInt8) ∉ passwd) := by
  constructor
  · intro sets
    exact ⟨(nameArea.setsText_iff o nameZero).mp sets.setName,
      (passwdArea.setsText_iff o passwdZero).mp sets.setPasswd⟩
  · rintro ⟨namePlain, passwdPlain⟩
    refine ⟨(nameArea.setsText_iff o nameZero).mpr namePlain,
      (passwdArea.setsText_iff o passwdZero).mpr passwdPlain, ?_, ?_, ?_⟩
    · intro o₁ o₂ first second
      obtain ⟨hname, hpasswd, nameBytes, passwdBytes, fields⟩ :=
        Area.set_set (a := nameArea) (b := passwdArea) (.inl le_rfl) namePlain passwdPlain first
          second
      exact carries_of_bytes hname hpasswd nameZero passwdZero nameBytes passwdBytes fields
    · intro o₁ o₂ first second
      obtain ⟨hpasswd, hname, passwdBytes, nameBytes, fields⟩ :=
        Area.set_set (a := passwdArea) (b := nameArea) (.inr le_rfl) passwdPlain namePlain first
          second
      exact carries_of_bytes hname hpasswd nameZero passwdZero nameBytes passwdBytes fields
    · by_cases hfits : name.length < nameMaxLen ∧ passwd.length < passwordMaxLen
      · obtain ⟨hname, hpasswd⟩ := hfits
        obtain ⟨o', hout, nameBytes, passwdBytes, fields⟩ := setNamePasswd_plain (o := o) hname
          hpasswd (namePlain hname) (passwdPlain hpasswd)
        refine ⟨o', true, hout, iff_of_true rfl ⟨hname, hpasswd⟩, fun _ => ⟨?_, ?_⟩, ?_⟩
        · exact carries_of_bytes hname hpasswd nameZero passwdZero nameBytes passwdBytes fields
        · rw [msg_bytes, nameBytes, passwdBytes]
        · rintro ⟨⟩
      · have hlong : (decide (name.length ≥ nameMaxLen) ||
            decide (passwd.length ≥ passwordMaxLen)) = true := by
          simp only [Bool.or_eq_true, decide_eq_true_eq]
          omega
        refine ⟨o, false, if_pos hlong, iff_of_false (by decide) hfits, ?_, fun _ => rfl⟩
        rintro ⟨⟩

/-- The longest name and password that the protocol admits. -/
theorem credentials_iff_longest :
    SetsCredentials .zero (List.replicate 23 97) (List.replicate 39 98) ↔
      ((List.replicate 23 97 : Bytes).length < nameMaxLen →
        (37 : UInt8) ∉ (List.replicate 23 97 : Bytes)) ∧
      ((List.replicate 39 98 : Bytes).length < passwordMaxLen →
        (37 : UInt8) ∉ (List.replicate 39 98 : Bytes)) :=
  credentials_iff .zero (by decide) (by decide)

/-- A name with two percent signs in a row fits and is taken, and one percent sign is stored. -/
theorem percent_dropped :
    ¬ ∀ (o : TransObj) (name passwd : Bytes), (0 : UInt8) ∉ name → (0 : UInt8) ∉ passwd →
      SetsCredentials o name passwd := by
  intro claim
  obtain ⟨o', done, hout, hdone, hset, -⟩ :=
    (claim .zero (ascii "100%%") (ascii "secret") (by decide) (by decide)).setName
  have hget := (hset (hdone.mpr (by decide))).1 []
  have hstored : (TransObj.zero.setName (ascii "100%%")).map (fun out => out.1.getName []) =
      some (ascii "100%") := by
    decide +kernel
  rw [hout, Option.map_some, hget] at hstored
  exact absurd hstored (by decide)

end Setters

end Smer
