import Smer.Lib.CText

/-!
# Fixed arrays and fields in memory

A `char` array of fixed size is a byte list that carries its length (`CharArray`), so a write can
change its bytes and never its size. A 32-bit field is four bytes, least significant first
(`le32`, `read32`), as an x86 lays it out.
-/

namespace Lib

/-- `char a[n]`. -/
@[ext] structure CharArray (n : Nat) where
  bytes : Bytes
  length_bytes : bytes.length = n
  deriving DecidableEq

namespace CharArray

variable {n : Nat}

/-- The array with every byte `b`. -/
def fill (n : Nat) (b : UInt8) : CharArray n := ⟨List.replicate n b, List.length_replicate⟩

/-- The array that holds the front of `bs`, with zeros behind it where `bs` is short. -/
def ofBytes (n : Nat) (bs : Bytes) : CharArray n :=
  ⟨bs.take n ++ List.replicate (n - bs.length) 0, by
    rw [List.length_append, List.length_take, List.length_replicate]
    omega⟩

/-- Write `bs` at offset `ofs`; every other byte stays. -/
def write (a : CharArray n) (ofs : Nat) (bs : Bytes) : CharArray n :=
  ⟨(a.bytes.take ofs ++ bs ++ a.bytes.drop (ofs + bs.length)).take n, by
    have h := a.length_bytes
    simp only [List.length_take, List.length_append, List.length_drop]
    omega⟩

@[simp] theorem fill_bytes (b : UInt8) : (fill n b).bytes = List.replicate n b := rfl

/-- A text that fits, written over zeros: the text, then zeros. -/
theorem write_fill {bs : Bytes} (h : bs.length ≤ n) :
    ((fill n 0).write 0 bs).bytes = bs ++ List.replicate (n - bs.length) 0 := by
  simp only [write, fill_bytes, List.take_zero, List.nil_append, Nat.zero_add, List.drop_replicate]
  rw [List.take_of_length_le]
  rw [List.length_append, List.length_replicate]
  omega

/-- A write that fits, in its place between what lies before it and behind it. -/
theorem write_bytes (a : CharArray n) {ofs : Nat} {bs : Bytes} (fits : ofs + bs.length ≤ n) :
    (a.write ofs bs).bytes = a.bytes.take ofs ++ bs ++ a.bytes.drop (ofs + bs.length) := by
  have hlen := a.length_bytes
  rw [write]
  simp only []
  rw [List.take_of_length_le]
  simp only [List.length_append, List.length_take, List.length_drop]
  omega

/-- A text and its zero, written over an area that was cleared: the text, then zeros up to the end
of the area. -/
theorem write_cleared (a : CharArray n) {ofs size : Nat} {s : Bytes} (hs : s.length < size)
    (fits : ofs + size ≤ n) :
    ((a.write ofs (List.replicate size 0)).write ofs (s ++ [0])).bytes =
      a.bytes.take ofs ++ (s ++ List.replicate (size - s.length) 0) ++ a.bytes.drop (ofs + size) := by
  have hlen := a.length_bytes
  have hfront : (a.bytes.take ofs).length = ofs := by
    rw [List.length_take]
    omega
  have hend : (s ++ [0]).length = s.length + 1 := List.length_append
  obtain ⟨k, hk⟩ : ∃ k, size = s.length + 1 + k := ⟨size - (s.length + 1), by omega⟩
  have hcleared : (a.write ofs (List.replicate size 0)).bytes =
      a.bytes.take ofs ++ (List.replicate (s.length + 1) 0 ++ (List.replicate k 0 ++
        a.bytes.drop (ofs + size))) := by
    rw [write_bytes a (by rw [List.length_replicate]; exact fits), List.length_replicate, hk,
      List.replicate_add, List.append_assoc, List.append_assoc]
  have hdrop : (a.write ofs (List.replicate size 0)).bytes.drop (ofs + (s.length + 1)) =
      List.replicate k 0 ++ a.bytes.drop (ofs + size) := by
    rw [hcleared, ← List.drop_drop, List.drop_left' hfront, List.drop_left' List.length_replicate]
  have hrest : size - s.length = k + 1 := by omega
  rw [write_bytes _ (by rw [hend]; omega), hend, hdrop, hcleared, List.take_left' hfront, hrest,
    List.replicate_succ]
  simp only [List.append_assoc, List.cons_append, List.nil_append]

/-- A write leaves what lies before it alone. -/
theorem write_take (a : CharArray n) {k ofs : Nat} (hk : k ≤ ofs) (hofs : ofs ≤ n) (bs : Bytes) :
    (a.write ofs bs).bytes.take k = a.bytes.take k := by
  have hlen := a.length_bytes
  have hfront : (a.bytes.take ofs).length = ofs := by
    rw [List.length_take]
    omega
  rw [write]
  simp only []
  rw [List.take_take, Nat.min_eq_left (hk.trans hofs), List.append_assoc,
    List.take_append_of_le_length (by omega), List.take_take, Nat.min_eq_left hk]

/-- A write that fits is found where it was made. -/
theorem write_drop (a : CharArray n) {ofs : Nat} {bs : Bytes} (fits : ofs + bs.length ≤ n) :
    (a.write ofs bs).bytes.drop ofs = bs ++ a.bytes.drop (ofs + bs.length) := by
  have hlen := a.length_bytes
  have hfront : (a.bytes.take ofs).length = ofs := by
    rw [List.length_take]
    omega
  rw [write]
  simp only []
  rw [List.take_of_length_le, List.append_assoc, List.drop_left' hfront]
  simp only [List.length_append, List.length_drop]
  omega

/-- An array of exactly the bytes given. -/
theorem ofBytes_append {bs : Bytes} (h : bs.length = n) (rest : Bytes) :
    (ofBytes n (bs ++ rest)).bytes = bs := by
  simp only [ofBytes, List.length_append, h]
  rw [List.take_left' h, Nat.sub_eq_zero_of_le (Nat.le_add_right _ _)]
  simp only [List.replicate_zero, List.append_nil]

/-- An array reads no more bytes than it holds. -/
theorem ofBytes_append_of_le {bs : Bytes} (h : n ≤ bs.length) (rest : Bytes) :
    ofBytes n (bs ++ rest) = ofBytes n bs := by
  apply CharArray.ext
  simp only [ofBytes, List.length_append]
  rw [List.take_append_of_le_length h, Nat.sub_eq_zero_of_le h, Nat.sub_eq_zero_of_le (by omega)]

end CharArray

/-! ## 32-bit fields -/

/-- The four bytes of a 32-bit field. -/
def le32 (x : UInt32) : Bytes :=
  [UInt8.ofNat x.toNat, UInt8.ofNat (x.toNat / 256), UInt8.ofNat (x.toNat / 65536),
    UInt8.ofNat (x.toNat / 16777216)]

/-- The 32-bit field at the front of memory. -/
def read32 : Bytes → UInt32
  | a :: b :: c :: d :: _ =>
    UInt32.ofNat (a.toNat + 256 * b.toNat + 65536 * c.toNat + 16777216 * d.toNat)
  | _ => 0

@[simp] theorem le32_length (x : UInt32) : (le32 x).length = 4 := rfl

/-- A field is four bytes. -/
theorem read32_append {bs : Bytes} (h : 4 ≤ bs.length) (rest : Bytes) :
    read32 (bs ++ rest) = read32 bs := by
  match bs with
  | _ :: _ :: _ :: _ :: _ => rfl
  | [] | [_] | [_, _] | [_, _, _] => simp at h

/-- A field reads back. -/
theorem read32_le32 (x : UInt32) (rest : Bytes) : read32 (le32 x ++ rest) = x := by
  have hx := x.toNat_lt
  show UInt32.ofNat ((UInt8.ofNat x.toNat).toNat + 256 * (UInt8.ofNat (x.toNat / 256)).toNat +
    65536 * (UInt8.ofNat (x.toNat / 65536)).toNat +
      16777216 * (UInt8.ofNat (x.toNat / 16777216)).toNat) = x
  apply UInt32.toNat_inj.mp
  simp only [UInt8.toNat_ofNat', UInt32.toNat_ofNat']
  omega

end Lib
