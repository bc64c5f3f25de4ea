import Smer.Lib.CMemory
import Mathlib.Data.List.SplitLengths

/-!
# A receiver that treats each receive as one message

Messages are written back to back on a stream, each as a block of `n` symbols (`enc`). The stream
arrives in pieces, cut anywhere. A receiver with one fixed buffer and no position in the stream
writes each piece over the front of the buffer (`overlay`), leaves the rest of the buffer as it
was, and decodes the front of the buffer as one message (`receive`).

`receive_blocks` is what such a receiver gets right: pieces that are exactly the blocks. The rest of
the module says that nothing else is right. A cut into as many pieces as there are blocks, none
longer than a block, is the cut at the block ends (`eq_of_sum_eq`). A cut that is not at the block
ends loses some sequence of messages (`delivers_iff`): the first piece that is too short leaves a
block unfinished, and the first that is too long swallows the front of the next.
-/

namespace Lib

variable {α β γ : Type}

/-- The buffer after a piece has been written over its front. -/
def overlay (buf piece : List α) : List α := piece ++ buf.drop piece.length

/-- Writing at the front of a fixed array is an overlay. -/
theorem CharArray.write_eq_overlay {n : Nat} (a : CharArray n) {piece : Bytes}
    (fits : piece.length ≤ n) : (a.write 0 piece).bytes = overlay a.bytes piece := by
  have hlen := a.length_bytes
  simp only [CharArray.write, List.take_zero, List.nil_append, Nat.zero_add, overlay]
  rw [List.take_of_length_le]
  rw [List.length_append, List.length_drop]
  omega

/-- The buffer after each piece in turn. -/
def buffers : List α → List (List α) → List (List α)
  | _, [] => []
  | buf, piece :: pieces => overlay buf piece :: buffers (overlay buf piece) pieces

/-- The messages the receiver decodes, one for each piece. -/
def receive (dec : List α → γ) (buf : List α) (pieces : List (List α)) : List γ :=
  (buffers buf pieces).map dec

@[simp] theorem buffers_length (buf : List α) (pieces : List (List α)) :
    (buffers buf pieces).length = pieces.length := by
  induction pieces generalizing buf with
  | nil => rfl
  | cons piece pieces ih => simp only [buffers, List.length_cons, ih]

/-- One message for each piece, however the stream was cut. -/
@[simp] theorem receive_length (dec : List α → γ) (buf : List α) (pieces : List (List α)) :
    (receive dec buf pieces).length = pieces.length := by
  rw [receive, List.length_map, buffers_length]

theorem receive_cons (dec : List α → γ) (buf piece : List α) (pieces : List (List α)) :
    receive dec buf (piece :: pieces) =
      dec (overlay buf piece) :: receive dec (overlay buf piece) pieces := rfl

section Blocks

variable {n : Nat} {enc : β → List α} {dec : List α → γ} {view : β → γ}

/-- **Pieces that are the blocks are decoded right**, whatever the buffer held before. -/
theorem receive_blocks (reads : ∀ b rest, dec (enc b ++ rest) = view b) (buf : List α)
    (ms : List β) : receive dec buf (ms.map enc) = ms.map view := by
  induction ms generalizing buf with
  | nil => rfl
  | cons b ms ih =>
    rw [List.map_cons, receive_cons, ih, List.map_cons]
    congr 1
    exact reads b _

/-- Pieces of the blocks' stream that are as long as the blocks are the blocks. -/
theorem pieces_eq_blocks (size : ∀ b, (enc b).length = n) {ms : List β} {pieces : List (List α)}
    (stream : pieces.flatten = (ms.map enc).flatten) (full : ∀ p ∈ pieces, p.length = n)
    (count : pieces.length = ms.length) : pieces = ms.map enc := by
  rw [List.eq_iff_flatten_eq]
  refine ⟨stream, ?_⟩
  have hpieces : pieces.map List.length = List.replicate pieces.length n := by
    rw [List.eq_replicate_iff]
    exact ⟨List.length_map _, fun x hx => by
      obtain ⟨p, hp, rfl⟩ := List.mem_map.mp hx
      exact full p hp⟩
  have hblocks : (ms.map enc).map List.length = List.replicate ms.length n := by
    rw [List.eq_replicate_iff]
    refine ⟨by rw [List.length_map, List.length_map], fun x hx => ?_⟩
    obtain ⟨p, hp, rfl⟩ := List.mem_map.mp hx
    obtain ⟨b, _, rfl⟩ := List.mem_map.mp hp
    exact size b
  rw [hpieces, hblocks, count]

/-- The length of a stream of blocks. -/
theorem length_blocks (size : ∀ b, (enc b).length = n) (ms : List β) :
    (ms.map enc).flatten.length = n * ms.length := by
  induction ms with
  | nil => rfl
  | cons b ms ih =>
    rw [List.map_cons, List.flatten_cons, List.length_append, size, ih, List.length_cons,
      Nat.mul_succ, Nat.add_comm]

end Blocks

/-! ## Counting pieces -/

theorem sum_le_of_le {n : Nat} : ∀ {sizes : List Nat}, (∀ s ∈ sizes, s ≤ n) →
    sizes.sum ≤ n * sizes.length
  | [], _ => Nat.zero_le _
  | s :: sizes, hle => by
    have hrest := sum_le_of_le fun t ht => hle t (List.mem_cons_of_mem _ ht)
    have hs := hle s List.mem_cons_self
    simp only [List.sum_cons, List.length_cons, Nat.mul_succ]
    omega

/-- Pieces no longer than a block, as many as the blocks and as long together, are full blocks. -/
theorem eq_of_sum_eq {n : Nat} : ∀ sizes : List Nat, (∀ s ∈ sizes, s ≤ n) →
    sizes.sum = n * sizes.length → ∀ s ∈ sizes, s = n
  | [], _, _ => by simp
  | s :: sizes, hle, hsum => by
    have hrest : ∀ t ∈ sizes, t ≤ n := fun t ht => hle t (List.mem_cons_of_mem _ ht)
    have htotal := sum_le_of_le hrest
    have hs := hle s List.mem_cons_self
    simp only [List.sum_cons, List.length_cons, Nat.mul_succ] at hsum
    have hs' : s = n := by omega
    have hsum' : sizes.sum = n * sizes.length := by omega
    intro t ht
    rcases List.mem_cons.mp ht with rfl | ht
    · exact hs'
    · exact eq_of_sum_eq sizes hrest hsum' t ht

theorem sum_of_eq {n : Nat} (sizes : List Nat) (hall : ∀ s ∈ sizes, s = n) :
    sizes.sum = n * sizes.length := by
  rw [List.eq_replicate_of_mem hall, List.sum_replicate, List.length_replicate, smul_eq_mul,
    Nat.mul_comm]

/-! ## The first piece that is not a block -/

/-- A cut is at the block ends, or it has a first piece of another size. -/
theorem first_misaligned (n : Nat) : ∀ sizes : List Nat,
    (∀ s ∈ sizes, s = n) ∨
      ∃ i s rest, sizes = List.replicate i n ++ s :: rest ∧ s ≠ n
  | [] => .inl (by simp)
  | s :: sizes => by
    by_cases hs : s = n
    · rcases first_misaligned n sizes with hall | ⟨i, t, rest, hsizes, ht⟩
      · refine .inl fun t ht => ?_
        rcases List.mem_cons.mp ht with rfl | ht
        · exact hs
        · exact hall t ht
      · refine .inr ⟨i + 1, t, rest, ?_, ht⟩
        rw [hsizes, hs, List.replicate_succ, List.cons_append]
    · exact .inr ⟨0, s, sizes, rfl, hs⟩

/-- The pieces before the first misaligned one are the blocks there. -/
theorem splitLengths_blocks {n : Nat} {block : List α} (hblock : block.length = n) (i : Nat)
    (sizes : List Nat) (stream : List α) :
    (List.replicate i n ++ sizes).splitLengths ((List.replicate i block).flatten ++ stream) =
      List.replicate i block ++ sizes.splitLengths stream := by
  induction i with
  | zero => rfl
  | succ i ih =>
    rw [List.replicate_succ, List.replicate_succ, List.flatten_cons, List.cons_append,
      List.splitLengths_cons, List.append_assoc, List.take_left' hblock, List.drop_left' hblock,
      ih, List.cons_append]

/-- No piece is longer than its size. -/
theorem length_le_of_mem_splitLengths {sizes : List Nat} {stream piece : List α}
    (hp : piece ∈ sizes.splitLengths stream) : ∃ s ∈ sizes, piece.length ≤ s := by
  induction sizes generalizing stream with
  | nil => cases hp
  | cons s sizes ih =>
    rw [List.splitLengths_cons] at hp
    rcases List.mem_cons.mp hp with rfl | hp
    · exact ⟨s, List.mem_cons_self, List.length_take_le _ _⟩
    · obtain ⟨t, ht, hle⟩ := ih hp
      exact ⟨t, List.mem_cons_of_mem _ ht, hle⟩

/-! ## What the buffer can hold -/

/-- A symbol in the buffer after a piece was in the piece or in the buffer before. -/
theorem mem_overlay {buf piece : List α} {x : α} (hx : x ∈ overlay buf piece) :
    x ∈ piece ∨ x ∈ buf := by
  rcases List.mem_append.mp hx with hx | hx
  · exact .inl hx
  · exact .inr (List.mem_of_mem_drop hx)

/-- A symbol that no piece has brought is not in the buffer. -/
theorem notMem_foldl_overlay {buf : List α} {pieces : List (List α)} {x : α} (hbuf : x ∉ buf)
    (hpieces : ∀ p ∈ pieces, x ∉ p) : x ∉ pieces.foldl overlay buf := by
  induction pieces generalizing buf with
  | nil => exact hbuf
  | cons piece pieces ih =>
    refine ih (fun hx => ?_) fun p hp => hpieces p (List.mem_cons_of_mem _ hp)
    rcases mem_overlay hx with hx | hx
    · exact hpieces piece List.mem_cons_self hx
    · exact hbuf hx

/-- The receiver's later messages are those of a receiver that starts from the buffer so far. -/
theorem receive_append (dec : List α → γ) (buf : List α) (front back : List (List α)) :
    receive dec buf (front ++ back) =
      receive dec buf front ++ receive dec (front.foldl overlay buf) back := by
  induction front generalizing buf with
  | nil => rfl
  | cons piece front ih =>
    rw [List.cons_append, receive_cons, ih, receive_cons, List.cons_append, List.foldl_cons]

/-- If a run delivers every message, the piece after `front` decodes to the message there. -/
theorem decoded_of_delivers {dec : List α → γ} {view : β → γ} {buf piece : List α}
    {front back : List (List α)} {before after : List β} {b : β}
    (delivers : receive dec buf (front ++ piece :: back) = (before ++ b :: after).map view)
    (hlen : front.length = before.length) :
    dec (overlay (front.foldl overlay buf) piece) = view b := by
  rw [receive_append, List.map_append, List.map_cons, receive_cons] at delivers
  have h := (List.append_inj delivers (by rw [receive_length, List.length_map, hlen])).2
  exact (List.cons.inj h).1

/-! ## Which cuts deliver every sequence of messages -/

section Delivers

variable {n : Nat} {enc : β → List α} {dec : List α → γ} {view : β → γ} {x y : α}
  {filler first last : β} {buf front back : List α}

/-- A cut whose first misaligned piece is too short loses a message whose block ends in a mark: the
block is decoded before the mark has come. -/
theorem short_piece_loses (size : ∀ b, (enc b).length = n) (hlast : enc last = front ++ [x])
    (hfront : x ∉ front) (hfiller : x ∉ enc filler) (hbuf : x ∉ buf)
    (marked : ∀ b, dec b = view last → x ∈ b) {i s m : Nat} (rest : List Nat) (hs : s < n)
    (hi : i < m) :
    ∃ ms : List β, ms.length = m ∧
      receive dec buf ((List.replicate i n ++ s :: rest).splitLengths (ms.map enc).flatten) ≠
        ms.map view := by
  refine ⟨List.replicate i filler ++ last :: List.replicate (m - i - 1) filler, ?_, ?_⟩
  · simp only [List.length_append, List.length_replicate, List.length_cons]
    omega
  intro delivers
  rw [List.map_append, List.flatten_append, List.map_replicate, splitLengths_blocks (size filler),
    List.splitLengths_cons] at delivers
  have hdec := decoded_of_delivers delivers (by simp only [List.length_replicate])
  have hlen : front.length + 1 = n := by
    have h := size last
    rw [hlast, List.length_append, List.length_singleton] at h
    exact h
  rcases mem_overlay (marked _ hdec) with hx | hx
  · -- the short piece ends before the mark
    rw [List.map_cons, List.flatten_cons, hlast, List.append_assoc,
      List.take_append_of_le_length (by omega)] at hx
    exact hfront (List.mem_of_mem_take hx)
  · refine notMem_foldl_overlay hbuf (fun p hp => ?_) hx
    rw [List.eq_of_mem_replicate hp]
    exact hfiller

variable (buf) in
/-- A cut whose first misaligned piece is too long loses a message whose block begins with a mark:
the mark lies inside that piece, and no later piece begins with it. -/
theorem long_piece_loses (size : ∀ b, (enc b).length = n) (hfirst : enc first = y :: back)
    (hback : y ∉ back) (hfiller : y ∉ enc filler)
    (marked : ∀ b, dec b = view first → b.head? = some y) {i s m : Nat} (t : Nat)
    (rest : List Nat) (hs : n < s) (hi : i + 1 < m) :
    ∃ ms : List β, ms.length = m ∧
      receive dec buf ((List.replicate i n ++ s :: t :: rest).splitLengths
        (ms.map enc).flatten) ≠ ms.map view := by
  refine ⟨List.replicate (i + 1) filler ++ first :: List.replicate (m - i - 2) filler, ?_, ?_⟩
  · simp only [List.length_append, List.length_replicate, List.length_cons]
    omega
  intro delivers
  have hstream : ((List.replicate (i + 1) filler ++ first ::
      List.replicate (m - i - 2) filler).map enc).flatten =
      (List.replicate i (enc filler)).flatten ++ (enc filler ++
        (y :: (back ++ (List.replicate (m - i - 2) (enc filler)).flatten))) := by
    rw [List.map_append, List.flatten_append, List.map_replicate, List.replicate_succ',
      List.flatten_append, List.flatten_singleton, List.map_cons, List.flatten_cons, hfirst,
      List.map_replicate, List.append_assoc, List.cons_append]
  obtain ⟨k, rfl⟩ : ∃ k, s = n + (k + 1) := ⟨s - n - 1, by omega⟩
  rw [hstream, splitLengths_blocks (size filler), List.splitLengths_cons, List.splitLengths_cons,
    ← List.drop_drop, List.drop_left' (size filler), List.drop_succ_cons, List.append_cons]
    at delivers
  have hdec := decoded_of_delivers delivers
    (by simp only [List.length_append, List.length_replicate, List.length_singleton])
  have hhead := marked _ hdec
  rw [List.foldl_append, List.foldl_cons, List.foldl_nil] at hhead
  obtain ⟨z, zs, hcons⟩ : ∃ z zs, enc filler = z :: zs := by
    apply List.exists_cons_of_ne_nil
    intro hnil
    have h := (size first).trans (size filler).symm
    rw [hfirst, hnil] at h
    cases h
  -- the next piece begins behind the mark, or it is empty and the buffer still begins with filler
  cases hnext : (List.drop k (back ++ (List.replicate (m - i - 2) (enc filler)).flatten)).take t with
  | nil =>
    rw [hnext, hcons] at hhead
    have hz : z = y := Option.some.inj hhead
    exact hfiller (hcons ▸ hz ▸ List.mem_cons_self)
  | cons w ws =>
    rw [hnext] at hhead
    have hw : w = y := Option.some.inj hhead
    have hpiece : y ∈ (List.drop k
        (back ++ (List.replicate (m - i - 2) (enc filler)).flatten)).take t := by
      rw [hnext, hw]
      exact List.mem_cons_self
    have hmem : y ∈ back ++ (List.replicate (m - i - 2) (enc filler)).flatten :=
      List.mem_of_mem_drop (List.mem_of_mem_take hpiece)
    rcases List.mem_append.mp hmem with hmem | hmem
    · exact hback hmem
    · obtain ⟨block, hb, hy⟩ := List.mem_flatten.mp hmem
      exact hfiller (List.eq_of_mem_replicate hb ▸ hy)

variable (filler) in
/-- **A cut delivers every sequence of messages exactly when it is at the block ends.** Some message
is free of two marks; another has one mark as its first symbol, a third has the other as its last;
and the receiver shows a mark only when the buffer holds it there. -/
theorem delivers_iff (size : ∀ b, (enc b).length = n)
    (reads : ∀ b rest, dec (enc b ++ rest) = view b)
    (hfirst : enc first = y :: back) (hback : y ∉ back) (hfillerFirst : y ∉ enc filler)
    (markedFirst : ∀ b, dec b = view first → b.head? = some y)
    (hlast : enc last = front ++ [x]) (hfront : x ∉ front) (hfillerLast : x ∉ enc filler)
    (hbuf : x ∉ buf) (markedLast : ∀ b, dec b = view last → x ∈ b)
    {sizes : List Nat} {m : Nat} (total : sizes.sum = n * m) :
    (∀ ms : List β, ms.length = m →
        receive dec buf (sizes.splitLengths (ms.map enc).flatten) = ms.map view) ↔
      ∀ s ∈ sizes, s = n := by
  have hpos : 0 < n := by
    rw [← size first, hfirst]
    exact Nat.succ_pos _
  constructor
  · intro delivers
    rcases first_misaligned n sizes with hall | ⟨i, s, rest, hsizes, hs⟩
    · exact hall
    exfalso
    have hcount : sizes.length = m := by
      have h := congrArg List.length (delivers (List.replicate m filler) List.length_replicate)
      rwa [receive_length, List.length_splitLengths, List.length_map, List.length_replicate] at h
    rw [hsizes, List.length_append, List.length_replicate, List.length_cons] at hcount
    rcases Nat.lt_or_gt_of_ne hs with hlt | hgt
    · obtain ⟨ms, hlen, hne⟩ := short_piece_loses size hlast hfront hfillerLast hbuf
        markedLast rest hlt (by omega : i < m)
      exact hne (hsizes ▸ delivers ms hlen)
    · -- the pieces up to the long one are longer than `i + 1` blocks, so another piece follows
      have hnext : i + 1 < m := by
        rw [hsizes, List.sum_append, List.sum_replicate, smul_eq_mul, List.sum_cons] at total
        have hlt : n * (i + 1) < n * m := by
          rw [Nat.mul_succ, Nat.mul_comm n i]
          omega
        exact Nat.lt_of_mul_lt_mul_left hlt
      obtain ⟨t, rest', rfl⟩ : ∃ t rest', rest = t :: rest' := by
        apply List.exists_cons_of_ne_nil
        rintro rfl
        rw [List.length_nil] at hcount
        omega
      obtain ⟨ms, hlen, hne⟩ := long_piece_loses buf size hfirst hback hfillerFirst
        markedFirst t rest' hgt hnext
      exact hne (hsizes ▸ delivers ms hlen)
  · intro hall ms hlen
    have hcount : sizes.length = ms.length := by
      apply Nat.eq_of_mul_eq_mul_left hpos
      rw [← sum_of_eq sizes hall, total, hlen]
    have hlength : (ms.map enc).flatten.length = sizes.sum := by
      rw [length_blocks size ms, total, hlen]
    rw [pieces_eq_blocks size (List.flatten_splitLengths _ _ hlength.le)
      (fun p hp => ?_) (by rw [List.length_splitLengths, hcount])]
    · exact receive_blocks reads buf ms
    · have hmem : p.length ∈ (sizes.splitLengths (ms.map enc).flatten).map List.length :=
        List.mem_map_of_mem hp
      rw [List.map_splitLengths_length _ _ hlength.ge] at hmem
      exact hall _ hmem

end Delivers

end Lib
