import Mathlib.Data.List.TakeWhile
import Mathlib.Tactic

/-!
# Text as C and its libraries handle it

Byte strings, and the handful of operations on them that a C or C++ program leans on: a C string is
the bytes before the first zero (`cstr`), a decimal numeral is written by `std::to_string`
(`toText`) and read back by `atoi`, a format is expanded by the `printf` family (`expand`,
`vsnprintf`), and a line is cut into words at single spaces (`words`).

`Bytes` is `List UInt8`, for structural induction. Where the C standard leaves an operation
undefined (a `printf` directive with no argument to read), the operation here answers `none`.
-/

namespace Lib

abbrev Bytes := List UInt8

/-- The bytes of an ASCII literal. -/
def ascii (s : String) : Bytes := s.toList.map fun c => UInt8.ofNat c.toNat

/-! ## C strings -/

/-- The C string that starts at the first byte: everything before the first zero. -/
def cstr (bs : Bytes) : Bytes := bs.takeWhile (· ≠ 0)

theorem zero_notMem_cstr (bs : Bytes) : (0 : UInt8) ∉ cstr bs := by
  intro mem
  have hall := List.all_takeWhile (l := bs) (p := fun b => decide (b ≠ 0))
  rw [List.all_eq_true] at hall
  exact absurd (hall 0 mem) (by decide)

/-- A C string that starts with a text without a zero goes on as the C string after it. -/
theorem cstr_append {s : Bytes} (hs : (0 : UInt8) ∉ s) (rest : Bytes) :
    cstr (s ++ rest) = s ++ cstr rest := by
  have hpos : ∀ b ∈ s, decide (b ≠ 0) = true := fun b hb => decide_eq_true fun h0 => hs (h0 ▸ hb)
  rw [cstr, List.takeWhile_append_of_pos hpos, cstr]

/-- A text without a zero is the C string of any memory where a zero follows it. -/
theorem cstr_append_zero {s : Bytes} (hs : (0 : UInt8) ∉ s) (rest : Bytes) :
    cstr (s ++ 0 :: rest) = s := by
  rw [cstr_append hs, cstr]
  simp only [ne_eq, not_true_eq_false, decide_false, Bool.false_eq_true, not_false_eq_true,
    List.takeWhile_cons_of_neg, List.append_nil]

/-- A text without a zero is its own C string. -/
theorem cstr_eq_self {s : Bytes} (hs : (0 : UInt8) ∉ s) : cstr s = s := by
  rw [cstr, List.takeWhile_eq_self_iff]
  intro b hb
  exact decide_eq_true fun h0 => hs (h0 ▸ hb)

/-- A C string is no longer than the text that it starts. -/
theorem cstr_length_le (bs : Bytes) : (cstr bs).length ≤ bs.length :=
  (List.takeWhile_sublist _).length_le

/-- The C string ends inside the first `n` bytes of a text that long iff a zero is among them. -/
theorem cstr_length_lt_iff {bs : Bytes} {n : Nat} (hn : n ≤ bs.length) :
    (cstr bs).length < n ↔ 0 ∈ bs.take n := by
  induction bs generalizing n with
  | nil =>
    rw [Nat.le_zero.mp hn]
    exact iff_of_false (Nat.not_lt_zero _) List.not_mem_nil
  | cons b bs ih =>
    cases n with
    | zero => exact iff_of_false (Nat.not_lt_zero _) List.not_mem_nil
    | succ n =>
      rw [List.take_succ_cons]
      by_cases hb : b = 0
      · rw [hb]
        exact iff_of_true (Nat.succ_pos n) List.mem_cons_self
      · have hcons : cstr (b :: bs) = b :: cstr bs :=
          List.takeWhile_cons_of_pos (decide_eq_true hb)
        rw [hcons, List.length_cons, Nat.succ_lt_succ_iff, ih (Nat.le_of_succ_le_succ hn),
          List.mem_cons]
        exact (or_iff_right (Ne.symm hb)).symm

/-- A C string ends at the first zero or before it. -/
theorem cstr_append_zero_le (s rest : Bytes) : (cstr (s ++ 0 :: rest)).length ≤ s.length := by
  have hmem : (0 : UInt8) ∈ (s ++ 0 :: rest).take (s.length + 1) := by
    rw [List.take_append, List.take_of_length_le (Nat.le_succ _), Nat.add_sub_cancel_left]
    exact List.mem_append_right _ List.mem_cons_self
  have hlen : s.length + 1 ≤ (s ++ 0 :: rest).length := by
    rw [List.length_append, List.length_cons]
    omega
  exact Nat.le_of_lt_succ ((cstr_length_lt_iff hlen).mpr hmem)

/-! ## Numerals -/

/-- The decimal numeral of a natural number. -/
def decimal (n : Nat) : Bytes := (Nat.toDigits 10 n).map fun c => UInt8.ofNat c.toNat

/-- `std::to_string` of an integer. -/
def toText (i : Int) : Bytes :=
  if i < 0 then 45 :: decimal i.natAbs else decimal i.natAbs

def isDigit (b : UInt8) : Bool := 48 ≤ b && b ≤ 57

/-- `isspace` in the C locale. -/
def isSpace (b : UInt8) : Bool := b = 32 || (9 ≤ b && b ≤ 13)

/-- The number written by the digits at the front of a text, continuing from `acc`. -/
def digitsVal (acc : Nat) : Bytes → Nat
  | [] => acc
  | b :: bs => if isDigit b then digitsVal (10 * acc + (b.toNat - 48)) bs else acc

/-- What `strtol` reads at the front of a text: blanks, a sign, digits; the value saturates at the
ends of the 64-bit `long`. -/
def strtol (bs : Bytes) : Int :=
  let value : Int := match bs.dropWhile isSpace with
    | 45 :: rest => -(digitsVal 0 rest : Int)
    | 43 :: rest => digitsVal 0 rest
    | rest => digitsVal 0 rest
  max (-2 ^ 63) (min value (2 ^ 63 - 1))

/-- `atoi`: `strtol`, converted to `int`. -/
def atoi (bs : Bytes) : Int32 := Int32.ofInt (strtol bs)

theorem toNat_ofNat_digit {c : Char} (hc : c.isDigit) : (UInt8.ofNat c.toNat).toNat = c.toNat := by
  simp only [Char.isDigit, ge_iff_le, Bool.and_eq_true, decide_eq_true_eq] at hc
  have hle : c.toNat ≤ 57 := hc.2
  rw [UInt8.toNat_ofNat']
  omega

theorem isDigit_ofNat {c : Char} (hc : c.isDigit) : isDigit (UInt8.ofNat c.toNat) = true := by
  have hval := toNat_ofNat_digit hc
  simp only [Char.isDigit, ge_iff_le, Bool.and_eq_true, decide_eq_true_eq] at hc
  have hge : 48 ≤ c.toNat := hc.1
  have hle : c.toNat ≤ 57 := hc.2
  simp only [isDigit, Bool.and_eq_true, decide_eq_true_eq, UInt8.le_iff_toNat_le, hval]
  exact ⟨hge, hle⟩

theorem digit_mem_decimal {n : Nat} {b : UInt8} (hb : b ∈ decimal n) : isDigit b = true := by
  obtain ⟨c, hc, rfl⟩ := List.mem_map.mp hb
  exact isDigit_ofNat (Nat.isDigit_of_mem_toDigits (by decide) (by decide) hc)

theorem decimal_ne_nil (n : Nat) : decimal n ≠ [] := by
  simp only [decimal, ne_eq, List.map_eq_nil_iff]
  exact Nat.toDigits_ne_nil

/-- Reading digits back is the library's reading of the characters. -/
theorem digitsVal_map {cs : List Char} (hcs : ∀ c ∈ cs, c.isDigit) (acc : Nat) :
    digitsVal acc (cs.map fun c => UInt8.ofNat c.toNat) = Nat.ofDigitChars 10 cs acc := by
  induction cs generalizing acc with
  | nil => rfl
  | cons c cs ih =>
    have hc := hcs c List.mem_cons_self
    rw [List.map_cons, digitsVal, if_pos (isDigit_ofNat hc), toNat_ofNat_digit hc,
      ih fun c' h' => hcs c' (List.mem_cons_of_mem _ h')]
    rfl

theorem digitsVal_decimal (n : Nat) : digitsVal 0 (decimal n) = n := by
  rw [decimal, digitsVal_map fun c hc => Nat.isDigit_of_mem_toDigits (by decide) (by decide) hc]
  exact Nat.ofDigitChars_ten_toDigits

/-- A byte of a numeral is a digit or the minus sign. -/
theorem mem_toText {i : Int} {b : UInt8} (hb : b ∈ toText i) : b = 45 ∨ isDigit b = true := by
  unfold toText at hb
  split at hb
  · rcases List.mem_cons.mp hb with rfl | hb
    · exact .inl rfl
    · exact .inr (digit_mem_decimal hb)
  · exact .inr (digit_mem_decimal hb)

/-- A byte that is neither a digit nor the minus sign occurs in no numeral. -/
theorem notMem_toText {i : Int} {b : UInt8} (hne : b ≠ 45) (hb : isDigit b = false) :
    b ∉ toText i := by
  intro mem
  rcases mem_toText mem with h | h
  · exact hne h
  · rw [hb] at h
    cases h

theorem toText_ne_nil (i : Int) : toText i ≠ [] := by
  unfold toText
  split
  · exact List.cons_ne_nil _ _
  · exact decimal_ne_nil _

theorem decimal_length {n : Nat} (hn : n < 10 ^ 10) : (decimal n).length ≤ 10 := by
  rw [decimal, List.length_map]
  exact (Nat.length_toDigits_le_iff (by decide) (by decide)).mpr hn

/-- The numeral of an `int` has at most eleven bytes. -/
theorem toText_length (x : Int32) : (toText x.toInt).length ≤ 11 := by
  have hlo := x.le_toInt
  have hhi := x.toInt_lt
  have hlen : (decimal x.toInt.natAbs).length ≤ 10 := decimal_length (by omega)
  unfold toText
  split
  · rw [List.length_cons]
    omega
  · omega

theorem decimal_head (n : Nat) :
    ∃ b bs, decimal n = b :: bs ∧ isDigit b = true := by
  obtain ⟨b, bs, heq⟩ := List.exists_cons_of_ne_nil (decimal_ne_nil n)
  exact ⟨b, bs, heq, digit_mem_decimal (heq ▸ List.mem_cons_self)⟩

theorem isDigit_not_space {b : UInt8} (hb : isDigit b = true) : isSpace b = false := by
  simp only [isDigit, Bool.and_eq_true, decide_eq_true_eq, UInt8.le_iff_toNat_le] at hb
  have hge : 48 ≤ b.toNat := hb.1
  have hne : b ≠ 32 := by
    rintro rfl
    exact absurd hge (by decide)
  simp only [isSpace, hne, decide_false, Bool.false_or, Bool.and_eq_false_iff,
    decide_eq_false_iff_not, UInt8.le_iff_toNat_le]
  refine .inr fun hle => ?_
  have hle' : b.toNat ≤ 13 := hle
  omega

/-- `strtol` reads a numeral it can hold back as its number. -/
theorem strtol_toText {i : Int} (hlo : -2 ^ 63 ≤ i) (hhi : i < 2 ^ 63) : strtol (toText i) = i := by
  unfold toText
  split
  · rename_i hneg
    have hval : (-(digitsVal 0 (decimal i.natAbs) : Int)) = i := by
      rw [digitsVal_decimal]
      omega
    show max (-2 ^ 63) (min (-(digitsVal 0 (decimal i.natAbs) : Int)) (2 ^ 63 - 1)) = i
    rw [hval]
    omega
  · rename_i hpos
    obtain ⟨b, bs, heq, hb⟩ := decimal_head i.natAbs
    have hval : (digitsVal 0 (decimal i.natAbs) : Int) = i := by
      rw [digitsVal_decimal]
      omega
    have hdrop : (decimal i.natAbs).dropWhile isSpace = decimal i.natAbs := by
      rw [heq, List.dropWhile_cons_of_neg (by rw [isDigit_not_space hb]; decide)]
    unfold strtol
    rw [hdrop]
    split
    · rename_i hcons
      rw [heq] at hcons
      cases hcons
      exact absurd hb (by decide)
    · rename_i hcons
      rw [heq] at hcons
      cases hcons
      exact absurd hb (by decide)
    · show max (-2 ^ 63) (min (digitsVal 0 (decimal i.natAbs) : Int) (2 ^ 63 - 1)) = i
      rw [hval]
      omega

/-- **`atoi` undoes `to_string`** on an `int`. -/
theorem atoi_toText (x : Int32) : atoi (toText x.toInt) = x := by
  have hlo := x.le_toInt
  have hhi := x.toInt_lt
  rw [atoi, strtol_toText (by omega) (by omega), Int32.ofInt_toInt]

theorem toText_injective {x y : Int32} (h : toText x.toInt = toText y.toInt) : x = y := by
  rw [← atoi_toText x, h, atoi_toText]

/-! ## Formats -/

/-- An argument of a `printf` call. -/
inductive FmtArg where
  | str (s : Bytes)
  | int (i : Int32)
  deriving DecidableEq

/-- The expansion of a format: `%s` and `%d` take the next argument, `%%` is a percent sign. Any
other use of `%` reads an argument that was not passed, and has no defined result. -/
def expand : Bytes → List FmtArg → Option Bytes
  | [], _ => some []
  | 37 :: 37 :: rest, args => (expand rest args).map (37 :: ·)
  | 37 :: 115 :: rest, .str s :: args => (expand rest args).map (s ++ ·)
  | 37 :: 100 :: rest, .int i :: args => (expand rest args).map (toText i.toInt ++ ·)
  | 37 :: _, _ => none
  | b :: rest, args => (expand rest args).map (b :: ·)

/-- `vsnprintf` into a buffer of `size` bytes: the expansion, cut to leave room for the final
zero. -/
def vsnprintf (size : Nat) (fmt : Bytes) (args : List FmtArg) : Option Bytes :=
  (expand fmt args).map (·.take (size - 1))

/-- A byte other than the percent sign stands for itself. -/
theorem expand_cons {b : UInt8} (hb : b ≠ 37) (rest : Bytes) (args : List FmtArg) :
    expand (b :: rest) args = (expand rest args).map (b :: ·) := by
  rw [expand] <;> intros <;> contradiction

/-- Text without a percent sign stands for itself at the front of a format. -/
theorem expand_append {pre : Bytes} (hpre : (37 : UInt8) ∉ pre) (rest : Bytes)
    (args : List FmtArg) : expand (pre ++ rest) args = (expand rest args).map (pre ++ ·) := by
  induction pre with
  | nil => simp only [List.nil_append, Option.map_id']
  | cons b pre ih =>
    simp only [List.mem_cons, not_or] at hpre
    rw [List.cons_append, expand_cons (Ne.symm hpre.1), ih hpre.2, Option.map_map]
    rfl

/-- Text without a percent sign is its own expansion. -/
theorem expand_eq_self {s : Bytes} (hs : (37 : UInt8) ∉ s) : expand s [] = some s := by
  have h := expand_append hs [] []
  rw [List.append_nil] at h
  rw [h]
  simp only [expand, Option.map_some, List.append_nil]

/-- With no arguments, a percent sign that no second one follows has nothing to read. -/
theorem expand_directive {rest : Bytes} (hrest : rest.head? ≠ some 37) :
    expand (37 :: rest) [] = none := by
  cases rest with
  | nil => rfl
  | cons b rest =>
    have hb : b ≠ 37 := fun h => hrest (by rw [h]; rfl)
    rw [expand]
    · intro rest' h
      exact hb (List.cons.inj h).1
    all_goals
      intro rest' x args h
      cases h

/-- With no arguments, the text in front of a byte that is no percent sign is expanded by itself. -/
theorem expand_append_cons (x : Bytes) {b : UInt8} (hb : b ≠ 37) (rest : Bytes) :
    expand (x ++ b :: rest) [] =
      (expand x []).bind fun text => (expand (b :: rest) []).map (text ++ ·) := by
  match x with
  | [] =>
    simp only [List.nil_append, expand, Option.bind_some, Option.map_id']
  | [c] =>
    by_cases hc : c = 37
    · have hhead : (b :: rest).head? ≠ some 37 := fun h => hb (Option.some.inj h)
      rw [hc, List.cons_append, List.nil_append, expand_directive hhead]
      rfl
    · rw [List.cons_append, expand_cons hc, expand_cons hc, List.nil_append]
      rfl
  | c :: d :: x =>
    by_cases hc : c = 37
    · by_cases hd : d = 37
      · rw [hc, hd, List.cons_append, List.cons_append, expand, expand, expand_append_cons x hb]
        cases expand x [] <;> cases expand (b :: rest) [] <;> rfl
      · have hhead : ∀ y : Bytes, (d :: y).head? ≠ some 37 := fun y h => hd (Option.some.inj h)
        rw [hc, List.cons_append, List.cons_append, expand_directive (hhead _),
          expand_directive (hhead _)]
        rfl
    · rw [List.cons_append, expand_cons hc, expand_cons hc, expand_append_cons (d :: x) hb]
      cases expand (d :: x) [] <;> cases expand (b :: rest) [] <;> rfl

/-- **The first byte of a format without arguments**: there is none, or a percent sign that a second
one follows, or any other byte. -/
theorem expand_eq_some_cases {x text : Bytes} (hx : expand x [] = some text) :
    (x = [] ∧ text = []) ∨
      (∃ rest out, x = 37 :: 37 :: rest ∧ text = 37 :: out ∧ expand rest [] = some out) ∨
      ∃ c rest out, c ≠ 37 ∧ x = c :: rest ∧ text = c :: out ∧ expand rest [] = some out := by
  cases x with
  | nil => exact .inl ⟨rfl, (Option.some.inj hx).symm⟩
  | cons c rest =>
    by_cases hc : c = 37
    · subst hc
      by_cases hhead : rest.head? = some 37
      · obtain ⟨rest, rfl⟩ := List.head?_eq_some_iff.mp hhead
        rw [expand] at hx
        obtain ⟨out, hout, rfl⟩ := Option.map_eq_some_iff.mp hx
        exact .inr (.inl ⟨rest, out, rfl, rfl, hout⟩)
      · rw [expand_directive hhead] at hx
        cases hx
    · rw [expand_cons hc] at hx
      obtain ⟨out, hout, rfl⟩ := Option.map_eq_some_iff.mp hx
      exact .inr (.inr ⟨c, rest, out, hc, rfl, rfl, hout⟩)

/-- An expansion without arguments is no longer than its format. -/
theorem expand_length_le {x text : Bytes} (hx : expand x [] = some text) :
    text.length ≤ x.length := by
  induction hn : x.length using Nat.strong_induction_on generalizing x text with
  | h n ih =>
    rcases expand_eq_some_cases hx with
      ⟨rfl, rfl⟩ | ⟨rest, out, rfl, rfl, hout⟩ | ⟨c, rest, out, -, rfl, rfl, hout⟩
    · exact Nat.zero_le _
    · simp only [List.length_cons] at hn ⊢
      have hle := ih rest.length (by omega) hout rfl
      omega
    · simp only [List.length_cons] at hn ⊢
      have hle := ih rest.length (by omega) hout rfl
      omega

/-- Each percent sign of a format is dropped or stands for two: the expansion is shorter. -/
theorem expand_length_lt {x text : Bytes} (hx : expand x [] = some text) (hmem : (37 : UInt8) ∈ x) :
    text.length < x.length := by
  induction x generalizing text with
  | nil => cases hmem
  | cons b x ih =>
    rcases expand_eq_some_cases hx with
      ⟨hnil, -⟩ | ⟨rest, out, heq, rfl, hout⟩ | ⟨c, rest, out, hc, heq, rfl, hout⟩
    · cases hnil
    · cases heq
      have hle := expand_length_le hout
      simp only [List.length_cons]
      omega
    · cases heq
      have hlt := ih hout ((List.mem_cons.mp hmem).resolve_left (Ne.symm hc))
      simp only [List.length_cons]
      omega

/-! ## Words -/

/-- The words of a line: it is cut at every space, and empty pieces are dropped. -/
def words (bs : Bytes) : List Bytes := (bs.splitOn 32).filter fun w => !w.isEmpty

@[simp] theorem words_nil : words [] = [] := by
  simp [words]

/-- A first word, ended by a space. -/
theorem words_append_space {w : Bytes} (hw : (32 : UInt8) ∉ w) (hne : w ≠ []) (rest : Bytes) :
    words (w ++ 32 :: rest) = w :: words rest := by
  unfold words
  rw [List.splitOn_append_cons_self_of_not_mem hw, List.filter_cons_of_pos]
  simpa only [Bool.not_eq_true', List.isEmpty_eq_false_iff] using hne

/-- A line of one word. -/
theorem words_eq_singleton {w : Bytes} (hw : (32 : UInt8) ∉ w) (hne : w ≠ []) : words w = [w] := by
  unfold words
  rw [List.splitOn_eq_singleton hw, List.filter_cons_of_pos]
  · rfl
  · simpa only [Bool.not_eq_true', List.isEmpty_eq_false_iff] using hne

/-- Words set one space apart. -/
def unwords : List Bytes → Bytes
  | [] => []
  | [w] => w
  | w :: ws => w ++ 32 :: unwords ws

/-- **Words set one space apart are cut into the words they were.** -/
theorem words_unwords {ws : List Bytes} (plain : ∀ w ∈ ws, (32 : UInt8) ∉ w ∧ w ≠ []) :
    words (unwords ws) = ws := by
  fun_induction unwords ws with
  | case1 => exact words_nil
  | case2 w =>
    obtain ⟨hw, hne⟩ := plain w List.mem_cons_self
    exact words_eq_singleton hw hne
  | case3 w ws _ ih =>
    obtain ⟨hw, hne⟩ := plain w List.mem_cons_self
    rw [words_append_space hw hne, ih fun v hv => plain v (List.mem_cons_of_mem _ hv)]

/-- A byte that is no space and in none of the words is not between them. -/
theorem notMem_unwords {b : UInt8} (hb : b ≠ 32) {ws : List Bytes} (hws : ∀ w ∈ ws, b ∉ w) :
    b ∉ unwords ws := by
  fun_induction unwords ws with
  | case1 => exact List.not_mem_nil
  | case2 w => exact hws w List.mem_cons_self
  | case3 w ws _ ih =>
    rw [List.mem_append, List.mem_cons]
    rintro (h | h | h)
    · exact hws w List.mem_cons_self h
    · exact hb h
    · exact ih (fun v hv => hws v (List.mem_cons_of_mem _ hv)) h

/-- The words on the two sides of a space. -/
theorem words_append_cons (a b : Bytes) : words (a ++ 32 :: b) = words a ++ words b := by
  unfold words
  rw [List.splitOn_append_cons_self, List.filter_append]

/-- Words drop the spaces of a line and nothing else. -/
theorem length_flatten_words (bs : Bytes) :
    (words bs).flatten.length + bs.count 32 = bs.length := by
  induction hn : bs.length using Nat.strong_induction_on generalizing bs with
  | _ n ih
  subst hn
  by_cases hspace : (32 : UInt8) ∈ bs
  · obtain ⟨front, back, rfl, hfront⟩ := List.eq_append_cons_of_mem hspace
    have hshorter : back.length < (front ++ 32 :: back).length := by
      rw [List.length_append, List.length_cons]
      omega
    have hback := ih back.length hshorter back rfl
    have hcount := List.count_eq_zero.mpr hfront
    rw [words_append_cons, List.flatten_append, List.length_append, List.count_append, hcount,
      List.count_cons_self, List.length_append, List.length_cons]
    have hword : (words front).flatten.length = front.length := by
      by_cases hne : front = []
      · rw [hne, words_nil]
        rfl
      · rw [words_eq_singleton hfront hne, List.flatten_singleton]
    omega
  · rw [List.count_eq_zero.mpr hspace, Nat.add_zero]
    by_cases hne : bs = []
    · rw [hne, words_nil]
      rfl
    · rw [words_eq_singleton hspace hne, List.flatten_singleton]

end Lib
