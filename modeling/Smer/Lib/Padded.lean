import Smer.Lib.CText

/-!
# Numerals of fixed width

A number below `10 ^ w` written with exactly `w` digits, zeros in front. Texts of such numerals are
ordered, byte by byte, as the numbers are (`padded_append_lt_iff`), which is what dates and times
are written so for.
-/

namespace Lib

/-- The last `w` digits of a number below `10 ^ w`. -/
def padded : Nat → Nat → Bytes
  | 0, _ => []
  | w + 1, n => UInt8.ofNat (48 + n / 10 ^ w) :: padded w (n % 10 ^ w)

theorem padded_length (w n : Nat) : (padded w n).length = w := by
  induction w generalizing n with
  | zero => rfl
  | succ w ih => rw [padded, List.length_cons, ih]

/-- Digits are ordered as their codes. -/
theorem digitCode_lt_iff {a b : Nat} (ha : a < 10) (hb : b < 10) :
    UInt8.ofNat (48 + a) < UInt8.ofNat (48 + b) ↔ a < b := by
  rw [UInt8.lt_iff_toNat_lt, UInt8.toNat_ofNat', UInt8.toNat_ofNat',
    Nat.mod_eq_of_lt (by omega), Nat.mod_eq_of_lt (by omega)]
  omega

theorem digitCode_inj {a b : Nat} (ha : a < 10) (hb : b < 10) :
    UInt8.ofNat (48 + a) = UInt8.ofNat (48 + b) ↔ a = b := by
  rw [← UInt8.toNat_inj, UInt8.toNat_ofNat', UInt8.toNat_ofNat', Nat.mod_eq_of_lt (by omega),
    Nat.mod_eq_of_lt (by omega)]
  omega

/-- **Texts that start with numerals of one width are ordered by the numbers first.** -/
theorem padded_append_lt_iff {w m n : Nat} (hm : m < 10 ^ w) (hn : n < 10 ^ w) (s t : Bytes) :
    padded w m ++ s < padded w n ++ t ↔ m < n ∨ m = n ∧ s < t := by
  induction w generalizing m n with
  | zero =>
    rw [pow_zero, Nat.lt_one_iff] at hm hn
    rw [hm, hn, padded, List.nil_append, List.nil_append]
    simp only [Nat.lt_irrefl, false_or, true_and]
  | succ w ih =>
    have hpos : 0 < 10 ^ w := Nat.pow_pos (by decide)
    have hmq : m / 10 ^ w < 10 := Nat.div_lt_of_lt_mul (by rw [← pow_succ]; exact hm)
    have hnq : n / 10 ^ w < 10 := Nat.div_lt_of_lt_mul (by rw [← pow_succ]; exact hn)
    have hmsplit := Nat.div_add_mod m (10 ^ w)
    have hnsplit := Nat.div_add_mod n (10 ^ w)
    have hmr := Nat.mod_lt m hpos
    have hnr := Nat.mod_lt n hpos
    rw [padded, padded, List.cons_append, List.cons_append, List.cons_lt_cons_iff,
      digitCode_lt_iff hmq hnq, digitCode_inj hmq hnq, ih hmr hnr]
    constructor
    · rintro (hlt | ⟨heq, hlt | ⟨heq', hst⟩⟩)
      · refine .inl ?_
        have := Nat.mul_le_mul_left (10 ^ w) (Nat.succ_le_of_lt hlt)
        rw [Nat.mul_succ] at this
        omega
      · refine .inl ?_
        rw [heq] at hmsplit
        omega
      · refine .inr ⟨?_, hst⟩
        rw [heq, heq'] at hmsplit
        omega
    · rintro (hlt | ⟨rfl, hst⟩)
      · rcases Nat.lt_or_ge (m / 10 ^ w) (n / 10 ^ w) with hq | hq
        · exact .inl hq
        · have hle : m / 10 ^ w ≤ n / 10 ^ w := Nat.div_le_div_right (Nat.le_of_lt hlt)
          have heq : m / 10 ^ w = n / 10 ^ w := Nat.le_antisymm hle hq
          refine .inr ⟨heq, .inl ?_⟩
          rw [heq] at hmsplit
          omega
      · exact .inr ⟨rfl, .inr ⟨rfl, hst⟩⟩

/-- No byte of a numeral but a digit. -/
theorem mem_padded {w n : Nat} (hn : n < 10 ^ w) {b : UInt8} (hb : b ∈ padded w n) :
    48 ≤ b.toNat ∧ b.toNat < 58 := by
  induction w generalizing n with
  | zero => cases hb
  | succ w ih =>
    have hpos : 0 < 10 ^ w := Nat.pow_pos (by decide)
    have hq : n / 10 ^ w < 10 := Nat.div_lt_of_lt_mul (by rw [← pow_succ]; exact hn)
    rcases List.mem_cons.mp hb with rfl | hb
    · generalize n / 10 ^ w = d at hq
      rw [UInt8.toNat_ofNat', Nat.mod_eq_of_lt (by omega)]
      omega
    · exact ih (Nat.mod_lt n hpos) hb

end Lib
