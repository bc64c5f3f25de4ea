import Smer.Lib.CText

/-!
# Single-quoted SQL literals

A literal is read from the byte after its opening quote up to the quote that ends it (`scanLit`).
Two quotes in a row stand for one, and a backslash takes the next byte with it, by the default
rules of MySQL (`escape`).

A program that pastes a text between two quotes means the literal to end at its own closing quote.
It does when the text can be read to its end as the inside of a literal (`decodeBody`): the literal
is then what the text decodes to (`scanLit_append_quote`). `StaysQuoted` says less: a literal that
ends at all ends at the end of the text's own quotes. Text without quote, backslash or percent sign
is its own literal (`decodeBody_eq_self`).
-/

namespace Lib

/-- The bytes that a backslash and the byte after it stand for. -/
def escape (c : UInt8) : Bytes :=
  if c = 48 then [0]          -- `\0`
  else if c = 98 then [8]     -- `\b`
  else if c = 110 then [10]   -- `\n`
  else if c = 114 then [13]   -- `\r`
  else if c = 116 then [9]    -- `\t`
  else if c = 90 then [26]    -- `\Z`
  else if c = 37 || c = 95 then [92, c]  -- `\%` and `\_` keep their backslash
  else [c]

/-- Read a literal from behind its opening quote: its value and the text behind its closing quote.
A literal without a closing quote is none. -/
def scanLit : Bytes → Option (Bytes × Bytes)
  | [] => none
  | 39 :: 39 :: rest => (scanLit rest).map fun out => (39 :: out.1, out.2)
  | 39 :: rest => some ([], rest)
  | [92] => none
  | 92 :: c :: rest => (scanLit rest).map fun out => (escape c ++ out.1, out.2)
  | b :: rest => (scanLit rest).map fun out => (b :: out.1, out.2)

/-- The value of a text that is the whole inside of a literal. -/
def decodeBody : Bytes → Option Bytes
  | [] => some []
  | 39 :: 39 :: rest => (decodeBody rest).map (39 :: ·)
  | 39 :: _ => none
  | [92] => none
  | 92 :: c :: rest => (decodeBody rest).map (escape c ++ ·)
  | b :: rest => (decodeBody rest).map (b :: ·)

/-- A byte that is neither quote nor backslash stands for itself. -/
theorem scanLit_cons {b : UInt8} (hquote : b ≠ 39) (hback : b ≠ 92) (rest : Bytes) :
    scanLit (b :: rest) = (scanLit rest).map fun out => (b :: out.1, out.2) := by
  rw [scanLit] <;> intros <;> contradiction

theorem decodeBody_cons {b : UInt8} (hquote : b ≠ 39) (hback : b ≠ 92) (rest : Bytes) :
    decodeBody (b :: rest) = (decodeBody rest).map (b :: ·) := by
  rw [decodeBody] <;> intros <;> contradiction

/-- A byte that is not the only backslash left and takes no byte with it is no backslash. -/
theorem plain_of_cases {b : UInt8} {x : Bytes} (hlast : b = 92 → x = [] → False)
    (htakes : ∀ c y, b = 92 → x = c :: y → False) : b ≠ 92 := by
  rintro rfl
  cases x with
  | nil => exact hlast rfl rfl
  | cons c y => exact htakes c y rfl rfl

/-- A closing quote that no second quote follows. -/
theorem scanLit_quote {rest : Bytes} (hrest : rest.head? ≠ some 39) :
    scanLit (39 :: rest) = some ([], rest) := by
  cases rest with
  | nil => rfl
  | cons c rest =>
    have hc : c ≠ 39 := fun h => hrest (by rw [h]; rfl)
    rw [scanLit]
    intro rest' h
    exact hc (List.cons.inj h).1

/-- **A text that decodes is the inside of its literal**, whatever follows the closing quote. -/
theorem scanLit_append_quote {x v : Bytes} (hx : decodeBody x = some v) {rest : Bytes}
    (hrest : rest.head? ≠ some 39) : scanLit (x ++ 39 :: rest) = some (v, rest) := by
  induction x using decodeBody.induct generalizing v with
  | case1 =>
    cases hx
    exact scanLit_quote hrest
  | case2 x ih =>
    rw [decodeBody] at hx
    obtain ⟨w, hw, rfl⟩ := Option.map_eq_some_iff.mp hx
    rw [List.cons_append, List.cons_append, scanLit, ih hw, Option.map_some]
  | case3 x hne =>
    rw [decodeBody] at hx
    · cases hx
    · exact hne
  | case4 => cases hx
  | case5 c x ih =>
    rw [decodeBody] at hx
    obtain ⟨w, hw, rfl⟩ := Option.map_eq_some_iff.mp hx
    rw [List.cons_append, List.cons_append, scanLit, ih hw, Option.map_some]
  | case6 b x _ hq hb hbc ih =>
    have hback : b ≠ 92 := plain_of_cases hb hbc
    rw [decodeBody_cons hq hback] at hx
    obtain ⟨w, hw, rfl⟩ := Option.map_eq_some_iff.mp hx
    rw [List.cons_append, scanLit_cons hq hback, ih hw, Option.map_some]

/-- Text without quote and backslash is its own literal. -/
theorem decodeBody_eq_self {x : Bytes} (hquote : (39 : UInt8) ∉ x) (hback : (92 : UInt8) ∉ x) :
    decodeBody x = some x := by
  induction x with
  | nil => rfl
  | cons b x ih =>
    simp only [List.mem_cons, not_or] at hquote hback
    rw [decodeBody_cons (Ne.symm hquote.1) (Ne.symm hback.1), ih hquote.2 hback.2, Option.map_some]

/-- A literal whose text has no quote at all never ends. -/
theorem scanLit_eq_none {x : Bytes} (hquote : (39 : UInt8) ∉ x) : scanLit x = none := by
  fun_induction scanLit x with
  | case1 => rfl
  | case2 x ih => exact absurd List.mem_cons_self hquote
  | case3 x _ => exact absurd List.mem_cons_self hquote
  | case4 => rfl
  | case5 c x ih =>
    simp only [List.mem_cons, not_or] at hquote
    rw [ih hquote.2.2, Option.map_none]
  | case6 b x _ _ _ _ ih =>
    simp only [List.mem_cons, not_or] at hquote
    rw [ih hquote.2, Option.map_none]

/-- A literal that has ended, and that more than its closing quote follows, has ended for every
longer text. -/
theorem scanLit_append {x v rest : Bytes} (hx : scanLit x = some (v, rest)) (hrest : rest ≠ [])
    (y : Bytes) : scanLit (x ++ y) = some (v, rest ++ y) := by
  fun_induction scanLit x generalizing v rest with
  | case1 => cases hx
  | case2 x ih =>
    obtain ⟨⟨w, tail⟩, hw, hout⟩ := Option.map_eq_some_iff.mp hx
    cases hout
    rw [List.cons_append, List.cons_append, scanLit, ih hw hrest, Option.map_some]
  | case3 x hne =>
    cases hx
    obtain ⟨b, x, rfl⟩ := List.exists_cons_of_ne_nil hrest
    have hb : b ≠ 39 := by
      rintro rfl
      exact hne x rfl
    rw [List.cons_append, scanLit_quote]
    intro hhead
    exact hb (Option.some.inj hhead)
  | case4 => cases hx
  | case5 c x ih =>
    obtain ⟨⟨w, tail⟩, hw, hout⟩ := Option.map_eq_some_iff.mp hx
    cases hout
    rw [List.cons_append, List.cons_append, scanLit, ih hw hrest, Option.map_some]
  | case6 b x _ hq hb hbc ih =>
    obtain ⟨⟨w, tail⟩, hw, hout⟩ := Option.map_eq_some_iff.mp hx
    cases hout
    rw [List.cons_append, scanLit_cons hq (plain_of_cases hb hbc), ih hw hrest, Option.map_some]

/-! ## Texts that stay inside their quotes -/

/-- Read as the inside of a literal, the text does not end the literal before its own end. -/
def StaysQuoted (x : Bytes) : Prop := ∀ v rest, scanLit x = some (v, rest) → rest = []

/-- **A text that stays quoted is a literal or makes one that does not end**: it decodes, or the
closing quote behind it is taken for a part of it. -/
theorem StaysQuoted.decodes_or_open {x : Bytes} (hx : StaysQuoted x) :
    (∃ v, decodeBody x = some v) ∨
      decodeBody x = none ∧ ∀ tail, (39 : UInt8) ∉ tail → scanLit (x ++ 39 :: tail) = none := by
  fun_induction decodeBody x with
  | case1 => exact .inl ⟨[], rfl⟩
  | case2 x ih =>
    rcases ih (fun v rest h => hx (39 :: v) rest (by rw [scanLit, h, Option.map_some])) with
      ⟨v, hv⟩ | ⟨hnone, hopen⟩
    · exact .inl ⟨39 :: v, by rw [hv, Option.map_some]⟩
    · refine .inr ⟨by rw [hnone, Option.map_none], fun tail htail => ?_⟩
      rw [List.cons_append, List.cons_append, scanLit, hopen tail htail, Option.map_none]
  | case3 x hne =>
    refine .inr ⟨rfl, fun tail htail => ?_⟩
    cases hx [] x (by rw [scanLit]; exact hne)
    show scanLit (39 :: 39 :: tail) = none
    rw [scanLit, scanLit_eq_none htail, Option.map_none]
  | case4 =>
    refine .inr ⟨rfl, fun tail htail => ?_⟩
    show scanLit (92 :: 39 :: tail) = none
    rw [scanLit, scanLit_eq_none htail, Option.map_none]
  | case5 c x ih =>
    rcases ih (fun v rest h => hx (escape c ++ v) rest (by rw [scanLit, h, Option.map_some])) with
      ⟨v, hv⟩ | ⟨hnone, hopen⟩
    · exact .inl ⟨escape c ++ v, by rw [hv, Option.map_some]⟩
    · refine .inr ⟨by rw [hnone, Option.map_none], fun tail htail => ?_⟩
      rw [List.cons_append, List.cons_append, scanLit, hopen tail htail, Option.map_none]
  | case6 b x _ hq hb hbc ih =>
    have hback : b ≠ 92 := plain_of_cases hb hbc
    rcases ih (fun v rest h => hx (b :: v) rest
      (by rw [scanLit_cons hq hback, h, Option.map_some])) with ⟨v, hv⟩ | ⟨hnone, hopen⟩
    · exact .inl ⟨b :: v, by rw [hv, Option.map_some]⟩
    · refine .inr ⟨by rw [hnone, Option.map_none], fun tail htail => ?_⟩
      rw [List.cons_append, scanLit_cons hq hback, hopen tail htail, Option.map_none]

/-! ## Texts that are their own literals -/

/-- The text has no quote, and a backslash in it stands right before a percent sign or an
underscore. -/
structure SelfQuoted (x : Bytes) : Prop where
  quote : (39 : UInt8) ∉ x
  backslash : ∀ front rest, x = front ++ 92 :: rest → rest.head? = some 37 ∨ rest.head? = some 95

theorem SelfQuoted.tail {b : UInt8} {x : Bytes} (h : SelfQuoted (b :: x)) : SelfQuoted x where
  quote := fun hmem => h.quote (List.mem_cons_of_mem _ hmem)
  backslash := fun front rest hx => h.backslash (b :: front) rest (congrArg (b :: ·) hx)

theorem SelfQuoted.cons {b : UInt8} {x : Bytes} (h : SelfQuoted x) (hquote : b ≠ 39)
    (hback : b = 92 → x.head? = some 37 ∨ x.head? = some 95) : SelfQuoted (b :: x) where
  quote := by
    rw [List.mem_cons, not_or]
    exact ⟨Ne.symm hquote, h.quote⟩
  backslash := by
    intro front rest hx
    cases front with
    | nil =>
      obtain ⟨rfl, rfl⟩ := List.cons.inj hx
      exact hback rfl
    | cons c front => exact h.backslash front rest (List.cons.inj hx).2

theorem escape_cases (c : UInt8) :
    (c = 37 ∨ c = 95) ∧ escape c = [92, c] ∨ ¬ (c = 37 ∨ c = 95) ∧ (escape c).length = 1 := by
  by_cases hc : c = 37 ∨ c = 95
  · refine .inl ⟨hc, ?_⟩
    rcases hc with rfl | rfl <;> rfl
  · refine .inr ⟨hc, ?_⟩
    have hkept : ¬ (c = 37 || c = 95) = true := by
      rw [Bool.or_eq_true, decide_eq_true_iff, decide_eq_true_iff]
      exact hc
    unfold escape
    rw [if_neg hkept]
    split_ifs <;> rfl

/-- A text is not shorter than what it decodes to. -/
theorem decodeBody_length_le {x v : Bytes} (hx : decodeBody x = some v) : v.length ≤ x.length := by
  induction x using decodeBody.induct generalizing v with
  | case1 =>
    cases hx
    exact Nat.le_refl _
  | case2 x ih =>
    rw [decodeBody] at hx
    obtain ⟨w, hw, rfl⟩ := Option.map_eq_some_iff.mp hx
    exact (Nat.succ_le_succ (ih hw)).trans (Nat.le_succ _)
  | case3 x hne =>
    rw [decodeBody] at hx
    · cases hx
    · exact hne
  | case4 => cases hx
  | case5 c x ih =>
    rw [decodeBody] at hx
    obtain ⟨w, hw, rfl⟩ := Option.map_eq_some_iff.mp hx
    have hlen := ih hw
    rw [List.length_append, List.length_cons, List.length_cons]
    rcases escape_cases c with ⟨-, hescape⟩ | ⟨-, hescape⟩
    · rw [hescape, List.length_cons, List.length_singleton]
      omega
    · omega
  | case6 b x _ hq hb hbc ih =>
    rw [decodeBody_cons hq (plain_of_cases hb hbc)] at hx
    obtain ⟨w, hw, rfl⟩ := Option.map_eq_some_iff.mp hx
    exact Nat.succ_le_succ (ih hw)

/-- **A text decodes to itself exactly when it has no quote and no backslash takes a byte away.** -/
theorem decodeBody_eq_self_iff (x : Bytes) : decodeBody x = some x ↔ SelfQuoted x := by
  induction x using decodeBody.induct with
  | case1 =>
    refine iff_of_true rfl ⟨List.not_mem_nil, fun front rest hx => ?_⟩
    cases front <;> cases hx
  | case2 x ih =>
    refine iff_of_false (fun hx => ?_) fun h => h.quote List.mem_cons_self
    rw [decodeBody] at hx
    obtain ⟨w, hw, hout⟩ := Option.map_eq_some_iff.mp hx
    have hlen := decodeBody_length_le hw
    rw [(List.cons.inj hout).2, List.length_cons] at hlen
    omega
  | case3 x hne =>
    refine iff_of_false (fun hx => ?_) fun h => h.quote List.mem_cons_self
    rw [decodeBody] at hx
    · cases hx
    · exact hne
  | case4 =>
    refine iff_of_false (by rintro ⟨⟩) fun h => ?_
    rcases h.backslash [] [] rfl with hhead | hhead <;> cases hhead
  | case5 c x ih =>
    rw [decodeBody]
    rcases escape_cases c with ⟨hc, hescape⟩ | ⟨hc, hescape⟩
    · have hquote : c ≠ 39 := by
        rcases hc with rfl | rfl <;> decide
      have hback : c ≠ 92 := by
        rcases hc with rfl | rfl <;> decide
      constructor
      · intro hx
        obtain ⟨w, hw, hout⟩ := Option.map_eq_some_iff.mp hx
        rw [hescape] at hout
        obtain rfl : w = x := List.append_cancel_left hout
        refine ((ih.mp hw).cons hquote fun h => absurd h hback).cons (by decide) fun _ => ?_
        exact hc.imp (congrArg some) (congrArg some)
      · intro h
        rw [ih.mpr h.tail.tail, Option.map_some, hescape]
        rfl
    · refine iff_of_false (fun hx => ?_) fun h => ?_
      · obtain ⟨w, hw, hout⟩ := Option.map_eq_some_iff.mp hx
        have hlen := decodeBody_length_le hw
        have hcount := congrArg List.length hout
        rw [List.length_append, hescape, List.length_cons, List.length_cons] at hcount
        omega
      · refine hc ?_
        exact (h.backslash [] (c :: x) rfl).imp Option.some.inj Option.some.inj
  | case6 b x _ hq hb hbc ih =>
    have hback : b ≠ 92 := plain_of_cases hb hbc
    rw [decodeBody_cons hq hback]
    constructor
    · intro hx
      obtain ⟨w, hw, hout⟩ := Option.map_eq_some_iff.mp hx
      obtain rfl : w = x := (List.cons.inj hout).2
      exact (ih.mp hw).cons hq fun h => absurd h hback
    · intro h
      rw [ih.mpr h.tail, Option.map_some]

end Lib
