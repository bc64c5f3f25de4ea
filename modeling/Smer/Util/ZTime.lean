import Smer.Lib.Padded

/-!
# The clock's texts (`Util/inc/ZTime.h`)

Each routine takes the local time in boost's ISO form, `YYYYMMDDTHHMMSS`, and edits the string: it
looks for the `T`, and puts colons or a dash where they belong. Texts that begin with days are in the
order of the days (`ymd_append_lt_iff`).
-/

namespace Smer

open Lib

/-- What `second_clock::local_time` tells. -/
structure LocalTime where
  year : Fin 10000
  month : Fin 13
  day : Fin 32
  hour : Fin 24
  minute : Fin 60
  second : Fin 60
  deriving DecidableEq

namespace LocalTime

/-- The day, as numbers that are compared from the left. -/
def date (t : LocalTime) : List Nat := [t.year, t.month, t.day]

/-- `boost::posix_time::to_iso_string`. -/
def toIsoString (t : LocalTime) : Bytes :=
  padded 4 t.year ++ (padded 2 t.month ++ (padded 2 t.day ++ (ascii "T" ++
    (padded 2 t.hour ++ (padded 2 t.minute ++ padded 2 t.second)))))

end LocalTime

namespace Ztime

/-- `string::find`. -/
def find (s : Bytes) (c : UInt8) : Nat := s.idxOf c

/-- `string::replace`. -/
def replace (s : Bytes) (pos n : Nat) (text : Bytes) : Bytes :=
  s.take pos ++ text ++ s.drop (pos + n)

/-- `'T'`. -/
def dateTimeMark : UInt8 := 84

def getCurTimeWithYmd (now : LocalTime) : Bytes :=
  let strPosixTime := now.toIsoString
  strPosixTime.take (find strPosixTime dateTimeMark)

def getCurTimeWithHms (now : LocalTime) : Bytes :=
  let strPosixTime := now.toIsoString
  let pos := find strPosixTime dateTimeMark
  let strPosixTime := replace strPosixTime (pos + 3) 0 (ascii ":")
  let strPosixTime := replace strPosixTime (pos + 6) 0 (ascii ":")
  strPosixTime.drop (pos + 1)

/-! ## What the edits come to -/

/-- An edit at the end of a first piece. -/
theorem replace_append {s : Bytes} {pos : Nat} (hpos : s.length = pos) (t : Bytes) (n : Nat)
    (text : Bytes) : replace (s ++ t) pos n text = s ++ (text ++ t.drop n) := by
  subst hpos
  rw [replace, List.take_left, List.append_assoc, List.drop_append, List.drop_eq_nil_of_le (by omega),
    List.nil_append, Nat.add_sub_cancel_left]

variable (now : LocalTime)

/-- The digits of the day. -/
def ymd (now : LocalTime) : Bytes := padded 4 now.year ++ (padded 2 now.month ++ padded 2 now.day)

theorem ymd_length : (ymd now).length = 8 := by
  simp only [ymd, List.length_append, padded_length]

theorem toIsoString_eq : now.toIsoString = ymd now ++ (dateTimeMark ::
    (padded 2 now.hour ++ (padded 2 now.minute ++ padded 2 now.second))) := by
  simp only [LocalTime.toIsoString, ymd, List.append_assoc]
  rfl

/-- The `T` is behind the eight digits of the day. -/
theorem find_mark (rest : Bytes) : find (ymd now ++ (dateTimeMark :: rest)) dateTimeMark = 8 := by
  have hday : dateTimeMark ∉ ymd now := by
    intro hmem
    have hdigit : 48 ≤ dateTimeMark.toNat ∧ dateTimeMark.toNat < 58 := by
      simp only [ymd, List.mem_append] at hmem
      rcases hmem with hmem | hmem | hmem
      · exact mem_padded now.year.isLt hmem
      · exact mem_padded (Nat.lt_trans now.month.isLt (by decide)) hmem
      · exact mem_padded (Nat.lt_trans now.day.isLt (by decide)) hmem
    exact absurd hdigit.2 (by decide)
  rw [find, List.idxOf_append_of_notMem hday, List.idxOf_cons_self, ymd_length]

theorem getCurTimeWithYmd_eq : getCurTimeWithYmd now = ymd now := by
  rw [getCurTimeWithYmd, toIsoString_eq, find_mark, List.take_left' (ymd_length now)]

/-- A colon is put between the hours and the minutes, and one behind the minutes. -/
theorem replace_colons {s : Bytes} (hs : s.length = 9) :
    replace (replace (s ++ (padded 2 now.hour ++ (padded 2 now.minute ++ padded 2 now.second)))
        11 0 (ascii ":")) 14 0 (ascii ":") =
      s ++ (padded 2 now.hour ++ (58 :: (padded 2 now.minute ++ (58 :: padded 2 now.second)))) := by
  have hhour : (s ++ padded 2 now.hour).length = 11 := by
    rw [List.length_append, hs, padded_length]
  have hminute : (s ++ padded 2 now.hour ++ (58 :: padded 2 now.minute)).length = 14 := by
    rw [List.length_append, hhour, List.length_cons, padded_length]
  rw [← List.append_assoc, replace_append hhour, List.drop_zero]
  have hassoc : s ++ padded 2 now.hour ++ (ascii ":" ++ (padded 2 now.minute ++
      padded 2 now.second)) = s ++ padded 2 now.hour ++ (58 :: padded 2 now.minute) ++
      padded 2 now.second := by
    simp only [List.append_assoc]
    rfl
  rw [hassoc, replace_append hminute, List.drop_zero]
  simp only [List.append_assoc, List.cons_append]
  rfl

theorem getCurTimeWithHms_eq : getCurTimeWithHms now =
    padded 2 now.hour ++ (58 :: (padded 2 now.minute ++ (58 :: padded 2 now.second))) := by
  have hlen : (ymd now ++ [dateTimeMark]).length = 9 := by
    rw [List.length_append, ymd_length]
    rfl
  rw [getCurTimeWithHms, toIsoString_eq, find_mark, ← List.singleton_append, ← List.append_assoc,
    replace_colons now hlen, List.drop_left' hlen]

/-! ## Order -/

theorem mark_lt_iff (c : UInt8) (s t : Bytes) : c :: s < c :: t ↔ s < t := by
  rw [List.cons_lt_cons_iff]
  simp only [UInt8.lt_irrefl, false_or, true_and]

section Order

variable {t u : LocalTime}

/-- The numbers of a time have two digits, but for the year. -/
theorem fin_lt_hundred {n : Nat} (hn : n ≤ 10 ^ 2) (x : Fin n) : (x : Nat) < 10 ^ 2 :=
  Nat.lt_of_lt_of_le x.isLt hn

/-- Days come first, and are written in their order. -/
theorem ymd_append_lt_iff (s s' : Bytes) :
    ymd t ++ s < ymd u ++ s' ↔ t.date < u.date ∨ t.date = u.date ∧ s < s' := by
  have two : ∀ {n : Nat}, n ≤ 10 ^ 2 → ∀ x : Fin n, (x : Nat) < 10 ^ 2 := fin_lt_hundred
  simp only [ymd, List.append_assoc]
  rw [padded_append_lt_iff t.year.isLt u.year.isLt,
    padded_append_lt_iff (two (by decide) t.month) (two (by decide) u.month),
    padded_append_lt_iff (two (by decide) t.day) (two (by decide) u.day)]
  simp only [LocalTime.date, List.cons_lt_cons_iff, List.cons.injEq, List.not_lt_nil, and_false,
    or_false, and_true, and_or_left, or_assoc, and_assoc]

end Order

end Ztime

end Smer
