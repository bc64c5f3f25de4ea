import Smer.Lib.CText

/-!
# Formats without their arguments

A text that is handed to the `printf` family as its format, with no arguments behind it. A directive
in it is undefined by the standard (`expand` has no result). A machine goes on all the same: the
directive takes the word that it finds where an argument would be. Most directives print that word,
whatever it is. A `%s` or a `%n` follows it as a pointer, which may lead nowhere.

`pieces` cuts a format into bytes that stand for themselves and directives. `Found` is what the
directives of one call find, and `Found.snprintf` the call. It comes back whatever is found exactly
when the format has no directive that follows a pointer (`forall_found_iff`). Where the words come
from, and how a directive prints one, is left open.
-/

namespace Lib

/-! ## Pieces -/

/-- How far a directive has come: its flags, its width, its precision, the length of its argument. -/
inductive DirectivePart where
  | flags
  | width
  | precision
  | length
  deriving DecidableEq

/-- The part that a byte belongs to, where the directive goes on with it. -/
def DirectivePart.next (part : DirectivePart) (b : UInt8) : Option DirectivePart :=
  if part = .flags ∧ b ∈ ascii " #'+-0I" then some .flags
  else if isDigit b ∨ b = 42 then
    match part with
    | .flags | .width => some .width
    | .precision => some .precision
    | .length => none
  else if b = 46 then
    match part with
    | .flags | .width => some .precision
    | .precision | .length => none
  else if b = 36 then if part = .width then some .flags else none
  else if b ∈ ascii "hjlqtzLZ" then some .length
  else none

/-- A byte that stands for itself, or a directive, from behind its percent sign to its
conversion. -/
inductive Piece where
  | byte (b : UInt8)
  | directive (d : Bytes)

/-- The pieces of a format, behind the start of a directive or outside of one. A format that ends
inside a directive leaves it without a conversion. -/
def piecesFrom : Option (DirectivePart × Bytes) → Bytes → List Piece
  | none, [] => []
  | none, b :: rest =>
    if b = 37 then piecesFrom (some (.flags, [])) rest else .byte b :: piecesFrom none rest
  | some (_, d), [] => [.directive d]
  | some (part, d), b :: rest =>
    if d = [] ∧ b = 37 then .byte 37 :: piecesFrom none rest
    else
      match part.next b with
      | some part => piecesFrom (some (part, d ++ [b])) rest
      | none => .directive (d ++ [b]) :: piecesFrom none rest

def pieces (fmt : Bytes) : List Piece := piecesFrom none fmt

/-- A directive follows the word that it finds as a pointer: `%n`, and a `%s` that prints at least a
byte, should there be one. -/
def followsPointer (d : Bytes) : Bool :=
  match d.getLast? with
  | some 110 => true
  | some 115 | some 83 =>
    let precision := d.dropWhile (· ≠ 46)
    precision.isEmpty || precision.any fun b => b = 42 || (49 ≤ b && b ≤ 57)
  | _ => false

def Piece.follows : Piece → Bool
  | .byte _ => false
  | .directive d => followsPointer d

/-- A format has a directive that follows a pointer. -/
def FollowsPointer (fmt : Bytes) : Prop := ∃ p ∈ pieces fmt, p.follows = true

instance (fmt : Bytes) : Decidable (FollowsPointer fmt) :=
  inferInstanceAs (Decidable (∃ p ∈ pieces fmt, p.follows = true))

/-! ## A call -/

/-- What is written for the pieces, when `found k d` is what the `k`-th directive writes. -/
def written (found : Nat → Bytes → Option Bytes) : Nat → List Piece → Option Bytes
  | _, [] => some []
  | k, .byte b :: ps => (written found k ps).map (b :: ·)
  | k, .directive d :: ps =>
    (found k d).bind fun text => (written found (k + 1) ps).map (text ++ ·)

/-- `snprintf` of a format without arguments into a buffer of a given size: the text that it leaves
there, if it comes back. -/
abbrev Snprintf := Nat → Bytes → Option Bytes

/-- `snprintf` as far as the standard defines it. -/
@[reducible] def Snprintf.standard : Snprintf := fun size fmt => vsnprintf size fmt []

/-- What the directives of a call find, each by its place and its text: nothing is written where a
pointer that is followed leads nowhere. -/
structure Found where
  text : Nat → Bytes → Option Bytes
  prints : ∀ k d, followsPointer d = false → (text k d).isSome

namespace Found

/-- `snprintf` on a machine where the directives find this. -/
def snprintf (found : Found) : Snprintf := fun size fmt =>
  (written found.text 0 (pieces fmt)).map (·.take (size - 1))

/-- Every pointer leads nowhere. -/
def unmapped : Found where
  text _ d := if followsPointer d then none else some []
  prints _ d hd := by rw [hd]; rfl

end Found

section Written

variable {found : Nat → Bytes → Option Bytes} {ps : List Piece} {fmt : Bytes} {size : Nat}

theorem written_isSome (all : ∀ k d, Piece.directive d ∈ ps → (found k d).isSome) (k : Nat) :
    (written found k ps).isSome := by
  induction ps generalizing k with
  | nil => rfl
  | cons p ps ih =>
    have hrest := fun k => ih (fun k d hd => all k d (List.mem_cons_of_mem _ hd)) k
    cases p with
    | byte b =>
      rw [written, Option.isSome_map]
      exact hrest k
    | directive d =>
      obtain ⟨text, htext⟩ := Option.isSome_iff_exists.mp (all k d List.mem_cons_self)
      rw [written, htext, Option.bind_some, Option.isSome_map]
      exact hrest (k + 1)

theorem written_eq_none {d : Bytes} (mem : Piece.directive d ∈ ps) (stops : ∀ k, found k d = none)
    (k : Nat) : written found k ps = none := by
  induction ps generalizing k with
  | nil => cases mem
  | cons p ps ih =>
    cases p with
    | byte b =>
      rcases List.mem_cons.mp mem with h | hrest
      · cases h
      · rw [written, ih hrest, Option.map_none]
    | directive d' =>
      rw [written]
      rcases List.mem_cons.mp mem with h | hrest
      · cases h
        rw [stops, Option.bind_none]
      · cases found k d' with
        | none => rfl
        | some text => rw [Option.bind_some, ih hrest, Option.map_none]

/-- Bytes that stand for themselves are written as they are. -/
theorem written_bytes (bytes : Bytes) (k : Nat) :
    written found k (bytes.map Piece.byte) = some bytes := by
  induction bytes with
  | nil => rfl
  | cons b bytes ih => rw [List.map_cons, written, ih, Option.map_some]

/-- **A call comes back, whatever it finds, exactly when it follows no pointer.** -/
theorem forall_found_iff (size : Nat) (fmt : Bytes) :
    (∀ found : Found, (found.snprintf size fmt).isSome) ↔ ¬FollowsPointer fmt := by
  constructor
  · rintro returns ⟨p, mem, hp⟩
    cases p with
    | byte b => cases hp
    | directive d =>
      have hnone : written Found.unmapped.text 0 (pieces fmt) = none :=
        written_eq_none mem (fun _ => if_pos hp) 0
      have hsome := returns .unmapped
      rw [Found.snprintf, hnone] at hsome
      cases hsome
  · intro follows found
    rw [Found.snprintf, Option.isSome_map]
    refine written_isSome (fun k d mem => found.prints k d ?_) 0
    cases hd : followsPointer d with
    | false => rfl
    | true => exact absurd ⟨_, mem, hd⟩ follows

/-- The pieces of a format that the standard defines are its expansion. -/
theorem pieces_eq_of_expand {text : Bytes} (h : expand fmt [] = some text) :
    pieces fmt = text.map Piece.byte := by
  induction hn : fmt.length using Nat.strong_induction_on generalizing fmt text with
  | h n ih =>
    rcases expand_eq_some_cases h with
      ⟨rfl, rfl⟩ | ⟨rest, out, rfl, rfl, hout⟩ | ⟨c, rest, out, hc, rfl, rfl, hout⟩
    · rfl
    · have hlt : rest.length < n := by
        rw [← hn, List.length_cons, List.length_cons]
        omega
      rw [List.map_cons, ← ih _ hlt hout rfl]
      rfl
    · have hlt : rest.length < n := by
        rw [← hn, List.length_cons]
        omega
      rw [List.map_cons, ← ih _ hlt hout rfl, pieces, piecesFrom, if_neg hc, pieces]

/-- **Where the standard defines a call, every machine does what it says.** -/
theorem Found.snprintf_of_standard (found : Found) {text : Bytes}
    (h : Snprintf.standard size fmt = some text) : found.snprintf size fmt = some text := by
  obtain ⟨out, hout, rfl⟩ := Option.map_eq_some_iff.mp h
  rw [Found.snprintf, pieces_eq_of_expand hout, written_bytes, Option.map_some]

end Written

end Lib
