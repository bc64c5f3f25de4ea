import Smer.Redis.RedisPool

/-!
# Array replies and scalar replies

`ExecuteCmd_spop` converts a reply that comes alone and an element of an array reply in two places.
The callers count on one string for each element, the same as for the reply alone.

The first place takes `len` bytes of a string and an empty string for nil (`convertReply_scalar`).
The second builds the string from the character pointer alone. It stops at the first zero byte, and
for nil there is no pointer to build it from. So the two agree on an array exactly when no element
is nil and no string in it has a zero byte (`array_agrees_iff`).

The law is about every reply that the protocol has; which of them Redis sends to which command is
not established here.
-/

namespace Smer

open Lib KGRedisClient

/-- A reply that is no array and no error. -/
inductive ScalarReply where
  | integer (value : Int)
  | string (str : Bytes)
  | status (str : Bytes)
  | nil

namespace ScalarReply

def toReply : ScalarReply → RedisReply
  | integer value => .integer value
  | string str => .string str
  | status str => .status str
  | nil => .nil

/-- The string that the reply stands for. -/
def text : ScalarReply → Bytes
  | integer value => toText value
  | string str => str
  | status str => str
  | nil => []

/-- The replies that the second conversion keeps: a number, or a text without a zero byte. -/
def Plain : ScalarReply → Prop
  | integer _ => True
  | string str => 0 ∉ str
  | status str => 0 ∉ str
  | nil => False

/-- Alone, a reply adds the string that it stands for. -/
theorem convertReply_scalar (response : List Bytes) (e : ScalarReply) :
    convertReply response e.toReply = some (true, response ++ [e.text]) := by
  cases e <;> rfl

/-- As an element of an array a reply becomes its string exactly when it is plain. -/
theorem elementText_eq_text_iff (e : ScalarReply) :
    elementText e.toReply = some e.text ↔ e.Plain := by
  have hcstr : ∀ str : Bytes, some (cstr str) = some str ↔ 0 ∉ str := by
    intro str
    rw [Option.some_inj]
    constructor
    · intro h
      rw [← h]
      exact zero_notMem_cstr str
    · exact cstr_eq_self
  cases e with
  | integer value => exact iff_of_true rfl trivial
  | string str => exact hcstr str
  | status str => exact hcstr str
  | nil =>
    refine iff_of_false ?_ id
    intro h
    cases h

end ScalarReply

open ScalarReply

/-- The array adds one string for each element, in order, that the element alone would add. -/
def ArrayAgrees (response : List Bytes) (elements : List ScalarReply) : Prop :=
  ∃ texts, convertReply response (.array (elements.map toReply)) = some (true, response ++ texts) ∧
    List.Forall₂ (fun e text => ∀ earlier,
      convertReply earlier e.toReply = some (true, earlier ++ [text])) elements texts

/-- A reply that comes alone adds its string and no other. -/
theorem convertReply_scalar_iff (e : ScalarReply) (text : Bytes) :
    (∀ earlier, convertReply earlier e.toReply = some (true, earlier ++ [text])) ↔
      text = e.text := by
  constructor
  · intro h
    have hsame := (convertReply_scalar [] e).symm.trans (h [])
    simpa using hsame.symm
  · rintro rfl earlier
    exact convertReply_scalar earlier e

/-- The strings that the elements alone would add are theirs. -/
theorem forall₂_scalar_iff (elements : List ScalarReply) (texts : List Bytes) :
    List.Forall₂ (fun e text => ∀ earlier,
      convertReply earlier e.toReply = some (true, earlier ++ [text])) elements texts ↔
      texts = elements.map text := by
  simp only [convertReply_scalar_iff]
  induction elements generalizing texts with
  | nil => rw [List.forall₂_nil_left_iff, List.map_nil]
  | cons e elements ih =>
    simp only [List.forall₂_cons_left_iff, ih, List.map_cons]
    constructor
    · rintro ⟨_, _, rfl, rfl, rfl⟩
      rfl
    · intro h
      exact ⟨_, _, rfl, rfl, h⟩

/-- **An array agrees with its elements exactly when each of them is plain.** -/
theorem array_agrees_iff (response : List Bytes) (elements : List ScalarReply) :
    ArrayAgrees response elements ↔ ∀ e ∈ elements, e.Plain := by
  have hconvert : ∀ texts,
      convertReply response (.array (elements.map toReply)) = some (true, response ++ texts) ↔
        (elements.map toReply).mapM elementText = some texts := by
    intro texts
    rw [convertReply_eq, respond, Option.map_map]
    cases (elements.map toReply).mapM elementText <;> simp
  have hagrees : ArrayAgrees response elements ↔
      (elements.map toReply).mapM elementText = some (elements.map text) := by
    simp only [ArrayAgrees, hconvert, forall₂_scalar_iff]
    exact exists_eq_right
  rw [hagrees, mapM_elementText_iff, List.forall₂_map_left_iff, List.forall₂_map_right_iff,
    List.forall₂_same]
  exact forall₂_congr fun e _ => elementText_eq_text_iff e

/-- A field of an array with a zero byte is cut there. -/
theorem not_array_agrees :
    ¬∀ (response : List Bytes) (elements : List ScalarReply), ArrayAgrees response elements := by
  intro h
  obtain ⟨texts, hconvert, halone⟩ := h [] [.string [97, 0, 98]]
  have hcut : convertReply [] (.array [.string [97, 0, 98]]) = some (true, [[97]]) := rfl
  have htexts : texts = [[97]] := by
    have hsame := hcut.symm.trans hconvert
    simpa using hsame.symm
  have hwhole := (forall₂_scalar_iff _ _).mp halone
  rw [htexts] at hwhole
  cases hwhole

end Smer
