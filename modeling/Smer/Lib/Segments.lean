import Mathlib.Data.List.Basic
import Mathlib.Order.Lattice

/-!
# A sorted list in segments

The elements of one key, in their order, are a segment. A list whose keys never fall is its segments
one after the other, in the order of the keys.
-/

namespace Lib

variable {α κ : Type} [LinearOrder κ]

/-- The elements of a key. -/
def segmentOf (key : α → κ) (l : List α) (k : κ) : List α := l.filter fun a => key a = k

/-- The segment of the least key comes first. -/
theorem segmentOf_append_rest {key : α → κ} {l : List α} {k : κ}
    (sorted : l.Pairwise fun a b => key a ≤ key b) (least : ∀ a ∈ l, k ≤ key a) :
    segmentOf key l k ++ l.filter (fun a => key a ≠ k) = l := by
  induction l with
  | nil => rfl
  | cons a l ih =>
    have hrest := ih (List.pairwise_cons.mp sorted).2 fun b hb =>
      least b (List.mem_cons_of_mem _ hb)
    by_cases ha : key a = k
    · have hpos : segmentOf key (a :: l) k = a :: segmentOf key l k :=
        List.filter_cons_of_pos (p := fun b => key b = k) (decide_eq_true ha)
      have hneg : (a :: l).filter (fun b => key b ≠ k) = l.filter fun b => key b ≠ k :=
        List.filter_cons_of_neg (by simpa using ha)
      rw [hpos, hneg, List.cons_append, hrest]
    · have habove : ∀ b ∈ a :: l, key b ≠ k := by
        have hk : k < key a := lt_of_le_of_ne (least a List.mem_cons_self) (Ne.symm ha)
        intro b hb
        rcases List.mem_cons.mp hb with rfl | hb
        · exact ha
        · exact (lt_of_lt_of_le hk ((List.pairwise_cons.mp sorted).1 b hb)).ne'
      have hnone : segmentOf key (a :: l) k = [] :=
        List.filter_eq_nil_iff.mpr fun b hb => by simpa using habove b hb
      have hall : (a :: l).filter (fun b => key b ≠ k) = a :: l :=
        List.filter_eq_self.mpr fun b hb => by simpa using habove b hb
      rw [hnone, hall, List.nil_append]

/-- **A list whose keys never fall is its segments in the order of the keys.** -/
theorem flatMap_segmentOf {key : α → κ} {keys : List κ} {l : List α}
    (increasing : keys.Pairwise (· < ·)) (sorted : l.Pairwise fun a b => key a ≤ key b)
    (covers : ∀ a ∈ l, key a ∈ keys) : keys.flatMap (segmentOf key l) = l := by
  induction keys generalizing l with
  | nil =>
    cases l with
    | nil => rfl
    | cons a l => exact absurd (covers a List.mem_cons_self) List.not_mem_nil
  | cons k keys ih =>
    obtain ⟨hleast, hrest⟩ := List.pairwise_cons.mp increasing
    have least : ∀ a ∈ l, k ≤ key a := fun a ha => by
      rcases List.mem_cons.mp (covers a ha) with heq | hmem
      · exact heq.ge
      · exact (hleast _ hmem).le
    have others : keys.flatMap (segmentOf key (l.filter fun a => key a ≠ k)) =
        l.filter fun a => key a ≠ k := by
      refine ih hrest (sorted.filter _) fun a ha => ?_
      obtain ⟨hmem, hne⟩ := List.mem_filter.mp ha
      exact (List.mem_cons.mp (covers a hmem)).resolve_left (of_decide_eq_true hne)
    have hsame : ∀ k' ∈ keys, segmentOf key (l.filter fun a => key a ≠ k) k' = segmentOf key l k' := by
      intro k' hk'
      rw [segmentOf, List.filter_filter]
      refine List.filter_congr fun a _ => ?_
      rw [← Bool.decide_and]
      refine decide_eq_decide.mpr ⟨And.left, fun heq => ⟨heq, ?_⟩⟩
      rw [heq]
      exact (hleast k' hk').ne'
    rw [List.flatMap_cons, ← List.flatMap_congr hsame, others]
    exact segmentOf_append_rest sorted least

end Lib
