import Mathlib.Data.List.Perm.Basic
import Mathlib.Data.List.Nodup

/-!
# Custody

Parties that each hold at most one item. A party is read through `item`, and `held` collects what
the parties of a list hold. When one party moves on, what is held changes by what that party takes
up or puts down: three rules, one for each way a step can go. Everything is up to the order of the
items, so a statement that an item is in exactly one place is a permutation of lists.
-/

namespace Lib

variable {τ ι : Type} {item : τ → Option ι}

variable (item) in
/-- What the parties hold. -/
def held (parties : List τ) : List ι := parties.filterMap item

theorem mem_held {parties : List τ} {x : ι} :
    x ∈ held item parties ↔ ∃ t ∈ parties, item t = some x := List.mem_filterMap

theorem held_append (parties more : List τ) :
    held item (parties ++ more) = held item parties ++ held item more := List.filterMap_append

/-- A new party that holds nothing changes nothing. -/
theorem held_join {parties : List τ} {t : τ} (empty : item t = none) :
    held item (parties ++ [t]) = held item parties := by
  have hnone : held item [t] = [] := List.filterMap_cons_none empty
  rw [held_append, hnone, List.append_nil]

section Step

variable (item) {parties : List τ} {i : Nat} {t : τ} (at' : parties[i]? = some t)

include at'

/-- One party apart from the others. -/
theorem held_set_perm (t' : τ) :
    (held item (parties.set i t')).Perm ((item t').toList ++ held item (parties.eraseIdx i)) := by
  obtain ⟨hi, -⟩ := List.getElem?_eq_some_iff.mp at'
  refine ((List.set_perm_cons_eraseIdx hi t').filterMap item).trans (.of_eq ?_)
  cases ht : item t' with
  | none => exact List.filterMap_cons_none ht
  | some x => exact List.filterMap_cons_some ht

theorem held_perm : (held item parties).Perm ((item t).toList ++ held item (parties.eraseIdx i)) := by
  have hset := held_set_perm item at' t
  obtain ⟨hi, rfl⟩ := List.getElem?_eq_some_iff.mp at'
  rwa [List.set_getElem_self] at hset

/-- A party with empty hands takes an item up. -/
theorem held_take (t' : τ) {x : ι} (before : item t = none) (after : item t' = some x) :
    (held item (parties.set i t')).Perm (x :: held item parties) := by
  have hrest := held_perm item at'
  have hset := held_set_perm item at' t'
  rw [before] at hrest
  rw [after] at hset
  exact hset.trans (hrest.symm.cons x)

/-- A party puts its item down. -/
theorem held_drop (t' : τ) {x : ι} (before : item t = some x) (after : item t' = none) :
    (held item parties).Perm (x :: held item (parties.set i t')) := by
  have hrest := held_perm item at'
  have hset := held_set_perm item at' t'
  rw [before] at hrest
  rw [after] at hset
  exact hrest.trans (hset.symm.cons x)

/-- A party goes on with what it has. -/
theorem held_keep (t' : τ) (same : item t' = item t) :
    (held item (parties.set i t')).Perm (held item parties) := by
  have hrest := held_perm item at'
  have hset := held_set_perm item at' t'
  rw [same] at hset
  exact hset.trans hrest.symm

open scoped List in
/-- **The exchange rule**: what one party and the places behind it exchange, all parties and these
places exchange. -/
theorem held_exchange (t' : τ) {fresh places places' : List ι}
    (moved : ((item t').toList ++ places').Perm (fresh ++ ((item t).toList ++ places))) :
    (held item (parties.set i t') ++ places').Perm (fresh ++ (held item parties ++ places)) := by
  have hrest := held_perm item at'
  have hset := held_set_perm item at' t'
  calc held item (parties.set i t') ++ places'
    _ ~ (item t').toList ++ held item (parties.eraseIdx i) ++ places' := hset.append_right _
    _ ~ held item (parties.eraseIdx i) ++ ((item t').toList ++ places') := by
      rw [← List.append_assoc]
      exact List.perm_append_comm.append_right _
    _ ~ held item (parties.eraseIdx i) ++ (fresh ++ ((item t).toList ++ places)) :=
      moved.append_left _
    _ ~ fresh ++ ((item t).toList ++ held item (parties.eraseIdx i) ++ places) := by
      rw [List.append_assoc (item t).toList]
      refine List.perm_append_comm_assoc _ _ _ |>.trans (.append_left _ ?_)
      exact List.perm_append_comm_assoc _ _ _
    _ ~ fresh ++ (held item parties ++ places) := (hrest.symm.append_right _).append_left _

end Step

/-- An item that is held once has one holder. -/
theorem held_unique {parties : List τ} (once : (held item parties).Nodup) {i j : Nat} {t u : τ}
    {x : ι} (hi : parties[i]? = some t) (hj : parties[j]? = some u) (ht : item t = some x)
    (hu : item u = some x) : i = j := by
  by_contra hne
  have hrest := (held_perm item hi).nodup once
  rw [ht] at hrest
  have hmem : x ∈ held item (parties.eraseIdx i) :=
    mem_held.mpr ⟨u, List.mem_eraseIdx_iff_getElem?.mpr ⟨j, Ne.symm hne, hj⟩, hu⟩
  exact (List.nodup_cons.mp hrest).1 hmem

/-! ## Counting parties -/

/-- One party moves on, and a count changes by that party. -/
theorem countP_set_add (p : τ → Bool) {parties : List τ} {i : Nat} {t : τ}
    (at' : parties[i]? = some t) (t' : τ) :
    (parties.set i t').countP p + (p t).toNat = parties.countP p + (p t').toNat := by
  obtain ⟨hi, ht⟩ := List.getElem?_eq_some_iff.mp at'
  rw [List.countP_set hi, ht]
  cases hp : p t with
  | false => cases p t' <;> rfl
  | true =>
    have hpos : 0 < parties.countP p := List.countP_pos_iff.mpr ⟨t, List.mem_of_getElem? at', hp⟩
    cases p t' with
    | false => exact Nat.sub_add_cancel hpos
    | true => exact congrArg (· + 1) (Nat.sub_add_cancel hpos)

/-- A count that implies another is no greater. -/
theorem countP_le_of_imp {p q : τ → Bool} (imp : ∀ t, p t = true → q t = true)
    (parties : List τ) : parties.countP p ≤ parties.countP q :=
  List.countP_mono_left fun t _ => imp t

/-- Distinct places with parties of a kind are no more than the parties of that kind. -/
theorem length_le_countP {p : τ → Bool} {parties : List τ} {places : List Nat}
    (once : places.Nodup) (kind : ∀ i ∈ places, (parties[i]?).any p = true) :
    places.length ≤ parties.countP p := by
  have hsubset : places ⊆ (parties.zipIdx.filter fun e => p e.1).map Prod.snd := by
    intro i hi
    obtain ⟨t, ht, hp⟩ := (Option.any_eq_true _ _).mp (kind i hi)
    have hmem : (t, i) ∈ parties.zipIdx := List.mk_mem_zipIdx_iff_getElem?.mpr ht
    exact List.mem_map.mpr ⟨(t, i), List.mem_filter.mpr ⟨hmem, hp⟩, rfl⟩
  have hlength := (List.subperm_of_subset once hsubset).length_le
  rw [List.length_map, ← List.countP_eq_length_filter] at hlength
  have hcount : parties.zipIdx.countP (fun e => p e.1) = parties.countP p := by
    conv_rhs => rw [← List.zipIdx_map_fst 0 parties]
    exact List.countP_map.symm
  exact hcount ▸ hlength

/-! ## Numbered items -/

/-- The items are those numbered below `made`, each once. -/
def Issued (made : Nat) (items : List Nat) : Prop := items.Perm (List.range made)

theorem Issued.nodup {made : Nat} {items : List Nat} (issued : Issued made items) : items.Nodup :=
  issued.symm.nodup List.nodup_range

/-- Moving the items about issues none. -/
theorem Issued.perm {made : Nat} {items items' : List Nat} (issued : Issued made items)
    (moved : items'.Perm items) : Issued made items' := moved.trans issued

/-- The next item is new. -/
theorem Issued.next {made : Nat} {items items' : List Nat} (issued : Issued made items)
    (added : items'.Perm (made :: items)) : Issued (made + 1) items' := by
  unfold Issued
  rw [List.range_succ]
  exact added.trans ((issued.cons made).trans (List.perm_append_singleton made _).symm)

end Lib
