import Mathlib.Data.List.AList
import Mathlib.Data.List.Perm.Basic

/-!
# Finite maps with a bound

`BoundedMap` is a finite map that never has more entries than its bound. A key that it has, or has
room for, is set; any other is refused.

A program may keep such a map with its deleted keys in place, each leading to nothing. `Represents`
is what such a table (`Tombstones`) has to do with the map it stands for. The table's live keys are
the map's keys (`Represents.live_perm`), and setting and deleting keep the relation.
-/

namespace Lib

/-- A finite map of at most `bound` entries. -/
structure BoundedMap (κ ν : Type) (bound : Nat) where
  entries : AList fun _ : κ => ν
  bounded : entries.keys.length ≤ bound

/-- A table in which a deleted key stays, and leads to nothing. -/
abbrev Tombstones (κ ν : Type) : Type := AList fun _ : κ => Option ν

variable {κ ν : Type} [DecidableEq κ] {bound : Nat}

namespace BoundedMap

variable (m : BoundedMap κ ν bound) {k k' : κ} {v : ν}

def empty : BoundedMap κ ν bound := ⟨∅, Nat.zero_le _⟩

def lookup (k : κ) : Option ν := m.entries.lookup k

def card : Nat := m.entries.keys.length

/-- The key is there, or there is room for it. -/
def Admits (k : κ) : Prop := k ∈ m.entries ∨ m.card < bound

instance (k : κ) : Decidable (m.Admits k) :=
  inferInstanceAs (Decidable (k ∈ m.entries ∨ m.card < bound))

/-- An admitted key leaves the map within its bound. -/
theorem insert_bounded (h : m.Admits k) (v : ν) : (m.entries.insert k v).keys.length ≤ bound := by
  have hbound := m.bounded
  rw [AList.keys_insert, List.length_cons]
  rcases h with hmem | hroom
  · have hkey := AList.mem_keys.mp hmem
    have hpos := List.length_pos_of_mem hkey
    rw [List.length_erase_of_mem hkey]
    omega
  · exact Nat.lt_of_le_of_lt List.length_erase_le hroom

/-- Set a key, and whether it was admitted. -/
def insert (k : κ) (v : ν) : BoundedMap κ ν bound × Bool :=
  if h : m.Admits k then (⟨m.entries.insert k v, m.insert_bounded h v⟩, true) else (m, false)

def erase (k : κ) : BoundedMap κ ν bound :=
  ⟨m.entries.erase k, by
    rw [AList.keys_erase]
    exact Nat.le_trans List.length_erase_le m.bounded⟩

theorem lookup_empty (k : κ) : (empty : BoundedMap κ ν bound).lookup k = none := rfl

variable {m}

theorem insert_of_admits (h : m.Admits k) :
    m.insert k v = (⟨m.entries.insert k v, m.insert_bounded h v⟩, true) := dif_pos h

theorem insert_of_not_admits (h : ¬ m.Admits k) : m.insert k v = (m, false) := dif_neg h

/-- A key is refused when it is not there and there is no room. -/
theorem not_admits_iff : ¬ m.Admits k ↔ m.lookup k = none ∧ bound ≤ m.card := by
  rw [Admits, not_or, Nat.not_lt]
  exact and_congr_left' AList.lookup_eq_none.symm

end BoundedMap

/-! ## Tables with deleted keys -/

namespace Tombstones

/-- The keys that lead to something. -/
def live (t : Tombstones κ ν) : List κ :=
  (t.entries.filter fun entry => entry.2.isSome).map Sigma.fst

/-- The table stands for the map. -/
def Represents (t : Tombstones κ ν) (m : BoundedMap κ ν bound) : Prop :=
  ∀ k, (t.lookup k).join = m.lookup k

variable {t : Tombstones κ ν} {m : BoundedMap κ ν bound} {k : κ} {v : ν}

theorem represents_empty : Represents (∅ : Tombstones κ ν) (.empty : BoundedMap κ ν bound) :=
  fun _ => rfl

/-- A key is live when it leads to something. -/
theorem mem_live : k ∈ live t ↔ (t.lookup k).join.isSome := by
  rw [live, List.mem_map]
  constructor
  · rintro ⟨⟨key, entry⟩, hmem, rfl⟩
    obtain ⟨hentry, hsome⟩ := List.mem_filter.mp hmem
    rw [AList.mem_lookup_iff.mpr hentry]
    exact hsome
  · intro h
    obtain ⟨v, hv⟩ := Option.isSome_iff_exists.mp h
    have hentry : some v ∈ t.lookup k := Option.join_eq_some_iff.mp hv
    exact ⟨⟨k, some v⟩, List.mem_filter.mpr ⟨AList.mem_lookup_iff.mp hentry, rfl⟩, rfl⟩

/-- **The live keys of a table are the keys of its map**, each once. -/
theorem Represents.live_perm (h : Represents t m) : (live t).Perm m.entries.keys := by
  have hnodup : (live t).Nodup :=
    t.keys_nodup.sublist (List.filter_sublist.map Sigma.fst)
  rw [List.perm_ext_iff_of_nodup hnodup m.entries.keys_nodup]
  intro k
  rw [mem_live, h k, BoundedMap.lookup, AList.lookup_isSome, AList.mem_keys]

theorem Represents.card_eq (h : Represents t m) : m.card = (live t).length :=
  h.live_perm.length_eq.symm

/-- Setting an admitted key. -/
theorem Represents.insert (h : Represents t m) (hk : m.Admits k) :
    Represents (t.insert k (some v)) (m.insert k v).1 := by
  intro k'
  rw [BoundedMap.insert_of_admits hk, BoundedMap.lookup]
  by_cases hk' : k' = k
  · rw [hk', AList.lookup_insert, AList.lookup_insert]
    rfl
  · rw [AList.lookup_insert_ne hk', AList.lookup_insert_ne hk', h k']
    rfl

/-- Deleting a key, which stays or was never there. -/
theorem Represents.erase (h : Represents t m) : Represents (t.insert k none) (m.erase k) := by
  intro k'
  rw [BoundedMap.lookup, BoundedMap.erase]
  by_cases hk' : k' = k
  · rw [hk', AList.lookup_insert, AList.lookup_erase]
    rfl
  · rw [AList.lookup_insert_ne hk', AList.lookup_erase_ne hk', h k']
    rfl

/-- Deleting a key that is not in the table. -/
theorem Represents.erase_of_notMem (h : Represents t m) (hk : t.lookup k = none) :
    Represents t (m.erase k) := by
  intro k'
  rw [BoundedMap.lookup, BoundedMap.erase]
  by_cases hk' : k' = k
  · rw [hk', hk, AList.lookup_erase]
    rfl
  · rw [AList.lookup_erase_ne hk', h k']
    rfl

end Tombstones

end Lib
