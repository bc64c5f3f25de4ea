import Mathlib.Data.List.Basic

/-!
# The locked list (`Util/inc/ConcList.h`)

A list and, beside it, its size, kept by hand. Every operation holds the list's mutex from its
first line to its last, so an operation is one step. Indices are checked against the kept size and
applied to the list.
-/

namespace Smer

structure ConcList (T : Type) where
  size : Int
  data : List T

namespace ConcList

variable {T : Type}

def empty : ConcList T := ⟨0, []⟩

def pushBack (l : ConcList T) (newValue : T) : ConcList T := ⟨l.size + 1, l.data ++ [newValue]⟩

def pushFront (l : ConcList T) (newValue : T) : ConcList T := ⟨l.size + 1, newValue :: l.data⟩

/-- `pop_back`. On an empty list it waits. -/
def popBack (l : ConcList T) : Option (T × ConcList T) :=
  l.data.getLast?.map fun value => (value, ⟨l.size - 1, l.data.dropLast⟩)

/-- `pop_front`. On an empty list it waits. -/
def popFront (l : ConcList T) : Option (T × ConcList T) :=
  match l.data with
  | [] => none
  | value :: data => some (value, ⟨l.size - 1, data⟩)

/-- `waitPushTillEmpty`. On a list that is not empty it waits. -/
def waitPushTillEmpty (l : ConcList T) (value : T) : Option (ConcList T) :=
  if l.data.isEmpty then some ⟨l.size, l.data ++ [value]⟩ else none

/-- `getAllData`: what `target` has become. -/
def getAllData (l : ConcList T) (target : List T) : List T := target ++ l.data

/-- `ConcList(const ConcList& other)`. It leaves `size` as the memory was. -/
def copy (other : ConcList T) (memory : Int) : ConcList T := ⟨memory, other.data⟩

/-- `erase`. It has no result where the iterator is moved past the last element. -/
def erase (l : ConcList T) (index : Int) : Option (Bool × ConcList T) :=
  if index < 0 ∨ index ≥ l.size then some (false, l)
  else if index.toNat < l.data.length then
    some (true, ⟨l.size - 1, l.data.eraseIdx index.toNat⟩)
  else none

def getSize (l : ConcList T) : Int := l.size

/-- `getOneRequest`. Where the kept size is right, an index below it is an index of the list. -/
def getOneRequest (l : ConcList T) (index : Int) : Option T :=
  if index ≥ 0 ∧ index < l.size then l.data[index.toNat]? else none

/-- The kept size is right. -/
def Sized (l : ConcList T) : Prop := l.size = l.data.length

theorem sized_empty : (empty : ConcList T).Sized := rfl

theorem Sized.pushBack {l : ConcList T} (h : l.Sized) (newValue : T) :
    (l.pushBack newValue).Sized := by
  rw [Sized] at h
  rw [Sized, ConcList.pushBack, h, List.length_append, List.length_singleton]
  rfl

theorem Sized.pushFront {l : ConcList T} (h : l.Sized) (newValue : T) :
    (l.pushFront newValue).Sized := by
  rw [Sized] at h
  rw [Sized, ConcList.pushFront, h, List.length_cons]
  rfl

theorem Sized.popBack {l l' : ConcList T} {value : T} (h : l.Sized)
    (hpop : l.popBack = some (value, l')) : l'.Sized := by
  obtain ⟨last, hlast, hout⟩ := Option.map_eq_some_iff.mp hpop
  cases hout
  have hpos := List.length_pos_of_mem (List.mem_of_getLast? hlast)
  rw [Sized] at h
  show l.size - 1 = (l.data.dropLast.length : Int)
  rw [List.length_dropLast]
  omega

theorem Sized.popFront {l l' : ConcList T} {value : T} (h : l.Sized)
    (hpop : l.popFront = some (value, l')) : l'.Sized := by
  unfold ConcList.popFront at hpop
  split at hpop
  · cases hpop
  · rename_i first data hdata
    cases hpop
    rw [Sized, hdata, List.length_cons] at h
    show l.size - 1 = (data.length : Int)
    omega

/-- A refused index leaves the list as it is. -/
theorem Sized.erase {l l' : ConcList T} {index : Int} {done : Bool} (h : l.Sized)
    (herase : l.erase index = some (done, l')) : l'.Sized := by
  unfold ConcList.erase at herase
  split at herase
  · cases herase
    exact h
  · split at herase
    · rename_i hindex
      cases herase
      rw [Sized] at h
      show l.size - 1 = ((l.data.eraseIdx index.toNat).length : Int)
      rw [List.length_eraseIdx_of_lt hindex]
      omega
    · cases herase

/-- A value that is pushed into the empty list is not counted. -/
theorem Sized.waitPushTillEmpty {l l' : ConcList T} {value : T} (h : l.Sized)
    (hpush : l.waitPushTillEmpty value = some l') : l.data = [] ∧ ¬ l'.Sized := by
  unfold ConcList.waitPushTillEmpty at hpush
  split at hpush
  · rename_i hempty
    cases hpush
    have hdata : l.data = [] := List.isEmpty_iff.mp hempty
    rw [Sized, hdata, List.length_nil] at h
    refine ⟨hdata, ?_⟩
    rw [Sized, h, hdata, List.length_append, List.length_nil, List.length_singleton]
    omega
  · cases hpush

/-- A list that was made by pushing. -/
inductive Built : ConcList T → Prop where
  | empty : Built empty
  | pushBack {l : ConcList T} (built : Built l) (newValue : T) : Built (l.pushBack newValue)

theorem Built.sized {l : ConcList T} (built : l.Built) : l.Sized := by
  induction built with
  | empty => exact sized_empty
  | pushBack _ newValue ih => exact ih.pushBack newValue

/-- An index that the kept size allows has an element. -/
theorem Sized.getOneRequest {l : ConcList T} (h : l.Sized) {index : Int} (hlo : index ≥ 0)
    (hhi : index < l.size) : ∃ v, l.getOneRequest index = some v := by
  rw [Sized] at h
  have hindex : index.toNat < l.data.length := by omega
  exact ⟨l.data[index.toNat], by
    rw [ConcList.getOneRequest, if_pos ⟨hlo, hhi⟩, List.getElem?_eq_getElem hindex]⟩

end ConcList

end Smer
