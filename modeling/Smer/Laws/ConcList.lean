import Mathlib.Algebra.Group.Int.Defs
import Mathlib.Algebra.Group.Nat.Defs
import Smer.Util.ConcList

/-!
# The size that is kept by hand

The indices of `erase` and `getOneRequest` are checked against `size` and applied to the list, so
they are right while `size` is the list's length (`Faithful`). The constructor and six of the
operations keep it so. `waitPushTillEmpty` pushes without counting, and the copy constructor copies
the list and not the size.

So every state of a sequence of operations is faithful exactly when the sequence completes no
`waitPushTillEmpty`, and finds the length in the memory of every copy (`faithful_iff`).

The source's `size` is an `int`, and here it is a number. In a sequence that counts, of fewer than
`2 ^ 31` operations, it is the value of an `int` all along; nothing is said of longer ones, which
would need a list of that many elements to leave the `int`'s range.
-/

namespace Smer

/-- The operations that change the list or go on with a copy of it, and those that read all of
it. -/
inductive ListOp (T : Type) where
  | pushBack (newValue : T)
  | pushFront (newValue : T)
  | popBack
  | popFront
  | erase (index : Int)
  | waitPushTillEmpty (value : T)
  | getAllData (target : List T)
  /-- the copy, made where the memory held this size -/
  | copy (memory : Int)

namespace ConcList

variable {T : Type}

/-- What an operation leaves, if it completes. -/
def step (l : ConcList T) : ListOp T → Option (ConcList T)
  | .pushBack newValue => some (l.pushBack newValue)
  | .pushFront newValue => some (l.pushFront newValue)
  | .popBack => l.popBack.map Prod.snd
  | .popFront => l.popFront.map Prod.snd
  | .erase index => (l.erase index).map Prod.snd
  | .waitPushTillEmpty value => l.waitPushTillEmpty value
  | .getAllData _ => some l
  | .copy memory => some (l.copy memory)

/-- The size is the length, and an index means the element at it. -/
structure Faithful (l : ConcList T) : Prop where
  size : l.getSize = l.data.length
  /-- `getOneRequest` succeeds within the list, and answers the element -/
  getOneRequest : ∀ index v, l.getOneRequest index = some v ↔
    0 ≤ index ∧ l.data[index.toNat]? = some v
  /-- `erase` succeeds within the list, and takes the element out -/
  erase : ∀ index : Int, 0 ≤ index → index < l.data.length →
    ∃ l', l.erase index = some (true, l') ∧ l'.data = l.data.eraseIdx index.toNat
  erase_outside : ∀ index : Int, index < 0 ∨ l.data.length ≤ index → l.erase index = some (false, l)
  /-- an index that passes the check does not move the iterator past the last element -/
  advance : ∀ index : Int, 0 ≤ index → index < l.size → index.toNat < l.data.length

/-- Every state of a sequence is faithful. The sequence ends at an operation that waits. -/
def AllFaithful : ConcList T → List (ListOp T) → Prop
  | l, [] => l.Faithful
  | l, op :: ops => l.Faithful ∧
      match l.step op with
      | none => True
      | some l' => AllFaithful l' ops

/-- An operation that counts: no `waitPushTillEmpty` that completes, and no copy whose memory does
not hold the length. -/
def Counts (l : ConcList T) : ListOp T → Prop
  | .waitPushTillEmpty _ => l.data ≠ []
  | .copy memory => memory = l.data.length
  | _ => True

/-- Every operation of a sequence counts, as far as the sequence comes: one that waits ends it. -/
def AllCount : ConcList T → List (ListOp T) → Prop
  | _, [] => True
  | l, op :: ops => l.Counts op ∧
      match l.step op with
      | none => True
      | some l' => AllCount l' ops

/-- In every state of a sequence the size is the value of an `int`. -/
def AllFit : ConcList T → List (ListOp T) → Prop
  | l, [] => l.size < 2 ^ 31 ∧ -2 ^ 31 ≤ l.size
  | l, op :: ops => (l.size < 2 ^ 31 ∧ -2 ^ 31 ≤ l.size) ∧
      match l.step op with
      | none => True
      | some l' => AllFit l' ops

section Sized

variable {l l' : ConcList T} {op : ListOp T}

/-- Where the kept size is right, the operations with an index are right. -/
theorem Sized.faithful (h : l.Sized) : l.Faithful where
  size := h
  getOneRequest := by
    intro index v
    rw [Sized] at h
    rw [ConcList.getOneRequest]
    split
    · rename_i hindex
      exact (and_iff_right hindex.1).symm
    · rename_i hindex
      refine iff_of_false (by rintro ⟨⟩) ?_
      rintro ⟨hlo, hv⟩
      obtain ⟨hlt, -⟩ := List.getElem?_eq_some_iff.mp hv
      exact hindex ⟨hlo, by omega⟩
  erase := by
    intro index hlo hhi
    rw [Sized] at h
    refine ⟨⟨l.size - 1, l.data.eraseIdx index.toNat⟩, ?_, rfl⟩
    rw [ConcList.erase, if_neg (by omega), if_pos (by omega)]
  erase_outside := by
    intro index hindex
    rw [Sized] at h
    rw [ConcList.erase, if_pos (by omega)]
  advance := by
    intro index hlo hhi
    rw [Sized] at h
    omega

/-- An operation that counts keeps the kept size right, and any other makes it wrong. -/
theorem Sized.step_iff (h : l.Sized) (hstep : l.step op = some l') : l'.Sized ↔ l.Counts op := by
  cases op with
  | pushBack newValue =>
    cases hstep
    exact iff_of_true (h.pushBack newValue) trivial
  | pushFront newValue =>
    cases hstep
    exact iff_of_true (h.pushFront newValue) trivial
  | popBack =>
    obtain ⟨⟨value, rest⟩, hpop, rfl⟩ := Option.map_eq_some_iff.mp hstep
    exact iff_of_true (h.popBack hpop) trivial
  | popFront =>
    obtain ⟨⟨value, rest⟩, hpop, rfl⟩ := Option.map_eq_some_iff.mp hstep
    exact iff_of_true (h.popFront hpop) trivial
  | erase index =>
    obtain ⟨⟨done, rest⟩, herase, rfl⟩ := Option.map_eq_some_iff.mp hstep
    exact iff_of_true (h.erase herase) trivial
  | waitPushTillEmpty value =>
    obtain ⟨hdata, hwrong⟩ := h.waitPushTillEmpty hstep
    exact iff_of_false hwrong fun hcounts => hcounts hdata
  | getAllData target =>
    cases hstep
    exact iff_of_true h trivial
  | copy memory =>
    cases hstep
    exact Iff.rfl

/-- A sequence of operations from a list whose size is right. -/
theorem Sized.allFaithful_iff (h : l.Sized) (ops : List (ListOp T)) :
    l.AllFaithful ops ↔ l.AllCount ops := by
  induction ops generalizing l with
  | nil => exact iff_of_true h.faithful trivial
  | cons op ops ih =>
    rw [AllFaithful, AllCount, and_iff_right h.faithful]
    cases hstep : l.step op with
    | none =>
      refine iff_of_true trivial ⟨?_, trivial⟩
      cases op with
      | waitPushTillEmpty value =>
        intro hdata
        rw [step, ConcList.waitPushTillEmpty, hdata] at hstep
        cases hstep
      | copy memory => cases hstep
      | _ => trivial
    | some l' =>
      have hsized := h.step_iff hstep
      constructor
      · intro hrest
        have hfaithful : l'.Faithful := by
          cases ops with
          | nil => exact hrest
          | cons => exact hrest.1
        exact ⟨hsized.mp hfaithful.size, (ih hfaithful.size).mp hrest⟩
      · rintro ⟨hcounts, hrest⟩
        exact (ih (hsized.mpr hcounts)).mpr hrest

/-- An operation adds one element at most. -/
theorem length_step_le (hstep : l.step op = some l') : l'.data.length ≤ l.data.length + 1 := by
  cases op with
  | pushBack newValue =>
    cases hstep
    exact Nat.le_of_eq List.length_append
  | pushFront newValue =>
    cases hstep
    exact Nat.le_refl _
  | popBack =>
    obtain ⟨⟨value, rest⟩, hpop, rfl⟩ := Option.map_eq_some_iff.mp hstep
    obtain ⟨last, -, hout⟩ := Option.map_eq_some_iff.mp hpop
    cases hout
    show l.data.dropLast.length ≤ _
    rw [List.length_dropLast]
    omega
  | popFront =>
    obtain ⟨⟨value, rest⟩, hpop, rfl⟩ := Option.map_eq_some_iff.mp hstep
    unfold ConcList.popFront at hpop
    split at hpop
    · cases hpop
    · rename_i first data hdata
      cases hpop
      rw [hdata, List.length_cons]
      exact Nat.le_add_right _ 2
  | erase index =>
    obtain ⟨⟨done, rest⟩, herase, rfl⟩ := Option.map_eq_some_iff.mp hstep
    unfold ConcList.erase at herase
    split at herase
    · cases herase
      exact Nat.le_succ _
    · split at herase
      · cases herase
        exact Nat.le_succ_of_le (List.length_eraseIdx_le _ _)
      · cases herase
  | waitPushTillEmpty value =>
    rw [step, ConcList.waitPushTillEmpty, Option.ite_none_right_eq_some] at hstep
    cases hstep.2
    exact Nat.le_of_eq List.length_append
  | getAllData target =>
    cases hstep
    exact Nat.le_succ _
  | copy memory =>
    cases hstep
    exact Nat.le_succ _

/-- In a sequence that counts, the size is that of a list which has grown by one element for each
operation at most. -/
theorem Sized.allFit (h : l.Sized) (ops : List (ListOp T)) (counts : l.AllCount ops)
    (hfew : l.data.length + ops.length < 2 ^ 31) : l.AllFit ops := by
  induction ops generalizing l with
  | nil =>
    rw [Sized] at h
    rw [List.length_nil] at hfew
    exact ⟨by omega, by omega⟩
  | cons op ops ih =>
    obtain ⟨hcounts, hrest⟩ := counts
    have hsize := h
    rw [Sized] at hsize
    rw [List.length_cons] at hfew
    refine ⟨⟨by omega, by omega⟩, ?_⟩
    cases hstep : l.step op with
    | none => trivial
    | some l' =>
      rw [hstep] at hrest
      have hlength := length_step_le hstep
      exact ih ((h.step_iff hstep).mpr hcounts) hrest (by omega)

end Sized

/-- **Every state of a sequence of operations on a new list is faithful exactly when each operation
counts**, and then the size stays within an `int` for fewer than `2 ^ 31` operations. -/
theorem faithful_iff (ops : List (ListOp T)) :
    ((empty : ConcList T).AllFaithful ops ↔ (empty : ConcList T).AllCount ops) ∧
      ((empty : ConcList T).AllCount ops → ops.length < 2 ^ 31 →
        (empty : ConcList T).AllFit ops) := by
  refine ⟨sized_empty.allFaithful_iff ops, fun counts hfew => sized_empty.allFit ops counts ?_⟩
  show 0 + ops.length < 2 ^ 31
  omega

/-- A value that was pushed into the empty list is not counted. -/
theorem not_faithful : ¬ ∀ ops : List (ListOp Nat), (empty : ConcList Nat).AllFaithful ops := by
  intro claim
  obtain ⟨-, hpushed⟩ := claim [.waitPushTillEmpty 7]
  have hsize := hpushed.size
  revert hsize
  decide

end ConcList

end Smer
