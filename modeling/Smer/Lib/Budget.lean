import Smer.Lib.Handover
import Smer.Lib.Run
import Mathlib.Algebra.GroupWithZero.Nat

/-!
# Programs of bounded length

`Prog.Within` bounds the operations that a program performs on any path, and is proved along the
program, one rule for each way to go on. Of programs that hand objects over, each operation uses up
some of what is left (`Handover.Remains`), and so does each reference that the consumer takes. So
programs that are left alone come to rest.
-/

namespace Lib

/-! ## One program -/

namespace Prog

variable {Op : Type} {Ans : Op → Type} {α β : Type} {m n : Nat}

/-- On every path the program performs at most `n` operations. -/
inductive Within : Nat → Prog Op Ans α → Prop where
  | pure (n : Nat) (a : α) : Within n (.pure a)
  | vis {n : Nat} {o : Op} {k : Ans o → Prog Op Ans α} :
      (∀ r, Within n (k r)) → Within (n + 1) (.vis o k)

theorem Within.mono {p : Prog Op Ans α} (within : p.Within m) (hmn : m ≤ n) : p.Within n := by
  induction within generalizing n with
  | pure m a => exact .pure n a
  | vis _ ih =>
    obtain ⟨n, rfl⟩ := Nat.exists_eq_add_of_le' (Nat.le_trans (Nat.le_add_left 1 _) hmn)
    exact .vis fun r => ih r (Nat.le_of_add_le_add_right hmn)

theorem Within.bind {p : Prog Op Ans α} {f : α → Prog Op Ans β} (first : p.Within m)
    (rest : ∀ a, (f a).Within n) : (p >>= f).Within (n + m) := by
  induction first with
  | pure m a => exact (rest a).mono (Nat.le_add_right n m)
  | vis _ ih => exact .vis ih

end Prog

namespace CellProg

variable {Op V α β : Type} {Ans : Op → Type} {m n : Nat}

theorem within_lift_bind {p : Prog Op Ans α} {f : α → CellProg Op Ans V β} (first : p.Within m)
    (rest : ∀ a, (f a).Within n) : (lift p >>= f).Within (n + m) := by
  induction first with
  | pure m a => exact (rest a).mono (Nat.le_add_right n m)
  | vis _ ih => exact .vis ih

theorem within_lift {p : Prog Op Ans α} (first : p.Within n) :
    (lift p : CellProg Op Ans V α).Within n := by
  induction first with
  | pure n a => exact .pure n a
  | vis _ ih => exact .vis ih

theorem within_load_bind {f : V → CellProg Op Ans V β} (rest : ∀ v, (f v).Within n) :
    (load >>= f).Within (n + 1) := .vis rest

theorem within_update_bind {g : V → V} {f : Unit → CellProg Op Ans V β}
    (rest : (f ()).Within n) : (update g >>= f).Within (n + 2) := .vis fun _ => .vis fun _ => rest

theorem within_push (n : Nat) : (push : CellProg Op Ans V Unit).Within (n + 1) :=
  .vis fun _ => .pure n ()

end CellProg

/-! ## Programs at work -/

section Lower

variable {α : Type} {R : α → Nat → Prop}

/-- Where one element can do with less, the sum is less. -/
theorem forall₂_lowered {l : List α} {ns : List Nat} (each : List.Forall₂ R l ns) {i : Nat}
    {a a' : α} (hi : l[i]? = some a) (lower : ∀ n, R a n → ∃ n', n' < n ∧ R a' n') :
    ∃ ns' : List Nat, ns'.sum < ns.sum ∧ List.Forall₂ R (l.set i a') ns' := by
  induction each generalizing i with
  | nil => cases hi
  | @cons b n l ns hb _ ih =>
    cases i with
    | zero =>
      cases hi
      obtain ⟨n', hless, ha'⟩ := lower n hb
      refine ⟨n' :: ns, ?_, .cons ha' ‹_›⟩
      rw [List.sum_cons, List.sum_cons]
      omega
    | succ i =>
      obtain ⟨ns', hless, hns'⟩ := ih hi
      refine ⟨n :: ns', ?_, .cons hb hns'⟩
      rw [List.sum_cons, List.sum_cons]
      omega

/-- A list whose elements all do with `n`. -/
theorem forall₂_replicate {n : Nat} : ∀ {l : List α}, (∀ a ∈ l, R a n) →
    List.Forall₂ R l (List.replicate l.length n)
  | [], _ => .nil
  | a :: _, all => .cons (all a List.mem_cons_self)
      (forall₂_replicate fun b hb => all b (List.mem_cons_of_mem _ hb))

end Lower

namespace Handover

open CellProg

variable {Op V σ : Type} {Ans : Op → Type} {h : (o : Op) → σ → Option (Ans o × σ)}
  {c c' : Handover Op Ans V σ} {i n : Nat}

/-- What is left to do: an operation may put a reference into the queue, which is to be taken. -/
def Remains (c : Handover Op Ans V σ) (n : Nat) : Prop :=
  ∃ ns : List Nat, List.Forall₂ (fun t m => t.2.Within m) c.tasks ns ∧
    n = 2 * ns.sum + c.queue.length

/-- What an operation does to the programs and the queue. -/
theorem step_cases (hs : c.step h i = some c') :
    ∃ (r : Nat) (o : CellOp Op V) (k : CellOp.Ans Ans o → CellProg Op Ans V Unit)
      (a : CellOp.Ans Ans o), c.tasks[i]? = some (r, .vis o k) ∧
        c'.tasks = c.tasks.set i (r, k a) ∧ c'.queue.length ≤ c.queue.length + 1 := by
  unfold step at hs
  split at hs
  · rename_i r p hi
    cases p with
    | pure a => cases hs
    | vis o k =>
      cases o with
      | base o =>
        obtain ⟨out, -, rfl⟩ := Option.map_eq_some_iff.mp hs
        exact ⟨r, _, k, out.1, hi, rfl, Nat.le_succ _⟩
      | load =>
        obtain ⟨v, -, rfl⟩ := Option.map_eq_some_iff.mp hs
        exact ⟨r, _, k, v, hi, rfl, Nat.le_succ _⟩
      | store v =>
        cases hs
        exact ⟨r, _, k, (), hi, rfl, Nat.le_succ _⟩
      | push =>
        obtain ⟨v, -, rfl⟩ := Option.map_eq_some_iff.mp hs
        exact ⟨r, _, k, (), hi, rfl, Nat.le_of_eq List.length_append⟩
  · cases hs

/-- Going on keeps a bound. -/
theorem within_step (all : ∀ t ∈ c.tasks, t.2.Within n) (hs : c.step h i = some c') :
    ∀ t ∈ c'.tasks, t.2.Within n := by
  obtain ⟨r, o, k, a, hi, htasks, -⟩ := step_cases hs
  intro t ht
  rw [htasks] at ht
  rcases mem_set_cases ht with rfl | ⟨j, -, hj⟩
  · cases all _ (List.mem_of_getElem? hi) with
    | vis rest => exact (rest a).mono (Nat.le_succ _)
  · exact all t (List.mem_of_getElem? hj)

theorem remains_of_within (all : ∀ t ∈ c.tasks, t.2.Within n) :
    c.Remains (2 * (c.tasks.length * n) + c.queue.length) :=
  ⟨_, forall₂_replicate all, by rw [List.sum_replicate_nat]⟩

/-- An operation uses up some of what is left. -/
theorem Remains.step (remains : c.Remains n) (hs : c.step h i = some c') :
    ∃ n', n' < n ∧ c'.Remains n' := by
  obtain ⟨ns, each, rfl⟩ := remains
  obtain ⟨r, o, k, a, hi, htasks, hqueue⟩ := step_cases hs
  have lower : ∀ m, (Prog.vis o k).Within m → ∃ m', m' < m ∧ (k a).Within m' := fun m within => by
    cases within with
    | vis rest => exact ⟨_, Nat.lt_succ_self _, rest a⟩
  obtain ⟨ns', hless, each'⟩ :
      ∃ ns' : List Nat, ns'.sum < ns.sum ∧
        List.Forall₂ (fun t m => t.2.Within m) (c.tasks.set i (r, k a)) ns' :=
    forall₂_lowered each hi lower
  rw [← htasks] at each'
  exact ⟨_, by omega, ns', each', rfl⟩

/-- So does the consumer. -/
theorem Remains.pop (remains : c.Remains n) (hp : c.pop = some c') :
    ∃ n', n' < n ∧ c'.Remains n' := by
  obtain ⟨ns, each, rfl⟩ := remains
  obtain ⟨r, queue, v, hqueue, -, rfl⟩ := pop_eq_some hp
  refine ⟨2 * ns.sum + queue.length, ?_, ns, each, rfl⟩
  rw [hqueue, List.length_cons]
  omega

end Handover

end Lib
