import Smer.Lib.Prog
import Smer.Lib.Run
import Mathlib.Data.List.Basic
import Mathlib.Data.List.DropRight

/-!
# Pools of programs over one shared state

Several programs (`Lib.Prog`) run at once over one shared state. A step picks a thread and
performs the one operation that thread is at; the other threads wait. A run of the pool takes such
steps in any order (`Lib.Reaches`, with `Pool.step` for its steps), so what holds in every pool
reached holds whatever the scheduler does.

The pool keeps the trace of the operations performed, with their answers: a statement about "what
thread `i` has done" is a statement about the trace.

A thread's program is a tree of continuations, which no first-order invariant can name. `Staged`
names it: a type of stages, the program left to run at each stage, and the operation and next stage
read off it. `Staged.step` turns a step of the pool into a step on stages.
-/

namespace Lib

variable {Op : Type} {Ans : Op → Type} {α σ : Type}

/-- One performed operation with its answer. -/
structure Event (Op : Type) (Ans : Op → Type) where
  op : Op
  ans : Ans op

/-- Programs at work on one shared state, with the trace of what they have done. -/
structure Pool (Op : Type) (Ans : Op → Type) (α σ : Type) where
  shared : σ
  threads : List (Prog Op Ans α)
  trace : List (Nat × Event Op Ans)

/-! ## What has happened since -/

section Since

variable {ε : Type}

/-- The events of a trace since the last one of thread `i`. -/
def since (i : Nat) (trace : List (Nat × ε)) : List (Nat × ε) := trace.rtakeWhile fun e => e.1 ≠ i

theorem since_self (i : Nat) (trace : List (Nat × ε)) (e : ε) : since i (trace ++ [(i, e)]) = [] :=
  List.rtakeWhile_concat_neg _ _ _ fun hne => of_decide_eq_true hne rfl

theorem since_other {i j : Nat} (hne : j ≠ i) (trace : List (Nat × ε)) (e : ε) :
    since i (trace ++ [(j, e)]) = since i trace ++ [(j, e)] :=
  List.rtakeWhile_concat_pos _ _ _ (decide_eq_true hne)

end Since

namespace Pool

variable (h : (o : Op) → σ → Option (Ans o × σ))

/-- The pool before any step. -/
def start (s : σ) (threads : List (Prog Op Ans α)) : Pool Op Ans α σ := ⟨s, threads, []⟩

/-- Thread `i` performs its next operation. -/
def step (c : Pool Op Ans α σ) (i : Nat) : Option (Pool Op Ans α σ) :=
  match c.threads[i]? with
  | some (.vis o k) =>
    (h o c.shared).map fun out =>
      ⟨out.2, c.threads.set i (k out.1), c.trace ++ [(i, ⟨o, out.1⟩)]⟩
  | _ => none

/-- A thread at an operation that the handler answers can step. -/
theorem step_vis {c : Pool Op Ans α σ} {i : Nat} {o : Op} {k : Ans o → Prog Op Ans α} {r : Ans o}
    {s' : σ} (thread : c.threads[i]? = some (.vis o k)) (answered : h o c.shared = some (r, s')) :
    step h c i = some ⟨s', c.threads.set i (k r), c.trace ++ [(i, ⟨o, r⟩)]⟩ := by
  simp only [step, thread, answered, Option.map_some]

/-- A step, read backwards: the thread was at an operation that the handler answered. -/
theorem step_eq_some {c c' : Pool Op Ans α σ} {i : Nat} (hs : step h c i = some c') :
    ∃ o k r s', c.threads[i]? = some (.vis o k) ∧ h o c.shared = some (r, s') ∧
      c' = ⟨s', c.threads.set i (k r), c.trace ++ [(i, ⟨o, r⟩)]⟩ := by
  unfold step at hs
  split at hs
  · rename_i o k ht
    obtain ⟨out, ho, rfl⟩ := Option.map_eq_some_iff.mp hs
    exact ⟨o, k, out.1, out.2, ht, ho, rfl⟩
  · cases hs

end Pool

/-! ## Stages -/

/-- The stages a family of programs goes through. At each stage `view` is the operation to perform
and the stage its answer leads to, or nothing when the program is over; `prog` is the program left
to run, and `unfolds` says that it is what `view` says. -/
structure Staged (Op : Type) (Ans : Op → Type) (α S : Type) where
  prog : S → Prog Op Ans α
  view : S → Option ((o : Op) × (Ans o → S))
  unfolds : ∀ s, match view s with
    | some ⟨o, next⟩ => prog s = .vis o fun r => prog (next r)
    | none => ∃ a, prog s = .pure a

namespace Staged

variable {S : Type} (M : Staged Op Ans α S) {h : (o : Op) → σ → Option (Ans o × σ)}

/-- The pool runs the stages `ss`. -/
def At (c : Pool Op Ans α σ) (ss : List S) : Prop := c.threads = ss.map M.prog

variable {M}

/-- The thread at an operation, read as a stage. -/
theorem view_of_vis {s : S} {o : Op} {k : Ans o → Prog Op Ans α} (hv : M.prog s = .vis o k) :
    ∃ next, M.view s = some ⟨o, next⟩ ∧ k = fun r => M.prog (next r) := by
  have unfolds := M.unfolds s
  cases view : M.view s with
  | none =>
    rw [view] at unfolds
    obtain ⟨a, ha⟩ := unfolds
    rw [ha] at hv
    cases hv
  | some pair =>
    obtain ⟨o', next⟩ := pair
    rw [view] at unfolds
    dsimp only at unfolds
    rw [hv] at unfolds
    cases unfolds
    exact ⟨next, rfl, rfl⟩

/-- The stages after one of them has moved on. -/
theorem stage_of_set {ss : List S} {i j : Nat} {s s' : S} (hs : (ss.set i s')[j]? = some s) :
    (j = i ∧ s = s') ∨ (j ≠ i ∧ ss[j]? = some s) := by
  by_cases hij : i = j
  · subst hij
    have hlen := (List.getElem?_eq_some_iff.mp hs).1
    rw [List.length_set] at hlen
    rw [List.getElem?_set_self hlen] at hs
    exact .inl ⟨rfl, (Option.some.inj hs).symm⟩
  · rw [List.getElem?_set_ne hij] at hs
    exact .inr ⟨Ne.symm hij, hs⟩

/-- **A step of the pool is a step on stages.** -/
theorem step {c c' : Pool Op Ans α σ} {ss : List S} {i : Nat} (at' : M.At c ss)
    (hs : Pool.step h c i = some c') :
    ∃ s o next r s', ss[i]? = some s ∧ M.view s = some ⟨o, next⟩ ∧
      h o c.shared = some (r, s') ∧ c'.shared = s' ∧ M.At c' (ss.set i (next r)) ∧
      c'.trace = c.trace ++ [(i, ⟨o, r⟩)] := by
  obtain ⟨o, k, r, s', ht, ho, rfl⟩ := Pool.step_eq_some h hs
  rw [at', List.getElem?_map, Option.map_eq_some_iff] at ht
  obtain ⟨s, hss, hprog⟩ := ht
  obtain ⟨next, view, rfl⟩ := view_of_vis hprog
  refine ⟨s, o, next, r, s', hss, view, ho, rfl, ?_, rfl⟩
  show c.threads.set i (M.prog (next r)) = (ss.set i (next r)).map M.prog
  rw [at', List.map_set]

/-- The thread of a stage with an operation is at that operation. -/
theorem thread_of_view {c : Pool Op Ans α σ} {ss : List S} {i : Nat} {s : S} {o : Op}
    {next : Ans o → S} (at' : M.At c ss) (hs : ss[i]? = some s)
    (view : M.view s = some ⟨o, next⟩) :
    c.threads[i]? = some (.vis o fun r => M.prog (next r)) := by
  have unfolds := M.unfolds s
  rw [view] at unfolds
  rw [at', List.getElem?_map, hs, Option.map_some]
  exact congrArg some unfolds

/-- A thread at an operation has a stage with that operation. -/
theorem view_of_thread {c : Pool Op Ans α σ} {ss : List S} {i : Nat} {o : Op}
    {k : Ans o → Prog Op Ans α} (at' : M.At c ss) (thread : c.threads[i]? = some (.vis o k)) :
    ∃ s next, ss[i]? = some s ∧ M.view s = some ⟨o, next⟩ := by
  rw [at', List.getElem?_map, Option.map_eq_some_iff] at thread
  obtain ⟨s, hs, hprog⟩ := thread
  obtain ⟨next, hview, -⟩ := view_of_vis hprog
  exact ⟨s, next, hs, hview⟩

/-- A thread is at the operation of its stage and at no other. -/
theorem op_of_view {c : Pool Op Ans α σ} {ss : List S} {i : Nat} {s : S} {o o' : Op}
    {next : Ans o → S} {k : Ans o' → Prog Op Ans α} (at' : M.At c ss) (hs : ss[i]? = some s)
    (view : M.view s = some ⟨o, next⟩) (thread : c.threads[i]? = some (.vis o' k)) : o' = o := by
  rw [thread_of_view at' hs view] at thread
  cases thread
  rfl

/-- A stage whose operation the handler answers moves on. -/
theorem step_of_view {c : Pool Op Ans α σ} {ss : List S} {i : Nat} {s : S} {o : Op}
    {next : Ans o → S} {r : Ans o} {s' : σ} (at' : M.At c ss) (hs : ss[i]? = some s)
    (view : M.view s = some ⟨o, next⟩) (answered : h o c.shared = some (r, s')) :
    Pool.step h c i =
      some ⟨s', (ss.set i (next r)).map M.prog, c.trace ++ [(i, ⟨o, r⟩)]⟩ := by
  rw [Pool.step_vis h (thread_of_view at' hs view) answered, at', List.map_set]

end Staged

end Lib
