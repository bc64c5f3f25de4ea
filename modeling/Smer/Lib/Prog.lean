import Mathlib.Logic.Basic

/-!
# Programs over a signature of operations

A program that talks to its surroundings is a tree: either it has answered (`Prog.pure`), or it
performs one operation and goes on with the operation's answer (`Prog.vis`). The tree says nothing
about what an operation does. A handler says it (`Prog.run`): on a state it answers an operation
and moves the state, or it refuses the operation, and then the program stops there.

One tree serves two readings. `Prog.run` performs the whole program at once, and
`Lib.Pool` performs the operations of many programs one by one, in any order.

`Prog.Only` names the operations a program can perform at all. `Only.run_keeps` is the rule built
on it: what every one of those operations keeps, the run keeps.
-/

namespace Lib

/-- A program whose operation `o` is answered in `Ans o`. -/
inductive Prog (Op : Type) (Ans : Op → Type) (α : Type) where
  | pure (a : α)
  | vis (o : Op) (k : Ans o → Prog Op Ans α)

namespace Prog

variable {Op : Type} {Ans : Op → Type} {α β γ σ : Type}

/-- Sequencing: the second program starts from the first one's answer. -/
def bind : Prog Op Ans α → (α → Prog Op Ans β) → Prog Op Ans β
  | .pure a, f => f a
  | .vis o k, f => .vis o fun r => (k r).bind f

instance : Monad (Prog Op Ans) where
  pure := .pure
  bind := .bind

/-- The program that performs one operation and answers what it is answered. -/
def call (o : Op) : Prog Op Ans (Ans o) := .vis o .pure

@[simp] theorem pure_bind' (a : α) (f : α → Prog Op Ans β) :
    (Prog.pure a : Prog Op Ans α) >>= f = f a := rfl

@[simp] theorem ret_bind (a : α) (f : α → Prog Op Ans β) :
    (Pure.pure a : Prog Op Ans α) >>= f = f a := rfl

@[simp] theorem vis_bind (o : Op) (k : Ans o → Prog Op Ans α) (f : α → Prog Op Ans β) :
    Prog.vis o k >>= f = .vis o fun r => k r >>= f := rfl

@[simp] theorem call_bind (o : Op) (f : Ans o → Prog Op Ans β) :
    (call o : Prog Op Ans (Ans o)) >>= f = .vis o f := rfl

/-- Sequencing is associative. -/
theorem bind_assoc' (p : Prog Op Ans α) (f : α → Prog Op Ans β) (g : β → Prog Op Ans γ) :
    p >>= f >>= g = p >>= fun a => f a >>= g := by
  induction p with
  | pure a => rfl
  | vis o k ih =>
    rw [vis_bind, vis_bind, vis_bind]
    congr 1
    funext r
    exact ih r

/-! ## Running a program -/

/-- Run a program under a handler. The first component is the answer, or the operation at which
the handler refused to go on. -/
def run (h : (o : Op) → σ → Option (Ans o × σ)) : Prog Op Ans α → σ → Except Op α × σ
  | .pure a, s => (.ok a, s)
  | .vis o k, s =>
    match h o s with
    | some (r, s') => (k r).run h s'
    | none => (.error o, s)

variable {h : (o : Op) → σ → Option (Ans o × σ)}

@[simp] theorem run_pure (a : α) (s : σ) :
    (Prog.pure a : Prog Op Ans α).run h s = (.ok a, s) := rfl

@[simp] theorem run_ret (a : α) (s : σ) :
    (Pure.pure a : Prog Op Ans α).run h s = (.ok a, s) := rfl

/-- An answered operation hands its answer on. -/
theorem run_vis_some {o : Op} {k : Ans o → Prog Op Ans α} {s s' : σ} {r : Ans o}
    (answered : h o s = some (r, s')) : (Prog.vis o k).run h s = (k r).run h s' := by
  simp only [run, answered]

/-- A refused operation ends the run where it stands. -/
theorem run_vis_none {o : Op} {k : Ans o → Prog Op Ans α} {s : σ} (refused : h o s = none) :
    (Prog.vis o k).run h s = (.error o, s) := by
  simp only [run, refused]

/-- A run of a sequence is the run of its second part after the first, or the first one's end. -/
theorem run_bind (p : Prog Op Ans α) (f : α → Prog Op Ans β) (s : σ) :
    (p >>= f).run h s =
      match p.run h s with
      | (.ok a, s') => (f a).run h s'
      | (.error o, s') => (.error o, s') := by
  induction p generalizing s with
  | pure a => rfl
  | vis o k ih =>
    rw [vis_bind]
    cases answered : h o s with
    | none => rw [run_vis_none answered, run_vis_none answered]
    | some out =>
      obtain ⟨r, s'⟩ := out
      rw [run_vis_some answered, run_vis_some answered, ih r s']

/-- The first part answers: the run goes on from its answer. -/
theorem run_bind_ok {p : Prog Op Ans α} {f : α → Prog Op Ans β} {s s' : σ} {a : α}
    (first : p.run h s = (.ok a, s')) : (p >>= f).run h s = (f a).run h s' := by
  rw [run_bind, first]

/-- The first part stops: so does the sequence. -/
theorem run_bind_error {p : Prog Op Ans α} {f : α → Prog Op Ans β} {s s' : σ} {o : Op}
    (first : p.run h s = (.error o, s')) : (p >>= f).run h s = (.error o, s') := by
  rw [run_bind, first]

/-! ## The operations a program can perform -/

/-- Every operation the program can ever perform, whatever it is answered, is in `P`. -/
inductive Only (P : Op → Prop) : Prog Op Ans α → Prop where
  | pure (a : α) : Only P (.pure a)
  | vis {o : Op} {k : Ans o → Prog Op Ans α} : P o → (∀ r, Only P (k r)) → Only P (.vis o k)

variable {P : Op → Prop}

theorem Only.ret (a : α) : Only P (Pure.pure a : Prog Op Ans α) := .pure a

theorem Only.call {o : Op} (ho : P o) : Only P (call o : Prog Op Ans (Ans o)) :=
  .vis ho fun r => .pure r

theorem Only.vis_inv {o : Op} {k : Ans o → Prog Op Ans α} (only : Only P (.vis o k)) :
    P o ∧ ∀ r, Only P (k r) := by
  cases only with
  | vis ho hk => exact ⟨ho, hk⟩

/-- A sequence performs what its parts perform. -/
theorem Only.bind {p : Prog Op Ans α} {f : α → Prog Op Ans β} (first : Only P p)
    (rest : ∀ a, Only P (f a)) : Only P (p >>= f) := by
  induction first with
  | pure a => exact rest a
  | vis ho _ ih => exact .vis ho ih

theorem Only.mono {P' : Op → Prop} {p : Prog Op Ans α} (only : Only P p)
    (weaker : ∀ o, P o → P' o) : Only P' p := by
  induction only with
  | pure a => exact .pure a
  | vis ho _ ih => exact .vis (weaker _ ho) ih

/-- **What every operation keeps, the run keeps.** -/
theorem Only.run_keeps {p : Prog Op Ans α} (only : Only P p) {I : σ → Prop}
    (keeps : ∀ o s r s', P o → I s → h o s = some (r, s') → I s') (s : σ) (hs : I s) :
    I (p.run h s).2 := by
  induction only generalizing s with
  | pure a => exact hs
  | @vis o k ho _ ih =>
    cases answered : h o s with
    | none => rw [run_vis_none answered]; exact hs
    | some out =>
      obtain ⟨r, s'⟩ := out
      rw [run_vis_some answered]
      exact ih r s' (keeps o s r s' ho hs answered)

end Prog

end Lib
