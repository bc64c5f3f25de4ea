import Mathlib.Data.List.Basic

/-!
# Partial state routines

A routine works on a state and may have no result (`StateT σ Option α`). `Ensures m s Q` says that
whatever comes of it from `s` is as `Q` says, and nothing where nothing comes of it. The rules follow
the structure of a routine, so a routine is gone through once for each thing to be known of it.
-/

namespace Lib

variable {σ α β : Type}

/-- What the routine leaves behind from `s`, if it comes to its end, is as `Q` says. -/
def Ensures (m : StateT σ Option α) (s : σ) (Q : α → σ → Prop) : Prop :=
  ∀ a s', m.run s = some (a, s') → Q a s'

namespace Ensures

variable {s : σ} {Q : α → σ → Prop} {m : StateT σ Option α}

theorem mono {P : α → σ → Prop} (h : Ensures m s P) (weaker : ∀ a s', P a s' → Q a s') :
    Ensures m s Q := fun a s' hrun => weaker a s' (h a s' hrun)

theorem of_pure {a : α} (h : Q a s) : Ensures (pure a) s Q := by
  intro a' s' hrun
  cases hrun
  exact h

theorem of_bind {f : α → StateT σ Option β} {R : β → σ → Prop}
    (h : Ensures m s fun a s' => Ensures (f a) s' R) : Ensures (m >>= f) s R := by
  intro b s' hrun
  rw [StateT.run_bind] at hrun
  obtain ⟨⟨a, s₁⟩, hm, hf⟩ := Option.bind_eq_some_iff.mp hrun
  exact h a s₁ hm b s' hf

theorem of_get {Q : σ → σ → Prop} (h : Q s s) : Ensures (get : StateT σ Option σ) s Q := by
  intro a s' hrun
  cases hrun
  exact h

theorem of_modify {f : σ → σ} {Q : PUnit → σ → Prop} (h : Q ⟨⟩ (f s)) :
    Ensures (modify f : StateT σ Option PUnit) s Q := by
  intro a s' hrun
  cases hrun
  exact h

/-- A value that was found, or no result. -/
theorem of_lift {x : Option α} (h : ∀ a, x = some a → Q a s) :
    Ensures (liftM x : StateT σ Option α) s Q := by
  intro a s' hrun
  obtain ⟨a', hx, hout⟩ := Option.bind_eq_some_iff.mp hrun
  cases hout
  exact h a hx

end Ensures

end Lib
