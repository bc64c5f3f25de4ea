import Mathlib.Logic.Basic

/-!
# Guarded runs

A system is a partial step function: a state takes an action or refuses it. A guard restricts the
actions a run may take. `Reaches` is indexed by it, and the run with no restriction is `Reaches` at
the guard that always holds. So one theorem can say what holds of every run, or what holds of every
run whose steps all meet a condition.
-/

namespace Lib

variable {σ α : Type}

/-- The states a guarded run reaches: each step is one the guard admits in the state before it. -/
inductive Reaches (step : σ → α → Option σ) (guard : σ → α → Prop) (s₀ : σ) : σ → Prop where
  | refl : Reaches step guard s₀ s₀
  | step {s s' : σ} {a : α} :
      Reaches step guard s₀ s → guard s a → step s a = some s' → Reaches step guard s₀ s'

namespace Reaches

variable {step : σ → α → Option σ} {guard guard' : σ → α → Prop} {s₀ s : σ}

/-- **The invariant rule**: what holds at the start and is kept by every admitted step holds in
every state reached. -/
theorem invariant (reach : Reaches step guard s₀ s) {I : σ → Prop} (start : I s₀)
    (keeps : ∀ s s' a, I s → guard s a → step s a = some s' → I s') : I s := by
  induction reach with
  | refl => exact start
  | step _ hg hs ih => exact keeps _ _ _ ih hg hs

/-- A run under a guard is a run under a weaker one. -/
theorem mono (reach : Reaches step guard s₀ s) (weaker : ∀ s a, guard s a → guard' s a) :
    Reaches step guard' s₀ s := by
  induction reach with
  | refl => exact .refl
  | step _ hg hs ih => exact .step ih (weaker _ _ hg) hs

/-- A run can be put behind an admitted step. -/
theorem head {s₁ : σ} {a : α} (hg : guard s₀ a) (hs : step s₀ a = some s₁)
    (reach : Reaches step guard s₁ s) : Reaches step guard s₀ s := by
  induction reach with
  | refl => exact .step .refl hg hs
  | step _ hg' hs' ih => exact .step ih hg' hs'

end Reaches

/-- Play a schedule: the list of the actions taken, in order. -/
def play (step : σ → α → Option σ) : List α → σ → Option σ
  | [], s => some s
  | a :: as, s => (step s a).bind (play step as)

/-- A run can be continued by any schedule that plays. -/
theorem Reaches.play {step : σ → α → Option σ} {s₀ : σ} :
    ∀ {as : List α} {s s' : σ}, Reaches step (fun _ _ => True) s₀ s →
      Lib.play step as s = some s' → Reaches step (fun _ _ => True) s₀ s'
  | [], _, _, reach, hp => by
    cases hp
    exact reach
  | a :: as, s, s', reach, hp => by
    obtain ⟨s₁, hs, hr⟩ := Option.bind_eq_some_iff.mp hp
    exact Reaches.play (.step reach trivial hs) hr

/-- A schedule that plays with the guard checked in each state is a guarded run. -/
theorem Reaches.of_play {step : σ → α → Option σ} {guard : σ → α → Prop}
    [∀ s a, Decidable (guard s a)] : ∀ {as : List α} {s s' : σ},
      Lib.play (fun s a => if guard s a then step s a else none) as s = some s' →
        Reaches step guard s s'
  | [], _, _, hp => by
    cases hp
    exact .refl
  | a :: as, s, s', hp => by
    obtain ⟨s₁, hs, hr⟩ := Option.bind_eq_some_iff.mp hp
    rw [Option.ite_none_right_eq_some] at hs
    exact .head hs.1 hs.2 (Reaches.of_play hr)

/-- **The cost rule**: where each step uses up some of what is left, a schedule is no longer than what
is left at its start. -/
theorem play_costs {step : σ → α → Option σ} (only : α → Prop) {C : σ → Nat → Prop}
    (lowers : ∀ s s' a n, C s n → only a → step s a = some s' → ∃ n', n' < n ∧ C s' n') :
    ∀ {as : List α} {s s' : σ} {n : Nat}, C s n → (∀ a ∈ as, only a) → play step as s = some s' →
      ∃ n', C s' n' ∧ as.length + n' ≤ n
  | [], s, s', n, cost, _, hp => by
    cases hp
    exact ⟨n, cost, Nat.le_of_eq (Nat.zero_add _)⟩
  | a :: as, s, s', n, cost, honly, hp => by
    obtain ⟨s₁, hs, hr⟩ := Option.bind_eq_some_iff.mp hp
    obtain ⟨n₁, hless, cost₁⟩ := lowers s s₁ a n cost (honly a List.mem_cons_self) hs
    obtain ⟨n', cost', hlength⟩ :=
      play_costs only lowers cost₁ (fun b hb => honly b (List.mem_cons_of_mem _ hb)) hr
    refine ⟨n', cost', ?_⟩
    rw [List.length_cons]
    omega

/-- So some schedule comes to rest. -/
theorem exists_rest {step : σ → α → Option σ} (only : α → Prop) {C : σ → Nat → Prop}
    (lowers : ∀ s s' a n, C s n → only a → step s a = some s' → ∃ n', n' < n ∧ C s' n')
    {s : σ} {n : Nat} (cost : C s n) :
    ∃ as s', (∀ a ∈ as, only a) ∧ play step as s = some s' ∧ ∀ a, only a → step s' a = none := by
  induction n using Nat.strongRecOn generalizing s with
  | ind n ih =>
    by_cases hrest : ∀ a, only a → step s a = none
    · exact ⟨[], s, fun a ha => (by cases ha), rfl, hrest⟩
    · simp only [not_forall] at hrest
      obtain ⟨a, ha, hstep⟩ := hrest
      obtain ⟨s₁, hs⟩ := Option.ne_none_iff_exists'.mp hstep
      obtain ⟨n₁, hless, cost₁⟩ := lowers s s₁ a n cost ha hs
      obtain ⟨as, s', honly, hplay, hrest⟩ := ih n₁ hless cost₁
      refine ⟨a :: as, s', fun b hb => ?_, ?_, hrest⟩
      · rcases List.mem_cons.mp hb with rfl | hb
        · exact ha
        · exact honly b hb
      · rw [play, hs]
        exact hplay

/-- **The ranking rule**: a schedule whose steps keep an invariant and lower a rank is no longer
than the rank it starts at. -/
theorem play_ranked {step : σ → α → Option σ} (only : α → Prop) {I : σ → Prop} {rank : σ → Nat}
    (lowers : ∀ s s' a, I s → only a → step s a = some s' → I s' ∧ rank s' < rank s)
    {as : List α} {s s' : σ} (inv : I s) (honly : ∀ a ∈ as, only a)
    (hp : play step as s = some s') : I s' ∧ as.length + rank s' ≤ rank s := by
  have lowered : ∀ s s' a n, (I s ∧ rank s = n) → only a → step s a = some s' →
      ∃ n', n' < n ∧ I s' ∧ rank s' = n' := by
    rintro s s' a n ⟨inv, rfl⟩ ha hs
    obtain ⟨inv', hless⟩ := lowers s s' a inv ha hs
    exact ⟨_, hless, inv', rfl⟩
  obtain ⟨n', ⟨inv', rfl⟩, hlength⟩ := play_costs only lowered ⟨inv, rfl⟩ honly hp
  exact ⟨inv', hlength⟩

end Lib
