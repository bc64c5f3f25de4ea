import Smer.Lib.Run
import Mathlib.Data.List.Basic

/-!
# Refinement of a labelled specification

A specification is a relation between states with a label on each step. `History` is a run of it,
with its labels in order. A guarded run refines it when every admitted step is a step of the
specification, or no step at all (`Reaches.refines`).
-/

namespace Lib

variable {σ α A ℓ : Type}

/-- The runs of a labelled relation. -/
inductive History (next : A → ℓ → A → Prop) (a₀ : A) : List ℓ → A → Prop where
  | nil : History next a₀ [] a₀
  | snoc {labels : List ℓ} {a a' : A} {label : ℓ} :
      History next a₀ labels a → next a label a' → History next a₀ (labels ++ [label]) a'

/-- What holds at the start and is kept by every step, given the labels so far, holds at the end. -/
theorem History.invariant {next : A → ℓ → A → Prop} {a₀ a : A} {labels : List ℓ}
    (history : History next a₀ labels a) {I : List ℓ → A → Prop} (start : I [] a₀)
    (keeps : ∀ labels a label a', I labels a → next a label a' → I (labels ++ [label]) a') :
    I labels a := by
  induction history with
  | nil => exact start
  | snoc _ hnext ih => exact keeps _ _ _ _ ih hnext

/-- **Forward simulation**: a guarded run is a run of the specification. The relation may speak of
the labels so far, such as what they account for of the run's output. -/
theorem Reaches.refines {step : σ → α → Option σ} {guard : σ → α → Prop} {s₀ s : σ}
    (reach : Reaches step guard s₀ s) {next : A → ℓ → A → Prop} {a₀ : A}
    {R : σ → List ℓ → A → Prop} (start : R s₀ [] a₀)
    (simulates : ∀ s s' x labels a, R s labels a → guard s x → step s x = some s' →
      R s' labels a ∨ ∃ label a', next a label a' ∧ R s' (labels ++ [label]) a') :
    ∃ labels a, History next a₀ labels a ∧ R s labels a := by
  induction reach with
  | refl => exact ⟨[], a₀, .nil, start⟩
  | step _ hg hs ih =>
    obtain ⟨labels, a, history, rel⟩ := ih
    rcases simulates _ _ _ labels a rel hg hs with rel' | ⟨label, a', hnext, rel'⟩
    · exact ⟨labels, a, history, rel'⟩
    · exact ⟨labels ++ [label], a', history.snoc hnext, rel'⟩

end Lib
