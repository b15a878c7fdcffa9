import Mathlib.Data.Nat.Find
import Mathlib.Order.Monotone.Basic

/-!
# Loops that run until a condition

`while not stop: s = step(s)`. Where some number of steps reaches the condition the
loop ends after the first such number. A measure that shrinks with every step shows
that there is one, and what a step preserves holds of the result.
-/
namespace Library

section Loop

variable {σ : Type*} (step : σ → σ) (stop : σ → Bool)

/-- The state in which the loop leaves. -/
def loopUntil (s : σ) (h : ∃ n, stop (step^[n] s) = true) : σ := step^[Nat.find h] s

variable {step}

theorem stop_loopUntil {s : σ} (h : ∃ n, stop (step^[n] s) = true) :
    stop (loopUntil step stop s h) = true := Nat.find_spec h

/-- What a step from a state that does not stop preserves holds of the result. -/
theorem loopUntil_induction {I : σ → Prop} (hstep : ∀ s, I s → stop s = false → I (step s))
    {s : σ} (hs : I s) (h : ∃ n, stop (step^[n] s) = true) : I (loopUntil step stop s h) := by
  have hrun : ∀ n ≤ Nat.find h, I (step^[n] s) := by
    intro n hn
    induction n with
    | zero => exact hs
    | succ n ih =>
      have hgoes : stop (step^[n] s) = false := by
        simpa using Nat.find_min h (show n < Nat.find h by omega)
      rw [Function.iterate_succ_apply']
      exact hstep _ (ih (by omega)) hgoes
  exact hrun _ le_rfl

/-- A measure that shrinks as long as the loop goes on. -/
theorem exists_stop {I : σ → Prop} (μ : σ → ℕ)
    (hstep : ∀ s, I s → stop s = false → I (step s) ∧ μ (step s) < μ s) {s : σ} (hs : I s) :
    ∃ n, stop (step^[n] s) = true := by
  induction hm : μ s using Nat.strong_induction_on generalizing s with
  | _ m ih =>
    cases hstop : stop s with
    | true => exact ⟨0, hstop⟩
    | false =>
      obtain ⟨hnext, hless⟩ := hstep s hs hstop
      obtain ⟨n, hn⟩ := ih (μ (step s)) (hm ▸ hless) hnext rfl
      exact ⟨n + 1, by rwa [Function.iterate_succ_apply]⟩

end Loop

end Library
