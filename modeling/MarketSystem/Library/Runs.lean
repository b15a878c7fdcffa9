import Mathlib.Data.List.Basic
import Mathlib.Tactic.TypeStar

/-!
# Runs over given inputs

A state takes one input after the other. What a step preserves may depend on the
input and on the state it meets, so a run carries that condition along: every one
of its inputs satisfies it in the state that the inputs before have reached.
-/
namespace Library

section Runs

variable {σ ι : Type*} (step : σ → ι → σ) (ok : σ → ι → Prop)

/-- The inputs one after the other. -/
def run (inputs : List ι) (s : σ) : σ := inputs.foldl step s

/-- Every input satisfies the condition in the state it meets. -/
def Meets : List ι → σ → Prop
  | [], _ => True
  | i :: inputs, s => ok s i ∧ Meets inputs (step s i)

@[simp] theorem run_nil (s : σ) : run step [] s = s := rfl

@[simp] theorem run_cons (i : ι) (inputs : List ι) (s : σ) :
    run step (i :: inputs) s = run step inputs (step s i) := rfl

theorem run_append (inputs later : List ι) (s : σ) :
    run step (inputs ++ later) s = run step later (run step inputs s) :=
  List.foldl_append ..

variable {step ok}

/-- A condition on the inputs alone. -/
theorem meets_of_forall {p : ι → Prop} {inputs : List ι} (h : ∀ i ∈ inputs, p i) (s : σ) :
    Meets step (fun _ i => p i) inputs s := by
  induction inputs generalizing s with
  | nil => trivial
  | cons i inputs ih => exact ⟨h i (by simp), ih (fun j hj => h j (by simp [hj])) (step s i)⟩

theorem meets_append {inputs later : List ι} {s : σ} :
    Meets step ok (inputs ++ later) s ↔
      Meets step ok inputs s ∧ Meets step ok later (run step inputs s) := by
  induction inputs generalizing s with
  | nil => exact ⟨fun h => ⟨trivial, h⟩, And.right⟩
  | cons i inputs ih => exact (and_congr_right fun _ => ih).trans and_assoc.symm

/-- What every step preserves whose input satisfies the condition holds at the end. -/
theorem run_induction {P : σ → Prop} (hstep : ∀ s i, P s → ok s i → P (step s i))
    {inputs : List ι} {s : σ} (hs : P s) (hmeets : Meets step ok inputs s) :
    P (run step inputs s) := by
  induction inputs generalizing s with
  | nil => exact hs
  | cons i inputs ih => exact ih (hstep s i hs hmeets.1) hmeets.2

/-- What every step preserves holds at the end. -/
theorem run_invariant {P : σ → Prop} (hstep : ∀ s i, P s → P (step s i)) {inputs : List ι} {s : σ}
    (hs : P s) : P (run step inputs s) := by
  induction inputs generalizing s with
  | nil => exact hs
  | cons i inputs ih => exact ih (hstep s i hs)

end Runs

end Library
