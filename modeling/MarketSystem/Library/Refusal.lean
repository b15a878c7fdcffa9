import Mathlib.Logic.Basic

/-!
# Computations that may refuse

A chain of steps in `Except`, each of which may refuse with a reason. What a successful
chain has passed is read off step by step.
-/
namespace Library

variable {α β : Type}

/-- Go on only where the condition holds. -/
def require (ok : Bool) (reason : String) : Except String Unit :=
  if ok then .ok () else .error reason

/-- A chain succeeds when its first step does and the rest does on the result. -/
theorem bind_eq_ok {x : Except String α} {f : α → Except String β} {b : β} :
    x >>= f = .ok b ↔ ∃ a, x = .ok a ∧ f a = .ok b := by
  constructor
  · intro h
    cases x with
    | error e => cases h
    | ok a => exact ⟨a, rfl, h⟩
  · rintro ⟨a, rfl, h⟩
    exact h

theorem mapError_eq_ok {x : Except String α} {f : String → String} {a : α} :
    x.mapError f = .ok a ↔ x = .ok a := by
  cases x with
  | error e => exact ⟨fun h => (nomatch h), fun h => (nomatch h)⟩
  | ok a => exact Iff.rfl

theorem require_eq_ok {ok : Bool} {reason : String} {u : Unit} :
    require ok reason = .ok u ↔ ok = true := by
  cases ok with
  | false => simp [require]
  | true => simp [require]

/-- What a successful pass over a list returned. -/
theorem mem_of_mapM_ok {f : α → Except String β} {xs : List α} {ys : List β}
    (h : xs.mapM f = .ok ys) (y : β) : y ∈ ys ↔ ∃ x ∈ xs, f x = .ok y := by
  induction xs generalizing ys with
  | nil =>
    cases h
    simp
  | cons x xs ih =>
    rw [List.mapM_cons] at h
    obtain ⟨first, hfirst, h⟩ := bind_eq_ok.mp h
    obtain ⟨rest, hrest, h⟩ := bind_eq_ok.mp h
    cases h
    simp [ih hrest, hfirst, eq_comm]

end Library
