import Mathlib.Data.List.Basic
import Mathlib.Tactic.TypeStar

/-!
# Signals over a history

A history is a list of events, the latest last. A signal is raised by some events
and lowered by others, and between them it keeps its state. "Since the last of
these, none of those" is the signal being on.
-/
namespace Library

/-- A flag that follows a history: `raises` wins where an event does both. -/
structure Signal (ε : Type) where
  raises : ε → Bool
  lowers : ε → Bool

namespace Signal

variable {ε : Type} (s : Signal ε)

def next (state : Bool) (e : ε) : Bool := s.raises e || (state && !s.lowers e)

/-- The state of the signal after a history. -/
def on (h : List ε) : Bool := h.foldl s.next false

@[simp] theorem on_nil : s.on [] = false := rfl

@[simp] theorem on_snoc (h : List ε) (e : ε) : s.on (h ++ [e]) = s.next (s.on h) e := by
  simp [on, List.foldl_append]

theorem on_append (h c : List ε) (hon : s.on h = true) (hc : ∀ e ∈ c, s.lowers e = false) :
    s.on (h ++ c) = true := by
  induction c generalizing h with
  | nil => simpa using hon
  | cons e c ih =>
    have hnext : s.on (h ++ [e]) = true := by simp [next, hon, hc e (by simp)]
    have := ih (h ++ [e]) hnext (fun e' he' => hc e' (List.mem_cons_of_mem _ he'))
    simpa using this

/-- The signal is on at the earlier history and nothing lowers it up to the later one. -/
def Throughout (h₀ h : List ε) : Prop :=
  s.on h₀ = true ∧ ∃ c, h = h₀ ++ c ∧ ∀ e ∈ c, s.lowers e = false

variable {s} {h₀ h₁ h : List ε}

theorem Throughout.on (ht : s.Throughout h₀ h) : s.on h = true := by
  obtain ⟨hon, c, rfl, hc⟩ := ht
  exact s.on_append h₀ c hon hc

/-- What holds up to a later moment held up to every moment in between. -/
theorem Throughout.narrow (ht : s.Throughout h₀ h) (h01 : h₀ <+: h₁) (h1 : h₁ <+: h) :
    s.Throughout h₀ h₁ := by
  obtain ⟨hon, c, rfl, hc⟩ := ht
  obtain ⟨a, rfl⟩ := h01
  have ha : a <+: c := (List.prefix_append_right_inj h₀).mp h1
  exact ⟨hon, a, rfl, fun e he => hc e (ha.subset he)⟩

end Signal

end Library
