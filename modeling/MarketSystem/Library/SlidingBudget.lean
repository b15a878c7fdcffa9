import Mathlib.Algebra.Order.Group.Basic
import Mathlib.Algebra.Order.Group.Unbundled.Basic
import Mathlib.Algebra.Order.Monoid.Defs
import Mathlib.Data.List.TakeWhile
import Mathlib.Order.Interval.Set.Basic
import Mathlib.Tactic.Abel

/-!
# A budget of events over a sliding window

A limiter keeps the recent events, oldest first, and drops those that have left the window.
When the window is full it forgets them and waits for a lockout no shorter than the window.
Then no window, open at either end, holds more events than the limit.
-/
namespace Library.SlidingBudget

variable {T : Type*} [AddCommGroup T] [LinearOrder T]

/-- Any two instants of the set are less than `window` apart. -/
def Narrow (window : T) (W : Set T) : Prop := ∀ x ∈ W, ∀ y ∈ W, y < x + window

theorem narrow_Ico [IsOrderedAddMonoid T] (a window : T) : Narrow window (Set.Ico a (a + window)) := by
  intro x hx y hy
  have hshift : a + window ≤ x + window := add_le_add_left hx.1 window
  exact hy.2.trans_le hshift

theorem narrow_Ioc [IsOrderedAddMonoid T] (a window : T) : Narrow window (Set.Ioc a (a + window)) := by
  intro x hx y hy
  have hshift : a + window < x + window := add_lt_add_left hx.1 window
  exact hy.2.trans_lt hshift

/-- How many events fit in a window, and how long a spent budget waits. -/
structure Limits (T : Type*) where
  limit : ℕ
  window : T
  lockout : T

/-- What a limiter remembers. -/
structure Budget (T : Type*) where
  recent : List T
  lockedUntil : T

/-- One more event. -/
def Limits.spend (l : Limits T) (b : Budget T) (now : T) : Budget T :=
  let recent := b.recent.dropWhile (fun t => decide (l.window ≤ now - t)) ++ [now]
  if l.limit ≤ recent.length then ⟨[], now + l.lockout⟩ else ⟨recent, b.lockedUntil⟩

/-- The budget after the events `times`, in their order: what it no longer remembers is a whole
window away from every event it still allows. -/
structure Tracks (l : Limits T) (times : List T) (b : Budget T) : Prop where
  forgotten : ∃ past, times = past ++ b.recent ∧ ∀ t ∈ past, ∀ now,
    (∀ u ∈ times, u ≤ now) → b.lockedUntil ≤ now → t + l.window ≤ now
  room : b.recent.length < l.limit
  within : ∀ (W : Set T) [DecidablePred (· ∈ W)], Narrow l.window W →
    times.countP (fun t => decide (t ∈ W)) ≤ l.limit

variable {l : Limits T} {times : List T} {b : Budget T} {now : T}

theorem tracks_nil (hlimit : 0 < l.limit) (lockedUntil : T) :
    Tracks l [] ⟨[], lockedUntil⟩ where
  forgotten := ⟨[], rfl, fun t ht => absurd ht List.not_mem_nil⟩
  room := hlimit
  within W _ _ := by simp

theorem countP_old {W : Set T} [DecidablePred (· ∈ W)] (hW : Narrow l.window W) (hnow : now ∈ W)
    {old : List T} (hold : ∀ t ∈ old, t + l.window ≤ now) :
    old.countP (fun t => decide (t ∈ W)) = 0 := by
  rw [List.countP_eq_zero]
  intro t ht
  have hout : t ∉ W := fun hmem => absurd (hW t hmem now hnow) (not_lt.mpr (hold t ht))
  simpa using hout

variable [IsOrderedAddMonoid T]

/-- At an instant a budget allows, the events split into those a window away and those kept. -/
theorem Tracks.split (h : Tracks l times b) (hlast : ∀ u ∈ times, u ≤ now)
    (hfree : b.lockedUntil ≤ now) :
    ∃ old, times = old ++ b.recent.dropWhile (fun t => decide (l.window ≤ now - t)) ∧
      ∀ t ∈ old, t + l.window ≤ now := by
  obtain ⟨past, htimes, hpast⟩ := h.forgotten
  refine ⟨past ++ b.recent.takeWhile (fun t => decide (l.window ≤ now - t)), ?_, ?_⟩
  · rw [List.append_assoc, List.takeWhile_append_dropWhile]
    exact htimes
  · intro t ht
    cases List.mem_append.mp ht with
    | inl hold => exact hpast t hold now hlast hfree
    | inr hdropped =>
      have hgap := List.mem_takeWhile_imp hdropped
      exact le_sub_iff_add_le'.mp (of_decide_eq_true hgap)

/-- No window is overfull after one more event. -/
theorem Tracks.within_snoc (h : Tracks l times b) (hlast : ∀ u ∈ times, u ≤ now)
    (hfree : b.lockedUntil ≤ now) {W : Set T} [DecidablePred (· ∈ W)] (hW : Narrow l.window W) :
    (times ++ [now]).countP (fun t => decide (t ∈ W)) ≤ l.limit := by
  by_cases hnow : now ∈ W
  · obtain ⟨old, htimes, hold⟩ := h.split hlast hfree
    set kept := b.recent.dropWhile (fun t => decide (l.window ≤ now - t)) with hkept
    have hlength : kept.length ≤ b.recent.length := (List.dropWhile_sublist _).length_le
    have hroom := h.room
    have hcount : (kept ++ [now]).countP (fun t => decide (t ∈ W)) ≤ (kept ++ [now]).length :=
      List.countP_le_length
    rw [List.length_append, List.length_singleton] at hcount
    rw [htimes, List.append_assoc, List.countP_append, countP_old hW hnow hold]
    omega
  · have hlone : [now].countP (fun t => decide (t ∈ W)) = 0 := by simp [hnow]
    rw [List.countP_append, hlone]
    exact h.within W hW

/-- The invariant of a limiter: one more event at an instant the budget allows. -/
theorem Tracks.spend (h : Tracks l times b) (hlock : l.window ≤ l.lockout)
    (hlast : ∀ u ∈ times, u ≤ now) (hfree : b.lockedUntil ≤ now) :
    Tracks l (times ++ [now]) (l.spend b now) := by
  obtain ⟨old, htimes, hold⟩ := h.split hlast hfree
  have hwithin : ∀ (W : Set T) [DecidablePred (· ∈ W)], Narrow l.window W →
      (times ++ [now]).countP (fun t => decide (t ∈ W)) ≤ l.limit := by
    intro W _ hW
    exact h.within_snoc hlast hfree hW
  unfold Limits.spend
  set kept := b.recent.dropWhile (fun t => decide (l.window ≤ now - t)) with hkept
  by_cases hfull : l.limit ≤ (kept ++ [now]).length
  · simp only [if_pos hfull]
    refine ⟨⟨times ++ [now], (List.append_nil _).symm, ?_⟩, Nat.zero_lt_of_lt h.room, hwithin⟩
    intro t ht later _ hlocked
    have hle : t ≤ now := by
      cases List.mem_append.mp ht with
      | inl hold => exact hlast t hold
      | inr hself => exact (List.mem_singleton.mp hself).le
    exact (add_le_add hle hlock).trans hlocked
  · simp only [if_neg hfull]
    refine ⟨⟨old, ?_, ?_⟩, not_le.mp hfull, hwithin⟩
    · rw [htimes, List.append_assoc]
    · intro t ht later hlater _
      have hnow : now ≤ later := hlater now (List.mem_append.mpr (.inr List.mem_cons_self))
      exact (hold t ht).trans hnow

end Library.SlidingBudget
