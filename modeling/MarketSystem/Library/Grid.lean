import Mathlib.Algebra.Order.Floor.Ring
import Mathlib.Data.Rat.Floor
import Mathlib.Tactic.FieldSimp
import Mathlib.Tactic.Linarith
import Mathlib.Tactic.Positivity

/-!
# Rounding onto a grid of decimals

Numbers are rounded to a fixed number of steps in one unit, half up or half to even. Rounding
is monotone and leaves the grid alone, so what lies on one side of a grid point still
does after it is rounded; half to even it moves a number by half a step at most.
-/
namespace Library.Grid

/-- Half up, to multiples of `1 / n`. -/
def roundHalfUp (n : ℕ) (x : ℚ) : ℚ := ⌊x * n + 1 / 2⌋ / n

/-- A multiple of `1 / n`. -/
def OnGrid (n : ℕ) (x : ℚ) : Prop := ∃ k : ℤ, x = k / n

variable {n : ℕ} {x y : ℚ}

theorem onGrid_roundHalfUp (n : ℕ) (x : ℚ) : OnGrid n (roundHalfUp n x) := ⟨_, rfl⟩

theorem OnGrid.add (hx : OnGrid n x) (hy : OnGrid n y) : OnGrid n (x + y) := by
  obtain ⟨k, rfl⟩ := hx
  obtain ⟨l, rfl⟩ := hy
  exact ⟨k + l, by push_cast; ring⟩

theorem OnGrid.sub (hx : OnGrid n x) (hy : OnGrid n y) : OnGrid n (x - y) := by
  obtain ⟨k, rfl⟩ := hx
  obtain ⟨l, rfl⟩ := hy
  exact ⟨k - l, by push_cast; ring⟩

theorem roundHalfUp_of_onGrid (hn : 0 < n) (h : OnGrid n x) : roundHalfUp n x = x := by
  obtain ⟨k, rfl⟩ := h
  have hn' : (n : ℚ) ≠ 0 := Nat.cast_ne_zero.mpr hn.ne'
  have hfloor : ⌊(k : ℚ) / n * n + 1 / 2⌋ = k := by
    rw [div_mul_cancel₀ _ hn', Int.floor_eq_iff]
    constructor <;> linarith
  unfold roundHalfUp
  rw [hfloor]

theorem roundHalfUp_mono (n : ℕ) (h : x ≤ y) : roundHalfUp n x ≤ roundHalfUp n y := by
  unfold roundHalfUp
  gcongr

/-- A grid point stays below what it was below. -/
theorem le_roundHalfUp (hn : 0 < n) (hx : OnGrid n x) (h : x ≤ y) : x ≤ roundHalfUp n y :=
  (roundHalfUp_of_onGrid hn hx).symm.trans_le (roundHalfUp_mono n h)

theorem roundHalfUp_le (hn : 0 < n) (hy : OnGrid n y) (h : x ≤ y) : roundHalfUp n x ≤ y :=
  (roundHalfUp_mono n h).trans_eq (roundHalfUp_of_onGrid hn hy)

/-! ### Half to even -/

/-- The nearest integer, and of two that are equally near the even one. -/
def nearestEven (x : ℚ) : ℤ :=
  if x - ⌊x⌋ < 1 / 2 ∨ x - ⌊x⌋ = 1 / 2 ∧ ⌊x⌋ % 2 = 0 then ⌊x⌋ else ⌊x⌋ + 1

/-- Half to even, to multiples of `1 / n`. -/
def roundHalfEven (n : ℕ) (x : ℚ) : ℚ := nearestEven (x * n) / n

theorem floor_le_nearestEven (x : ℚ) : ⌊x⌋ ≤ nearestEven x := by
  unfold nearestEven
  split_ifs <;> omega

theorem nearestEven_le_floor_add_one (x : ℚ) : nearestEven x ≤ ⌊x⌋ + 1 := by
  unfold nearestEven
  split_ifs <;> omega

theorem nearestEven_intCast (k : ℤ) : nearestEven k = k := by
  unfold nearestEven
  rw [Int.floor_intCast, sub_self]
  exact if_pos (.inl (by norm_num))

theorem nearestEven_mono (h : x ≤ y) : nearestEven x ≤ nearestEven y := by
  have hfloor : ⌊x⌋ ≤ ⌊y⌋ := Int.floor_mono h
  cases hfloor.lt_or_eq with
  | inl hlt =>
    have hx := nearestEven_le_floor_add_one x
    have hy := floor_le_nearestEven y
    omega
  | inr heq =>
    unfold nearestEven
    rw [heq]
    split_ifs with hx hy hy
    · exact le_rfl
    · omega
    · exfalso
      refine hx ?_
      obtain hy | ⟨hy, heven⟩ := hy
      · exact .inl (by linarith)
      · cases (show x - ⌊y⌋ ≤ 1 / 2 by linarith).lt_or_eq with
        | inl hlt => exact .inl hlt
        | inr hhalf => exact .inr ⟨hhalf, heven⟩
    · exact le_rfl

theorem abs_nearestEven_sub_le (x : ℚ) : |nearestEven x - x| ≤ 1 / 2 := by
  have hfloor := Int.floor_le x
  have hnext := Int.lt_floor_add_one x
  unfold nearestEven
  split_ifs with h
  · rw [abs_le]
    constructor
    · obtain h | ⟨h, -⟩ := h <;> linarith
    · linarith
  · rw [not_or, not_lt] at h
    push_cast
    rw [abs_le]
    constructor
    · linarith
    · linarith [h.1]

theorem onGrid_roundHalfEven (n : ℕ) (x : ℚ) : OnGrid n (roundHalfEven n x) := ⟨_, rfl⟩

theorem roundHalfEven_of_onGrid (hn : 0 < n) (h : OnGrid n x) : roundHalfEven n x = x := by
  obtain ⟨k, rfl⟩ := h
  have hn' : (n : ℚ) ≠ 0 := Nat.cast_ne_zero.mpr hn.ne'
  unfold roundHalfEven
  rw [div_mul_cancel₀ _ hn', nearestEven_intCast]

theorem roundHalfEven_mono (n : ℕ) (h : x ≤ y) : roundHalfEven n x ≤ roundHalfEven n y := by
  have hscaled : x * n ≤ y * n := by gcongr
  have hround : (nearestEven (x * n) : ℚ) ≤ nearestEven (y * n) := by
    exact_mod_cast nearestEven_mono hscaled
  unfold roundHalfEven
  gcongr

/-- A positive number of the grid is a step at least. -/
theorem OnGrid.step_le (hn : 0 < n) (hx : OnGrid n x) (h : 0 < x) : 1 / n ≤ x := by
  obtain ⟨k, rfl⟩ := hx
  have hn' : (0 : ℚ) < n := by exact_mod_cast hn
  have hk : (0 : ℚ) < k := by
    by_contra hneg
    exact absurd h (not_lt.mpr (div_nonpos_of_nonpos_of_nonneg (not_lt.mp hneg) hn'.le))
  have hk0 : 0 < k := by exact_mod_cast hk
  have hk1 : (1 : ℚ) ≤ k := by exact_mod_cast Int.add_one_le_of_lt hk0
  gcongr

/-- Half a step is all that rounding moves a number. -/
theorem abs_roundHalfEven_sub_le (hn : 0 < n) (x : ℚ) : |roundHalfEven n x - x| ≤ 1 / (2 * n) := by
  have hn' : (0 : ℚ) < n := by exact_mod_cast hn
  have hscaled : roundHalfEven n x - x = (nearestEven (x * n) - x * n) / n := by
    unfold roundHalfEven
    field_simp
  rw [hscaled, abs_div, abs_of_pos hn', div_le_iff₀ hn']
  calc |(nearestEven (x * n) : ℚ) - x * n| ≤ 1 / 2 := abs_nearestEven_sub_le _
    _ = 1 / (2 * n) * n := by field_simp

end Library.Grid
