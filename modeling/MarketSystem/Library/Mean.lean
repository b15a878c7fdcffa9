import Mathlib.Algebra.BigOperators.Group.List.Basic
import Mathlib.Algebra.Order.BigOperators.Group.List
import Mathlib.Algebra.Order.Field.Rat
import Mathlib.Algebra.Order.Ring.Abs
import Mathlib.Tactic.FieldSimp
import Mathlib.Tactic.Linarith
import Mathlib.Tactic.Ring

/-!
# Means

The mean of a list lies between its bounds, and that of two lists together is a mix of the two
means. A mix of numbers that are off by a little is off by little more, as long as what is mixed is
not far apart.
-/
namespace Library

def mean (xs : List ℚ) : ℚ := xs.sum / xs.length

/-- A part `p` of one number and the rest of another. -/
def mix (p a b : ℚ) : ℚ := p * a + (1 - p) * b

section Mean

variable {xs ys zs : List ℚ} {a : ℚ}

theorem length_cast_pos (h : xs ≠ []) : (0 : ℚ) < xs.length := by
  exact_mod_cast List.length_pos_iff.mpr h

theorem le_mean (hne : xs ≠ []) (h : ∀ x ∈ xs, a ≤ x) : a ≤ mean xs := by
  have hsum := List.card_nsmul_le_sum xs a h
  rw [nsmul_eq_mul, mul_comm] at hsum
  rw [mean, le_div_iff₀ (length_cast_pos hne)]
  exact hsum

theorem mean_le (hne : xs ≠ []) (h : ∀ x ∈ xs, x ≤ a) : mean xs ≤ a := by
  have hsum := List.sum_le_card_nsmul xs a h
  rw [nsmul_eq_mul, mul_comm] at hsum
  rw [mean, div_le_iff₀ (length_cast_pos hne)]
  exact hsum

theorem sum_eq (h : xs ≠ []) : xs.sum = xs.length * mean xs := by
  have hlength := (length_cast_pos h).ne'
  unfold mean
  field_simp

/-- The mean of two lists together. -/
theorem mean_eq_mix (h : xs.Perm (ys ++ zs)) (hys : ys ≠ []) (hzs : zs ≠ []) :
    mean xs = mix (ys.length / xs.length) (mean ys) (mean zs) := by
  have hsum : xs.sum = ys.length * mean ys + zs.length * mean zs := by
    rw [h.sum_eq, List.sum_append, sum_eq hys, sum_eq hzs]
  have hlength : (xs.length : ℚ) = ys.length + zs.length := by
    rw [h.length_eq, List.length_append]
    exact Nat.cast_add _ _
  have hpos : (0 : ℚ) < xs.length := by
    rw [hlength]
    exact add_pos (length_cast_pos hys) (length_cast_pos hzs)
  have hrest : (zs.length : ℚ) = xs.length - ys.length := by linarith
  unfold mix
  rw [mean, hsum, hrest]
  field_simp

end Mean

section Mix

variable {p p' a a' b b' m m' e : ℚ}

/-- What the errors of the parts do to the whole. -/
theorem abs_sub_mix_le (hm : m = mix p a b) (hm' : |m' - m| ≤ e) (hp : |p' - p| ≤ e)
    (ha : |a' - a| ≤ e) (hb : |b' - b| ≤ e) (h0 : 0 ≤ p') (h1 : p' ≤ 1) :
    |m' - mix p' a' b'| ≤ 2 * e + e * |a - b| := by
  have hsplit : m' - mix p' a' b' =
      (m' - m) - (p' - p) * (a - b) - (p' * (a' - a) + (1 - p') * (b' - b)) := by
    rw [hm]
    unfold mix
    ring
  have hshare : |(p' - p) * (a - b)| ≤ e * |a - b| := by
    rw [abs_mul]
    gcongr
  have hparts : |p' * (a' - a) + (1 - p') * (b' - b)| ≤ e := by
    calc |p' * (a' - a) + (1 - p') * (b' - b)|
        ≤ |p' * (a' - a)| + |(1 - p') * (b' - b)| := abs_add_le _ _
      _ = p' * |a' - a| + (1 - p') * |b' - b| := by
          rw [abs_mul, abs_mul, abs_of_nonneg h0, abs_of_nonneg (sub_nonneg.mpr h1)]
      _ ≤ p' * e + (1 - p') * e := by
          gcongr
      _ = e := by ring
  rw [hsplit]
  calc |(m' - m) - (p' - p) * (a - b) - (p' * (a' - a) + (1 - p') * (b' - b))|
      ≤ |(m' - m) - (p' - p) * (a - b)| + |p' * (a' - a) + (1 - p') * (b' - b)| := abs_sub _ _
    _ ≤ |m' - m| + |(p' - p) * (a - b)| + |p' * (a' - a) + (1 - p') * (b' - b)| := by
        gcongr
        exact abs_sub _ _
    _ ≤ e + e * |a - b| + e := by gcongr
    _ = 2 * e + e * |a - b| := by ring

end Mix

end Library
