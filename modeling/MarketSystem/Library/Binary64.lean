import Mathlib.Algebra.Order.Field.Power
import Mathlib.Data.Int.Log
import Mathlib.Tactic.FieldSimp
import Mathlib.Tactic.Linarith
import Mathlib.Tactic.Ring
import MarketSystem.Library.Grid

/-!
# Binary floating-point numbers

The finite numbers of the 64 bit format, what they stand for, and the one that is nearest to a
rational number. A number of the format is nearest to itself.
-/
namespace Library

/-- A finite number: its sign, its biased exponent and its fraction. -/
structure Binary64 where
  negative : Bool
  exponent : Fin 2047
  fraction : Fin (2 ^ 52)
  deriving DecidableEq

open Grid (nearestEven nearestEven_intCast)

namespace Binary64

/-- The fraction with the leading bit, which a subnormal number has not. -/
def significand (x : Binary64) : ℕ :=
  if x.exponent.val = 0 then x.fraction.val else 2 ^ 52 + x.fraction.val

/-- The power of two that the significand counts. -/
def quantum (x : Binary64) : ℤ := (max x.exponent.val 1 : ℕ) - 1075

def magnitude (x : Binary64) : ℚ := x.significand * 2 ^ x.quantum

def value (x : Binary64) : ℚ := if x.negative then -x.magnitude else x.magnitude

/-! ### Rounding -/

/-- A significand at its quantum; `none` above the largest number. -/
def ofParts (negative : Bool) (s : ℕ) (q : ℤ) : Option Binary64 :=
  if h : s < 2 ^ 52 then some ⟨negative, 0, ⟨s, h⟩⟩
  else if h : (q + 1075).toNat < 2047 then
    some ⟨negative, ⟨(q + 1075).toNat, h⟩, ⟨(s - 2 ^ 52) % 2 ^ 52, Nat.mod_lt _ (by decide)⟩⟩
  else none

/-- The quantum of the numbers around a positive number. -/
def quantumAt (a : ℚ) : ℤ := max (Int.log 2 a - 52) (-1074)

/-- The number nearest to a number that is not negative. -/
def rounded (negative : Bool) (a : ℚ) : Option Binary64 :=
  let q := quantumAt a
  let s := (nearestEven (a * 2 ^ (-q))).toNat
  if s = 2 ^ 53 then ofParts negative (2 ^ 52) (q + 1) else ofParts negative s q

/-- `float` of a rational number. -/
def nearest (a : ℚ) : Option Binary64 := rounded (decide (a < 0)) |a|

/-- Numbers of one quantum round to themselves. -/
theorem rounded_of_quantum {negative : Bool} {s : ℕ} {q : ℤ} (hs : s < 2 ^ 53)
    (hq : quantumAt (s * 2 ^ q) = q) : rounded negative (s * 2 ^ q) = ofParts negative s q := by
  have hinteger : (s : ℚ) * 2 ^ q * 2 ^ (-q) = ((s : ℤ) : ℚ) := by
    rw [mul_assoc, ← zpow_add₀ (by norm_num), add_neg_cancel, zpow_zero, mul_one, Int.cast_natCast]
  unfold rounded
  simp only [hq, hinteger, nearestEven_intCast, Int.toNat_natCast]
  exact if_neg hs.ne

theorem quantumAt_subnormal {s : ℕ} (hs : s < 2 ^ 52) (h0 : s ≠ 0) :
    quantumAt (s * 2 ^ (-1074 : ℤ)) = -1074 := by
  have hs0 : (0 : ℚ) < s := by exact_mod_cast Nat.pos_of_ne_zero h0
  have hpositive : (0 : ℚ) < s * 2 ^ (-1074 : ℤ) := by positivity
  have hlt : (s : ℚ) * 2 ^ (-1074 : ℤ) < 2 ^ (-1022 : ℤ) := by
    have hbits : (s : ℚ) < 2 ^ (52 : ℤ) := by exact_mod_cast hs
    calc (s : ℚ) * 2 ^ (-1074 : ℤ) < 2 ^ (52 : ℤ) * 2 ^ (-1074 : ℤ) := by gcongr
      _ = 2 ^ (-1022 : ℤ) := by rw [← zpow_add₀ (by norm_num)]; rfl
  have hlog : Int.log 2 ((s : ℚ) * 2 ^ (-1074 : ℤ)) < -1022 :=
    (Int.lt_zpow_iff_log_lt (by decide) hpositive).mp (by exact_mod_cast hlt)
  unfold quantumAt
  omega

theorem quantumAt_normal {s : ℕ} {q : ℤ} (hlow : 2 ^ 52 ≤ s) (hhigh : s < 2 ^ 53) (hq : -1074 ≤ q) :
    quantumAt (s * 2 ^ q) = q := by
  have hscale : (0 : ℚ) < 2 ^ q := by positivity
  have hs : (0 : ℚ) < s := by exact_mod_cast (by omega : 0 < s)
  have hge : (2 : ℚ) ^ (52 + q) ≤ s * 2 ^ q := by
    rw [zpow_add₀ (by norm_num)]
    gcongr
    exact_mod_cast hlow
  have hlt : (s : ℚ) * 2 ^ q < 2 ^ (53 + q) := by
    rw [zpow_add₀ (by norm_num)]
    gcongr
    exact_mod_cast hhigh
  have hlogGe : 52 + q ≤ Int.log 2 ((s : ℚ) * 2 ^ q) :=
    (Int.zpow_le_iff_le_log (by decide) (by positivity)).mp (by exact_mod_cast hge)
  have hlogLt : Int.log 2 ((s : ℚ) * 2 ^ q) < 53 + q :=
    (Int.lt_zpow_iff_log_lt (by decide) (by positivity)).mp (by exact_mod_cast hlt)
  unfold quantumAt
  omega

theorem rounded_zero (negative : Bool) : rounded negative 0 = some ⟨negative, 0, 0⟩ := by
  have hzero := @rounded_of_quantum negative 0 (-52) (by decide) (by simp [quantumAt])
  rw [Nat.cast_zero, zero_mul] at hzero
  rw [hzero]
  rfl

/-- A number of the format is nearest to what it stands for. -/
theorem rounded_magnitude (x : Binary64) : rounded x.negative x.magnitude = some x := by
  obtain ⟨negative, ⟨e, he⟩, ⟨f, hf⟩⟩ := x
  cases e with
  | zero =>
    have hmagnitude : magnitude ⟨negative, ⟨0, he⟩, ⟨f, hf⟩⟩ = f * 2 ^ (-1074 : ℤ) := rfl
    rw [hmagnitude]
    by_cases h0 : f = 0
    · subst h0
      rw [Nat.cast_zero, zero_mul]
      exact rounded_zero negative
    · rw [rounded_of_quantum (by omega) (quantumAt_subnormal hf h0)]
      exact dif_pos hf
  | succ e =>
    have hmagnitude : magnitude ⟨negative, ⟨e + 1, he⟩, ⟨f, hf⟩⟩ =
        ((2 ^ 52 + f : ℕ) : ℚ) * 2 ^ ((e : ℤ) - 1074) := by
      have hquantum : quantum ⟨negative, ⟨e + 1, he⟩, ⟨f, hf⟩⟩ = (e : ℤ) - 1074 := by
        simp only [quantum]
        omega
      rw [magnitude, hquantum]
      rfl
    have hexponent : ((e : ℤ) - 1074 + 1075).toNat = e + 1 := by omega
    rw [hmagnitude, rounded_of_quantum (by omega)
      (quantumAt_normal (by omega) (by omega) (by omega))]
    unfold ofParts
    rw [dif_neg (by omega), dif_pos (by omega)]
    simp only [hexponent, Nat.add_sub_cancel_left, Nat.mod_eq_of_lt hf]

end Binary64

end Library
