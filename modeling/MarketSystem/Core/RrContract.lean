import Mathlib.Algebra.Order.Field.Rat
import Mathlib.Data.Rat.Floor
import Mathlib.Tactic.Linarith
import Mathlib.Tactic.FieldSimp
import Mathlib.Tactic.Ring

/-!
# The R:R contract

One authority recomputes risk and reward from price levels. Prices are exact
rationals: the source computes with `Decimal` on the shortest representation of
each price, so no binary float decides a boundary.

A planning policy bounds the planned ratio; the same policy has a wider floor
for the ratio at the actual fill, because stop and target are frozen at
submission and the fill price is not.
-/
namespace MarketSystem

inductive Side
  | long
  | short
  deriving DecidableEq, Repr

namespace Side

/-- A price move counted in the direction of the trade. -/
def signed : Side → ℚ → ℚ
  | long, x => x
  | short, x => -x

def opposite : Side → Side
  | long => short
  | short => long

@[simp] theorem signed_long (x : ℚ) : signed long x = x := rfl

@[simp] theorem signed_short (x : ℚ) : signed short x = -x := rfl

theorem signed_add (side : Side) (x y : ℚ) :
    side.signed (x + y) = side.signed x + side.signed y := by
  cases side <;> simp [signed, add_comm]

theorem abs_signed (side : Side) (x : ℚ) : |side.signed x| = |x| := by
  cases side <;> simp [signed]

end Side

namespace RrContract

/-- The R:R policies of V2. The absence of a policy is the frozen V1 gate. -/
inductive Policy
  | v2D
  | v2F3
  | fx
  deriving DecidableEq, Repr

/-- `POLICY_V2_D`, `POLICY_V2_F3` and `POLICY_FX` as the payloads spell them. -/
def Policy.name : Policy → String
  | .v2D => "V2_P4_D_FIRST_OBSTACLE_2R_5R"
  | .v2F3 => "V2_P4_FIXED_3R"
  | .fx => "V2_FX_SL_CLAMP_2R"

theorem Policy.name_injective : Function.Injective Policy.name := by
  intro p q h
  cases p <;> cases q <;> first | rfl | simp [Policy.name] at h

/-- `FX_TP_RR`: the fixed target of an FX plan, in multiples of its stop distance. -/
def fxTpRr : ℚ := 2

/-- `FX_FILL_RR_FLOOR = FX_TP_RR - FILL_TOLERANCE_R`. -/
def fxFillRrFloor : ℚ := fxTpRr - 1 / 2

/-- `LIMITS`: inclusive floor and ceiling of the planned ratio. -/
def limits : Policy → ℚ × Option ℚ
  | .v2D => (2, some 5)
  | .v2F3 => (3, some 3)
  | .fx => (fxTpRr, some fxTpRr)

/-- `FILL_LIMITS`: floor and ceiling of the ratio at the actual fill. -/
def fillLimits : Policy → ℚ × Option ℚ
  | .v2D => limits .v2D
  | .v2F3 => (5 / 2, none)
  | .fx => (fxFillRrFloor, none)

/-- `FIXED_RR_POLICIES`: the planned ratio is exactly the floor of `limits`. -/
def fixedRr : Policy → Bool
  | .v2D => false
  | .v2F3 => true
  | .fx => true

/-- `to_decimal`: a positive price, or nothing. -/
def toDecimal (value : ℚ) : Option ℚ := if 0 < value then some value else none

theorem toDecimal_eq_some {value number : ℚ} :
    toDecimal value = some number ↔ 0 < value ∧ number = value := by
  unfold toDecimal
  split_ifs with h
  · simp [h, eq_comm]
  · simp [h]

theorem toDecimal_of_pos {value : ℚ} (h : 0 < value) : toDecimal value = some value := by
  simp [toDecimal, h]

/-- Stop, entry and target stand in the order the side requires. -/
def LevelOrder (side : Side) (entry stop target : ℚ) : Prop :=
  match side with
  | .long => stop < entry ∧ entry < target
  | .short => target < entry ∧ entry < stop

instance (side : Side) (entry stop target : ℚ) : Decidable (LevelOrder side entry stop target) := by
  cases side <;> exact inferInstanceAs (Decidable (_ ∧ _))

/-- Valid levels only: a geometry in the wrong order cannot be built. -/
structure Geometry where
  side : Side
  entry : ℚ
  stop : ℚ
  target : ℚ
  entry_pos : 0 < entry
  stop_pos : 0 < stop
  target_pos : 0 < target
  ordered : LevelOrder side entry stop target

namespace Geometry

def risk (g : Geometry) : ℚ :=
  match g.side with
  | .long => g.entry - g.stop
  | .short => g.stop - g.entry

def reward (g : Geometry) : ℚ :=
  match g.side with
  | .long => g.target - g.entry
  | .short => g.entry - g.target

def rr (g : Geometry) : ℚ := g.reward / g.risk

theorem risk_eq (g : Geometry) : g.risk = g.side.signed (g.entry - g.stop) := by
  unfold risk
  cases g.side <;> simp

theorem reward_eq (g : Geometry) : g.reward = g.side.signed (g.target - g.entry) := by
  unfold reward
  cases g.side <;> simp

theorem risk_pos (g : Geometry) : 0 < g.risk := by
  have h := g.ordered
  unfold risk
  cases hs : g.side <;> simp only [hs, LevelOrder] at h ⊢
  · linarith [h.1]
  · linarith [h.2]

theorem reward_pos (g : Geometry) : 0 < g.reward := by
  have h := g.ordered
  unfold reward
  cases hs : g.side <;> simp only [hs, LevelOrder] at h ⊢
  · linarith [h.2]
  · linarith [h.1]

theorem abs_entry_sub_stop (g : Geometry) : |g.entry - g.stop| = g.risk := by
  rw [← Side.abs_signed g.side, ← risk_eq, abs_of_pos g.risk_pos]

theorem reward_eq_rr_mul (g : Geometry) : g.reward = g.rr * g.risk := by
  rw [rr, div_mul_cancel₀ _ g.risk_pos.ne']

/-- With stop and target frozen, risk and reward share one fixed distance. -/
theorem risk_add_reward_eq {g g' : Geometry} (hside : g.side = g'.side)
    (hstop : g.stop = g'.stop) (htarget : g.target = g'.target) :
    g.risk + g.reward = g'.risk + g'.reward := by
  have h : ∀ x : Geometry, x.risk + x.reward = x.side.signed (x.target - x.stop) := by
    intro x
    rw [risk_eq, reward_eq, ← Side.signed_add]
    congr 1
    ring
  rw [h, h, hside, hstop, htarget]

/-- A floor on the actual ratio bounds the actual risk: `(1 + P) / (1 + F)`. -/
theorem risk_le_of_rr_ge {planned actual : Geometry} (hside : actual.side = planned.side)
    (hstop : actual.stop = planned.stop) (htarget : actual.target = planned.target)
    {floor : ℚ} (hfloor : 0 ≤ floor) (hrr : floor ≤ actual.rr) :
    actual.risk ≤ planned.risk * ((1 + planned.rr) / (1 + floor)) := by
  have hsum := risk_add_reward_eq hside hstop htarget
  have hreward : floor * actual.risk ≤ actual.reward := by
    rw [actual.reward_eq_rr_mul]
    exact mul_le_mul_of_nonneg_right hrr actual.risk_pos.le
  have hpos : 0 < 1 + floor := by linarith
  rw [mul_div_assoc', le_div_iff₀ hpos]
  have hplanned : planned.risk * (1 + planned.rr) = planned.risk + planned.reward := by
    rw [planned.reward_eq_rr_mul]
    ring
  linarith

end Geometry

inductive GeometryError
  | invalidNumeric
  | invalidLevelOrder
  deriving DecidableEq, Repr

def GeometryError.reason : GeometryError → String
  | .invalidNumeric => "invalid_numeric"
  | .invalidLevelOrder => "invalid_level_order"

/-- The single recomputation of a geometry from its levels. -/
def geometry (side : Side) (entry stop target : ℚ) : Except GeometryError Geometry :=
  if hpos : 0 < entry ∧ 0 < stop ∧ 0 < target then
    if hord : LevelOrder side entry stop target then
      .ok ⟨side, entry, stop, target, hpos.1, hpos.2.1, hpos.2.2, hord⟩
    else .error .invalidLevelOrder
  else .error .invalidNumeric

theorem geometry_ok {side : Side} {entry stop target : ℚ} {g : Geometry}
    (h : geometry side entry stop target = .ok g) :
    g.side = side ∧ g.entry = entry ∧ g.stop = stop ∧ g.target = target := by
  unfold geometry at h
  split_ifs at h
  cases h
  exact ⟨rfl, rfl, rfl, rfl⟩

theorem geometry_self (g : Geometry) : geometry g.side g.entry g.stop g.target = .ok g := by
  simp [geometry, g.entry_pos, g.stop_pos, g.target_pos, g.ordered]

inductive Band
  | withinPolicy
  | rrBelowFloor
  | outOfPolicyExtendedTarget
  deriving DecidableEq, Repr

/-- `classify`: the exact ratio against an inclusive floor and ceiling. -/
def classify (rr : ℚ) (bounds : ℚ × Option ℚ) : Band :=
  if rr < bounds.1 then .rrBelowFloor
  else match bounds.2 with
    | some ceiling => if rr > ceiling then .outOfPolicyExtendedTarget else .withinPolicy
    | none => .withinPolicy

theorem floor_le_of_within {rr : ℚ} {bounds : ℚ × Option ℚ}
    (h : classify rr bounds = .withinPolicy) : bounds.1 ≤ rr := by
  unfold classify at h
  split_ifs at h with hlt
  exact not_lt.mp hlt

theorem le_ceiling_of_within {rr floor ceiling : ℚ}
    (h : classify rr (floor, some ceiling) = .withinPolicy) : rr ≤ ceiling := by
  unfold classify at h
  dsimp only at h
  split_ifs at h with hlt hgt
  exact not_lt.mp hgt

/-- Under a fixed-multiple policy an accepted plan has exactly the fixed ratio. -/
theorem rr_eq_of_fixed {policy : Policy} (hfixed : fixedRr policy = true) {rr : ℚ}
    (h : classify rr (limits policy) = .withinPolicy) : rr = (limits policy).1 := by
  cases policy with
  | v2D => simp [fixedRr] at hfixed
  | v2F3 => exact le_antisymm (le_ceiling_of_within h) (floor_le_of_within h)
  | fx => exact le_antisymm (le_ceiling_of_within h) (floor_le_of_within h)

/-- `declared_matches`: the declared ratio agrees up to the relative tolerance `1e-9`. -/
def declaredMatches (declared rr : ℚ) : Bool :=
  decide (|declared - rr| ≤ 1 / 10 ^ 9 * max 1 |rr|)

inductive Rounding
  | floor
  | ceiling
  deriving DecidableEq, Repr

/-- `normalize`: the price on the grid of the instrument, rounded in one direction. -/
def normalize (price increment : ℚ) (rounding : Rounding) : Option ℚ :=
  match toDecimal increment, toDecimal price with
  | some step, some value =>
      let units : ℤ := match rounding with
        | .floor => ⌊value / step⌋
        | .ceiling => ⌈value / step⌉
      toDecimal (units * step)
  | _, _ => none

end RrContract

end MarketSystem
