import MarketSystem.Core.RrContract
import MarketSystem.Library.Grid
import MarketSystem.Library.Refusal

/-!
# The EURUSD pullback

A limit rests a fixed distance behind the signal; stop and target are measured from
it. A filled position is scaled out: a third at +0.5R, a third at +1R with the stop to
breakeven, then a stop that trails one R behind the price. All levels are measured from
the limit, the anchor. Prices live on a grid of five decimals.
-/
namespace MarketSystem.EurusdPullback

open Library RrContract

/-- The steps of `Decimal("0.00001")` in one unit of price. -/
def PRICE_STEPS : ℕ := 100000

/-- A price with at most five decimals. -/
abbrev OnGrid (price : ℚ) : Prop := Grid.OnGrid PRICE_STEPS price

/-- `round_fx` and `round_price`: half up, for positive prices only. -/
def roundPrice (price : ℚ) : Option ℚ :=
  if 0 < price then some (Grid.roundHalfUp PRICE_STEPS price) else none

/-! ## Scale-out -/

inductive Stage
  | none
  | half
  | one
  | trail
  deriving DecidableEq, Repr

inductive StepKind
  | partialClose
  | stop
  | mark
  deriving DecidableEq, Repr

/-- One management action. -/
structure ManageStep where
  kind : StepKind
  stage : Stage
  label : String
  journals : List String
  units : Option ℤ := none
  remaining : Option ℤ := none
  stop : Option ℚ := none
  deriving DecidableEq

/-- `_level`. -/
def level (side : Side) (anchor risk multiple : ℚ) : ℚ :=
  match side with
  | .long => anchor + risk * multiple
  | .short => anchor - risk * multiple

/-- `_reached`: the price is at or beyond the level, on the profitable side. -/
def reached (side : Side) (price level : ℚ) : Bool :=
  match side with
  | .long => decide (level ≤ price)
  | .short => decide (price ≤ level)

/-- `trail_stop`: one R behind the price, never worse than the anchor. -/
def trailStop (side : Side) (anchor risk price : ℚ) : ℚ :=
  match side with
  | .long => max (price - risk) anchor
  | .short => min (price + risk) anchor

/-- `_tighter`. -/
def tighter (side : Side) (newStop : ℚ) (current : Option ℚ) : Bool :=
  match current with
  | none => true
  | some current =>
      match side with
      | .long => decide (current < newStop)
      | .short => decide (newStop < current)

/-- `_can_partial`. -/
def canPartial (units remaining : ℤ) : Bool :=
  decide (1 ≤ units / 3 ∧ 1 ≤ remaining - units / 3)

/-- What the partials of one call have done so far. -/
structure Progress where
  left : ℤ
  stage : Stage
  steps : List ManageStep

/-- A partial at a level: from one stage to the next, when the price has reached it. -/
def Progress.takePartial (s : Progress) (side : Side) (units : ℤ) (price at_ : ℚ)
    (source target : Stage) (label : String) : Progress :=
  if s.stage = source ∧ reached side price at_ ∧ canPartial units s.left then
    { left := s.left - units / 3
      stage := target
      steps := s.steps ++ [{ kind := .partialClose
                             stage := target
                             label := label
                             journals := ["PARTIAL_CLOSE"]
                             units := some (units / 3)
                             remaining := some (s.left - units / 3) }] }
  else s

/-- The stop is due after the partials: +1R is reached and no partial is. -/
def Progress.ready (s : Progress) (side : Side) (units : ℤ) (price one : ℚ) : Bool :=
  reached side price one &&
    decide (s.stage = .one ∨ (s.stage = .none ∧ units / 3 < 1) ∨
      (s.stage = .half ∧ canPartial units s.left = false))

/-- The step that takes the stop to breakeven or beyond. -/
def breakevenStep (side : Side) (anchor risk price : ℚ) (stop : Option ℚ) (left : ℤ) :
    ManageStep :=
  let newStop := trailStop side anchor risk price
  let tightens := tighter side newStop stop
  { kind := if tightens then .stop else .mark
    stage := .trail
    label := "BE"
    journals := if tighter side newStop (some anchor) then ["BREAKEVEN", "TRAIL"] else ["BREAKEVEN"]
    remaining := some left
    stop := if tightens then some newStop else none }

/-- `management_steps`. -/
def managementSteps (side : Side) (anchor risk : ℚ) (units : ℤ) (stage : Stage)
    (remaining : Option ℤ) (price : ℚ) (stop : Option ℚ) : List ManageStep :=
  if risk ≤ 0 ∨ units < 1 then []
  else if stage = .trail then
    let newStop := trailStop side anchor risk price
    if tighter side newStop stop then
      [{ kind := .stop, stage := .trail, label := "TRAIL", journals := ["TRAIL"]
         remaining := remaining, stop := some newStop }]
    else []
  else
    let half := level side anchor risk (1 / 2)
    let one := level side anchor risk 1
    let s : Progress := ⟨remaining.getD units, stage, []⟩
    let s := s.takePartial side units price half .none .half "0.5R"
    let s := s.takePartial side units price one .half .one "1R"
    if s.ready side units price one then
      s.steps ++ [breakevenStep side anchor risk price stop s.left]
    else s.steps

/-! ## The plan of a limit -/

def FX_SL_MIN_PIPS : ℚ := 25
def FX_SL_MAX_PIPS : ℚ := 25

/-- `pip_size("EURUSD")`. -/
def pipSize : ℚ := 1 / 10000

inductive SlClamp
  | widened
  | narrowed
  | unchanged
  deriving DecidableEq, Repr

/-- `clamp_stop`: stop, action and structural pips; an `error` is an exception. -/
def clampStop (side : Side) (entry stop : ℚ) : Except String (ℚ × SlClamp × ℚ) :=
  let distance := match side with
    | .long => entry - stop
    | .short => stop - entry
  if distance ≤ 0 then .error "stop must be on the protective side of the entry"
  else
    let pips := distance / pipSize
    let clamped (bound : ℚ) := match side with
      | .long => entry - bound * pipSize
      | .short => entry + bound * pipSize
    if pips < FX_SL_MIN_PIPS then .ok (clamped FX_SL_MIN_PIPS, .widened, pips)
    else if FX_SL_MAX_PIPS < pips then .ok (clamped FX_SL_MAX_PIPS, .narrowed, pips)
    else .ok (stop, .unchanged, pips)

/-- A closed bar: high, low and close. -/
abbrev Bar3 := ℚ × ℚ × ℚ

/-- `_triples`: one unusable bar makes all of them unusable. -/
def triples (rows : List (Option ℚ × Option ℚ × Option ℚ)) : Option (List Bar3) :=
  rows.mapM (fun row =>
    match row with
    | (some high, some low, some close) =>
        if min (min high low) close ≤ 0 then none
        else if high < low ∨ high < max low close ∨ min high close < low then none
        else some (high, low, close)
    | _ => none)

def EMA_PERIOD : ℕ := 200

/-- `ema`: seeded with the simple average, then one close after the other. -/
def ema (closes : List ℚ) (period : ℕ) : Option ℚ :=
  if closes.length < period ∨ period < 1 then none
  else
    let seed := (closes.take period).sum / period
    let weight : ℚ := 2 / (period + 1)
    some ((closes.drop period).foldl (fun value price => price * weight + value * (1 - weight)) seed)

/-- `trend_side`. -/
def trendSide (price emaValue : ℚ) : Option Side :=
  if emaValue < price then some .long else if price < emaValue then some .short else none

/-- `LIMIT_OFFSET`: 12.5 pips. -/
def LIMIT_OFFSET : ℚ := 25 / 2 * pipSize

/-- `limit_price`. -/
def limitPrice (side : Side) (signal : ℚ) : ℚ :=
  match side with
  | .long => signal - LIMIT_OFFSET
  | .short => signal + LIMIT_OFFSET

/-- `round_fx`, which raises on what is no price. -/
def rounder (price : ℚ) : Except String ℚ :=
  match roundPrice price with
  | some rounded => .ok rounded
  | none => .error "price must be a finite positive Decimal"

structure PullbackPlan where
  limit : ℚ
  ema : ℚ
  price : ℚ
  risk : ℚ
  stop : ℚ
  target : ℚ
  slClamp : SlClamp
  structuralPips : ℚ

/-- The limit would be at or past its own stop, or past the structural invalidation. -/
def protective (side : Side) (stop limit : ℚ) : Bool :=
  match side with
  | .long => decide (stop < limit)
  | .short => decide (limit < stop)

/-- `limit_levels`: stop, target, action and pips, or a reason. What it raises becomes
`limit_invalid` in its only caller. -/
def limitLevels (side : Side) (limit structural : ℚ) :
    Except String (ℚ × ℚ × SlClamp × ℚ) := do
  require (protective side structural limit) "limit_through_stop"
  let (clamped, action, pips) ← (clampStop side limit structural).mapError (fun _ => "limit_invalid")
  let stop ← (rounder clamped).mapError (fun _ => "limit_invalid")
  let risk := |limit - stop|
  require (decide (0 < risk) && protective side stop limit) "limit_through_stop"
  let raw := match side with
    | .long => limit + fxTpRr * risk
    | .short => limit - fxTpRr * risk
  require (decide (0 < raw)) "target_invalid"
  let target ← (rounder raw).mapError (fun _ => "limit_invalid")
  require (decide (target = raw)) "target_not_on_price_grid"
  match geometry side limit stop target with
  | .error _ => .error "limit_rr_invalid"
  | .ok shape =>
      require (decide (classify shape.rr (limits .fx) = .withinPolicy)) "limit_rr_invalid"
      pure (stop, target, action, pips)

/-- `geometry_ok`: the limit sits strictly between stop and target. -/
def geometryOk (side : Side) (limit stop target : ℚ) : Bool :=
  match side with
  | .long => decide (stop < limit ∧ limit < target)
  | .short => decide (target < limit ∧ limit < stop)

/-- `plan_pullback`, on the bars of a frame. -/
def planPullback (side : Side) (signal stop target : ℚ)
    (bars : Option (List (Option ℚ × Option ℚ × Option ℚ))) (structural : ℚ) :
    Except String PullbackPlan := do
  require (decide (0 < signal)) "signal_invalid"
  require (decide (0 < stop)) "stop_invalid"
  require (decide (0 < target)) "target_invalid"
  require (decide (0 < structural)) "structural_invalid"
  let parsed := (bars.bind triples).getD []
  require (decide (EMA_PERIOD ≤ parsed.length)) "h1_no_data"
  let closes := parsed.map (·.2.2)
  match ema closes EMA_PERIOD, closes.getLast? with
  | some emaValue, some price =>
      match trendSide price emaValue with
      | none => .error "trend_flat"
      | some allowed =>
          require (decide (allowed = side)) "trend_filter"
          let limit ← (rounder (limitPrice side signal)).mapError (fun _ => "limit_invalid")
          let (newStop, newTarget, action, pips) ← limitLevels side limit structural
          require (geometryOk side limit newStop newTarget) "limit_through_stop"
          pure ⟨limit, emaValue, price, |limit - newStop|, newStop, newTarget, action, pips⟩
  | _, _ => .error "h1_no_data"

/-- `market_anchor`: entry, stop and target moved onto the quote, `none` when it is too far. -/
def marketAnchor (entry stop target quoteFill pip maxPips : ℚ) :
    Except String (Option (ℚ × ℚ × ℚ)) := do
  let fill ← rounder quoteFill
  let delta := fill - entry
  if maxPips < |delta / pip| then pure none
  else
    let newStop ← rounder (stop + delta)
    let newTarget ← rounder (target + delta)
    pure (some (fill, newStop, newTarget))

section Levels

variable {side : Side}

theorem rounder_eq_ok {price rounded : ℚ} : rounder price = .ok rounded ↔
    0 < price ∧ rounded = Grid.roundHalfUp PRICE_STEPS price := by
  unfold rounder roundPrice
  split_ifs with hpos
  · simp [hpos, eq_comm]
  · simp [hpos]

/-- The levels of a limit: the target is twice as far as the stop, on the other side. -/
theorem limitLevels_ok {limit structural stop target pips : ℚ} {action : SlClamp}
    (h : limitLevels side limit structural = .ok (stop, target, action, pips)) :
    target - limit = fxTpRr * (limit - stop) ∧ geometryOk side limit stop target = true := by
  unfold limitLevels at h
  obtain ⟨-, -, h⟩ := bind_eq_ok.mp h
  obtain ⟨⟨clamped, action', pips'⟩, -, h⟩ := bind_eq_ok.mp h
  obtain ⟨stop', -, h⟩ := bind_eq_ok.mp h
  obtain ⟨_, hprotective, h⟩ := bind_eq_ok.mp h
  obtain ⟨-, -, h⟩ := bind_eq_ok.mp h
  obtain ⟨target', -, h⟩ := bind_eq_ok.mp h
  obtain ⟨_, hraw, h⟩ := bind_eq_ok.mp h
  have hraw := of_decide_eq_true (require_eq_ok.mp hraw)
  cases hshape : geometry side limit stop' target' with
  | error e =>
    rw [hshape] at h
    cases h
  | ok shape =>
    rw [hshape] at h
    obtain ⟨-, -, h⟩ := bind_eq_ok.mp h
    cases h
    have hside := require_eq_ok.mp hprotective
    simp only [Bool.and_eq_true, decide_eq_true_eq] at hside
    cases side with
    | long =>
      have hlt : stop < limit := by simpa [protective] using hside.2
      rw [abs_of_pos (sub_pos.mpr hlt)] at hraw
      have htwo : fxTpRr = 2 := rfl
      refine ⟨by rw [hraw]; ring, ?_⟩
      simp only [geometryOk, decide_eq_true_eq]
      exact ⟨hlt, by rw [hraw, htwo]; linarith⟩
    | short =>
      have hlt : limit < stop := by simpa [protective] using hside.2
      rw [abs_of_neg (sub_neg.mpr hlt)] at hraw
      have htwo : fxTpRr = 2 := rfl
      refine ⟨by rw [hraw]; ring, ?_⟩
      simp only [geometryOk, decide_eq_true_eq]
      exact ⟨by rw [hraw, htwo]; linarith, hlt⟩

/-- A plan carries the levels of its limit. -/
theorem planPullback_ok {signal stop target structural : ℚ}
    {bars : Option (List (Option ℚ × Option ℚ × Option ℚ))} {plan : PullbackPlan}
    (h : planPullback side signal stop target bars structural = .ok plan) :
    plan.target - plan.limit = fxTpRr * (plan.limit - plan.stop) ∧
      geometryOk side plan.limit plan.stop plan.target = true := by
  unfold planPullback at h
  obtain ⟨-, -, h⟩ := bind_eq_ok.mp h
  obtain ⟨-, -, h⟩ := bind_eq_ok.mp h
  obtain ⟨-, -, h⟩ := bind_eq_ok.mp h
  obtain ⟨-, -, h⟩ := bind_eq_ok.mp h
  obtain ⟨-, -, h⟩ := bind_eq_ok.mp h
  dsimp only at h
  split at h
  · split at h
    · cases h
    · obtain ⟨-, -, h⟩ := bind_eq_ok.mp h
      obtain ⟨limit, -, h⟩ := bind_eq_ok.mp h
      obtain ⟨⟨newStop, newTarget, action, pips⟩, hlevels, h⟩ := bind_eq_ok.mp h
      obtain ⟨-, -, h⟩ := bind_eq_ok.mp h
      cases h
      exact limitLevels_ok hlevels
  · cases h

/-- On the grid the market anchor moves all three prices by one amount. -/
theorem marketAnchor_ok {entry stop target quoteFill pip maxPips : ℚ} (hentry : OnGrid entry)
    (hstop : OnGrid stop) (htarget : OnGrid target) {entry' stop' target' : ℚ}
    (h : marketAnchor entry stop target quoteFill pip maxPips = .ok (some (entry', stop', target'))) :
    entry' - stop' = entry - stop ∧ target' - entry' = target - entry := by
  unfold marketAnchor at h
  obtain ⟨fill, hfill, h⟩ := bind_eq_ok.mp h
  dsimp only at h
  split_ifs at h
  · cases h
  · obtain ⟨newStop, hnewStop, h⟩ := bind_eq_ok.mp h
    obtain ⟨newTarget, hnewTarget, h⟩ := bind_eq_ok.mp h
    cases h
    have hgrid : OnGrid entry' := by
      rw [(rounder_eq_ok.mp hfill).2]
      exact Grid.onGrid_roundHalfUp ..
    have hdelta : OnGrid (entry' - entry) := hgrid.sub hentry
    have hstop' : stop' = stop + (entry' - entry) := by
      rw [(rounder_eq_ok.mp hnewStop).2]
      exact Grid.roundHalfUp_of_onGrid (by decide) (hstop.add hdelta)
    have htarget' : target' = target + (entry' - entry) := by
      rw [(rounder_eq_ok.mp hnewTarget).2]
      exact Grid.roundHalfUp_of_onGrid (by decide) (htarget.add hdelta)
    rw [hstop', htarget']
    constructor <;> ring

/-- Whether the levels stand in order depends on their distances only. -/
theorem geometryOk_of_distances {entry stop target entry' stop' target' : ℚ}
    (hrisk : entry' - stop' = entry - stop) (hreward : target' - entry' = target - entry) :
    geometryOk side entry' stop' target' = geometryOk side entry stop target := by
  unfold geometryOk
  cases side with
  | long =>
    rw [decide_eq_decide]
    constructor <;> rintro ⟨h1, h2⟩ <;> constructor <;> linarith
  | short =>
    rw [decide_eq_decide]
    constructor <;> rintro ⟨h1, h2⟩ <;> constructor <;> linarith

end Levels

end MarketSystem.EurusdPullback
