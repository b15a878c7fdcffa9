import MarketSystem.Floor.ApprovedPlan

/-!
# The replay engine

A decision is simulated on its own: the fill at the open of the first 5m bar that starts at
or after the slot, the ratio of the policy's fill gate, and the exit by the precedence of
position management. There is no account, so nothing is compared with an equity.
-/
namespace MarketSystem.Replay

open RrContract Riesgo

/-- The policies of `POLICIES`. -/
inductive ReplayPolicy
  | v1
  | v2D
  deriving DecidableEq, Repr

/-- `rr_policy` of the broker that fills under the same policy. -/
def ReplayPolicy.rrPolicy : ReplayPolicy → Option Policy
  | .v1 => none
  | .v2D => some .v2D

/-- `POLICIES`: the configuration that sizes the plans of a policy. -/
def ReplayPolicy.configuracion : ReplayPolicy → Configuracion
  | .v1 => configuracionRiesgoV2
  | .v2D => configuracionRiesgoPhase4

inductive Fill
  | noFillData
  | fillRejected
  | filled
  deriving DecidableEq, Repr

inductive Outcome
  | notApplicable
  | target
  | stop
  | open
  deriving DecidableEq, Repr

/-- The five values that `simulate` returns. -/
structure Simulated where
  fill : Fill
  fillPrice : Option ℚ
  outcome : Outcome
  exitAt : Option Instant
  rMultiple : Option ℚ
  deriving DecidableEq, Repr

/-- `_fill_rejected`. -/
def fillRejected (policy : ReplayPolicy) (side : Side) (fillPrice stop target : ℚ) : Bool :=
  let risk : ℚ := match side with
    | .long => fillPrice - stop
    | .short => stop - fillPrice
  let reward : ℚ := match side with
    | .long => target - fillPrice
    | .short => fillPrice - target
  if risk ≤ 0 ∨ reward ≤ 0 then true
  else match policy with
    | .v1 => decide (reward / risk < 3)
    | .v2D =>
        match geometry side fillPrice stop target with
        | .error _ => true
        | .ok shape => decide (classify shape.rr (fillLimits .v2D) ≠ .withinPolicy)

/-- The loop of `simulate` over the bars after the fill. -/
def walk (side : Side) (fillPrice stop target : ℚ) : List Bar → Outcome × Option Instant × Option ℚ
  | [] => (.open, none, none)
  | bar :: bars =>
      let gapStop := match side with
        | .long => decide (bar.open_ ≤ stop)
        | .short => decide (bar.open_ ≥ stop)
      let gapTarget := match side with
        | .long => decide (bar.open_ ≥ target)
        | .short => decide (bar.open_ ≤ target)
      let stopHit := match side with
        | .long => decide (bar.low ≤ stop)
        | .short => decide (bar.high ≥ stop)
      let targetHit := match side with
        | .long => decide (bar.high ≥ target)
        | .short => decide (bar.low ≤ target)
      let exitPrice : Option ℚ :=
        if gapStop || gapTarget then some bar.open_
        else if stopHit then some stop
        else if targetHit then some target
        else none
      match exitPrice with
      | none => walk side fillPrice stop target bars
      | some price =>
          let outcome := if gapStop || (!gapTarget && stopHit) then Outcome.stop else .target
          let move := match side with
            | .long => price - fillPrice
            | .short => fillPrice - price
          (outcome, some bar.timestamp, some (move / |fillPrice - stop|))

/-- `simulate`: only the bars that start at or after the slot are used. -/
def simulate (policy : ReplayPolicy) (frame5m : List Bar) (slot : Instant) (side : Side)
    (stop target : ℚ) : Simulated :=
  match frame5m.filter (fun bar => decide (slot ≤ bar.timestamp)) with
  | [] => ⟨.noFillData, none, .notApplicable, none, none⟩
  | first :: later =>
      if fillRejected policy side first.open_ stop target then
        ⟨.fillRejected, some first.open_, .notApplicable, none, none⟩
      else
        let (outcome, exitAt, rMultiple) := walk side first.open_ stop target later
        ⟨.filled, some first.open_, outcome, exitAt, rMultiple⟩

/-- The price a simulated trade leaves at, read off its multiple of the risk. -/
def Simulated.exitPrice (s : Simulated) (side : Side) (stop : ℚ) : Option ℚ :=
  match s.fillPrice, s.rMultiple with
  | some fillPrice, some r => some (fillPrice + side.signed (r * |fillPrice - stop|))
  | _, _ => none

end MarketSystem.Replay
