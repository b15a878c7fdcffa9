import MarketSystem.Agents.TargetPlanner

/-!
# The trade planner of V1

The plan of V1 takes the last visible close, the invalidation as it is, and three times
the risk; it is not put on a grid.
-/
namespace MarketSystem.TradePlanner

open Scouts
open SetupValidator (Assessment)

/-- `crear_trade_plan`. -/
def crearTradePlan (setup : Assessment) (frame : Option Frame) (symbol runId : String)
    (asOf : Instant) : Option TradePlan :=
  if setup.status ≠ .validSetup then none
  else
    match TargetPlanner.entry frame asOf, setup.invalidation, setup.side with
    | some entry, some stop, some side =>
        let plan := fun target => some
          { symbol := symbol, side := side, entry := entry, stop := stop, target := target
            riskReward := 3, runId := some runId, asOf := some asOf, policyVersion := none }
        match side with
        | .long => if stop < entry then plan (entry + 3 * (entry - stop)) else none
        | .short => if entry < stop then plan (entry - 3 * (stop - entry)) else none
    | _, _, _ => none

end MarketSystem.TradePlanner
