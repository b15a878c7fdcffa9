import MarketSystem.Agents.TradePlanner
import MarketSystem.Floor.Riesgo

/-!
# The floor

One run takes the frames of three timeframes through the scouts, the validator, a planner
and the evaluation of risk. The first of them that does not pass gives the final status.
-/
namespace MarketSystem.Orchestrator

open RrContract Scouts MacroNewsAgent SetupValidator TargetPlanner Riesgo
open StructureAgent (StructureReport)
open LiquidityAgent (LiquidityReport)

/-- The policies that a run can be asked to plan with. -/
inductive PlannerPolicy
  | v1
  | v2D
  | v2F3
  deriving DecidableEq, Repr

/-- The frames by timeframe: a timeframe may be missing, or may stand for no frame. -/
abbrev Snapshot := String → Option (Option Frame)

/-- A provider as a run meets it: its events at the time, or what reading them raised. -/
structure Provider where
  events : Instant → Except String (List MacroEvent)
  health : String

inductive FinalStatus
  | noSetup
  | watch
  | planUnavailable
  | planReady
  | riskRejected
  deriving DecidableEq, Repr

structure FloorRunReport where
  runId : String
  asOf : Instant
  symbol : String
  structureReports : Reports StructureReport
  liquidityReports : Reports LiquidityReport
  macroReport : Option (AgentMessage MacroReport)
  setup : Assessment
  plan : Option TradePlan
  decision : Option RiskDecision
  finalStatus : FinalStatus
  warnings : List String
  targetDecision : Option TargetDecision
  deriving DecidableEq

/-- The reports of one scout on the timeframes that are there. -/
def reports {π : Type} (scout : Option Frame → String → AgentMessage π) (snapshot : Snapshot) :
    Reports π :=
  TIMEFRAMES.filterMap (fun timeframe =>
    (snapshot timeframe).map (fun frame => (timeframe, scout frame timeframe)))

/-- The positive amount of an equity that is one. -/
def equityValid : Amount → Bool
  | .finite value => decide (0 < value)
  | .notFinite => true
  | .noNumber => false

section Run

variable (snapshot : Snapshot) (asOf : Instant) (symbol : String) (provider : Provider)
  (instrumento : Option Instrument) (configuracion : Option Configuracion) (equity : Amount)
  (runId : String) (plannerPolicy : PlannerPolicy)

/-- The plan of a valid setup, with the decision of the planners that record one. -/
def planFor (setup : Assessment) : Except String (Option TradePlan × Option TargetDecision) :=
  let frame := (snapshot "5m").bind id
  if plannerPolicy ≠ .v2D ∧ FxPolicy.isFx symbol = true then
    (planFxFixedRr setup frame symbol runId asOf instrumento).map (Prod.map id some)
  else
    match plannerPolicy with
    | .v2D => .ok ((planPolicyD setup frame symbol runId asOf instrumento).map id some)
    | .v2F3 => (planFixed3r setup frame symbol runId asOf instrumento).map (Prod.map id some)
    | .v1 => .ok (TradePlanner.crearTradePlan setup frame symbol runId asOf, none)

/-- `run`; an `error` is an exception. -/
def run : Except String FloorRunReport := do
  if equityValid equity = false then
    let setup : Assessment :=
      { runId := runId, timestamp := asOf, symbol := symbol, status := .noSetup
        warnings := ["equity_invalid"] }
    .ok
      { runId := runId, asOf := asOf, symbol := symbol, structureReports := []
        liquidityReports := [], macroReport := none, setup := setup, plan := none
        decision := none, finalStatus := .noSetup, warnings := setup.warnings
        targetDecision := none }
  else
    let structureReports := reports
      (fun frame timeframe => StructureAgent.analizarEstructura frame symbol timeframe runId asOf)
      snapshot
    let liquidityReports := reports
      (fun frame timeframe => LiquidityAgent.analizarLiquidez frame symbol timeframe runId asOf)
      snapshot
    let macroReport :=
      analizarMacroNews (provider.events asOf) provider.health symbol asOf runId
    let setup := evaluarSetup structureReports liquidityReports (some macroReport) symbol runId asOf
    let report : FloorRunReport :=
      { runId := runId, asOf := asOf, symbol := symbol, structureReports := structureReports
        liquidityReports := liquidityReports, macroReport := some macroReport, setup := setup
        plan := none, decision := none, finalStatus := .noSetup, warnings := setup.warnings
        targetDecision := none }
    match setup.status with
    | .noSetup => .ok report
    | .watch => .ok { report with finalStatus := .watch }
    | .validSetup =>
        let (plan, targetDecision) ←
          planFor snapshot asOf symbol instrumento runId plannerPolicy setup
        let report := { report with targetDecision := targetDecision }
        match plan with
        | none =>
            .ok { report with
              finalStatus := .planUnavailable
              warnings := "plan_unavailable" ::
                (targetDecision.map (fun decision => decision.status.warning)).toList }
        | some plan =>
            let decision := evaluarTradePlan plan equity instrumento configuracion
            .ok { report with
              plan := some plan
              decision := decision
              finalStatus :=
                if decision.map RiskDecision.status = some .approved then .planReady
                else .riskRejected }

end Run

end MarketSystem.Orchestrator
