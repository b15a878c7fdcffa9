import MarketSystem.Ai.Agents
import MarketSystem.Runtime.PaperContracts

/-!
# The advisory layer of a cycle

`run` puts five reviews on top of a floor report that is final already. A review can lower
the status of a plan, and a plan is eligible for PAPER only with all five of them. Where
the macro review has no data the floor and the reviews are run once more.
-/
namespace MarketSystem.Ai

open Library RrContract
open Scouts (AgentMessage AgentStatus)

/-- A report of the floor, with what the reviews read of it. -/
structure DeterministicReport extends FloorReport where
  asOf : Instant
  structureReports : List (String × AgentMessage StructurePayload)
  liquidityReports : List (String × AgentMessage LiquidityPayload)
  macroNewsReport : Option (AgentMessage MacroPayload)
  setup : Option SetupView
  invalidation : Json
  warnings : List String

/-- `apply_paper_quantity_increment` on the whole report. -/
def DeterministicReport.applyPaperQuantityIncrement (report : DeterministicReport)
    (instrument : Option Instrument) : Except String DeterministicReport :=
  (PaperContracts.applyPaperQuantityIncrement report.toFloorReport instrument).map
    (fun floor => { report with toFloorReport := floor })

structure AIFloorReport where
  schemaVersion : String
  runId : String
  asOf : Instant
  symbol : String
  aiStructure : AIResponse
  aiLiquidity : AIResponse
  aiMacro : AIResponse
  aiSetupReview : AIResponse
  tradePlan : Option TradePlan
  aiTradeReview : Option AIResponse
  riskDecision : Option RiskDecision
  finalStatus : String
  warnings : List String

/-- `_final_status`. -/
def finalStatus (report : DeterministicReport) (aiSetupReview : AIResponse)
    (aiTradeReview : Option AIResponse) : String :=
  if "equity_invalid" ∈ report.warnings then "NO_DATA"
  else if report.finalStatus ∉ VALID_FLOOR_STATUSES then "ERROR"
  else if report.finalStatus = "PLAN_READY" then
    if aiSetupReview.recommendation = some "DISAGREE"
        ∨ aiTradeReview.bind (·.recommendation) = some "REJECT_RECOMMENDATION" then "AI_CAUTION"
    else report.finalStatus
  else report.finalStatus

section Cycle

variable (outside : Outside) (deadline : Option ℚ)

/-- The trade review, where there is a plan. -/
def tradeReview (report : DeterministicReport) (aiStructure aiLiquidity aiMacro : AIResponse) :
    Fallible Cycle (Option AIResponse) :=
  match report.tradePlan with
  | none => pure none
  | some plan => do
      let response ← callAgent outside deadline (tradeReviewRequest report.runId report.asOf
        report.symbol plan report.invalidation aiStructure aiLiquidity aiMacro)
      pure (some response)

/-- `run`. -/
def run (report : DeterministicReport) : Fallible Cycle AIFloorReport := do
  let aiStructure ← structureReview outside deadline
    (structureRequest report.runId report.asOf report.symbol report.structureReports)
  let aiLiquidity ← liquidityReview outside deadline
    (liquidityRequest report.runId report.asOf report.symbol report.liquidityReports)
  let aiMacro ← macroReview outside deadline
    (macroRequest report.runId report.asOf report.symbol report.macroNewsReport)
  let aiSetupReview ← callAgent outside deadline (setupReviewRequest report.runId report.asOf
    report.symbol report.setup aiStructure aiLiquidity aiMacro)
  let aiTradeReview ← tradeReview outside deadline report aiStructure aiLiquidity aiMacro
  pure
    { schemaVersion := AI_SCHEMA_VERSION
      runId := report.runId
      asOf := report.asOf
      symbol := report.symbol
      aiStructure := aiStructure
      aiLiquidity := aiLiquidity
      aiMacro := aiMacro
      aiSetupReview := aiSetupReview
      tradePlan := report.tradePlan
      aiTradeReview := aiTradeReview
      riskDecision := report.riskDecision
      finalStatus := finalStatus report aiSetupReview aiTradeReview
      warnings := (report.warnings ++ aiStructure.warnings ++ aiLiquidity.warnings
        ++ aiMacro.warnings ++ aiSetupReview.warnings
        ++ (aiTradeReview.map (·.warnings)).getD []).reverse.dedup.reverse }

/-- `paper_policy`, for data that are current. -/
def paperPolicy (ai : AIFloorReport) : Bool :=
  if ai.finalStatus ≠ "PLAN_READY" then false
  else match ai.riskDecision, ai.tradePlan, ai.aiTradeReview with
    | some decision, some _, some aiTradeReview =>
        decide (decision.status = .approved ∧ ai.aiStructure.Usable ∧ ai.aiLiquidity.Usable
          ∧ ai.aiMacro.Usable ∧ ai.aiSetupReview.Usable ∧ aiTradeReview.Usable)
    | _, _, _ => false

/-- `ai_healthy` of a cycle: what a pending order needs to make progress. -/
def aiHealthy (ai : AIFloorReport) : Bool :=
  decide (ai.aiStructure.Usable ∧ ai.aiLiquidity.Usable ∧ ai.aiMacro.Usable
    ∧ ai.aiSetupReview.Usable)

/-- `_macro_review_matters`; whether an order of the symbol is pending is read from the
store, which may fail. -/
def macroReviewMatters (pending : Bool) (ai : AIFloorReport) (report : DeterministicReport) :
    Fallible Cycle Bool :=
  if ai.aiMacro.status ≠ "NO_DATA" then pure false
  else if report.finalStatus = "PLAN_READY" then pure true
  else Fallible.access "OperationalError" (fun c => (pending, c))

/-- The macro report of a second run has something for a review to interpret. -/
def macroUsable (report : Option (AgentMessage MacroPayload)) : Bool :=
  match payloadOf report with
  | none => false
  | some payload => !payload.macroEvents.isEmpty || !payload.newsItems.isEmpty

/-- `_retry_macro_review`: the report and the reviews that the cycle goes on with, and
whether the macro review is still missing. -/
def retryMacroReview (instrument : Option Instrument) (rerun : Except String DeterministicReport)
    (report : DeterministicReport) (ai : AIFloorReport) :
    Fallible Cycle (DeterministicReport × AIFloorReport × Bool) := do
  let rerun ← Fallible.ofExcept rerun
  let retried ← Fallible.ofExcept (rerun.applyPaperQuantityIncrement instrument)
  if macroUsable retried.macroNewsReport = true then
    Fallible.modify (fun c => { c with audit := [] })
    let retriedAi ← run outside deadline retried
    pure (retried, retriedAi, decide (¬ retriedAi.aiMacro.Usable))
  else pure (report, ai, true)

/-- The floor and the reviews of one cycle. `first` is what the floor gives, and `rerun` what
it gives when it is asked again, with another reading of the macro provider. -/
def aiCycle (instrument : Option Instrument) (first rerun : Except String DeterministicReport)
    (pending : Bool) : Fallible Cycle (DeterministicReport × AIFloorReport) := do
  let report ← Fallible.ofExcept first
  let report ← Fallible.ofExcept (report.applyPaperQuantityIncrement instrument)
  let ai ← run outside deadline report
  let macroUnhealthy ← macroReviewMatters pending ai report
  if macroUnhealthy = true then
    let (report, ai, _) ← retryMacroReview outside deadline instrument rerun report ai
    pure (report, ai)
  else pure (report, ai)

end Cycle

end MarketSystem.Ai
