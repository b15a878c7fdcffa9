import MarketSystem.Core.FxPolicy
import MarketSystem.Execution.PaperBroker

/-!
# Risk of a plan

The declared ratio is not trusted: it is recomputed from the levels and has to be within
the policy. The quantity is bounded by the risk and by the capital.
-/
namespace MarketSystem.Riesgo

open RrContract

/-- A value that is meant to be an amount of money. -/
inductive Amount
  | finite (value : ℚ)
  /-- A positive infinity or no number at all, in a float. -/
  | notFinite
  | noNumber
  deriving DecidableEq

/-- `rr_policy` of a configuration. -/
inductive RrPolicy
  | v1
  | v2 (policy : Policy)
  | unknown
  deriving DecidableEq

structure Configuracion where
  riesgoPorOperacionPct : ℚ
  maximoCapitalPct : ℚ
  ratioMinimo : ℚ
  rrPolicy : RrPolicy := .v1

/-- The policy that judges the plan: an FX plan has its own contract. -/
def judgingPolicy (plan : TradePlan) (configuracion : Configuracion) : RrPolicy :=
  if plan.policyVersion = some .fx ∧ FxPolicy.isFx plan.symbol = true
      ∧ (configuracion.rrPolicy = .v1 ∨ configuracion.rrPolicy = .v2 .v2F3) then .v2 .fx
  else configuracion.rrPolicy

def rejected (plan : TradePlan) (reason : String) : RiskDecision where
  status := .rejected
  symbol := plan.symbol
  side := plan.side
  quantity := none
  capitalAtRisk := none
  entry := plan.entry
  stop := plan.stop
  target := plan.target
  reason := reason

/-- The reason for which the policy refuses the plan, before the levels are recomputed. -/
def policyRefusal (plan : TradePlan) (configuracion : Configuracion) : Option String :=
  match judgingPolicy plan configuracion with
  | .v1 => if plan.riskReward < configuracion.ratioMinimo then some "rr_below_minimum" else none
  | .v2 policy => if plan.policyVersion ≠ some policy then some "rr_policy_mismatch" else none
  | .unknown => some "rr_policy_unknown"

/-- The reason for which the recomputed ratio is refused. -/
def ratioRefusal (plan : TradePlan) (configuracion : Configuracion) (rr : ℚ) : Option String :=
  if declaredMatches plan.riskReward rr = false then some "rr_declared_mismatch"
  else
    match judgingPolicy plan configuracion with
    | .v2 policy =>
        match classify rr (limits policy) with
        | .withinPolicy => none
        | .rrBelowFloor => some "rr_below_minimum"
        | .outOfPolicyExtendedTarget => some "rr_above_maximum"
    | _ => none

/-- The quantity that risk and capital allow. -/
def sized (plan : TradePlan) (capitalActual multiplier : ℚ) (configuracion : Configuracion) :
    RiskDecision :=
  let riskUnitario := |plan.entry - plan.stop| * multiplier
  let quantityRisk := capitalActual * configuracion.riesgoPorOperacionPct / 100 / riskUnitario
  let quantityCapital := capitalActual * configuracion.maximoCapitalPct / 100
    / (plan.entry * multiplier)
  let quantity := min quantityRisk quantityCapital
  if quantity ≤ 0 then rejected plan "invalid_quantity"
  else
    { rejected plan "approved" with
      status := .approved
      quantity := some quantity
      capitalAtRisk := some (quantity * riskUnitario)
      equityAtDecision := some capitalActual
      riskFraction := some (configuracion.riesgoPorOperacionPct / 100)
      contractMultiplier := some multiplier }

/-- `evaluar_trade_plan`; `none` is the rejection `invalid_input`, which names no plan. -/
def evaluarTradePlan (plan : TradePlan) (capitalActual : Amount) (instrumento : Option Instrument)
    (configuracion : Option Configuracion) : Option RiskDecision :=
  match instrumento, configuracion with
  | some instrumento, some configuracion =>
      match capitalActual with
      | .finite capital =>
          if ¬(0 < plan.entry ∧ 0 < plan.stop ∧ 0 < plan.target ∧ 0 < capital) then
            some (rejected plan "invalid_numeric_value")
          else
            match instrumento.contractMultiplier.bind toDecimal with
            | none => some (rejected plan "instrument_contract_data_unavailable")
            | some multiplier =>
                if ¬LevelOrder plan.side plan.entry plan.stop plan.target then
                  some (rejected plan "invalid_level_order")
                else
                  match policyRefusal plan configuracion with
                  | some reason => some (rejected plan reason)
                  | none =>
                      match geometry plan.side plan.entry plan.stop plan.target with
                      | .error _ => some (rejected plan "invalid_level_order")
                      | .ok shape =>
                          match ratioRefusal plan configuracion shape.rr with
                          | some reason => some (rejected plan reason)
                          | none => some (sized plan capital multiplier configuracion)
      | _ => some (rejected plan "invalid_numeric_value")
  | _, _ => none

end MarketSystem.Riesgo
