import MarketSystem.Core.RrContract
import MarketSystem.Library.Json

/-!
# The versioned risk policy

Two policies are registered: the fixed 3R policy and its FX variant. An order
carries the version text of the policy that reserved it, and a version that is
not registered is unknown: no factor is ever guessed for it.
-/
namespace MarketSystem

open Library
open RrContract (Policy)

/-- `fill_money_risk_factor`: the largest actual money risk the fill floor admits,
over the planned money risk. -/
def fillMoneyRiskFactor (plannedRr minimumFillRr : ℚ) : ℚ :=
  (1 + plannedRr) / (1 + minimumFillRr)

structure RiskPolicy where
  version : String
  rrPolicy : Policy
  perTradeRiskFraction : ℚ
  notionalFractionCap : ℚ
  aggregatePortfolioRiskFraction : ℚ
  accountDrawdownFraction : ℚ
  plannedRr : ℚ
  minimumActualFillRr : ℚ
  maxPositionsOrPendingPerSymbol : ℕ
  correlationAdjustment : String
  dailyLossLimit : String
  volatilityThreshold : String
  spreadThreshold : String
  deriving DecidableEq, Repr

namespace RiskPolicy

def fillMoneyRiskFactor (p : RiskPolicy) : ℚ :=
  MarketSystem.fillMoneyRiskFactor p.plannedRr p.minimumActualFillRr

/-- `as_record`: every term of the policy. -/
def asRecord (p : RiskPolicy) : Json :=
  .obj [("version", .str p.version), ("rr_policy", .str p.rrPolicy.name),
    ("per_trade_risk_fraction", .num p.perTradeRiskFraction),
    ("notional_fraction_cap", .num p.notionalFractionCap),
    ("aggregate_portfolio_risk_fraction", .num p.aggregatePortfolioRiskFraction),
    ("account_drawdown_fraction", .num p.accountDrawdownFraction),
    ("planned_rr", .num p.plannedRr), ("minimum_actual_fill_rr", .num p.minimumActualFillRr),
    ("fill_money_risk_factor", .num p.fillMoneyRiskFactor),
    ("max_positions_or_pending_per_symbol", .num p.maxPositionsOrPendingPerSymbol),
    ("correlation_adjustment", .str p.correlationAdjustment),
    ("daily_loss_limit", .str p.dailyLossLimit),
    ("volatility_threshold", .str p.volatilityThreshold),
    ("spread_threshold", .str p.spreadThreshold), ("leverage", .str "NONE (1x notional cap)")]

/-- The record determines the policy. -/
theorem asRecord_injective : Function.Injective asRecord := by
  intro p q h
  simp only [asRecord, Json.obj.injEq, List.cons.injEq, Prod.mk.injEq, Json.str.injEq,
    Json.num.injEq, true_and, and_true, Nat.cast_inj] at h
  obtain ⟨h1, h2, h3, h4, h5, h6, h7, h8, -, h9, h10, h11, h12, h13⟩ := h
  cases p
  cases q
  simp only [RrContract.Policy.name_injective.eq_iff] at *
  simp_all

end RiskPolicy

/-- `RISK_POLICY_V2_P5`. -/
def riskPolicyV2P5 : RiskPolicy where
  version := "V2_P5_RISK_1"
  rrPolicy := .v2F3
  perTradeRiskFraction := 1 / 100
  notionalFractionCap := 1
  aggregatePortfolioRiskFraction := 23 / 1000
  accountDrawdownFraction := 5 / 100
  plannedRr := (RrContract.limits .v2F3).1
  minimumActualFillRr := 5 / 2
  maxPositionsOrPendingPerSymbol := 1
  correlationAdjustment := "OFF (DEC-5.6: unavailable at runtime; observational only)"
  dailyLossLimit := "NONE (not authorized)"
  volatilityThreshold := "UNAVAILABLE / INSUFFICIENT EVIDENCE (DEC-5.8)"
  spreadThreshold := "UNAVAILABLE / INSUFFICIENT EVIDENCE (DEC-5.8)"

/-- `RISK_POLICY_V2_FX`: only the R:R identity, the planned ratio and the fill
floor differ. -/
def riskPolicyV2Fx : RiskPolicy :=
  { riskPolicyV2P5 with
    version := "V2_P5_RISK_1_FX_2R"
    rrPolicy := .fx
    plannedRr := (RrContract.limits .fx).1
    minimumActualFillRr := RrContract.fxFillRrFloor }

/-- `REGISTERED_RISK_POLICIES`. -/
def registeredRiskPolicies : List RiskPolicy := [riskPolicyV2P5, riskPolicyV2Fx]

def registeredRiskPolicy (version : Option String) : Option RiskPolicy :=
  registeredRiskPolicies.find? (fun p => decide (some p.version = version))

/-- `risk_policy_for`: the policy bound to the R:R identity of a plan. -/
def riskPolicyFor (planPolicy : Option Policy) : RiskPolicy :=
  if planPolicy = some .fx then riskPolicyV2Fx else riskPolicyV2P5

/-- A policy may stamp orders only when its fill semantics are those registered
under the same version. -/
def stampsRegisteredSemantics (policy : RiskPolicy) : Bool :=
  match registeredRiskPolicy (some policy.version) with
  | none => false
  | some registered =>
      decide ((policy.rrPolicy, policy.plannedRr, policy.minimumActualFillRr)
        = (registered.rrPolicy, registered.plannedRr, registered.minimumActualFillRr))

theorem registeredRiskPolicy_of_mem {p : RiskPolicy} (h : p ∈ registeredRiskPolicies) :
    registeredRiskPolicy (some p.version) = some p := by
  simp only [registeredRiskPolicies, List.mem_cons, List.not_mem_nil, or_false] at h
  rcases h with rfl | rfl <;> simp [registeredRiskPolicy, registeredRiskPolicies, riskPolicyV2Fx,
    riskPolicyV2P5]

/-- What every registered policy satisfies; the results about fills use only this. -/
structure RiskPolicy.Sound (p : RiskPolicy) : Prop where
  fixed : RrContract.fixedRr p.rrPolicy = true
  planned : p.plannedRr = (RrContract.limits p.rrPolicy).1
  fill : RrContract.fillLimits p.rrPolicy = (p.minimumActualFillRr, none)
  floor_nonneg : 0 ≤ p.minimumActualFillRr
  factor_pos : 0 < p.fillMoneyRiskFactor
  symbol_limit : p.maxPositionsOrPendingPerSymbol = 1
  aggregate : p.aggregatePortfolioRiskFraction = 23 / 1000

theorem sound_of_registered {p : RiskPolicy} (h : p ∈ registeredRiskPolicies) : p.Sound := by
  simp only [registeredRiskPolicies, List.mem_cons, List.not_mem_nil, or_false] at h
  rcases h with rfl | rfl
  · constructor <;> norm_num [riskPolicyV2P5, RrContract.fixedRr, RrContract.limits,
      RrContract.fillLimits, RiskPolicy.fillMoneyRiskFactor, fillMoneyRiskFactor]
  · constructor <;> norm_num [riskPolicyV2Fx, riskPolicyV2P5, RrContract.fixedRr,
      RrContract.limits, RrContract.fillLimits, RrContract.fxTpRr, RrContract.fxFillRrFloor,
      RiskPolicy.fillMoneyRiskFactor, fillMoneyRiskFactor]

end MarketSystem
