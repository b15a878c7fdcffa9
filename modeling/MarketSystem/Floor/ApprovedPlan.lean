import MarketSystem.Floor.Riesgo

/-!
# What an approval says, and what the fill gate asks

An approved plan has valid levels, a ratio its policy accepts and a quantity whose risk is
within the fraction of the configuration. The fill gate asks the same of the price of the
fill: each set of rules is brought to one condition on that price.
-/
namespace MarketSystem

open RrContract

namespace Riesgo

/-- `crear_configuracion_riesgo_v2`, with its defaults. -/
def configuracionRiesgoV2 : Configuracion where
  riesgoPorOperacionPct := 1
  maximoCapitalPct := 100
  ratioMinimo := 3

/-- `crear_configuracion_riesgo_phase4`. -/
def configuracionRiesgoPhase4 : Configuracion :=
  { configuracionRiesgoV2 with ratioMinimo := 2, rrPolicy := .v2 .v2D }

/-- `crear_configuracion_riesgo_fixed_3r`. -/
def configuracionRiesgoFixed3r : Configuracion :=
  { configuracionRiesgoV2 with rrPolicy := .v2 .v2F3 }

/-- The configurations of the three planners. -/
def configuraciones : List Configuracion :=
  [configuracionRiesgoV2, configuracionRiesgoPhase4, configuracionRiesgoFixed3r]

/-- They size in the same way, and V1 asks for a declared ratio of three. -/
theorem terms_of_mem {c : Configuracion} (h : c ∈ configuraciones) :
    c.riesgoPorOperacionPct = 1 ∧ (c.rrPolicy = .v1 → c.ratioMinimo = 3) := by
  simp only [configuraciones, List.mem_cons, List.not_mem_nil, or_false] at h
  rcases h with rfl | rfl | rfl <;>
    simp [configuracionRiesgoV2, configuracionRiesgoPhase4, configuracionRiesgoFixed3r]

/-- What is known of a plan that was approved. -/
structure Approved (plan : TradePlan) (capital : ℚ) (instrumento : Instrument)
    (configuracion : Configuracion) (decision : RiskDecision) where
  shape : Geometry
  multiplier : ℚ
  quantity : ℚ
  capital_pos : 0 < capital
  contract : instrumento.contractMultiplier = some multiplier
  multiplier_pos : 0 < multiplier
  levels : geometry plan.side plan.entry plan.stop plan.target = .ok shape
  policy : policyRefusal plan configuracion = none
  ratio : ratioRefusal plan configuracion shape.rr = none
  quantity_pos : 0 < quantity
  risk_le : quantity * (|plan.entry - plan.stop| * multiplier) ≤
    capital * configuracion.riesgoPorOperacionPct / 100
  decision_eq : decision =
    { rejected plan "approved" with
      status := .approved
      quantity := some quantity
      capitalAtRisk := some (quantity * (|plan.entry - plan.stop| * multiplier))
      equityAtDecision := some capital
      riskFraction := some (configuracion.riesgoPorOperacionPct / 100)
      contractMultiplier := some multiplier }

@[simp] theorem rejected_status (plan : TradePlan) (reason : String) :
    (rejected plan reason).status = .rejected := rfl

/-- The quantity of an approval is the smaller of two bounds, so it keeps the risk bound. -/
theorem sized_approved {plan : TradePlan} {capital multiplier : ℚ} {configuracion : Configuracion}
    (hrisk : 0 < |plan.entry - plan.stop| * multiplier)
    (h : (sized plan capital multiplier configuracion).status = .approved) :
    ∃ quantity, 0 < quantity ∧
      quantity * (|plan.entry - plan.stop| * multiplier) ≤
        capital * configuracion.riesgoPorOperacionPct / 100 ∧
      sized plan capital multiplier configuracion =
        { rejected plan "approved" with
          status := .approved
          quantity := some quantity
          capitalAtRisk := some (quantity * (|plan.entry - plan.stop| * multiplier))
          equityAtDecision := some capital
          riskFraction := some (configuracion.riesgoPorOperacionPct / 100)
          contractMultiplier := some multiplier } := by
  unfold sized at h ⊢
  dsimp only at h ⊢
  split_ifs at h ⊢ with hq
  · cases h
  · refine ⟨_, not_le.mp hq, ?_, rfl⟩
    rw [← le_div_iff₀ hrisk]
    exact min_le_left _ _

theorem approved_of_evaluar {plan : TradePlan} {capital : ℚ} {instrumento : Instrument}
    {configuracion : Configuracion} {decision : RiskDecision}
    (h : evaluarTradePlan plan (.finite capital) (some instrumento) (some configuracion)
      = some decision) (hstatus : decision.status = .approved) :
    Nonempty (Approved plan capital instrumento configuracion decision) := by
  unfold evaluarTradePlan at h
  dsimp only at h
  by_cases hnumbers : 0 < plan.entry ∧ 0 < plan.stop ∧ 0 < plan.target ∧ 0 < capital
  swap
  · rw [if_pos hnumbers] at h
    cases h
    cases hstatus
  rw [if_neg (not_not.mpr hnumbers)] at h
  cases hm : instrumento.contractMultiplier.bind toDecimal with
  | none =>
    simp only [hm, Option.some.injEq] at h
    cases h
    cases hstatus
  | some multiplier =>
    obtain ⟨value, hvalue, hdecimal⟩ := Option.bind_eq_some_iff.mp hm
    obtain ⟨hpos, rfl⟩ := toDecimal_eq_some.mp hdecimal
    simp only [hm] at h
    by_cases horder : LevelOrder plan.side plan.entry plan.stop plan.target
    swap
    · rw [if_pos horder] at h
      cases h
      cases hstatus
    rw [if_neg (not_not.mpr horder)] at h
    cases hp : policyRefusal plan configuracion with
    | some reason =>
      simp only [hp, Option.some.injEq] at h
      cases h
      cases hstatus
    | none =>
      cases hg : geometry plan.side plan.entry plan.stop plan.target with
      | error e =>
        simp only [hp, hg, Option.some.injEq] at h
        cases h
        cases hstatus
      | ok shape =>
        cases hr : ratioRefusal plan configuracion shape.rr with
        | some reason =>
          simp only [hp, hg, hr, Option.some.injEq] at h
          cases h
          cases hstatus
        | none =>
          simp only [hp, hg, hr, Option.some.injEq] at h
          obtain ⟨hside, hentry, hstop, -⟩ := geometry_ok hg
          have hunit : 0 < |plan.entry - plan.stop| * multiplier := by
            rw [← hentry, ← hstop, shape.abs_entry_sub_stop]
            exact mul_pos shape.risk_pos hpos
          rw [← h] at hstatus
          obtain ⟨quantity, hq, hle, he⟩ := sized_approved hunit hstatus
          exact ⟨⟨shape, multiplier, quantity, hnumbers.2.2.2, hvalue, hpos, hg, hp, hr, hq, hle,
            h.symm.trans he⟩⟩

namespace Approved

variable {plan : TradePlan} {capital : ℚ} {instrumento : Instrument}
  {configuracion : Configuracion} {decision : RiskDecision}

/-- The unit risk of the sizing is the risk of the levels. -/
theorem unitRisk (a : Approved plan capital instrumento configuracion decision) :
    |plan.entry - plan.stop| = a.shape.risk := by
  obtain ⟨-, hentry, hstop, -⟩ := geometry_ok a.levels
  rw [← hentry, ← hstop, a.shape.abs_entry_sub_stop]

/-- The declared ratio agrees with the levels, up to the tolerance of the contract. -/
theorem declared (a : Approved plan capital instrumento configuracion decision) :
    declaredMatches plan.riskReward a.shape.rr = true := by
  have h := a.ratio
  unfold ratioRefusal at h
  by_contra hne
  rw [if_pos (by simpa using hne)] at h
  cases h

/-- A policy of V2 accepts the ratio of the levels themselves. -/
theorem within (a : Approved plan capital instrumento configuracion decision) {p : Policy}
    (hp : judgingPolicy plan configuracion = .v2 p) :
    plan.policyVersion = some p ∧ classify a.shape.rr (limits p) = .withinPolicy := by
  constructor
  · have h := a.policy
    simp only [policyRefusal, hp] at h
    by_contra hne
    rw [if_pos hne] at h
    cases h
  · have h := a.ratio
    unfold ratioRefusal at h
    rw [if_neg (by simp [a.declared])] at h
    cases hc : classify a.shape.rr (limits p) with
    | withinPolicy => rfl
    | rrBelowFloor => simp only [hp, hc] at h; cases h
    | outOfPolicyExtendedTarget => simp only [hp, hc] at h; cases h

/-- V1 judges the declared ratio alone. -/
theorem declared_ge (a : Approved plan capital instrumento configuracion decision)
    (hv1 : judgingPolicy plan configuracion = .v1) :
    configuracion.ratioMinimo ≤ plan.riskReward := by
  have h := a.policy
  simp only [policyRefusal, hv1] at h
  by_contra hlt
  rw [if_pos (not_le.mp hlt)] at h
  cases h

end Approved

end Riesgo

/-! ## The condition of each fill gate -/

namespace PaperBroker

/-- The numbers of an order that was sized on the equity the account still has. -/
structure SizedOn (b : PaperBroker) (order : PaperOrder) (equity : ℚ) : Prop where
  pos : 0 < equity
  account : b.account.equity = equity
  submitted : order.equityAtSubmission = some equity

variable {b : PaperBroker} {order : PaperOrder} {equity : ℚ}

theorem SizedOn.validEquities (h : SizedOn b order equity) :
    validEquities order b.account.equity = true := by
  simp [PaperBroker.validEquities, h.account, h.submitted, h.pos]

theorem SizedOn.aboveOnePercent (h : SizedOn b order equity) (risk : ℚ) :
    aboveOnePercent order b.account.equity risk = decide (equity / 100 < risk) := by
  simp [PaperBroker.aboveOnePercent, h.account, h.submitted, div_eq_mul_inv]

/-- The frozen V1 gate. -/
theorem fillReason_v1 (h : SizedOn b order equity) (hstamp : order.riskPolicyVersion = none)
    (hpolicy : b.rrPolicy = none) (fillPrice multiplier : ℚ) :
    b.fillReason order fillPrice multiplier =
      .ok (if 0 < riskPerUnit order fillPrice ∧ 0 < rewardPerUnit order fillPrice
          ∧ 3 ≤ rewardPerUnit order fillPrice / riskPerUnit order fillPrice
          ∧ riskPerUnit order fillPrice * order.quantity * multiplier ≤ equity / 100 then none
        else some "post_fill_risk_or_geometry") := by
  have hrules : b.fillRules order = .rules none none := by
    simp [fillRules, hstamp, hpolicy]
  simp only [fillReason, hrules, h.validEquities, h.aboveOnePercent]
  split_ifs with h1 h2 h2
  · exfalso
    obtain ⟨hrisk, hreward, hratio, hmoney⟩ := h2
    simp only [Bool.not_true, Bool.false_or, Bool.or_eq_true, decide_eq_true_eq] at h1
    rcases h1 with ((h1 | h1) | h1) | h1 <;> linarith
  · rfl
  · rfl
  · exfalso
    simp only [Bool.not_true, Bool.false_or, Bool.or_eq_true, decide_eq_true_eq, not_or,
      not_le, not_lt] at h1
    exact h2 ⟨h1.1.1.1, h1.1.1.2, h1.1.2, h1.2⟩

/-- The gate of the policies of V2 that keep the cap of one percent. -/
theorem fillReason_v2 (h : SizedOn b order equity) {policy : Policy}
    {riskPolicy : Option RiskPolicy} (hrules : b.fillRules order = .rules (some policy) riskPolicy)
    (hpolicy : policy ≠ .v2F3) (fillPrice multiplier : ℚ) :
    b.fillReason order fillPrice multiplier =
      .ok (match geometry order.side fillPrice order.stop order.target with
        | .error _ => some "fill_invalid_geometry"
        | .ok actual =>
            if classify actual.rr (fillLimits policy) ≠ .withinPolicy then
              some "fill_rr_below_minimum"
            else if riskPerUnit order fillPrice * order.quantity * multiplier ≤ equity / 100 then
              none
            else some "post_fill_risk_or_geometry") := by
  simp only [fillReason, hrules, fillCheck]
  cases geometry order.side fillPrice order.stop order.target with
  | error e => rfl
  | ok actual =>
    by_cases hc : classify actual.rr (fillLimits policy) = .withinPolicy
    · simp only [hc, ne_eq, not_true_eq_false, if_false, h.validEquities, Bool.not_true,
        Bool.false_eq_true, if_neg hpolicy, h.aboveOnePercent, decide_eq_true_eq]
      by_cases hm : riskPerUnit order fillPrice * order.quantity * multiplier ≤ equity / 100
      · rw [if_neg (not_lt.mpr hm), if_pos hm]
      · rw [if_pos (not_le.mp hm), if_neg hm]
    · simp [hc]

/-- The risk of one unit at a price whose levels are in order. -/
theorem riskPerUnit_eq {fillPrice : ℚ} {actual : Geometry}
    (h : geometry order.side fillPrice order.stop order.target = .ok actual) :
    riskPerUnit order fillPrice = actual.risk ∧ rewardPerUnit order fillPrice = actual.reward := by
  obtain ⟨hside, hentry, hstop, htarget⟩ := geometry_ok h
  unfold riskPerUnit rewardPerUnit Geometry.risk Geometry.reward
  rw [hside, hentry, hstop, htarget]
  cases order.side <;> simp

/-- What a reason of the fill gate does to an order. -/
def answer (b : PaperBroker) (order : PaperOrder) (multiplier : ℚ) (bar : Bar)
    (fillId positionId : String) : Option String → PaperBroker × Option PaperPosition
  | some reason => (b.rejectOrder order (some bar.timestamp) reason, none)
  | none => ((b.fillOrder order multiplier bar fillId positionId).1,
      some (openedPosition order multiplier bar positionId))

/-- A bar on which the broker evaluates an order. -/
structure Evaluates (bar : Bar) (order : PaperOrder) : Prop where
  symbol : bar.symbol = order.symbol
  closed : bar.isClosed = true
  ohlc : bar.validOhlc = true
  later : ∀ asOf, order.asOf = some asOf → asOf < bar.timestamp

/-- On such a bar only the fill gate decides. -/
theorem processNextBar_of_evaluates {bar : Bar} {multiplier : ℚ} {asOf : Instant}
    (hbar : Evaluates bar order) (hpending : order.status = .pending)
    (hcontract : order.contractMultiplier = some multiplier) (hm : 0 < multiplier)
    (hasOf : order.asOf = some asOf) (fillId positionId : String) {reason : Option String}
    (hreason : b.fillReason order bar.open_ multiplier = .ok reason) :
    b.processNextBar order bar fillId positionId =
      .ok (b.answer order multiplier bar fillId positionId reason) := by
  have hvalid : valid multiplier = true := valid_eq_true.mpr hm
  have hfit : ¬(bar.symbol ≠ order.symbol ∨ bar.isClosed = false ∨ bar.validOhlc = false) := by
    simp [hbar.symbol, hbar.closed, hbar.ohlc]
  simp only [processNextBar, hpending, ne_eq, not_true_eq_false, if_false, hcontract, hvalid,
    Bool.not_true, Bool.false_eq_true, hasOf, hreason]
  rw [if_neg hfit, if_neg (not_le.mpr (hbar.later asOf hasOf))]
  cases reason <;> rfl

end PaperBroker

end MarketSystem
