import MarketSystem.Floor.ApprovedPlan
import MarketSystem.Runtime.PaperContracts
import MarketSystem.Runtime.PaperCycle

/-!
# The risk gate and the fill gate

A plan is judged when it is approved, when its order is built and when the order meets a
bar. At the planned entry and on an unchanged equity the last gate repeats the judgement of
the first, except for V1: there the first reads the declared ratio, which may differ from
the levels by the tolerance of the contract, and the last reads the levels.
-/
namespace MarketSystem.GateAgreement

open Library RrContract Riesgo PaperContracts PaperBroker PaperCycle

/-- The R:R policy of the broker under which the judged plans are filled. -/
def brokerPolicy : RrPolicy → Option Policy
  | .v2 policy => some policy
  | _ => none

/-- The levels are within the limits of the policy that judged them. -/
def PlannedWithin (plan : TradePlan) (configuracion : Configuracion) (rr : ℚ) : Prop :=
  match judgingPolicy plan configuracion with
  | .v2 policy => classify rr (limits policy) = .withinPolicy
  | _ => 3 ≤ plan.riskReward ∧ declaredMatches plan.riskReward rr = true

/-- The frozen V1 gate is the one that reads the levels for the first time. -/
def firstReading (plan : TradePlan) (configuracion : Configuracion) (rr : ℚ) : Option String :=
  if judgingPolicy plan configuracion = .v1 ∧ plan.policyVersion ≠ some .fx ∧ rr < 3 then
    some "post_fill_risk_or_geometry"
  else none

/-- A bar on which the order is evaluated, and which opens at the planned entry. -/
structure OpensAtEntry (bar : Bar) (order : PaperOrder) : Prop extends Evaluates bar order where
  entry : bar.open_ = order.plannedEntry

/-! ## The judgement of the plan -/

theorem judged_v1_or_v2 {plan : TradePlan} {c : Configuracion} {capital : ℚ} {i : Instrument}
    {decision : RiskDecision} (a : Approved plan capital i c decision) :
    judgingPolicy plan c = .v1 ∨ ∃ p, judgingPolicy plan c = .v2 p := by
  cases h : judgingPolicy plan c with
  | v1 => exact .inl rfl
  | v2 p => exact .inr ⟨p, rfl⟩
  | unknown =>
    have hp := a.policy
    simp only [policyRefusal, h] at hp
    cases hp

/-- Only a plan of the FX policy is judged by it, and its order carries that policy. -/
theorem rrPolicy_of_judged_v1 {plan : TradePlan} {c : Configuracion}
    (h : judgingPolicy plan c = .v1) : c.rrPolicy = .v1 := by
  unfold judgingPolicy at h
  split_ifs at h
  exact h

theorem plannedWithin {plan : TradePlan} {c : Configuracion} (hc : c ∈ configuraciones)
    {capital : ℚ} {i : Instrument} {decision : RiskDecision}
    (a : Approved plan capital i c decision) : PlannedWithin plan c a.shape.rr := by
  unfold PlannedWithin
  rcases judged_v1_or_v2 a with h | ⟨p, h⟩
  · have hmin := (terms_of_mem hc).2 (rrPolicy_of_judged_v1 h)
    have hdeclared := a.declared_ge h
    rw [hmin] at hdeclared
    simp only [h]
    exact ⟨hdeclared, a.declared⟩
  · simp only [h]
    exact (a.within h).2

/-! ## The order of the plan -/

/-- The order that `submit_plan` builds from an approved plan. -/
def plannedOrder (plan : TradePlan) (report : FloorReport) (asOf : Instant)
    (quantity multiplier equity : ℚ) (orderId : String) : PaperOrder :=
  { orderId := orderId
    runId := report.runId
    symbol := report.symbol
    side := plan.side
    quantity := quantity
    plannedEntry := plan.entry
    stop := plan.stop
    target := plan.target
    contractMultiplier := some multiplier
    equityAtSubmission := some equity
    asOf := some asOf }

/-- What `submit_plan` answers to an approved report on a flat account. -/
theorem submitPlan_of_approved {plan : TradePlan} {report : FloorReport} {decision : RiskDecision}
    {b : PaperBroker} {i : Instrument} {quantity multiplier : ℚ} {g : Geometry}
    (hg : geometry plan.side plan.entry plan.stop plan.target = .ok g)
    (hready : report.finalStatus = "PLAN_READY") (hplan : report.tradePlan = some plan)
    (hdecision : report.riskDecision = some decision) (hsymbol : report.symbol = plan.symbol)
    (hstatus : decision.status = .approved) (hquantity : decision.quantity = some quantity)
    (hpos : 0 < quantity) (hfields : decision.symbol = plan.symbol ∧ decision.side = plan.side ∧
      decision.entry = plan.entry ∧ decision.stop = plan.stop ∧ decision.target = plan.target)
    (hi : b.instrument = some i) (hm : i.contractMultiplier = some multiplier)
    (hmpos : 0 < multiplier) (hequity : 0 < b.account.equity)
    (hflat : b.account.openPositions.get? report.symbol = none)
    (hrun : runOrder b.orders report.runId = none) (asOf : Instant) (orderId : String) :
    (b.submitPlan report asOf orderId).2 =
      if plan.symbol = i.symbol ∧ plan.runId = some report.runId then
        plan.asOf.map (fun planAsOf =>
          plannedOrder plan report planAsOf quantity multiplier b.account.equity orderId)
      else none := by
  obtain ⟨hsym, hside, hentry, hstop, htarget⟩ := hfields
  obtain ⟨-, he, hs, ht⟩ := geometry_ok hg
  have hep : 0 < plan.entry := he ▸ g.entry_pos
  have hsp : 0 < plan.stop := hs ▸ g.stop_pos
  have htp : 0 < plan.target := ht ▸ g.target_pos
  unfold submitPlan submittable
  simp only [hready, hplan, hdecision, if_true, hstatus, hsym, hside, hsymbol, true_and, and_true]
  by_cases hr : plan.runId = some report.runId
  · cases hasOf : plan.asOf with
    | none => simp [hr]
    | some planAsOf =>
      simp only [hr, if_true, Option.map_some, hrun, admissible, hquantity, hi, hm, and_true]
      by_cases hs' : plan.symbol = i.symbol
      · rw [if_pos ⟨hpos, hentry ▸ hep, hstop ▸ hsp, htarget ▸ htp, hmpos, hsym.trans hs', hequity,
          hflat⟩, if_pos hs']
        simp only [plannedOrder, hside, hentry, hstop, htarget, hsymbol]
      · rw [if_neg (fun h => hs' (hsym ▸ h.2.2.2.2.2.1)), if_neg hs']
  · simp [hr]

/-! ## The bar that opens at the planned entry -/

section Fill

variable {plan : TradePlan} {c : Configuracion} {equity : ℚ} {i : Instrument}
  {decision : RiskDecision} {report : FloorReport} {planAsOf : Instant} {quantity : ℚ}
  {orderId : String} {b : PaperBroker}

/-- Fewer units risk no more than the approved ones, which risk at most one percent. -/
theorem money_le (hc : c ∈ configuraciones) (a : Approved plan equity i c decision)
    (hle : quantity ≤ a.quantity) : a.shape.risk * quantity * a.multiplier ≤ equity / 100 := by
  have hrisk := a.risk_le
  rw [(terms_of_mem hc).1, a.unitRisk, mul_one] at hrisk
  have hunit : 0 ≤ a.shape.risk * a.multiplier :=
    (mul_pos a.shape.risk_pos a.multiplier_pos).le
  calc a.shape.risk * quantity * a.multiplier
      = quantity * (a.shape.risk * a.multiplier) := by ring
    _ ≤ a.quantity * (a.shape.risk * a.multiplier) := mul_le_mul_of_nonneg_right hle hunit
    _ ≤ equity / 100 := hrisk

/-- A ratio that matches a declared ratio of at least three is above every fill floor. -/
theorem ratio_of_declared {declared rr : ℚ} (hdeclared : 3 ≤ declared) (hrr : 0 < rr)
    (h : declaredMatches declared rr = true) : 5 / 2 ≤ rr := by
  simp only [declaredMatches, decide_eq_true_eq, abs_of_pos hrr] at h
  have hle := (abs_le.mp h).2
  rcases le_total 1 rr with h1 | h1
  · rw [max_eq_right h1] at hle
    linarith
  · rw [max_eq_left h1] at hle
    linarith

theorem classify_of_floor_le {rr floor : ℚ} (h : floor ≤ rr) :
    classify rr (floor, none) = .withinPolicy := by
  simp [classify, not_lt.mpr h]

theorem rr_pos (g : Geometry) : 0 < g.rr := div_pos g.reward_pos g.risk_pos

/-- The levels of a planned order at its planned entry are those of the plan. -/
theorem levels_at_entry (a : Approved plan equity i c decision) (q m : ℚ) :
    geometry (plannedOrder plan report planAsOf q m equity orderId).side plan.entry
      (plannedOrder plan report planAsOf q m equity orderId).stop
      (plannedOrder plan report planAsOf q m equity orderId).target = .ok a.shape := a.levels

/-- A stamped order is filled under the FX policy, by whatever broker. -/
theorem fillReason_stamped (hc : c ∈ configuraciones) (a : Approved plan equity i c decision)
    (hle : quantity ≤ a.quantity) (hequity : b.account.equity = equity)
    (hfx : plan.policyVersion = some .fx) :
    b.fillReason { plannedOrder plan report planAsOf quantity a.multiplier equity orderId with
      riskPolicyVersion := some riskPolicyV2Fx.version } plan.entry a.multiplier = .ok none := by
  set order := { plannedOrder plan report planAsOf quantity a.multiplier equity orderId with
    riskPolicyVersion := some riskPolicyV2Fx.version } with horder
  have hsized : SizedOn b order equity := ⟨a.capital_pos, hequity, rfl⟩
  have hrules : b.fillRules order = .rules (some .fx) (some riskPolicyV2Fx) := by
    have hreg : registeredRiskPolicy (some riskPolicyV2Fx.version) = some riskPolicyV2Fx :=
      registeredRiskPolicy_of_mem (by simp [registeredRiskPolicies])
    have hversion : order.riskPolicyVersion = some riskPolicyV2Fx.version := by rw [horder]
    simp only [fillRules, hversion, hreg]
    rfl
  have hlevels : geometry order.side plan.entry order.stop order.target = .ok a.shape := a.levels
  have hfloor : fxFillRrFloor ≤ a.shape.rr := by
    rcases judged_v1_or_v2 a with hj | ⟨p, hj⟩
    · have hwithin := plannedWithin hc a
      simp only [PlannedWithin, hj] at hwithin
      have hge := ratio_of_declared hwithin.1 (rr_pos a.shape) hwithin.2
      norm_num [fxFillRrFloor, fxTpRr]
      linarith
    · obtain ⟨hpolicy, hwithin⟩ := a.within hj
      obtain rfl : p = .fx := Option.some.inj (hpolicy.symm.trans hfx)
      have hge := floor_le_of_within hwithin
      norm_num [limits, fxTpRr] at hge
      norm_num [fxFillRrFloor, fxTpRr]
      linarith
  have hmoney : a.shape.risk * order.quantity * a.multiplier ≤ equity / 100 := money_le hc a hle
  rw [fillReason_v2 hsized hrules (by decide)]
  simp only [hlevels, fillLimits, classify_of_floor_le hfloor, ne_eq, not_true_eq_false, if_false,
    (riskPerUnit_eq hlevels).1]
  rw [if_pos hmoney]

/-- The gate of fixed 3R measures money against the order's own plan. -/
theorem fillReason_fixed3r (a : Approved plan equity i c decision) (hq : 0 < quantity)
    (hequity : b.account.equity = equity) (hb : b.rrPolicy = some .v2F3)
    (hrr : a.shape.rr = 3) :
    b.fillReason (plannedOrder plan report planAsOf quantity a.multiplier equity orderId)
      plan.entry a.multiplier = .ok none := by
  set order := plannedOrder plan report planAsOf quantity a.multiplier equity orderId with horder
  have hsized : SizedOn b order equity := ⟨a.capital_pos, hequity, rfl⟩
  have hrules : b.fillRules order = .rules (some .v2F3) (some riskPolicyV2P5) := by
    simp [fillRules, horder, plannedOrder, hb]
  have hlevels : geometry order.side plan.entry order.stop order.target = .ok a.shape := a.levels
  have hwithin : classify a.shape.rr (fillLimits .v2F3) = .withinPolicy :=
    classify_of_floor_le (by rw [hrr]; norm_num)
  obtain ⟨-, hentry, hstop, -⟩ := geometry_ok a.levels
  have hentryPos : 0 < plan.entry := hentry ▸ a.shape.entry_pos
  have hstopPos : 0 < plan.stop := hstop ▸ a.shape.stop_pos
  have hentryNumber : toDecimal order.plannedEntry = some plan.entry := toDecimal_of_pos hentryPos
  have hstopNumber : toDecimal order.stop = some plan.stop := toDecimal_of_pos hstopPos
  have hquantity : toDecimal order.quantity = some quantity := toDecimal_of_pos hq
  have hmultiplier : order.contractMultiplier.bind toDecimal = some a.multiplier :=
    toDecimal_of_pos a.multiplier_pos
  have hplanned : 0 < a.shape.risk * quantity * a.multiplier :=
    mul_pos (mul_pos a.shape.risk_pos hq) a.multiplier_pos
  have hfactor : 1 ≤ riskPolicyV2P5.fillMoneyRiskFactor := by
    norm_num [riskPolicyV2P5, RiskPolicy.fillMoneyRiskFactor, fillMoneyRiskFactor, limits]
  simp only [fillReason, hrules, fillCheck, hlevels, hwithin, ne_eq, not_true_eq_false, if_false,
    hsized.validEquities, Bool.not_true, Bool.false_eq_true, if_true, fillMoneyCheck, hentryNumber,
    hstopNumber, hquantity, hmultiplier, a.unitRisk]
  rw [if_neg hplanned.ne', if_neg (not_lt.mpr (le_mul_of_one_le_right hplanned.le hfactor))]

/-- An unstamped order meets the gate of the policy that judged the plan. -/
theorem fillReason_unstamped (hc : c ∈ configuraciones) (a : Approved plan equity i c decision)
    (hq : 0 < quantity) (hle : quantity ≤ a.quantity) (hequity : b.account.equity = equity)
    (hfx : plan.policyVersion ≠ some .fx)
    (hb : b.rrPolicy = brokerPolicy (judgingPolicy plan c)) :
    b.fillReason (plannedOrder plan report planAsOf quantity a.multiplier equity orderId)
      plan.entry a.multiplier =
      .ok (if judgingPolicy plan c = .v1 ∧ a.shape.rr < 3 then some "post_fill_risk_or_geometry"
        else none) := by
  set order := plannedOrder plan report planAsOf quantity a.multiplier equity orderId with horder
  have hsized : SizedOn b order equity := ⟨a.capital_pos, hequity, rfl⟩
  have hlevels : geometry order.side plan.entry order.stop order.target = .ok a.shape := a.levels
  obtain ⟨hrisk, hreward⟩ := riskPerUnit_eq hlevels
  have hmoney : a.shape.risk * order.quantity * a.multiplier ≤ equity / 100 := money_le hc a hle
  rcases judged_v1_or_v2 a with hj | ⟨p, hj⟩
  · rw [fillReason_v1 hsized rfl (by rw [hb, hj]; rfl), hrisk, hreward]
    by_cases hrr : a.shape.rr < 3
    · rw [if_neg (fun h => absurd h.2.2.1 (not_le.mpr hrr)), if_pos ⟨hj, hrr⟩]
    · rw [if_pos ⟨a.shape.risk_pos, a.shape.reward_pos, not_lt.mp hrr, hmoney⟩,
        if_neg (fun h => hrr h.2)]
  · obtain ⟨hpolicy, hwithin⟩ := a.within hj
    have hnot : ¬(judgingPolicy plan c = .v1 ∧ a.shape.rr < 3) := by
      rw [hj]
      exact fun h => (nomatch h.1)
    rw [if_neg hnot]
    cases p with
    | fx => exact absurd hpolicy hfx
    | v2F3 =>
      exact fillReason_fixed3r a hq hequity (by rw [hb, hj]; rfl) (rr_eq_of_fixed rfl hwithin)
    | v2D =>
      have hrules : b.fillRules order = .rules (some .v2D) none := by
        simp [fillRules, horder, plannedOrder, hb, hj, brokerPolicy]
      rw [fillReason_v2 hsized hrules (by decide)]
      have hfill : classify a.shape.rr (fillLimits .v2D) = .withinPolicy := hwithin
      simp only [hlevels, hfill, ne_eq, not_true_eq_false, if_false, hrisk]
      rw [if_pos hmoney]

/-- The answer of the broker to a stamped order at the planned entry. -/
theorem processNextBar_planned (hc : c ∈ configuraciones) (a : Approved plan equity i c decision)
    (hq : 0 < quantity) (hle : quantity ≤ a.quantity) (hequity : b.account.equity = equity)
    (hb : plan.policyVersion ≠ some .fx → b.rrPolicy = brokerPolicy (judgingPolicy plan c))
    {bar : Bar}
    (hbar : OpensAtEntry bar (plannedOrder plan report planAsOf quantity a.multiplier equity orderId))
    (fillId positionId : String) {order : PaperOrder}
    (horder : order = stampFxOrder
      (plannedOrder plan report planAsOf quantity a.multiplier equity orderId) (some plan)) :
    b.processNextBar order bar fillId positionId =
      .ok (b.answer order a.multiplier bar fillId positionId
        (firstReading plan c a.shape.rr)) := by
  unfold firstReading
  have hentry : bar.open_ = plan.entry := hbar.entry
  have heval : Evaluates bar
      (plannedOrder plan report planAsOf quantity a.multiplier equity orderId) := hbar.toEvaluates
  unfold stampFxOrder at horder
  by_cases hfx : plan.policyVersion = some .fx
  · rw [if_pos (by simpa using hfx)] at horder
    have hreason : b.fillReason { plannedOrder plan report planAsOf quantity a.multiplier equity
        orderId with riskPolicyVersion := some riskPolicyV2Fx.version } plan.entry a.multiplier
        = .ok none :=
      fillReason_stamped hc a hle hequity hfx
    rw [← hentry, ← horder] at hreason
    rw [if_neg (fun h => h.2.1 hfx)]
    have hstamped : Evaluates bar order := by
      rw [horder]
      exact ⟨heval.symbol, heval.closed, heval.ohlc, heval.later⟩
    exact processNextBar_of_evaluates hstamped (by rw [horder]; rfl) (by rw [horder]; rfl)
      a.multiplier_pos (by rw [horder]; rfl) fillId positionId hreason
  · rw [if_neg (by simpa using hfx)] at horder
    have hreason : b.fillReason (plannedOrder plan report planAsOf quantity a.multiplier equity
        orderId) plan.entry a.multiplier =
        .ok (if judgingPolicy plan c = .v1 ∧ a.shape.rr < 3 then some "post_fill_risk_or_geometry"
          else none) :=
      fillReason_unstamped hc a hq hle hequity hfx (hb hfx)
    rw [← hentry] at hreason
    subst horder
    simp only [ne_eq, hfx, not_false_eq_true, true_and]
    exact processNextBar_of_evaluates heval rfl rfl a.multiplier_pos rfl fillId positionId hreason

end Fill

/-- A broker with the instrument and the equity of the decision, on which neither the symbol
nor the run of the report has anything. -/
structure FlatFor (b : PaperBroker) (report : FloorReport) (i : Instrument) (equity : ℚ) :
    Prop where
  instrument : b.instrument = some i
  equity : b.account.equity = equity
  flat : b.account.openPositions.get? report.symbol = none
  fresh : runOrder b.orders report.runId = none

/-- From the approval to the fill at the planned entry: the levels are within the policy, the
reduced quantity risks at most one percent, the broker takes the plan exactly when it names
the broker's instrument, its run and its instant, and the order is filled unless V1 had to
accept a ratio below three within the tolerance of the declared one. -/
theorem gates_agree {plan : TradePlan} {equity : ℚ} {i : Instrument} {c : Configuracion}
    (hc : c ∈ configuraciones) {decision final : RiskDecision} {report report' : FloorReport}
    (happroved : evaluarTradePlan plan (.finite equity) (some i) (some c) = some decision)
    (hstatus : decision.status = .approved) (hready : report.finalStatus = "PLAN_READY")
    (hplan : report.tradePlan = some plan) (hdecision : report.riskDecision = some decision)
    (hsymbol : report.symbol = plan.symbol)
    (hround : applyPaperQuantityIncrement report (some i) = .ok report')
    (hfinal : report'.riskDecision = some final) (hstill : final.status = .approved) :
    ∃ shape quantity multiplier, geometry plan.side plan.entry plan.stop plan.target = .ok shape ∧
      i.contractMultiplier = some multiplier ∧ final.quantity = some quantity ∧
      PlannedWithin plan c shape.rr ∧
      quantity * (|plan.entry - plan.stop| * multiplier) ≤ equity / 100 ∧
      ∀ b, FlatFor b report i equity → ∀ asOf orderId,
        ((b.submitPlan report' asOf orderId).2.isSome = true ↔ plan.symbol = i.symbol ∧
          plan.runId = some report.runId ∧ plan.asOf.isSome = true) ∧
        ∀ order, (b.submitPlan report' asOf orderId).2 = some order →
          ∀ later : PaperBroker, later.account.equity = equity →
            (plan.policyVersion ≠ some .fx →
              later.rrPolicy = brokerPolicy (judgingPolicy plan c)) →
            ∀ bar, OpensAtEntry bar order → ∀ fillId positionId stamped,
              stamped = stampFxOrder order (some plan) →
              later.processNextBar stamped bar fillId positionId =
                .ok (later.answer stamped multiplier bar fillId positionId
                  (firstReading plan c shape.rr)) := by
  obtain ⟨a⟩ := approved_of_evaluar happroved hstatus
  have hquantity : decision.quantity = some a.quantity :=
    congrArg RiskDecision.quantity a.decision_eq
  obtain ⟨quantity, hq, hle, hfq, hfe, hreport⟩ :=
    approved_after_increment hdecision hstatus hquantity hround hfinal hstill
  have hmoney : quantity * (|plan.entry - plan.stop| * a.multiplier) ≤ equity / 100 := by
    have h := money_le hc a hle
    rw [a.unitRisk]
    calc quantity * (a.shape.risk * a.multiplier)
        = a.shape.risk * quantity * a.multiplier := by ring
      _ ≤ equity / 100 := h
  refine ⟨a.shape, quantity, a.multiplier, a.levels, a.contract, hfq, plannedWithin hc a, hmoney, ?_⟩
  intro b hb asOf orderId
  have hfields : final.symbol = plan.symbol ∧ final.side = plan.side ∧ final.entry = plan.entry ∧
      final.stop = plan.stop ∧ final.target = plan.target :=
    ⟨(congrArg (·.symbol) hfe).trans (congrArg (·.symbol) a.decision_eq),
      (congrArg (·.side) hfe).trans (congrArg (·.side) a.decision_eq),
      (congrArg (·.entry) hfe).trans (congrArg (·.entry) a.decision_eq),
      (congrArg (·.stop) hfe).trans (congrArg (·.stop) a.decision_eq),
      (congrArg (·.target) hfe).trans (congrArg (·.target) a.decision_eq)⟩
  have hready' : report'.finalStatus = "PLAN_READY" := by rw [hreport]; exact hready
  have hsubmit := submitPlan_of_approved a.levels hready'
    (by rw [hreport]; exact hplan) hfinal
    (by rw [hreport]; exact hsymbol) hstill hfq hq hfields hb.instrument a.contract
    a.multiplier_pos (by rw [hb.equity]; exact a.capital_pos) (by rw [hreport]; exact hb.flat)
    (by rw [hreport]; exact hb.fresh) asOf orderId
  have hrunId : report'.runId = report.runId := by rw [hreport]
  rw [hsubmit, hrunId, hb.equity]
  constructor
  · by_cases h : plan.symbol = i.symbol ∧ plan.runId = some report.runId
    · rw [if_pos h, Option.isSome_map]
      exact ⟨fun hs => ⟨h.1, h.2, hs⟩, fun hs => hs.2.2⟩
    · rw [if_neg h]
      exact ⟨fun hs => (nomatch hs), fun hs => absurd ⟨hs.1, hs.2.1⟩ h⟩
  · intro order horder later hlater hpolicy bar hbar fillId positionId stamped hstamped
    split_ifs at horder
    obtain ⟨planAsOf, -, rfl⟩ := Option.map_eq_some_iff.mp horder
    exact processNextBar_planned hc a hq hle hlater hpolicy hbar fillId positionId hstamped

section Runs

/-- `XAUUSD` of `paper_instruments`. -/
def gold : Instrument := ⟨"XAUUSD", some (1 / 100), some (1 / 1000), some 1⟩

private def planWithTarget (target : ℚ) : TradePlan :=
  ⟨"XAUUSD", .long, 100, 99, target, 3, some "run", some 0, none⟩

private def decisionOf (plan : TradePlan) : RiskDecision :=
  (evaluarTradePlan plan (.finite 10000) (some gold) (some configuracionRiesgoV2)).getD
    (rejected plan "invalid_input")

private def reportOf (plan : TradePlan) : FloorReport :=
  ⟨"run", "XAUUSD", "PLAN_READY", some plan, some (decisionOf plan), none⟩

private def fresh : PaperBroker :=
  { account := ⟨"paper", 10000, 10000, 10000, 0, 0, Table.empty, []⟩, instrument := some gold }

private def atEntry : Bar := ⟨"XAUUSD", 300000000, 100, 101, 99, 100, true⟩

/-- The plan of exactly three times its risk is submitted. -/
theorem gates_agree_gold : ∃ order,
    (fresh.submitPlan (reportOf (planWithTarget 103)) 0 "order").2 = some order := by
  have happroved : evaluarTradePlan (planWithTarget 103) (.finite 10000) (some gold)
      (some configuracionRiesgoV2) = some (decisionOf (planWithTarget 103)) := by decide +kernel
  have hround : applyPaperQuantityIncrement (reportOf (planWithTarget 103)) (some gold)
      = .ok (reportOf (planWithTarget 103)) := by decide +kernel
  obtain ⟨shape, quantity, multiplier, -, -, -, -, -, h⟩ :=
    gates_agree (by simp [configuraciones]) happroved (by decide +kernel) rfl rfl rfl rfl hround
      rfl (by decide +kernel)
  have hflat : FlatFor fresh (reportOf (planWithTarget 103)) gold 10000 := ⟨rfl, rfl, rfl, rfl⟩
  exact Option.isSome_iff_exists.mp ((h fresh hflat 0 "order").1.mpr ⟨rfl, rfl, rfl⟩)

/-- A declared ratio of three with levels a billionth below it: V1 approves and submits the
plan, and the fill gate rejects it at its planned entry. -/
theorem tolerated_ratio_is_not_filled : ∃ plan report order bar,
    report.tradePlan = some plan ∧
    evaluarTradePlan plan (.finite 10000) (some gold) (some configuracionRiesgoV2)
      = report.riskDecision ∧
    report.riskDecision.map (·.status) = some .approved ∧
    applyPaperQuantityIncrement report (some gold) = .ok report ∧
    (fresh.submitPlan report 0 "order").2 = some order ∧
    OpensAtEntry bar order ∧ fresh.account.equity = 10000 ∧
    (geometry plan.side plan.entry plan.stop plan.target).map (decide <| ·.rr < 3) = .ok true ∧
    (fresh.processNextBar (stampFxOrder order (some plan)) bar "fill" "position").map (·.2)
      = .ok none := by
  refine ⟨planWithTarget (103 - 1 / 10 ^ 9), reportOf (planWithTarget (103 - 1 / 10 ^ 9)),
    plannedOrder (planWithTarget (103 - 1 / 10 ^ 9)) (reportOf (planWithTarget (103 - 1 / 10 ^ 9)))
      0 100 1 10000 "order", atEntry, rfl, ?_, ?_, ?_, ?_, ?_, rfl, ?_, ?_⟩
  case refine_5 =>
    have hlater : (0 : Instant) < atEntry.timestamp := by decide
    exact ⟨⟨rfl, rfl, by decide +kernel, fun t h => Option.some.inj h ▸ hlater⟩, rfl⟩
  all_goals decide +kernel

end Runs

end MarketSystem.GateAgreement
