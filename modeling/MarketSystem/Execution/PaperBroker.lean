import MarketSystem.Execution.TradeManager

/-!
# The PAPER broker

`submit_plan` turns an approved plan into a PENDING order. `process_next_bar` is
the fill gate: the bar after the plan opens the position at its open price, or
the order is rejected because the actual geometry left the policy. Stop and
target are frozen, so the gate re-derives risk from the actual price.

Ids drawn from `uuid4` are arguments. An exception of the source is an `error`,
after which the caller saves nothing.
-/
namespace MarketSystem

open Library RrContract

structure TradePlan where
  symbol : String
  side : Side
  entry : ℚ
  stop : ℚ
  target : ℚ
  riskReward : ℚ
  runId : Option String
  asOf : Option Instant
  /-- `none` stands for every text that names no V2 policy, such as `V1`. -/
  policyVersion : Option Policy
  deriving DecidableEq

inductive RiskStatus
  | approved
  | rejected
  deriving DecidableEq, Repr

structure RiskDecision where
  status : RiskStatus
  symbol : String
  side : Side
  quantity : Option ℚ
  capitalAtRisk : Option ℚ
  entry : ℚ
  stop : ℚ
  target : ℚ
  reason : String
  equityAtDecision : Option ℚ := none
  riskFraction : Option ℚ := none
  contractMultiplier : Option ℚ := none
  deriving DecidableEq

structure SetupAssessment where
  status : String
  symbol : String
  side : Side
  /-- The certified identity `setup_identity` derives from the assessment. -/
  setupIdentity : Option String
  /-- The identity its own explanation declares, when it has one. -/
  explainedSetupId : Option String
  deriving DecidableEq

structure FloorReport where
  runId : String
  symbol : String
  finalStatus : String
  tradePlan : Option TradePlan
  riskDecision : Option RiskDecision
  setupAssessment : Option SetupAssessment
  deriving DecidableEq

namespace PaperBroker

/-- The order already submitted for a run, if any. -/
def runOrder (orders : Orders) (runId : String) : Option PaperOrder :=
  orders.rows.find? (fun o => decide (o.runId = runId))

/-- The guards of `submit_plan` before it looks at the existing orders. -/
def submittable (report : FloorReport) : Option (TradePlan × RiskDecision × Instant) :=
  if report.finalStatus = "PLAN_READY" then
    match report.tradePlan, report.riskDecision with
    | some plan, some decision =>
        if decision.status = .approved ∧ plan.runId = some report.runId
            ∧ decision.symbol = report.symbol ∧ decision.side = plan.side then
          plan.asOf.map (fun planAsOf => (plan, decision, planAsOf))
        else none
    | _, _ => none
  else none

/-- The guards of `submit_plan` on the numbers and on the account. -/
def admissible (b : PaperBroker) (report : FloorReport) (decision : RiskDecision) :
    Option (ℚ × ℚ) :=
  match decision.quantity, b.instrument with
  | some quantity, some instrument =>
      match instrument.contractMultiplier with
      | some multiplier =>
          if 0 < quantity ∧ 0 < decision.entry ∧ 0 < decision.stop ∧ 0 < decision.target
              ∧ 0 < multiplier ∧ decision.symbol = instrument.symbol ∧ 0 < b.account.equity
              ∧ b.account.openPositions.get? report.symbol = none then
            some (quantity, multiplier)
          else none
      | none => none
  | _, _ => none

/-- `submit_plan`: at most one PENDING order for one run. -/
def submitPlan (b : PaperBroker) (report : FloorReport) (asOf : Instant) (orderId : String) :
    PaperBroker × Option PaperOrder :=
  match submittable report with
  | none => (b, none)
  | some (_, decision, planAsOf) =>
      match runOrder b.orders report.runId with
      | some existing => (b, some existing)
      | none =>
          match b.admissible report decision with
          | none => (b, none)
          | some (quantity, multiplier) =>
              let order : PaperOrder :=
                { orderId := orderId
                  runId := report.runId
                  symbol := report.symbol
                  side := decision.side
                  quantity := quantity
                  plannedEntry := decision.entry
                  stop := decision.stop
                  target := decision.target
                  contractMultiplier := some multiplier
                  equityAtSubmission := some b.account.equity
                  asOf := some planAsOf }
              let b := { b with orders := b.orders.put order }
              (b.event (some asOf) order.runId order.symbol order.orderId "ORDER_SUBMITTED",
                some order)

/-- `close_market`: an explicit exit strictly after the opening. -/
def closeMarket (b : PaperBroker) (symbol : String) (price : ℚ) (asOf : Instant)
    (exitReason decisionRunId tradeId : String) : Except String (PaperBroker × ClosedTrade) :=
  if valid price then
    match b.account.openPositions.get? symbol with
    | none => .error "KeyError"
    | some position =>
        if position.status = .open ∧ position.openedAt < asOf then
          TradeManager.closePosition b position price asOf exitReason tradeId (some decisionRunId)
        else .error "invalid paper position exit"
  else .error "invalid paper market exit"

/-! ## The fill gate -/

/-- `_fill_check`: the actual geometry and the reason to refuse it, if any. -/
def fillCheck (order : PaperOrder) (fillPrice : ℚ) (policy : Policy) :
    Option String × Option Geometry :=
  match geometry order.side fillPrice order.stop order.target with
  | .error _ => (some "fill_invalid_geometry", none)
  | .ok actual =>
      if classify actual.rr (fillLimits policy) ≠ .withinPolicy then
        (some "fill_rr_below_minimum", some actual)
      else (none, some actual)

/-- `_fill_money_check`: actual money risk against planned money risk times the factor.
The telemetry of the source divides by the planned money risk. -/
def fillMoneyCheck (order : PaperOrder) (actual : Option Geometry) (riskPolicy : RiskPolicy) :
    Except String (Option String) :=
  match toDecimal order.plannedEntry, toDecimal order.stop, toDecimal order.quantity,
      order.contractMultiplier.bind toDecimal, actual with
  | some entry, some stop, some quantity, some multiplier, some geometry =>
      let plannedMoney := |entry - stop| * quantity * multiplier
      let actualMoney := geometry.risk * quantity * multiplier
      if plannedMoney = 0 then .error "ZeroDivisionError"
      else if actualMoney > plannedMoney * riskPolicy.fillMoneyRiskFactor then
        .ok (some "fill_money_risk_above_limit")
      else .ok none
  | _, _, _, _, _ => .ok (some "post_fill_risk_or_geometry")

/-- Risk per unit and reward at a fill price, before any validation. -/
def riskPerUnit (order : PaperOrder) (fillPrice : ℚ) : ℚ :=
  match order.side with
  | .long => fillPrice - order.stop
  | .short => order.stop - fillPrice

def rewardPerUnit (order : PaperOrder) (fillPrice : ℚ) : ℚ :=
  match order.side with
  | .long => order.target - fillPrice
  | .short => fillPrice - order.target

/-- The 1% caps of the gates that have no money check. -/
def aboveOnePercent (order : PaperOrder) (equity realRisk : ℚ) : Bool :=
  decide (realRisk > equity * (1 / 100))
    || (match order.equityAtSubmission with
        | some submitted => decide (realRisk > submitted * (1 / 100))
        | none => true)

def validEquities (order : PaperOrder) (equity : ℚ) : Bool :=
  valid equity && validMultiplier order.equityAtSubmission

/-- The rules an order is filled under: its own stamped policy, else the broker's. -/
inductive FillRules
  | unknownPolicy
  | rules (policy : Option Policy) (riskPolicy : Option RiskPolicy)

def fillRules (b : PaperBroker) (order : PaperOrder) : FillRules :=
  match order.riskPolicyVersion with
  | some stamped =>
      match registeredRiskPolicy (some stamped) with
      | none => .unknownPolicy
      | some riskPolicy => .rules (some riskPolicy.rrPolicy) (some riskPolicy)
  | none =>
      if b.rrPolicy = some .v2F3 then .rules b.rrPolicy (some riskPolicyV2P5)
      else .rules b.rrPolicy none

/-- The reason the fill gate rejects `order` at `fillPrice`, or `none` to fill. -/
def fillReason (b : PaperBroker) (order : PaperOrder) (fillPrice multiplier : ℚ) :
    Except String (Option String) :=
  let equity := b.account.equity
  let risk := riskPerUnit order fillPrice
  let reward := rewardPerUnit order fillPrice
  let realRisk := risk * order.quantity * multiplier
  match b.fillRules order with
  | .unknownPolicy => .ok (some "unknown_order_risk_policy")
  | .rules none _ =>
      if !validEquities order equity || decide (risk ≤ 0) || decide (reward ≤ 0)
          || decide (reward / risk < 3) || aboveOnePercent order equity realRisk then
        .ok (some "post_fill_risk_or_geometry")
      else .ok none
  | .rules (some policy) riskPolicy =>
      let (reason, actual) := fillCheck order fillPrice policy
      match reason with
      | some reason => .ok (some reason)
      | none =>
          if !validEquities order equity then .ok (some "post_fill_risk_or_geometry")
          else if policy = .v2F3 then
            match riskPolicy with
            | some riskPolicy => fillMoneyCheck order actual riskPolicy
            | none => .error "AttributeError"
          else if aboveOnePercent order equity realRisk then
            .ok (some "post_fill_risk_or_geometry")
          else .ok none

/-- Set the status of an order where it is stored. -/
def setStatus (b : PaperBroker) (order : PaperOrder) (status : OrderStatus) : PaperBroker :=
  { b with orders := b.orders.put { order with status := status } }

def rejectOrder (b : PaperBroker) (order : PaperOrder) (at_ : Option Instant) (reason : String) :
    PaperBroker :=
  (b.setStatus order .rejected).event at_ order.runId order.symbol order.orderId
    "ORDER_REJECTED" (.obj [("reason", .str reason)])

def cancelOrder (b : PaperBroker) (order : PaperOrder) (at_ : Option Instant) (reason : String) :
    PaperBroker :=
  (b.setStatus order .cancelled).event at_ order.runId order.symbol order.orderId
    "ORDER_CANCELLED" (.obj [("reason", .str reason)])

/-- The position a fill opens: quantity, stop and target are those of the order. -/
def openedPosition (order : PaperOrder) (multiplier : ℚ) (bar : Bar) (positionId : String) :
    PaperPosition :=
  { positionId := positionId
    originOrderId := order.orderId
    runId := order.runId
    symbol := order.symbol
    side := order.side
    quantity := order.quantity
    plannedEntry := order.plannedEntry
    entryPrice := bar.open_
    stop := order.stop
    target := order.target
    openedAt := bar.timestamp
    lastPrice := some bar.open_
    contractMultiplier := some multiplier
    costRate := order.costRate
    setupId := order.setupId }

/-- Book a fill: the order is filled and its position opens under its symbol. -/
def fillOrder (b : PaperBroker) (order : PaperOrder) (multiplier : ℚ) (bar : Bar)
    (fillId positionId : String) : PaperBroker × PaperPosition :=
  let fill : PaperFill :=
    { fillId := fillId
      orderId := order.orderId
      runId := order.runId
      symbol := order.symbol
      side := order.side
      quantity := order.quantity
      plannedEntry := order.plannedEntry
      fillPrice := bar.open_
      fillTimestamp := bar.timestamp }
  let position := openedPosition order multiplier bar positionId
  let b := b.setStatus order .filled
  let b := { b with
    fills := b.fills.put fill
    account := { b.account with openPositions := b.account.openPositions.put position } }
  let b := b.event (some bar.timestamp) order.runId order.symbol fillId "ORDER_FILLED"
  (b.event (some bar.timestamp) order.runId order.symbol positionId "POSITION_OPENED", position)

/-- `process_next_bar`: fill, reject or cancel one PENDING order at the open of a bar. -/
def processNextBar (b : PaperBroker) (order : PaperOrder) (bar : Bar)
    (fillId positionId : String) : Except String (PaperBroker × Option PaperPosition) :=
  if order.status ≠ .pending then .ok (b, none)
  else match order.contractMultiplier with
    | none => .ok (b.rejectOrder order none "invalid_order_contract", none)
    | some multiplier =>
        if !valid multiplier then .ok (b.rejectOrder order none "invalid_order_contract", none)
        else match order.asOf with
          | none => .ok (b.cancelOrder order (some bar.timestamp) "invalid_fill_bar", none)
          | some asOf =>
              if bar.symbol ≠ order.symbol ∨ bar.isClosed = false ∨ bar.validOhlc = false then
                .ok (b.cancelOrder order (some bar.timestamp) "invalid_fill_bar", none)
              else if bar.timestamp ≤ asOf then
                .ok (b.cancelOrder order (some bar.timestamp) "bar_not_after_as_of", none)
              else match b.fillReason order bar.open_ multiplier with
                | .error e => .error e
                | .ok (some reason) =>
                    .ok (b.rejectOrder order (some bar.timestamp) reason, none)
                | .ok none =>
                    let (b, position) := b.fillOrder order multiplier bar fillId positionId
                    .ok (b, some position)

/-- Everything `process_next_bar` can do to a PENDING order. -/
theorem processNextBar_cases {b b' : PaperBroker} {order : PaperOrder} {bar : Bar}
    {fillId positionId : String} {opened : Option PaperPosition}
    (h : b.processNextBar order bar fillId positionId = .ok (b', opened)) :
    (order.status ≠ .pending ∧ b' = b ∧ opened = none) ∨
    (order.status = .pending ∧ opened = none ∧
      ∃ at_ reason, b' = b.rejectOrder order at_ reason ∨ b' = b.cancelOrder order at_ reason) ∨
    (order.status = .pending ∧ ∃ multiplier, order.contractMultiplier = some multiplier ∧
      0 < multiplier ∧ bar.symbol = order.symbol ∧
      b.fillReason order bar.open_ multiplier = .ok none ∧
      opened = some (openedPosition order multiplier bar positionId) ∧
      b' = (b.fillOrder order multiplier bar fillId positionId).1) := by
  unfold processNextBar at h
  by_cases hs : order.status = .pending
  · simp only [hs, ne_eq, not_true_eq_false, if_false] at h
    cases hm : order.contractMultiplier with
    | none =>
      simp only [hm, Except.ok.injEq, Prod.mk.injEq] at h
      exact .inr (.inl ⟨hs, h.2.symm, _, _, .inl h.1.symm⟩)
    | some multiplier =>
      simp only [hm] at h
      by_cases hv : valid multiplier = true
      · simp only [hv, Bool.not_true, Bool.false_eq_true, if_false] at h
        cases ha : order.asOf with
        | none =>
          simp only [ha, Except.ok.injEq, Prod.mk.injEq] at h
          exact .inr (.inl ⟨hs, h.2.symm, _, _, .inr h.1.symm⟩)
        | some asOf =>
          simp only [ha] at h
          split at h
          · simp only [Except.ok.injEq, Prod.mk.injEq] at h
            exact .inr (.inl ⟨hs, h.2.symm, _, _, .inr h.1.symm⟩)
          · rename_i hbar
            split at h
            · simp only [Except.ok.injEq, Prod.mk.injEq] at h
              exact .inr (.inl ⟨hs, h.2.symm, _, _, .inr h.1.symm⟩)
            · split at h
              · cases h
              · simp only [Except.ok.injEq, Prod.mk.injEq] at h
                exact .inr (.inl ⟨hs, h.2.symm, _, _, .inl h.1.symm⟩)
              · rename_i hr
                simp only [Except.ok.injEq, Prod.mk.injEq] at h
                push Not at hbar
                exact .inr (.inr ⟨hs, multiplier, rfl, valid_eq_true.mp hv, hbar.1, hr,
                  h.2.symm, h.1.symm⟩)
      · simp only [Bool.not_eq_true] at hv
        simp only [hv, Bool.not_false, if_true, Except.ok.injEq, Prod.mk.injEq] at h
        exact .inr (.inl ⟨hs, h.2.symm, _, _, .inl h.1.symm⟩)
  · simp only [ne_eq, hs, not_false_eq_true, if_true, Except.ok.injEq, Prod.mk.injEq] at h
    exact .inl ⟨hs, h.1.symm, h.2.symm⟩

end PaperBroker

end MarketSystem
