import MarketSystem.Execution.PaperBroker
import Mathlib.Data.Rat.Floor

/-!
# The risk engine

A fixed-multiple plan is evaluated against the durable PAPER portfolio. The gates
run in the order of the source and the first that fails decides. The reservation
of a PENDING order is its planned money risk times the factor of the policy it
was stamped with; an order without a registered policy has no reservation and
blocks every new approval.
-/
namespace MarketSystem

open Library RrContract

namespace RiskEngine

/-- `position_risk`: the loss from the entry to the stop, never negative. -/
def positionRisk (position : PaperPosition) : Option ℚ :=
  match toDecimal position.entryPrice, toDecimal position.stop, toDecimal position.quantity,
      position.contractMultiplier.bind toDecimal with
  | some entry, some stop, some quantity, some multiplier =>
      let distance := match position.side with
        | .long => entry - stop
        | .short => stop - entry
      some (max 0 distance * quantity * multiplier)
  | _, _, _, _ => none

theorem positionRisk_eq (position : PaperPosition) {multiplier : ℚ}
    (hentry : 0 < position.entryPrice) (hstop : 0 < position.stop)
    (hquantity : 0 < position.quantity)
    (hm : position.contractMultiplier = some multiplier) (hmultiplier : 0 < multiplier) :
    positionRisk position = some (max 0 (position.side.signed (position.entryPrice - position.stop))
      * position.quantity * multiplier) := by
  unfold positionRisk
  rw [toDecimal_of_pos hentry, toDecimal_of_pos hstop, toDecimal_of_pos hquantity, hm,
    Option.bind_some, toDecimal_of_pos hmultiplier]
  cases position.side <;> simp

structure PendingReservation where
  planned : ℚ
  /-- `none` when the policy identity of the order is unknown. -/
  reserved : Option ℚ
  deriving DecidableEq, Repr

/-- `pending_reservation`: the planned money risk and what it reserves. -/
def pendingReservation (order : PaperOrder) : Option PendingReservation :=
  match toDecimal order.plannedEntry, toDecimal order.stop, toDecimal order.quantity,
      order.contractMultiplier.bind toDecimal with
  | some entry, some stop, some quantity, some multiplier =>
      let planned := |entry - stop| * quantity * multiplier
      let policy := registeredRiskPolicy order.riskPolicyVersion
      some ⟨planned, policy.map (fun p => planned * p.fillMoneyRiskFactor)⟩
  | _, _, _, _ => none

/-- The basis of the drawdown gate when it is not the PAPER account itself. -/
structure DrawdownBasis where
  source : String
  error : Option String
  current : Option ℚ
  starting : Option ℚ
  deriving DecidableEq, Repr

/-- The traceability record: one field for each value the evaluation reached. -/
structure RiskRecord where
  policyVersion : String
  runId : Option String
  setupId : Option String
  symbol : String
  direction : Side
  plannedEntry : Option ℚ := none
  sl : Option ℚ := none
  tp : Option ℚ := none
  currentEquity : Option ℚ := none
  realizedBalance : Option ℚ := none
  conservativeEquity : Option ℚ := none
  drawdownFraction : Option ℚ := none
  riskBudget : Option ℚ := none
  quantity : Option ℚ := none
  plannedMonetaryRisk : Option ℚ := none
  reservedFillRisk : Option ℚ := none
  existingOpenRisk : Option ℚ := none
  existingPendingRisk : Option ℚ := none
  existingSymbolRisk : Option ℚ := none
  postTradePortfolioRisk : Option ℚ := none
  portfolioRiskLimit : Option ℚ := none
  unknownPendingOrders : List String := []
  riskStatus : String := "NOT_EVALUATED"
  riskReason : Option String := none
  orderId : Option String := none

namespace RiskRecord

def number (q : Option ℚ) : Json :=
  match q with
  | some q => .num q
  | none => .null

/-- The record as the journal row of the decision carries it. -/
def asJson (r : RiskRecord) : Json :=
  .obj [("policy_version", .str r.policyVersion), ("run_id", .ofOption r.runId),
    ("setup_id", .ofOption r.setupId), ("symbol", .str r.symbol),
    ("planned_entry", number r.plannedEntry), ("sl", number r.sl), ("tp", number r.tp),
    ("current_equity", number r.currentEquity), ("realized_balance", number r.realizedBalance),
    ("conservative_equity", number r.conservativeEquity),
    ("drawdown_fraction", number r.drawdownFraction), ("risk_budget", number r.riskBudget),
    ("quantity", number r.quantity), ("planned_monetary_risk", number r.plannedMonetaryRisk),
    ("reserved_fill_risk", number r.reservedFillRisk),
    ("existing_open_risk", number r.existingOpenRisk),
    ("existing_pending_risk", number r.existingPendingRisk),
    ("existing_symbol_risk", number r.existingSymbolRisk),
    ("post_trade_portfolio_risk", number r.postTradePortfolioRisk),
    ("portfolio_risk_limit", number r.portfolioRiskLimit),
    ("unknown_pending_orders", .arr (r.unknownPendingOrders.map .str)),
    ("risk_status", .str r.riskStatus), ("risk_reason", .ofOption r.riskReason),
    ("order_id", .ofOption r.orderId)]

end RiskRecord

structure RiskV2Result where
  decision : RiskDecision
  record : RiskRecord

/-- Gate 2: the geometry of the plan under the single R:R contract. -/
def planShape (plan : TradePlan) (policy : RiskPolicy) : Except String Geometry :=
  if plan.policyVersion ≠ some policy.rrPolicy ∨ fixedRr policy.rrPolicy = false then
    .error "rr_policy_mismatch"
  else match geometry plan.side plan.entry plan.stop plan.target with
    | .error .invalidNumeric => .error "invalid_numeric_value"
    | .error why => .error why.reason
    | .ok shape =>
        if declaredMatches plan.riskReward shape.rr = false then .error "rr_declared_mismatch"
        else if classify shape.rr (limits policy.rrPolicy) ≠ .withinPolicy then
          .error (if shape.rr < policy.plannedRr then "rr_below_minimum" else "rr_above_maximum")
        else .ok shape

/-- The contract data of the instrument, when it is the instrument of the plan. -/
def instrumentContract (plan : TradePlan) (instrument : Option Instrument) : Option (ℚ × ℚ) :=
  match instrument with
  | none => none
  | some i =>
      match i.contractMultiplier.bind toDecimal, i.quantityIncrement.bind toDecimal with
      | some multiplier, some increment =>
          if i.symbol = plan.symbol then some (multiplier, increment) else none
      | _, _ => none

theorem instrumentContract_eq_some {plan : TradePlan} {instrument : Option Instrument}
    {multiplier increment : ℚ}
    (h : instrumentContract plan instrument = some (multiplier, increment)) :
    ∃ i, instrument = some i ∧ i.contractMultiplier = some multiplier ∧ i.symbol = plan.symbol := by
  unfold instrumentContract at h
  cases instrument with
  | none => simp at h
  | some i =>
    refine ⟨i, rfl, ?_⟩
    cases hm : i.contractMultiplier.bind toDecimal with
    | none => simp [hm] at h
    | some m =>
      cases hinc : i.quantityIncrement.bind toDecimal with
      | none => simp [hm, hinc] at h
      | some inc =>
        simp only [hm, hinc] at h
        split_ifs at h with hsym
        simp only [Option.some.injEq, Prod.mk.injEq] at h
        obtain ⟨rfl, rfl⟩ := h
        obtain ⟨value, hv, hval⟩ := Option.bind_eq_some_iff.mp hm
        rw [toDecimal_eq_some] at hval
        exact ⟨by rw [hv, hval.2], hsym⟩

/-- Gate 4: the amounts the drawdown is measured on. -/
def drawdownAmounts (current starting : ℚ) (basis : Option DrawdownBasis) : Option (ℚ × ℚ) :=
  match basis with
  | none => some (current, starting)
  | some basis =>
      if basis.source ≠ "OANDA_DEMO" ∨ basis.error ≠ none then none
      else match basis.current, basis.starting with
        | some c, some s => if s ≤ 0 then none else some (c, s)
        | _, _ => none

def drawdownLimited (policy : RiskPolicy) (amounts : ℚ × ℚ) : Bool :=
  decide (amounts.1 ≤ amounts.2 * (1 - policy.accountDrawdownFraction))

/-- Gate 5: the quantity on the conservative basis, floored to the increment. -/
structure Sizing where
  budget : ℚ
  quantity : ℚ
  plannedMoney : ℚ

def sizing (policy : RiskPolicy) (conservative : ℚ) (shape : Geometry)
    (multiplier increment : ℚ) : Sizing :=
  let budget := conservative * policy.perTradeRiskFraction
  let raw := min (budget / (shape.risk * multiplier))
    (conservative * policy.notionalFractionCap / (shape.entry * multiplier))
  let quantity := (⌊raw / increment⌋ : ℚ) * increment
  ⟨budget, quantity, quantity * shape.risk * multiplier⟩

/-- Gates 6 and 7: the exposure the account already carries. -/
structure Exposure where
  openRisk : ℚ
  pendingReserved : ℚ
  symbolRisk : ℚ
  symbolCount : ℕ
  unknown : List String

/-- One open position added to the exposure. -/
def addPosition (symbol : String) (e : Exposure) (position : PaperPosition) : Option Exposure :=
  match positionRisk position with
  | none => none
  | some risk => some { e with
      openRisk := e.openRisk + risk
      symbolRisk := if position.symbol = symbol then e.symbolRisk + risk else e.symbolRisk
      symbolCount := if position.symbol = symbol then e.symbolCount + 1 else e.symbolCount }

/-- One order added to the exposure: only PENDING orders count. -/
def addOrder (symbol : String) (e : Exposure) (order : PaperOrder) : Option Exposure :=
  if order.status ≠ .pending then some e
  else match pendingReservation order with
    | none => none
    | some item =>
        let e := { e with
          symbolCount := if order.symbol = symbol then e.symbolCount + 1 else e.symbolCount }
        match item.reserved with
        | none => some { e with unknown := e.unknown ++ [order.orderId] }
        | some reserved => some { e with
            pendingReserved := e.pendingReserved + reserved
            symbolRisk := if order.symbol = symbol then e.symbolRisk + reserved
              else e.symbolRisk }

def exposure (symbol : String) (account : PaperAccount) (orders : Orders) : Option Exposure :=
  (account.openPositions.rows.foldlM (addPosition symbol) ⟨0, 0, 0, 0, []⟩).bind
    (fun e => orders.rows.foldlM (addOrder symbol) e)

/-- The conservative equity basis of sizing and of the portfolio limit. -/
def conservativeEquity (account : PaperAccount) : ℚ :=
  min account.equity (account.startingEquity + account.realizedPnl)

def rejected (plan : TradePlan) (record : RiskRecord) (reason : String) : RiskV2Result :=
  ⟨{ status := .rejected
     symbol := plan.symbol
     side := plan.side
     quantity := none
     capitalAtRisk := none
     entry := plan.entry
     stop := plan.stop
     target := plan.target
     reason := reason },
   { record with riskStatus := "REJECTED", riskReason := some reason }⟩

/-- Gates 6 to 8: the portfolio, the symbol rule and the aggregate limit. -/
def evaluateExposure (plan : TradePlan) (account : PaperAccount) (orders : Orders)
    (policy : RiskPolicy) (multiplier : ℚ) (size : Sizing) (record : RiskRecord) :
    RiskV2Result :=
  match exposure plan.symbol account orders with
  | none => rejected plan record "INVALID_ACCOUNT_STATE"
  | some e =>
      let conservative := conservativeEquity account
      let limit := conservative * policy.aggregatePortfolioRiskFraction
      let postTrade := e.openRisk + e.pendingReserved
        + size.plannedMoney * policy.fillMoneyRiskFactor
      let record := { record with
        existingOpenRisk := some e.openRisk
        existingPendingRisk := some e.pendingReserved
        existingSymbolRisk := some e.symbolRisk
        postTradePortfolioRisk := some postTrade
        portfolioRiskLimit := some limit }
      if e.unknown ≠ [] then
        rejected plan { record with unknownPendingOrders := e.unknown }
          "UNKNOWN_PENDING_RISK_POLICY"
      else if e.symbolCount ≥ policy.maxPositionsOrPendingPerSymbol then
        rejected plan record "SYMBOL_EXPOSURE_LIMIT"
      else if postTrade > limit then rejected plan record "PORTFOLIO_RISK_LIMIT"
      else
        ⟨{ status := .approved
           symbol := plan.symbol
           side := plan.side
           quantity := some size.quantity
           capitalAtRisk := some size.plannedMoney
           entry := plan.entry
           stop := plan.stop
           target := plan.target
           reason := "approved"
           equityAtDecision := some conservative
           riskFraction := some policy.perTradeRiskFraction
           contractMultiplier := some multiplier },
         { record with riskStatus := "APPROVED", riskReason := some "approved" }⟩

/-- Gates 3 to 5: conservative equity, drawdown and sizing. -/
def evaluateSizing (plan : TradePlan) (account : PaperAccount) (orders : Orders)
    (policy : RiskPolicy) (drawdownBasis : Option DrawdownBasis) (starting : ℚ)
    (shape : Geometry) (multiplier increment : ℚ) (record : RiskRecord) : RiskV2Result :=
  let conservative := conservativeEquity account
  let record := { record with
    currentEquity := some account.equity
    realizedBalance := some (starting + account.realizedPnl)
    conservativeEquity := some conservative }
  if conservative ≤ 0 then rejected plan record "INVALID_ACCOUNT_STATE"
  else match drawdownAmounts account.equity starting drawdownBasis with
  | none => rejected plan record "ACCOUNT_DRAWDOWN_UNAVAILABLE"
  | some amounts =>
      let record := { record with
        drawdownFraction := some (max 0 ((amounts.2 - amounts.1) / amounts.2)) }
      if drawdownLimited policy amounts then rejected plan record "ACCOUNT_DRAWDOWN_LIMIT"
      else
        let size := sizing policy conservative shape multiplier increment
        let record := { record with
          riskBudget := some size.budget
          quantity := some size.quantity
          plannedMonetaryRisk := some size.plannedMoney
          reservedFillRisk := some (size.plannedMoney * policy.fillMoneyRiskFactor) }
        if size.quantity ≤ 0 then rejected plan record "PAPER_QUANTITY_BELOW_INCREMENT"
        else if size.plannedMoney > size.budget then rejected plan record "PER_TRADE_RISK_LIMIT"
        else evaluateExposure plan account orders policy multiplier size record

/-- `evaluate`: the gates in their order. -/
def evaluate (plan : TradePlan) (account : Option PaperAccount) (orders : Orders)
    (instrument : Option Instrument) (policy : RiskPolicy) (setupId : Option String)
    (drawdownBasis : Option DrawdownBasis) : RiskV2Result :=
  let record : RiskRecord :=
    { policyVersion := policy.version
      runId := plan.runId
      setupId := setupId
      symbol := plan.symbol
      direction := plan.side }
  if !stampsRegisteredSemantics policy then rejected plan record "RISK_POLICY_NOT_REGISTERED"
  else match account with
  | none => rejected plan record "INVALID_ACCOUNT_STATE"
  | some account =>
  match toDecimal account.startingEquity with
  | none => rejected plan record "INVALID_ACCOUNT_STATE"
  | some starting =>
  match planShape plan policy with
  | .error why => rejected plan record why
  | .ok shape =>
  let record := { record with
    plannedEntry := some shape.entry, sl := some shape.stop, tp := some shape.target }
  match instrumentContract plan instrument with
  | none => rejected plan record "instrument_contract_data_unavailable"
  | some (multiplier, increment) =>
      evaluateSizing plan account orders policy drawdownBasis starting shape multiplier increment
        record

/-- Everything an approval establishes. -/
structure Approval (plan : TradePlan) (account : PaperAccount) (orders : Orders)
    (instrument : Option Instrument) (policy : RiskPolicy) (decision : RiskDecision) where
  shape : Geometry
  multiplier : ℚ
  increment : ℚ
  exposure_ : Exposure
  shape_eq : planShape plan policy = .ok shape
  contract : instrumentContract plan instrument = some (multiplier, increment)
  quantity_pos : 0 < (sizing policy (conservativeEquity account) shape multiplier increment).quantity
  exposure_eq : exposure plan.symbol account orders = some exposure_
  known : exposure_.unknown = []
  symbol_free : exposure_.symbolCount < policy.maxPositionsOrPendingPerSymbol
  within_limit : exposure_.openRisk + exposure_.pendingReserved
    + (sizing policy (conservativeEquity account) shape multiplier increment).plannedMoney
        * policy.fillMoneyRiskFactor
    ≤ conservativeEquity account * policy.aggregatePortfolioRiskFraction
  decision_eq : decision =
    { status := .approved
      symbol := plan.symbol
      side := plan.side
      quantity := some
        (sizing policy (conservativeEquity account) shape multiplier increment).quantity
      capitalAtRisk := some
        (sizing policy (conservativeEquity account) shape multiplier increment).plannedMoney
      entry := plan.entry
      stop := plan.stop
      target := plan.target
      reason := "approved"
      equityAtDecision := some (conservativeEquity account)
      riskFraction := some policy.perTradeRiskFraction
      contractMultiplier := some multiplier }

@[simp] theorem rejected_status (plan : TradePlan) (record : RiskRecord) (reason : String) :
    (rejected plan record reason).decision.status = .rejected := rfl

theorem evaluateExposure_approved {plan : TradePlan} {account : PaperAccount} {orders : Orders}
    {policy : RiskPolicy} {multiplier : ℚ} {size : Sizing} {record : RiskRecord}
    (h : (evaluateExposure plan account orders policy multiplier size record).decision.status
      = .approved) :
    ∃ e, exposure plan.symbol account orders = some e ∧ e.unknown = []
      ∧ e.symbolCount < policy.maxPositionsOrPendingPerSymbol
      ∧ e.openRisk + e.pendingReserved + size.plannedMoney * policy.fillMoneyRiskFactor
          ≤ conservativeEquity account * policy.aggregatePortfolioRiskFraction
      ∧ (evaluateExposure plan account orders policy multiplier size record).decision =
        { status := .approved
          symbol := plan.symbol
          side := plan.side
          quantity := some size.quantity
          capitalAtRisk := some size.plannedMoney
          entry := plan.entry
          stop := plan.stop
          target := plan.target
          reason := "approved"
          equityAtDecision := some (conservativeEquity account)
          riskFraction := some policy.perTradeRiskFraction
          contractMultiplier := some multiplier } := by
  unfold evaluateExposure at h ⊢
  cases he : exposure plan.symbol account orders with
  | none => simp [he] at h
  | some e =>
    simp only [he] at h ⊢
    split_ifs at h ⊢ with h1 h2 h3
    · simp at h
    · simp at h
    · simp at h
    · exact ⟨e, rfl, not_ne_iff.mp h1, not_le.mp h2, not_lt.mp h3, rfl⟩

theorem evaluateSizing_approved {plan : TradePlan} {account : PaperAccount} {orders : Orders}
    {policy : RiskPolicy} {basis : Option DrawdownBasis} {starting : ℚ} {shape : Geometry}
    {multiplier increment : ℚ} {record : RiskRecord}
    (h : (evaluateSizing plan account orders policy basis starting shape multiplier increment
      record).decision.status = .approved) :
    0 < (sizing policy (conservativeEquity account) shape multiplier increment).quantity ∧
    ∃ record', evaluateSizing plan account orders policy basis starting shape multiplier increment
      record = evaluateExposure plan account orders policy multiplier
        (sizing policy (conservativeEquity account) shape multiplier increment) record' := by
  unfold evaluateSizing at h ⊢
  dsimp only at h ⊢
  cases ha : drawdownAmounts account.equity starting basis with
  | none =>
    simp only [ha] at h
    split_ifs at h <;> simp at h
  | some amounts =>
    simp only [ha] at h ⊢
    split_ifs at h ⊢ with h1 h2 h3 h4
    · simp at h
    · simp at h
    · simp at h
    · simp at h
    · exact ⟨not_le.mp h3, _, rfl⟩

/-- An approved evaluation passed every gate. -/
theorem approval_of_approved {plan : TradePlan} {account : Option PaperAccount} {orders : Orders}
    {instrument : Option Instrument} {policy : RiskPolicy} {setupId : Option String}
    {basis : Option DrawdownBasis}
    (h : (evaluate plan account orders instrument policy setupId basis).decision.status
      = .approved) :
    ∃ a, account = some a ∧
      Nonempty (Approval plan a orders instrument policy
        (evaluate plan account orders instrument policy setupId basis).decision) := by
  unfold evaluate at h ⊢
  dsimp only at h ⊢
  split_ifs at h ⊢ with hreg
  · simp at h
  cases account with
  | none => simp at h
  | some a =>
    cases hstart : toDecimal a.startingEquity with
    | none => simp [hstart] at h
    | some starting =>
      simp only [hstart] at h ⊢
      cases hshape : planShape plan policy with
      | error why => simp [hshape] at h
      | ok shape =>
        simp only [hshape] at h ⊢
        cases hcontract : instrumentContract plan instrument with
        | none => simp [hcontract] at h
        | some contract =>
          obtain ⟨multiplier, increment⟩ := contract
          simp only [hcontract] at h ⊢
          obtain ⟨hqty, record', heq⟩ := evaluateSizing_approved h
          rw [heq] at h ⊢
          obtain ⟨e, he, hknown, hsymbol, hlimit, hdecision⟩ := evaluateExposure_approved h
          exact ⟨a, rfl, ⟨⟨shape, multiplier, increment, e, hshape, hcontract, hqty, he, hknown,
            hsymbol, hlimit, hdecision⟩⟩⟩

end RiskEngine

end MarketSystem
