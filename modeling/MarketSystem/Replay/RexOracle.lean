import MarketSystem.Library.Refusal
import MarketSystem.Execution.PaperBroker

/-!
# The replay oracle

The oracle computes once more, from the recorded evidence alone, what each economic write of a
cycle did: the management of the open positions by a bar, the fill gate on the PENDING orders and
the submission of a plan. It starts from the recorded state before the write, and the recorded state
after it has to be the computed one. What a write creates carries an id nobody can compute, so it is
looked up by what it belongs to and compared without its id.

An item of a recorded state is the record whose payload it is, with the instant of each time text.
New entities carry the empty text where the source has `None` for their id.
-/
namespace MarketSystem.RexOracle

open Library

/-! ## Recorded states -/

/-- `PaperState`. The payload of the account has no positions and no trades. -/
structure PaperState where
  account : Option PaperAccount
  positions : Table PaperPosition.positionId
  closed : Table ClosedTrade.tradeId
  orders : Orders
  fills : Fills

/-- A recorded state: the account, the open positions, the closed trades, the orders, the fills. -/
structure Recorded where
  account : Option PaperAccount
  positions : List PaperPosition
  closed : List ClosedTrade
  orders : List PaperOrder
  fills : List PaperFill

/-- One part of a recorded state by its ids. -/
def byId {ρ : Type} (key : ρ → String) (items : List ρ) : Except String (Table key) :=
  match Table.ofList? items with
  | some table => .ok table
  | none => .error "STATE_DUPLICATE_ID"

/-- `PaperState.__init__`. -/
def PaperState.ofRecorded (state : Recorded) : Except String PaperState := do
  let positions ← byId PaperPosition.positionId state.positions
  let closed ← byId ClosedTrade.tradeId state.closed
  let orders ← byId PaperOrder.orderId state.orders
  let fills ← byId PaperFill.fillId state.fills
  pure ⟨state.account, positions, closed, orders, fills⟩

/-- `open_by_symbol`. -/
def PaperState.openBySymbol (state : PaperState) : Except String (Table PaperPosition.symbol) :=
  match Table.ofList? state.positions.rows with
  | some table => .ok table
  | none => .error "STATE_DUPLICATE_OPEN_POSITION"

/-- The new entities of a write, by part. -/
structure New where
  positions : List PaperPosition := []
  closed : List ClosedTrade := []
  orders : List PaperOrder := []
  fills : List PaperFill := []

/-! ## Comparing states -/

/-- How the entities of a part are known: by their id, and where that is new by what they belong to
(`NEW_ENTITY_MATCH`). -/
structure Part (ρ : Type) where
  name : String
  key : ρ → String
  owner : ρ → String
  withKey : String → ρ → ρ
  key_withKey : ∀ id x, key (withKey id x) = id
  owner_withKey : ∀ id x, owner (withKey id x) = owner x
  withKey_key : ∀ x, withKey (key x) x = x
  withKey_withKey : ∀ id id' x, withKey id (withKey id' x) = withKey id x

abbrev positions : Part PaperPosition where
  name := "positions"
  key := PaperPosition.positionId
  owner := PaperPosition.originOrderId
  withKey id x := { x with positionId := id }
  key_withKey _ _ := rfl
  owner_withKey _ _ := rfl
  withKey_key _ := rfl
  withKey_withKey _ _ _ := rfl

abbrev closed : Part ClosedTrade where
  name := "closed"
  key := ClosedTrade.tradeId
  owner := ClosedTrade.positionId
  withKey id x := { x with tradeId := id }
  key_withKey _ _ := rfl
  owner_withKey _ _ := rfl
  withKey_key _ := rfl
  withKey_withKey _ _ _ := rfl

abbrev orders : Part PaperOrder where
  name := "orders"
  key := PaperOrder.orderId
  owner := PaperOrder.runId
  withKey id x := { x with orderId := id }
  key_withKey _ _ := rfl
  owner_withKey _ _ := rfl
  withKey_key _ := rfl
  withKey_withKey _ _ _ := rfl

abbrev fills : Part PaperFill where
  name := "fills"
  key := PaperFill.fillId
  owner := PaperFill.orderId
  withKey id x := { x with fillId := id }
  key_withKey _ _ := rfl
  owner_withKey _ _ := rfl
  withKey_key _ := rfl
  withKey_withKey _ _ _ := rfl

/-- A failure of the check: a code it requires, or a mismatch without the states it prints. -/
inductive Problem
  | required (code : String)
  | account
  | missing (part id : String)
  | differs (part id : String)
  | created (part : String)
  | notFoundOnce (part owner : String)
  | newDiffers (part owner : String)
  deriving DecidableEq

section Compare

variable {ρ : Type} [DecidableEq ρ] (part : Part ρ)

/-- The item of an expected id. -/
def compareItem (got : Table part.key) (item : ρ) : List Problem :=
  match got.get? (part.key item) with
  | none => [.missing part.name (part.key item)]
  | some found => if found = item then [] else [.differs part.name (part.key item)]

/-- A new entity, up to its id. -/
def compareNew (created : List ρ) (want : ρ) : List Problem :=
  match created.filter (fun item => decide (part.owner item = part.owner want)) with
  | [found] =>
    if part.withKey "" found = part.withKey "" want then []
    else [.newDiffers part.name (part.owner want)]
  | _ => [.notFoundOnce part.name (part.owner want)]

/-- One round of `compare_states`. -/
def comparePart (expected : Table part.key) (wanted : List ρ) (got : Table part.key) :
    List Problem :=
  let created := got.rows.filter (fun item => (expected.get? (part.key item)).isNone)
  expected.rows.flatMap (compareItem part got) ++
    (if created.length ≠ wanted.length then [.created part.name]
      else wanted.flatMap (compareNew part created))

end Compare

/-- `compare_states`. -/
def compareStates (expected : PaperState) (new : New) (post : PaperState) : List Problem :=
  (if expected.account ≠ post.account then [.account] else []) ++
    comparePart positions expected.positions new.positions post.positions ++
    comparePart closed expected.closed new.closed post.closed ++
    comparePart orders expected.orders new.orders post.orders ++
    comparePart fills expected.fills new.fills post.fills

/-- `require`: a failure is noted and the check goes on. -/
def demand (condition : Bool) (code : String) : List Problem :=
  if condition then [] else [.required code]

/-- What `apply` makes of the recorded state before a write. -/
structure Applied where
  state : PaperState
  events : List String := []
  new : New := {}
  failures : List Problem := []

/-- `_check_write_transition` of a committed write: its failures, or the evidence error. -/
def checkWriteTransition (preState postState : Recorded)
    (apply : PaperState → Except String Applied) (events : List String) :
    Except String (List Problem) := do
  let pre ← PaperState.ofRecorded preState
  let post ← PaperState.ofRecorded postState
  let applied ← apply pre
  pure (applied.failures ++ compareStates applied.state applied.new post ++
    demand (decide (events = applied.events)) "WRITE_EVENTS_MISMATCH")

/-! ## ST2: `TradeManager.process_bar` -/

/-- The state of the loop of `manage_bar`. -/
structure Managed where
  account : PaperAccount
  positions : Table PaperPosition.positionId
  openPositions : Table PaperPosition.symbol
  events : List String
  closed : List ClosedTrade

/-- `_valid_ohlc` as `manage_bar` spells it out. -/
def validOhlc (bar : Bar) : Bool :=
  valid bar.open_ && valid bar.high && valid bar.low && valid bar.close &&
    decide (bar.low ≤ bar.open_ ∧ bar.open_ ≤ bar.high ∧ bar.low ≤ bar.close ∧
      bar.close ≤ bar.high)

/-- The price and the reason of an exit. -/
def exitOf (position : PaperPosition) (bar : Bar) : Option (ℚ × String) :=
  match position.side with
  | .long =>
    if bar.open_ ≤ position.stop then some (bar.open_, "stop")
    else if position.target ≤ bar.open_ then some (bar.open_, "target")
    else if bar.low ≤ position.stop then some (position.stop, "stop")
    else if position.target ≤ bar.high then some (position.target, "target")
    else none
  | .short =>
    if position.stop ≤ bar.open_ then some (bar.open_, "stop")
    else if bar.open_ ≤ position.target then some (bar.open_, "target")
    else if position.stop ≤ bar.high then some (position.stop, "stop")
    else if bar.low ≤ position.target then some (position.target, "target")
    else none

/-- The profit of a position at a price. -/
def gross (position : PaperPosition) (price : ℚ) : ℚ :=
  (match position.side with
    | .long => price - position.entryPrice
    | .short => position.entryPrice - price) * position.quantity *
      position.contractMultiplier.getD 0

/-- The new closed trade. -/
def newTrade (position : PaperPosition) (bar : Bar) (exitPrice : ℚ) (reason : String) :
    ClosedTrade where
  tradeId := ""
  positionId := position.positionId
  runId := position.runId
  symbol := position.symbol
  side := position.side
  entryPrice := position.entryPrice
  exitPrice := exitPrice
  quantity := position.quantity
  grossPnl := gross position exitPrice
  cost := position.costRate * position.quantity * position.entryPrice / 100
  netPnl := gross position exitPrice -
    position.costRate * position.quantity * position.entryPrice / 100
  exitedAt := bar.timestamp
  reason := reason

/-- The body of the loop. -/
def manage (bar : Bar) (m : Managed) (position : PaperPosition) : Managed :=
  if position.status ≠ .open then m
  else if bar.symbol ≠ position.symbol ∨ validMultiplier position.contractMultiplier = false then m
  else if bar.timestamp ≤ position.openedAt then m
  else if position.lastProcessedAt.any (fun processed => decide (bar.timestamp ≤ processed)) then m
  else if validOhlc bar = false then m
  else
    match exitOf position bar with
    | none =>
      let position := { position with
        lastPrice := some bar.close
        lastProcessedAt := some bar.timestamp }
      { m with
        positions := m.positions.put position
        openPositions := m.openPositions.put position }
    | some (exitPrice, reason) =>
      let trade := newTrade position bar exitPrice reason
      { account := { m.account with realizedPnl := m.account.realizedPnl + trade.netPnl }
        positions := m.positions.erase position.positionId
        openPositions := m.openPositions.erase position.symbol
        events := m.events ++
          [if reason = "stop" then "STOP_HIT" else "TARGET_HIT", "POSITION_CLOSED"]
        closed := m.closed ++ [trade] }

/-- `_unrealized`. -/
def unrealized (position : PaperPosition) : ℚ :=
  match position.lastPrice with
  | none => 0
  | some last =>
    if validMultiplier position.contractMultiplier = false then 0 else gross position last

/-- `manage_bar`: `order` has the symbols in the order in which the open positions were visited.
No symbol is visited twice. -/
def manageBar (state : PaperState) (bar : Bar) (order : List String) : Except String Applied :=
  if bar.isClosed = false then .ok { state := state }
  else do
    let openPositions ← state.openBySymbol
    require (decide (order.Perm (openPositions.rows.map PaperPosition.symbol)))
      "OPEN_ORDER_MISMATCH"
    match state.account with
    | none => .error "TypeError"
    | some account =>
      let visited := order.filterMap openPositions.get?
      let m := visited.foldl (manage bar) ⟨account, state.positions, openPositions, [], []⟩
      let unrealizedPnl := ((order.filterMap m.openPositions.get?).map unrealized).sum
      let account := { m.account with
        unrealizedPnl := unrealizedPnl
        equity := m.account.startingEquity + m.account.realizedPnl + unrealizedPnl }
      pure {
        state := { state with account := some account, positions := m.positions }
        events := m.events
        new := { closed := m.closed } }

/-! ## ST7: `PaperBroker.process_next_bar`, the V1 fill gate -/

/-- The clauses of the gate, in the order of the code. -/
def fillRejected (order : PaperOrder) (currentEquity fillPrice multiplier : ℚ) : Bool :=
  let (risk, reward) := match order.side with
    | .long => (fillPrice - order.stop, order.target - fillPrice)
    | .short => (order.stop - fillPrice, fillPrice - order.target)
  let realRisk := risk * order.quantity * multiplier
  match order.equityAtSubmission with
  | none => true
  | some submitted =>
    !valid currentEquity || !valid submitted || decide (risk ≤ 0) || decide (reward ≤ 0) ||
      decide (reward / risk < 3) || decide (currentEquity * (1 / 100) < realRisk) ||
      decide (submitted * (1 / 100) < realRisk)

def newFill (order : PaperOrder) (bar : Bar) : PaperFill where
  fillId := ""
  orderId := order.orderId
  runId := order.runId
  symbol := order.symbol
  side := order.side
  quantity := order.quantity
  plannedEntry := order.plannedEntry
  fillPrice := bar.open_
  fillTimestamp := bar.timestamp

def newPosition (order : PaperOrder) (bar : Bar) : PaperPosition where
  positionId := ""
  originOrderId := order.orderId
  runId := order.runId
  symbol := order.symbol
  side := order.side
  quantity := order.quantity
  plannedEntry := order.plannedEntry
  entryPrice := bar.open_
  stop := order.stop
  target := order.target
  openedAt := bar.timestamp
  lastPrice := some bar.open_
  contractMultiplier := order.contractMultiplier
  costRate := order.costRate
  setupId := order.setupId

/-- The order in the state with another status. -/
def PaperState.setStatus (state : PaperState) (order : PaperOrder) (status : OrderStatus) :
    PaperState :=
  { state with orders := state.orders.put { order with status := status } }

/-- `fill_gate`. -/
def fillGate (state : PaperState) (order : PaperOrder) (bar : Bar) : Except String Applied :=
  if order.status ≠ .pending then .ok { state := state }
  else
    match order.contractMultiplier with
    | none => .ok { state := state.setStatus order .rejected, events := ["ORDER_REJECTED"] }
    | some multiplier =>
      if valid multiplier = false then
        .ok { state := state.setStatus order .rejected, events := ["ORDER_REJECTED"] }
      else
        match order.asOf with
        | none => .ok { state := state.setStatus order .cancelled, events := ["ORDER_CANCELLED"] }
        | some asOf =>
          if bar.symbol ≠ order.symbol ∨ bar.isClosed = false ∨ validOhlc bar = false then
            .ok { state := state.setStatus order .cancelled, events := ["ORDER_CANCELLED"] }
          else if bar.timestamp ≤ asOf then
            .ok { state := state.setStatus order .cancelled, events := ["ORDER_CANCELLED"] }
          else if order.riskPolicyVersion ≠ none then .error "UNSUPPORTED_STAMPED_ORDER"
          else
            match state.account with
            | none => .error "TypeError"
            | some account =>
              if fillRejected order account.equity bar.open_ multiplier then
                .ok { state := state.setStatus order .rejected, events := ["ORDER_REJECTED"] }
              else
                .ok {
                  state := state.setStatus order .filled
                  events := ["ORDER_FILLED", "POSITION_OPENED"]
                  new := { fills := [newFill order bar], positions := [newPosition order bar] } }

/-- The note `ST7_ORDERS`. -/
structure OrdersNote where
  orderIds : List String
  currentEquity : ℚ

/-- The body of the loop of `_check_legacy_pending`. -/
def pendingStep (symbol : String) (bar : Bar) (applied : Applied) (orderId : String) :
    Except String Applied :=
  match applied.state.orders.get? orderId with
  | none => .error "ST7_ORDER_NOT_IN_STATE"
  | some order =>
    if order.symbol ≠ symbol ∨ order.status ≠ .pending then .ok applied
    else
      match order.asOf with
      | none => .error "TypeError"
      | some asOf =>
        if bar.timestamp ≤ asOf then .ok applied
        else do
          let step ← fillGate applied.state order bar
          let openPositions ← if step.new.positions = [] then pure Table.empty
            else step.state.openBySymbol
          require (openPositions.get? order.symbol).isNone "FILL_OVER_OPEN_POSITION"
          pure {
            state := step.state
            events := applied.events ++ step.events
            new := {
              positions := applied.new.positions ++ step.new.positions
              fills := applied.new.fills ++ step.new.fills }
            failures := applied.failures }

/-- `apply` of a legacy ST7 write: every noted order meets the bar. -/
def applyPending (symbol : String) (bar : Bar) (note : OrdersNote) (state : PaperState) :
    Except String Applied :=
  match state.account with
  | none => .error "TypeError"
  | some account =>
    note.orderIds.foldlM (pendingStep symbol bar) {
      state := state
      failures := demand (decide (account.equity = note.currentEquity)) "ST7_CURRENT_EQUITY" }

/-- The body of the loop of `_check_gated_pending`: `current` is the bar the gate has let in. -/
def gatedStep (bar : Bar) (current : Instant) (applied : Applied) (orderId : String) :
    Except String Applied :=
  match applied.state.orders.get? orderId with
  | none => .error "ST7_ORDER_NOT_IN_STATE"
  | some order =>
    match order.asOf with
    | none => .error "TypeError"
    | some asOf =>
      if current ≤ asOf then .ok applied
      else do
        let step ← fillGate applied.state order bar
        pure {
          state := step.state
          events := applied.events ++ step.events
          new := {
            positions := applied.new.positions ++ step.new.positions
            fills := applied.new.fills ++ step.new.fills }
          failures := applied.failures }

/-- `apply` of a gated ST7 write. -/
def applyGated (bar : Bar) (current : Instant) (orderIds : List String) (state : PaperState) :
    Except String Applied :=
  orderIds.foldlM (gatedStep bar current) { state := state }

/-! ## ST9: `PaperBroker.submit_plan` -/

inductive Submitted
  | none
  | existing (orderId : String)
  | new (order : PaperOrder)

/-- What a submission starts from. -/
structure Submission where
  runId : String
  symbol : String
  finalStatus : String
  plan : Option TradePlan
  decision : Option RiskDecision
  instrument : Option Instrument

/-- The guards of `submit_plan` on the numbers, the instrument and the account. -/
def newOrder (s : Submission) (decision : RiskDecision) (planAsOf : Instant) (accountEquity : ℚ)
    (symbolOpen : Bool) : Submitted :=
  match decision.quantity with
  | none => .none
  | some quantity =>
    if !(valid quantity && valid decision.entry && valid decision.stop && valid decision.target)
    then .none
    else
      match s.instrument with
      | none => .none
      | some instrument =>
        match instrument.contractMultiplier with
        | none => .none
        | some multiplier =>
          if valid multiplier = false then .none
          else if decision.symbol ≠ instrument.symbol then .none
          else if valid accountEquity = false then .none
          else if symbolOpen then .none
          else .new {
            orderId := ""
            runId := s.runId
            symbol := s.symbol
            side := decision.side
            quantity := quantity
            plannedEntry := decision.entry
            stop := decision.stop
            target := decision.target
            contractMultiplier := some multiplier
            equityAtSubmission := some accountEquity
            asOf := some planAsOf }

/-- `submit_plan`. -/
def submitPlan (s : Submission) (accountEquity : ℚ) (symbolOpen : Bool)
    (runOrderIds : List String) : Submitted :=
  if s.finalStatus ≠ "PLAN_READY" then .none
  else
    match s.plan, s.decision with
    | some plan, some decision =>
      if decision.status ≠ .approved then .none
      else if plan.runId ≠ some s.runId ∨ decision.symbol ≠ s.symbol ∨ decision.side ≠ plan.side then
        .none
      else
        match plan.asOf with
        | none => .none
        | some planAsOf =>
          match runOrderIds with
          | orderId :: _ => .existing orderId
          | [] => newOrder s decision planAsOf accountEquity symbolOpen
    | _, _ => .none

/-- The note `ST9_RECHECK`. -/
structure Recheck where
  pendingOnSymbol : Bool
  openOnSymbol : Bool
  equity : ℚ
  decisionEquity : ℚ
  runOrderIds : List String

def Recheck.refused (recheck : Recheck) : Bool :=
  recheck.pendingOnSymbol || recheck.openOnSymbol ||
    decide (recheck.equity ≠ recheck.decisionEquity)

/-- An ST9 write: the re-check it needs and its `apply`. -/
def applySubmit (s : Submission) (recheck : Recheck) (state : PaperState) :
    Except String Applied :=
  match state.account with
  | none => .error "TypeError"
  | some account => do
    let runOrders := state.orders.rows.filter (fun o => decide (o.runId = s.runId))
    let failures := demand (!recheck.refused) "ST9_SAVED_DESPITE_RECHECK" ++
      demand (decide (account.equity = recheck.equity)) "ST9_EQUITY_MISMATCH" ++
      demand (decide ((runOrders.map PaperOrder.orderId).Perm recheck.runOrderIds))
        "ST9_RUN_ORDERS_MISMATCH"
    let openPositions ← state.openBySymbol
    match submitPlan s account.equity (openPositions.get? s.symbol).isSome recheck.runOrderIds with
    | .none => .error "ST9_SAVE_WITHOUT_ORDER"
    | .existing _ => pure { state := state, failures := failures }
    | .new order =>
      pure {
        state := state
        events := ["ORDER_SUBMITTED"]
        new := { orders := [order] }
        failures := failures }

end MarketSystem.RexOracle
