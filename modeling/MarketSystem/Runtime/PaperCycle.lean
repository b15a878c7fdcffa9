import MarketSystem.Execution.PendingOrderGate
import MarketSystem.Execution.TradeDuration

/-!
# The PAPER writes of the runtime

Each of them is a change applied by the guarded write: the V1 submit and the legacy
fill and management steps of a cycle, the duration rule, the cancellation at a time
boundary, and the flattening of a paused symbol.
-/
namespace MarketSystem.PaperCycle

open Library Database GuardedWrite

/-- The PENDING orders of a symbol. -/
def pendingOf (b : PaperBroker) (symbol : String) : List PaperOrder :=
  b.orders.rows.filter (fun o => decide (o.symbol = symbol ∧ o.status = .pending))

/-! ## The V1 submit -/

/-- `stamp_fx_order`: an order of an FX plan carries the FX risk policy. -/
def stampFxOrder (order : PaperOrder) (plan : Option TradePlan) : PaperOrder :=
  if plan.bind (·.policyVersion) = some .fx then
    { order with riskPolicyVersion := some riskPolicyV2Fx.version }
  else order

/-- What a cycle submits: its deterministic report, sized on an equity. -/
structure Submit where
  report : FloorReport
  slot : Instant
  decisionEquity : ℚ

/-- The result of `submit`: a state that changed, or what the broker answered. -/
inductive SubmitResult
  | stalePaperState
  | answered (order : Option PaperOrder)

/-- `submit`: the approval stays valid only for the state it was sized on. -/
def Submit.apply (c : Submit) : Apply SubmitResult := fun _ ids b =>
  if !(pendingOf b c.report.symbol).isEmpty
      ∨ (b.account.openPositions.get? c.report.symbol).isSome
      ∨ b.account.equity ≠ c.decisionEquity then .ok (false, .stalePaperState, b)
  else match b.submitPlan c.report c.slot ids.orderId with
    | (b, none) => .ok (false, .answered none, b)
    | (b, some order) =>
        let order := stampFxOrder order c.report.tradePlan
        .ok (true, .answered (some order), { b with orders := b.orders.put order })

/-! ## Legacy fills and management -/

/-- The loop body of `progress_pending`. -/
def progressOrder (uuid4 : Uuid4) (bar : Bar) (b : PaperBroker) (order : PaperOrder) :
    Except String PaperBroker :=
  match order.asOf with
  | none => .error "TypeError"
  | some asOf =>
      if asOf < bar.timestamp then
        let ids := uuid4.draw b
        (b.processNextBar order bar ids.fillId ids.positionId).map (·.1)
      else .ok b

/-- `progress_pending`: every PENDING order of the symbol meets the bar of the cycle. -/
def progressPending (uuid4 : Uuid4) (symbol : String) (bar : Bar) : Apply Unit := fun _ _ b =>
  match (pendingOf b symbol).foldlM (progressOrder uuid4 bar) b with
  | .error e => .error e
  | .ok b => .ok (!b.journal.isEmpty, (), b)

/-- `manage_positions`: the bar of the cycle acts on the open positions. -/
def managePositions (paperEnabled : Bool) (bar : Bar) : Apply Unit := fun _ ids b =>
  let hadOpen := !b.account.openPositions.rows.isEmpty
  let b := if paperEnabled then (TradeManager.processBar b bar ids.tradeId).1 else b
  .ok (paperEnabled && (hadOpen || !b.journal.isEmpty), (), b)

/-! ## The duration rule -/

/-- The still open position that a duration write was computed for. -/
def currentPosition (b : PaperBroker) (symbol positionId : String) : Option PaperPosition :=
  (b.account.openPositions.get? symbol).filter
    (fun p => decide (p.positionId = positionId ∧ p.status = .open))

inductive DurationResult
  | gone
  | moved
  | acted (action : TradeDuration.Action)

/-- `decide`: close at the price of the bar, or move the stop to the entry. -/
def durationDecide (calendar : TradeDuration.Calendar) (symbol : String) (boundary : Instant)
    (bar : MarketBar) (ids : Ids) (b : PaperBroker) (position : PaperPosition) :
    Except String (PaperBroker × TradeDuration.Action) :=
  let details := [("boundary_utc", Json.num boundary), ("price", .num bar.close),
    ("price_bar_start", .num bar.start),
    ("unrealized_r", (TradeDuration.unrealizedR position bar.close).elim .null .num)]
  match TradeDuration.boundaryDecision calendar position boundary bar.close with
  | .close reason =>
      match b.closeMarket symbol bar.close bar.end_ reason position.runId ids.tradeId with
      | .error e => .error e
      | .ok (b, _) => .ok (b.event (some bar.end_) position.runId symbol position.positionId
          "TRADE_DURATION_EXIT" (.obj (details ++ [("exit_reason", .str reason)])), .close reason)
  | .breakeven =>
      let moved := TradeDuration.moveStopToEntry position
      .ok ((b.putPosition moved).event (some bar.end_) position.runId symbol position.positionId
        TradeDuration.stopMovedToEntry (.obj (details ++ [("initial_stop", .num position.stop),
          ("stop", .num moved.stop)])), .breakeven)

/-- `_duration_write`: another writer may have closed the position or moved its boundary. -/
def durationWrite (calendar : TradeDuration.Calendar) (symbol positionId : String)
    (boundary : Instant) (bar : MarketBar) : Apply DurationResult := fun _ ids b =>
  match currentPosition b symbol positionId with
  | none => .ok (false, .gone, b)
  | some position =>
      if TradeDuration.nextBoundary calendar position ≠ boundary then .ok (false, .moved, b)
      else match durationDecide calendar symbol boundary bar ids b position with
        | .error e => .error e
        | .ok (b, action) => .ok (true, .acted action, b)

/-! ## Time cancels -/

/-- `_due_orders`: the orders whose boundary has come, with boundary and reason. -/
def dueOrders (calendar : TradeDuration.Calendar) (b : PaperBroker) (symbol : String)
    (slot : Instant) : List (PaperOrder × Instant × String) :=
  (pendingOf b symbol).filterMap (fun order =>
    match order.asOf with
    | none => none
    | some asOf =>
        let (boundary, reason) := TradeDuration.orderCancelBoundary calendar asOf
        if boundary ≤ slot then some (order, boundary, reason) else none)

/-- One cancellation, with its event. -/
def cancelWith (symbol : String) (at_ : Instant) (details : List (String × Json))
    (b : PaperBroker) (order : PaperOrder) : PaperBroker :=
  (b.setStatus order .cancelled).event (some at_) order.runId symbol order.orderId
    "ORDER_CANCELLED" (.obj details)

/-- `cancel` of `_cancel_due_orders`. -/
def cancelDueOrders (calendar : TradeDuration.Calendar) (symbol : String) (slot : Instant) :
    Apply (List String) := fun _ _ b =>
  let due := dueOrders calendar b symbol slot
  .ok (!due.isEmpty, due.map (·.1.orderId),
    due.foldl (fun b d => cancelWith symbol d.2.1
      [("reason", .str d.2.2), ("boundary_utc", .num d.2.1)] b d.1) b)

/-! ## A paused symbol -/

/-- `EXIT_REASON` of the symbol pause. -/
def pausedReason : String := "SYMBOL_PAUSED"

/-- `cancel` of `_close_paused`. -/
def cancelPaused (symbol : String) (slot : Instant) : Apply (List String) := fun _ _ b =>
  let due := pendingOf b symbol
  .ok (!due.isEmpty, due.map (·.orderId),
    due.foldl (cancelWith symbol slot [("reason", .str pausedReason)]) b)

inductive PausedResult
  | gone
  | staleBar
  | positionClosed

/-- `close` of `_close_paused`: never on a bar older than the watermark of the position. -/
def closePaused (symbol positionId : String) (bar : MarketBar) : Apply PausedResult :=
  fun _ ids b =>
    match currentPosition b symbol positionId with
    | none => .ok (false, .gone, b)
    | some position =>
        if (match position.lastProcessedAt with
            | some watermark => decide (bar.end_ < watermark)
            | none => false) then .ok (false, .staleBar, b)
        else match b.closeMarket symbol bar.close bar.end_ pausedReason position.runId
            ids.tradeId with
          | .error e => .error e
          | .ok (b, _) => .ok (true, .positionClosed, b.event (some bar.end_) position.runId symbol
              position.positionId "SYMBOL_PAUSED_EXIT" (.obj [("exit_reason", .str pausedReason),
                ("price", .num bar.close), ("price_bar_start", .num bar.start)]))

end MarketSystem.PaperCycle
