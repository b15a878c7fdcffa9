import MarketSystem.Core.RrContract
import MarketSystem.Library.Json
import MarketSystem.Library.Table

/-!
# PAPER contracts

The records of the PAPER account as they are persisted. Prices, quantities and
money are exact rationals; an instant is a timezone-aware time, counted in
microseconds. Orders are indexed by their id and open positions by their symbol,
as in the dictionaries of the source, so an account with two open positions on
one symbol cannot be built.
-/
namespace MarketSystem

open Library

abbrev Instant := ℤ

inductive OrderStatus
  | pending
  | filled
  | cancelled
  | rejected
  deriving DecidableEq, Repr

inductive PositionStatus
  | open
  | closed
  deriving DecidableEq, Repr

structure PaperOrder where
  orderId : String
  runId : String
  symbol : String
  side : Side
  quantity : ℚ
  plannedEntry : ℚ
  stop : ℚ
  target : ℚ
  contractMultiplier : Option ℚ := none
  equityAtSubmission : Option ℚ := none
  costRate : ℚ := 0
  asOf : Option Instant := none
  status : OrderStatus := .pending
  riskPolicyVersion : Option String := none
  setupId : Option String := none
  deriving DecidableEq

structure PaperFill where
  fillId : String
  orderId : String
  runId : String
  symbol : String
  side : Side
  quantity : ℚ
  plannedEntry : ℚ
  fillPrice : ℚ
  fillTimestamp : Instant
  deriving DecidableEq

/-- `DAY2_BREAKEVEN` is the only stage a position can be stamped with. -/
structure PaperPosition where
  positionId : String
  originOrderId : String
  runId : String
  symbol : String
  side : Side
  quantity : ℚ
  plannedEntry : ℚ
  entryPrice : ℚ
  stop : ℚ
  target : ℚ
  openedAt : Instant
  status : PositionStatus := .open
  lastPrice : Option ℚ := none
  contractMultiplier : Option ℚ := none
  costRate : ℚ := 0
  lastProcessedAt : Option Instant := none
  setupId : Option String := none
  initialStop : Option ℚ := none
  durationStage : Option String := none
  deriving DecidableEq

structure ClosedTrade where
  tradeId : String
  positionId : String
  runId : String
  symbol : String
  side : Side
  entryPrice : ℚ
  exitPrice : ℚ
  quantity : ℚ
  grossPnl : ℚ
  cost : ℚ
  netPnl : ℚ
  exitedAt : Instant
  reason : String
  deriving DecidableEq

structure PaperAccount where
  accountId : String
  startingEquity : ℚ
  cash : ℚ
  equity : ℚ
  realizedPnl : ℚ := 0
  unrealizedPnl : ℚ := 0
  openPositions : Table PaperPosition.symbol := Table.empty
  closedTrades : List ClosedTrade := []
  deriving DecidableEq

/-- Orders by id, fills by id: `PaperBroker.orders` and `PaperBroker.fills`. -/
abbrev Orders := Table PaperOrder.orderId
abbrev Fills := Table PaperFill.fillId

structure JournalEvent where
  timestamp : Option Instant
  runId : String
  symbol : String
  entityId : String
  eventType : String
  details : Json := .obj []

/-- A bar as `process_bar` and `process_next_bar` receive it: `timestamp` is its
start. Every field may be missing or wrong in the source's dictionary; here the
numbers are present and their validity is still to be checked. -/
structure Bar where
  symbol : String
  timestamp : Instant
  open_ : ℚ
  high : ℚ
  low : ℚ
  close : ℚ
  isClosed : Bool := true
  deriving DecidableEq, Repr

/-- `_valid`: a positive number. -/
def valid (value : ℚ) : Bool := decide (0 < value)

/-- `_valid_multiplier` on an optional field. -/
def validMultiplier (value : Option ℚ) : Bool :=
  match value with
  | some m => valid m
  | none => false

/-- `_valid_ohlc`: positive prices, open and close inside the range. -/
def Bar.validOhlc (bar : Bar) : Bool :=
  valid bar.open_ && valid bar.high && valid bar.low && valid bar.close
    && decide (bar.low ≤ bar.open_ ∧ bar.open_ ≤ bar.high)
    && decide (bar.low ≤ bar.close ∧ bar.close ≤ bar.high)

@[simp] theorem valid_eq_true {value : ℚ} : valid value = true ↔ 0 < value := by
  simp [valid]

@[simp] theorem validMultiplier_eq_true {value : Option ℚ} :
    validMultiplier value = true ↔ ∃ m, value = some m ∧ 0 < m := by
  cases value <;> simp [validMultiplier]

end MarketSystem
