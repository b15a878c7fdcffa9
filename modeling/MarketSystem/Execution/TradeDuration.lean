import MarketSystem.Data.MarketEvidence
import MarketSystem.Execution.PaperWriters

/-!
# The trade-duration rule

A position is closed at the Friday flatten or after the maximal number of trading
days, whichever comes first; a PENDING order is cancelled at the same boundary of its
submission. An optional check at the first New York close either closes early or moves
the stop to the entry.

New York time comes from the zone database, so the calendar is a parameter.
-/
namespace MarketSystem.TradeDuration

open Library

/-- New York time, and the configuration read at import. -/
structure Calendar where
  /-- `entries_blocked`: from the Friday flatten to the reopening on Sunday. -/
  entriesBlocked : Instant → Bool
  /-- `friday_flatten_after`. -/
  fridayFlattenAfter : Instant → Instant
  /-- `add_trading_days` with `MAX_HOLD_TRADING_DAYS`. -/
  addTradingDays : Instant → Instant
  /-- `ny_close_after`. -/
  nyCloseAfter : Instant → Instant
  /-- `DAY1_RULE`. -/
  day1Rule : Bool

def minKeepR : ℚ := 1 / 2

def closeDay1BelowHalfR : String := "TIME_EXIT_DAY1_BELOW_0_5R"
def closeFriday : String := "TIME_EXIT_FRIDAY_NY_CLOSE"
def closeMaxHold : String := "TIME_EXIT_MAX_HOLD"
def cancelFriday : String := "TIME_CANCEL_FRIDAY_NY_CLOSE"
def cancelMaxHold : String := "TIME_CANCEL_MAX_HOLD"
def stopMovedToEntry : String := "STOP_MOVED_TO_ENTRY"

section Boundaries

variable (calendar : Calendar)

/-- `hold_boundary`: Friday wins a tie. -/
def holdBoundary (openedAt : Instant) : Instant × String :=
  if calendar.entriesBlocked openedAt then (openedAt, closeFriday)
  else
    let friday := calendar.fridayFlattenAfter openedAt
    let days := calendar.addTradingDays openedAt
    if friday ≤ days then (friday, closeFriday) else (days, closeMaxHold)

/-- `next_boundary`. -/
def nextBoundary (position : PaperPosition) : Instant :=
  let hold := (holdBoundary calendar position.openedAt).1
  if calendar.day1Rule ∧ position.durationStage = none then
    min (calendar.nyCloseAfter position.openedAt) hold
  else hold

/-- `_CANCEL_FOR`. -/
def cancelFor (reason : String) : String :=
  if reason = closeFriday then cancelFriday else cancelMaxHold

/-- `order_cancel_boundary` of an order with its submission time. -/
def orderCancelBoundary (asOf : Instant) : Instant × String :=
  let (boundary, reason) := holdBoundary calendar asOf
  (boundary, cancelFor reason)

/-- `unrealized_r`: the result in units of the original stop distance. -/
def unrealizedR (position : PaperPosition) (price : ℚ) : Option ℚ :=
  let stop := position.initialStop.getD position.stop
  let risk := match position.side with
    | .long => position.entryPrice - stop
    | .short => stop - position.entryPrice
  if risk ≤ 0 then none
  else some ((match position.side with
    | .long => price - position.entryPrice
    | .short => position.entryPrice - price) / risk)

inductive Action
  | close (reason : String)
  | breakeven
  deriving DecidableEq, Repr

/-- `boundary_decision`. -/
def boundaryDecision (position : PaperPosition) (boundary : Instant) (price : ℚ) : Action :=
  let (hold, reason) := holdBoundary calendar position.openedAt
  if hold ≤ boundary ∨ calendar.day1Rule = false ∨ position.durationStage ≠ none then
    .close reason
  else match unrealizedR position price with
    | none => .close closeDay1BelowHalfR
    | some r => if r < minKeepR then .close closeDay1BelowHalfR else .breakeven

/-- The stop is moved at most once. -/
theorem durationStage_of_breakeven {position : PaperPosition} {boundary : Instant} {price : ℚ}
    (h : boundaryDecision calendar position boundary price = .breakeven) :
    position.durationStage = none := by
  unfold boundaryDecision at h
  dsimp only at h
  split_ifs at h with hclose
  push Not at hclose
  exact hclose.2.2

end Boundaries

/-- `price_bar`: the last closed bar that ended by the boundary, else the first one after. -/
def priceBar (bars : List MarketBar) (position : PaperPosition) (boundary : Instant) :
    Option MarketBar :=
  let closed := (bars.filter (fun bar => bar.isClosed && decide (position.openedAt < bar.end_))).mergeSort
    (fun a b => decide (a.start ≤ b.start))
  match (closed.filter (fun bar => decide (bar.end_ ≤ boundary))).getLast? with
  | some bar => some bar
  | none => closed.head?

end MarketSystem.TradeDuration
