import Mathlib.Data.List.MinMax
import MarketSystem.Agents.Scouts

/-!
# The structure scout

A swing is a bar above or below both of its neighbours; it is confirmed by the bar that
follows it. A break of structure is a close beyond a confirmed swing on a later bar.
-/
namespace MarketSystem.StructureAgent

open Library Scouts

/-- `REQUIRED_COLUMNS`. -/
def REQUIRED_COLUMNS : List String := ["Open", "High", "Low", "Close"]

structure Bar where
  timestamp : Instant
  «open» : ℚ
  high : ℚ
  low : ℚ
  close : ℚ
  deriving DecidableEq

/-- `to_numeric` and `dropna` on one row. -/
def numericBar (row : Row) : Option Bar :=
  match row.«open», row.high, row.low, row.close with
  | some o, some h, some l, some c => some ⟨row.timestamp, o, h, l, c⟩
  | _, _, _, _ => none

structure Swing where
  /-- The bar that confirms it. -/
  timestamp : Instant
  pivotTimestamp : Instant
  price : ℚ
  deriving DecidableEq

/-- The swings of one side of `_swings`: `beyond` is `>` on highs and `<` on lows. -/
def swings (price : Bar → ℚ) (beyond : ℚ → ℚ → Bool) : List Bar → List Swing
  | before :: pivot :: after :: bars =>
      let rest := swings price beyond (pivot :: after :: bars)
      if beyond (price pivot) (price before) && beyond (price pivot) (price after) then
        ⟨after.timestamp, pivot.timestamp, price pivot⟩ :: rest
      else rest
  | _ => []

def above (x y : ℚ) : Bool := decide (y < x)

def below (x y : ℚ) : Bool := decide (x < y)

def swingHighs (bars : List Bar) : List Swing := swings Bar.high above bars

def swingLows (bars : List Bar) : List Swing := swings Bar.low below bars

inductive Trend
  | bullish
  | bearish
  | neutral
  deriving DecidableEq, Repr

/-- Whether the last swing is above the one before it; `none` with fewer than two. -/
def rising (swings : List Swing) : Option Bool :=
  match swings.reverse with
  | last :: previous :: _ => some (decide (previous.price < last.price))
  | _ => none

/-- `_classify`. -/
def classify (highs lows : List Swing) : Trend :=
  match rising highs, rising lows with
  | some true, some true => .bullish
  | some false, some false => .bearish
  | _, _ => .neutral

structure Break where
  direction : Trend
  brokenLevel : ℚ
  swingTimestamp : Instant
  confirmationTimestamp : Instant
  breakTimestamp : Instant
  breakClose : ℚ
  deriving DecidableEq

/-- The first close beyond a swing on a bar after its confirmation. -/
def firstBreak (direction : Trend) (beyond : ℚ → ℚ → Bool) (bars : List Bar) (swing : Swing) :
    Option Break :=
  (bars.find? (fun bar => decide (swing.timestamp < bar.timestamp)
    && beyond bar.close swing.price)).map (fun bar =>
      ⟨direction, swing.price, swing.pivotTimestamp, swing.timestamp, bar.timestamp, bar.close⟩)

/-- The candidates of `_break_of_structure`, the latest swing first. -/
def breaks (bars : List Bar) (highs lows : List Swing) : List Break :=
  highs.reverse.filterMap (firstBreak .bullish above bars) ++
    lows.reverse.filterMap (firstBreak .bearish below bars)

/-- `_break_of_structure`: the candidate that broke last. -/
def breakOfStructure (bars : List Bar) (highs lows : List Swing) : Option Break :=
  -- the order is named: of ℤ's orders the complete one does not compute
  @List.argmax _ _ Int.instLinearOrder.toPreorder _ Break.breakTimestamp (breaks bars highs lows)

structure Retracement where
  direction : Trend
  /-- The swing that the impulse ended in, and the one that protects it. -/
  impulse : Swing
  protectedSwing : Swing
  currentClose : ℚ
  currentTimestamp : Instant
  deriving DecidableEq

/-- The last swing that went beyond the one before it. -/
def lastBeyond (beyond : ℚ → ℚ → Bool) (swings : List Swing) : Option Swing :=
  ((swings.zip swings.tail).filterMap (fun pair =>
    if beyond pair.2.price pair.1.price then some pair.2 else none)).getLast?

/-- `_retracement`: the close lies between the last impulse and the swing that protects it. -/
def retracement (bars : List Bar) (highs lows : List Swing) : Option Retracement :=
  match bars.getLast? with
  | none => none
  | some last =>
      if highs.length < 2 ∨ lows.length < 2 then none
      else
        let bullish :=
          match lastBeyond above highs, lastBeyond above lows with
          | some impulse, some low =>
              if low.price < last.close ∧ last.close < impulse.price then
                some ⟨.bullish, impulse, low, last.close, last.timestamp⟩
              else none
          | _, _ => none
        let bearish :=
          match lastBeyond below highs, lastBeyond below lows with
          | some high, some impulse =>
              if impulse.price < last.close ∧ last.close < high.price then
                some ⟨.bearish, impulse, high, last.close, last.timestamp⟩
              else none
          | _, _ => none
        bullish <|> bearish

structure Displacement where
  direction : Trend
  ratio : ℚ
  deriving DecidableEq

/-- The last bar, when its body is at least six tenths of its range. -/
def displacement (last : Bar) : Option Displacement :=
  let range := last.high - last.low
  let body := |last.close - last.«open»|
  if 0 < range ∧ 6 / 10 ≤ body / range then
    some ⟨if last.«open» < last.close then .bullish else .bearish, body / range⟩
  else none

structure StructureReport where
  symbol : String
  timeframe : String
  bias : Trend
  structureState : Trend
  highs : List Swing
  lows : List Swing
  support : Option ℚ
  resistance : Option ℚ
  displacement : Option Displacement
  retracement : Option Retracement
  bos : Option Break
  /-- The bar that `evidence` names. -/
  lastBar : Instant
  closedBars : ℕ
  deriving DecidableEq

/-- The report on at least three closed bars. -/
def report (symbol timeframe : String) (bars : List Bar) (last : Bar) : StructureReport :=
  let highs := swingHighs bars
  let lows := swingLows bars
  { symbol := symbol
    timeframe := timeframe
    bias := classify highs lows
    structureState := classify highs lows
    highs := highs
    lows := lows
    support := (lows.map Swing.price).min?
    resistance := (highs.map Swing.price).max?
    displacement := displacement last
    retracement := retracement bars highs lows
    bos := breakOfStructure bars highs lows
    lastBar := last.timestamp
    closedBars := bars.length }

/-- `analizar_estructura`. -/
def analizarEstructura (frame : Option Frame) (symbol timeframe runId : String) (asOf : Instant) :
    AgentMessage StructureReport :=
  if timeframe ∉ AUTHORIZED_TIMEFRAMES then
    { runId := runId, timestamp := asOf, symbol := symbol, timeframe := timeframe
      status := .error, warnings := ["unsupported_timeframe"] }
  else
    match closedFrame REQUIRED_COLUMNS numericBar frame asOf with
    | none =>
        { runId := runId, timestamp := asOf, symbol := symbol, timeframe := timeframe
          status := .noData }
    | some bars =>
        match bars.getLast? with
        | some last =>
            if bars.length < 3 then
              { runId := runId, timestamp := asOf, symbol := symbol, timeframe := timeframe
                status := .partialData, warnings := ["insufficient_bars"] }
            else
              { runId := runId, timestamp := asOf, symbol := symbol, timeframe := timeframe
                status := .ok, evidence := some (report symbol timeframe bars last) }
        | none =>
            { runId := runId, timestamp := asOf, symbol := symbol, timeframe := timeframe
              status := .noData }

end MarketSystem.StructureAgent
