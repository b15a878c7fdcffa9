import MarketSystem.Agents.StructureAgent

/-!
# The liquidity scout

Adjacent pivots that differ by at most 0.1% form an equal level. The last bar sweeps an
earlier extreme when it goes beyond it and closes back inside.
-/
namespace MarketSystem.LiquidityAgent

open Library Scouts
open StructureAgent (above below)

/-- The columns that `_closed_frame` asks for here. -/
def REQUIRED_COLUMNS : List String := ["High", "Low", "Close"]

structure Bar where
  timestamp : Instant
  high : ℚ
  low : ℚ
  close : ℚ
  deriving DecidableEq

def numericBar (row : Row) : Option Bar :=
  match row.high, row.low, row.close with
  | some h, some l, some c => some ⟨row.timestamp, h, l, c⟩
  | _, _, _ => none

/-- The pivots of one side of `_confirmed_pivots`: value and time. -/
def pivots (price : Bar → ℚ) (beyond : ℚ → ℚ → Bool) : List Bar → List (ℚ × Instant)
  | before :: pivot :: after :: bars =>
      let rest := pivots price beyond (pivot :: after :: bars)
      if beyond (price pivot) (price before) && beyond (price pivot) (price after) then
        (price pivot, pivot.timestamp) :: rest
      else rest
  | _ => []

structure EqualLevel where
  price : ℚ
  timestamps : Instant × Instant
  deriving DecidableEq

/-- `_equal_levels`. -/
def equalLevels (pivots : List (ℚ × Instant)) : List EqualLevel :=
  (pivots.zip pivots.tail).filterMap (fun pair =>
    if |pair.2.1 - pair.1.1| ≤ |pair.1.1| * (1 / 1000) then
      some ⟨pair.2.1, pair.1.2, pair.2.2⟩
    else none)

inductive SweepType
  | high
  | low
  deriving DecidableEq, Repr

structure Sweep where
  type : SweepType
  timestamp : Instant
  price : ℚ
  deriving DecidableEq

/-- The sweeps of the last bar against the extremes of the bars before it. -/
def sweeps (before : List Bar) (last : Bar) : List Sweep :=
  (match (before.map Bar.high).max? with
    | some previousHigh =>
        if previousHigh < last.high ∧ last.close < previousHigh then
          [⟨.high, last.timestamp, last.high⟩]
        else []
    | none => []) ++
  match (before.map Bar.low).min? with
  | some previousLow =>
      if last.low < previousLow ∧ previousLow < last.close then
        [⟨.low, last.timestamp, last.low⟩]
      else []
  | none => []

structure LiquidityReport where
  symbol : String
  timeframe : String
  liquidityAbove : List ℚ
  liquidityBelow : List ℚ
  sweeps : List Sweep
  equalHighs : List EqualLevel
  equalLows : List EqualLevel
  lastBar : Instant
  closedBars : ℕ
  deriving DecidableEq

def report (symbol timeframe : String) (bars : List Bar) (last : Bar) : LiquidityReport :=
  let equalHighs := equalLevels (pivots Bar.high above bars)
  let equalLows := equalLevels (pivots Bar.low below bars)
  { symbol := symbol
    timeframe := timeframe
    liquidityAbove := equalHighs.map EqualLevel.price
    liquidityBelow := equalLows.map EqualLevel.price
    sweeps := sweeps bars.dropLast last
    equalHighs := equalHighs
    equalLows := equalLows
    lastBar := last.timestamp
    closedBars := bars.length }

/-- `analizar_liquidez`. -/
def analizarLiquidez (frame : Option Frame) (symbol timeframe runId : String) (asOf : Instant) :
    AgentMessage LiquidityReport :=
  if timeframe ∉ AUTHORIZED_TIMEFRAMES then
    { runId := runId, timestamp := asOf, symbol := symbol, timeframe := timeframe
      status := .error, warnings := ["unsupported_timeframe"] }
  else
    match closedFrame REQUIRED_COLUMNS numericBar frame asOf with
    | none =>
        { runId := runId, timestamp := asOf, symbol := symbol, timeframe := timeframe
          status := .noData }
    | some bars =>
        match bars.getLast? with
        | some last =>
            if bars.length < 3 then
              { runId := runId, timestamp := asOf, symbol := symbol, timeframe := timeframe
                status := .partialData, warnings := ["insufficient_bars"] }
            else
              { runId := runId, timestamp := asOf, symbol := symbol, timeframe := timeframe
                status := .ok, evidence := some (report symbol timeframe bars last) }
        | none =>
            { runId := runId, timestamp := asOf, symbol := symbol, timeframe := timeframe
              status := .noData }

end MarketSystem.LiquidityAgent
