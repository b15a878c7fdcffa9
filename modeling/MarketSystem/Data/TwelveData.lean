import MarketSystem.Data.MarketEvidence
import MarketSystem.Library.FallibleLoop
import Mathlib.Logic.Function.Basic

/-!
# Closed bars from Twelve Data

A frame is the payload of one request reduced to the bars closed at `as_of`. It is kept under
the last expected start, so later calls with another `as_of` may be served the same frame. What
a frame was built from is recorded beside it; no function reads that.
-/
namespace MarketSystem.TwelveData

open Library

/-- `SYMBOLS`: ticker and asset class. -/
def symbols (symbol : String) : Option (String × String) :=
  if symbol = "XAUUSD" then some ("XAU/USD", "METAL")
  else if symbol = "EURUSD" then some ("EUR/USD", "FOREX")
  else none

/-- The intervals of `TIMEFRAMES`. -/
def interval : Timeframe → String
  | .h1 => "1h"
  | .m15 => "15min"
  | .m5 => "5min"

def TIMEFRAMES : List Timeframe := [.h1, .m15, .m5]

/-- What `float` makes of an entry of the payload; `none` is an exception. -/
inductive Reading
  | finite (value : ℚ)
  | notFinite
  deriving DecidableEq

/-- An entry of `values`. `stamp` is `none` where there is no readable `datetime`; a volume that
is missing is `none`. -/
structure Item where
  stamp : Option Instant
  open_ : Option Reading
  high : Option Reading
  low : Option Reading
  close : Option Reading
  volume : Option (Option Reading)
  deriving DecidableEq

/-- A payload that is a dictionary without an error status. -/
structure Payload where
  status : Option String
  /-- `symbol` and `interval` of `meta`. -/
  meta_ : Option (Option String × Option String)
  values : Option (List Item)
  deriving DecidableEq

structure Row where
  timestamp : Instant
  open_ : ℚ
  high : ℚ
  low : ℚ
  close : ℚ
  volume : Option ℚ
  symbol : String
  timeframe : Timeframe
  providerSymbol : String
  deriving DecidableEq

/-- Valid OHLC and volume. -/
structure Row.Valid (row : Row) : Prop where
  positive : 0 < row.open_ ∧ 0 < row.high ∧ 0 < row.low ∧ 0 < row.close
  coherent : max row.open_ row.close ≤ row.high ∧ row.low ≤ min row.open_ row.close
  volume : ∀ v, row.volume = some v → 0 ≤ v

abbrev Frame := List Row

def Row.end_ (row : Row) : Instant := row.timestamp + row.timeframe.duration

/-- A price: finite and positive. -/
def price (reading : Option Reading) : Except String ℚ :=
  match reading with
  | some (.finite v) => if v ≤ 0 then .error "INVALID_BAR" else .ok v
  | _ => .error "INVALID_BAR"

def volume (reading : Option (Option Reading)) : Except String (Option ℚ) :=
  match reading with
  | none => .ok none
  | some (some (.finite v)) => if v < 0 then .error "INVALID_BAR" else .ok (some v)
  | _ => .error "INVALID_BAR"

variable (ticker symbol : String) (timeframe : Timeframe) (asOf : Instant)

/-- The row of an entry that is closed at `as_of`. -/
def closedRow (item : Item) (stamp : Instant) (o h l c : ℚ) : Except String Row := do
  let v ← volume item.volume
  .ok ⟨stamp, o, h, l, c, v, symbol, timeframe, ticker⟩

/-- One round of the loop over `values`; the state is `seen` and `rows`. -/
def readItem (s : List Instant × List Row) (item : Item) :
    Except String (List Instant × List Row) :=
  match item.stamp with
  | none => .error "INVALID_BAR"
  | some stamp => do
    let o ← price item.open_
    let h ← price item.high
    let l ← price item.low
    let c ← price item.close
    if stamp ∈ s.1 then .error "INVALID_BAR"
    else if h < max o c ∨ min o c < l ∨ h < l then .error "INVALID_BAR"
    else if asOf < stamp + timeframe.duration then .ok (stamp :: s.1, s.2)
    else do
      let row ← closedRow ticker symbol timeframe item stamp o h l c
      .ok (stamp :: s.1, s.2 ++ [row])

/-- The frame of a payload, without a cache. -/
def frameOf (payload : Payload) : Except String Frame :=
  if payload.status ≠ some "ok" ∨ payload.meta_ ≠ some (some ticker, some (interval timeframe)) then
    .error "INVALID_RESPONSE"
  else
    match payload.values with
    | none => .error "INVALID_RESPONSE"
    | some values => do
      let s ← values.foldlM (readItem ticker symbol timeframe asOf) ([], [])
      .ok (s.2.insertionSort (fun a b => a.timestamp ≤ b.timestamp))

/-- `expected_start`: the seconds of `as_of` cut off, and the last start that is over by then. -/
def expectedStart : Instant :=
  let duration := timeframe.duration / 1000000
  (Int.tdiv asOf 1000000 - duration) / duration * duration * 1000000

/-- `cache_key` -/
structure Key where
  symbol : String
  timeframe : Timeframe
  expectedStart : Instant
  deriving DecidableEq

/-- A frame, with the payload and the `as_of` it was built from. -/
structure Entry where
  frame : Frame
  payload : Payload
  asOf : Instant

structure Provider where
  cache : Key → Option Entry := fun _ => none
  healthByAsset : String → String := fun _ => "NOT_CONFIGURED"

namespace Provider

def setHealth (p : Provider) (assetClass health : String) : Provider :=
  { p with healthByAsset := Function.update p.healthByAsset assetClass health }

variable (p : Provider)

/-- `_bars_impl`; `response` is what `_request` would return or raise. -/
def barsImpl (assetClass : String) (response : Except String Payload) :
    Except String Entry × Provider :=
  let key : Key := ⟨symbol, timeframe, expectedStart timeframe asOf⟩
  match p.cache key with
  | some entry => (.ok entry, p)
  | none =>
    match response with
    | .error kind => (.error kind, p)
    | .ok payload =>
      match frameOf ticker symbol timeframe asOf payload with
      | .error kind => (.error kind, p)
      | .ok frame =>
        let entry : Entry := ⟨frame, payload, asOf⟩
        match frame.getLast? with
        | none => (.ok entry, p.setHealth assetClass "ERROR")
        | some latest =>
          if key.expectedStart ≤ latest.timestamp then
            (.ok entry, { p.setHealth assetClass "READY" with
              cache := Function.update p.cache key (some entry) })
          else (.ok entry, p.setHealth assetClass "STALE")

/-- `_bars` -/
def bars (assetClass : String) (response : Except String Payload) :
    Except String Entry × Provider :=
  match p.barsImpl ticker symbol timeframe asOf assetClass response with
  | (.error kind, p) => (.error kind, p.setHealth assetClass
      (if kind = "ENTITLEMENT_ERROR" then "ENTITLEMENT_ERROR" else "ERROR"))
  | (.ok entry, p) => (.ok entry, p)

/-- The timeframes of one snapshot, in order; the first failure ends it. -/
def barsOf (assetClass : String) (responses : Timeframe → Except String Payload) :
    List Timeframe → Provider → Except String (List (Timeframe × Entry)) × Provider
  | [], p => (.ok [], p)
  | timeframe :: timeframes, p =>
    match p.bars ticker symbol timeframe asOf assetClass (responses timeframe) with
    | (.error kind, p) => (.error kind, p)
    | (.ok entry, p) =>
      match barsOf assetClass responses timeframes p with
      | (.error kind, p) => (.error kind, p)
      | (.ok entries, p) => (.ok ((timeframe, entry) :: entries), p)

end Provider

/-- One call of `load_snapshot`, with what the provider would answer to each request. -/
structure Call where
  symbol : String
  asOf : Instant
  responses : Timeframe → Except String Payload

/-- `load_snapshot` -/
def Provider.loadSnapshot (p : Provider) (call : Call) :
    Except String (List (Timeframe × Entry)) × Provider :=
  match symbols call.symbol with
  | none => (.error "unsupported Twelve Data symbol", p)
  | some (ticker, assetClass) =>
    Provider.barsOf ticker call.symbol call.asOf assetClass call.responses TIMEFRAMES p

/-- One instance after some calls. -/
def Provider.after (calls : List Call) : Provider :=
  calls.foldl (fun p call => (p.loadSnapshot call).2) {}

end MarketSystem.TwelveData
