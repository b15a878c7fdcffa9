import MarketSystem.Library.Grid
import MarketSystem.Library.IsoRead
import MarketSystem.Library.Refusal
import Mathlib.Algebra.Order.Ring.Abs
import Mathlib.Data.List.Sort

/-!
# Historial

Reference statistics of earlier systems, as an offline script builds them from an export of closed
trades and as the loader checks them. Numbers are exact and are rounded half to even. What the
standard library makes of the texts of a row is a parameter.
-/
namespace MarketSystem.Historial

open Library Library.IsoTime

/-! ## Values -/

/-- A decoded value; of a number that is not finite nothing more is known. -/
inductive Value
  | null
  | bool (b : Bool)
  | int (n : ℤ)
  | real (q : ℚ)
  | nonFinite
  | str (s : String)
  | list (items : List Value)
  | dict (fields : List (String × Value))

namespace Value

def truthy : Value → Bool
  | null => false
  | bool b => b
  | int n => decide (n ≠ 0)
  | real q => decide (q ≠ 0)
  | nonFinite => true
  | str s => decide (s ≠ "")
  | list items => !items.isEmpty
  | dict fields => !fields.isEmpty

def int? : Value → Option ℤ
  | int n => some n
  | _ => none

/-- `_is_number` -/
def number? : Value → Option ℚ
  | int n => some n
  | real q => some q
  | _ => none

def str? : Value → Option String
  | str s => some s
  | _ => none

/-- `str(value or "")`. The text of what is no text is neither the symbol nor a side, and stands
here as the empty one. -/
def text (value : Value) : String := value.str?.getD ""

end Value

/-- `row.get` -/
def get (fields : List (String × Value)) (key : String) : Value := (fields.lookup key).getD .null

/-- The standard library on texts: the finite number that `float` reads, the times that
`fromisoformat` reads and the dates, as days from the first of the first year. It reads what
`isoformat` writes. -/
structure Texts where
  float : String → Option ℚ
  fromisoformat : String → Option Stamp
  dateFromisoformat : String → Option ℕ
  upper : String → String
  strip : String → String
  isprintable : String → Bool
  fromisoformat_utc : ∀ t, Representable t → (fromisoformat (String.ofList (utc t))).isSome
  dateFromisoformat_dateText : ∀ n < DAYS, dateFromisoformat (String.ofList (dateText n)) = some n

/-! ## The schema -/

def schemaVersion : ℤ := 1

def symbol : String := "EURUSD"

def maxNotes : ℕ := 200

/-- `FILENAMES`: every known source with its file. -/
def filenames : List (String × String) :=
  [("v1_replay", "v1_replay_eurusd.json"), ("paper", "paper_closed_trades_eurusd.json")]

def keys : List String :=
  ["version", "source", "symbol", "generated_at", "period", "trades", "wins", "losses", "win_rate",
    "expectancy_r", "profit_factor", "max_drawdown_r", "avg_r_win", "avg_r_loss", "notes"]

def periodKeys : List String := ["from", "to"]

def expectancyTolerance : ℚ := 5 / 100

/-- `source in FILENAMES` -/
def known (source : String) : Bool := (filenames.lookup source).isSome

/-- `round(value, DIGITS)` -/
def rounded (value : ℚ) : ℚ := Grid.roundHalfEven 10000 value

/-- `text.replace("Z", "+00:00")` -/
def replaceZ (s : String) : String :=
  String.ofList (s.toList.flatMap fun c => if c = 'Z' then utcOffset else [c])

/-! ## The loader -/

section Loader

variable (py : Texts)

/-- A dictionary with just these keys. -/
def dictOf (value : Value) (keys : List String) (reason : String) :
    Except String (List (String × Value)) :=
  match value with
  | .dict fields => do
    let names := fields.map Prod.fst
    require (names.all (· ∈ keys) && keys.all (· ∈ names)) reason
    return fields
  | _ => .error reason

def isoDatetime (value : Value) : Except String Stamp :=
  match value with
  | .str s => do
    require (decide (0 < s.length ∧ s.length ≤ 40)) "generated_at"
    (py.fromisoformat (replaceZ s)).elim (.error "generated_at") .ok
  | _ => .error "generated_at"

def isoDate (value : Value) (name : String) : Except String ℕ :=
  match value with
  | .str s => do
    require (decide (s.length = 10)) name
    (py.dateFromisoformat s).elim (.error name) .ok
  | _ => .error name

/-- A count that is an integer and not negative. -/
def countOf (value : Value) : Except String ℕ :=
  match value with
  | .int n => do
    require (decide (0 ≤ n)) "counts"
    return n.toNat
  | _ => .error "counts"

def numberOf (value : Value) (name : String) : Except String ℚ := value.number?.elim (.error name) .ok

/-- `None`, or a number. -/
def optionalOf (value : Value) (name : String) : Except String (Option ℚ) :=
  match value with
  | .null => .ok none
  | value => (numberOf value name).map some

/-- An empty export has no numbers. -/
def checkEmpty (trades : ℕ) (rate expectancy drawdown : ℚ) (profitFactor : Option ℚ) :
    Except String Unit :=
  if trades = 0 then do
    require (decide (rate = 0 ∧ expectancy = 0 ∧ drawdown = 0)) "empty"
    require (decide (profitFactor = none)) "profit_factor"
  else .ok ()

/-- The averages explain the expectancy, unless some trade broke even. -/
def checkExpectancy (trades wins losses : ℕ) (rate expectancy : ℚ) (avgWin avgLoss : Option ℚ) :
    Except String Unit :=
  match avgWin, avgLoss with
  | some avgWin, some avgLoss =>
    if wins + losses = trades then
      require (decide (|expectancy - (rate * avgWin + (1 - rate) * avgLoss)| ≤ expectancyTolerance))
        "expectancy_r"
    else .ok ()
  | _, _ => .ok ()

/-- The notes that the schema allows. -/
def notesAllowed (notes : String) : Bool :=
  decide (notes.length ≤ maxNotes) && (decide (notes = "") || py.isprintable notes)

def checkNotes (value : Value) : Except String Unit :=
  match value with
  | .str notes => require (notesAllowed py notes) "notes"
  | _ => .error "notes"

/-- `validate_baseline`; the copy that it returns is the dictionary itself. -/
def validateBaseline (data : Value) (source : String) : Except String Value := do
  require (known source) "source"
  let fields ← dictOf data keys "keys"
  require (decide ((get fields "version").int? = some schemaVersion)) "version"
  require (decide ((get fields "source").str? = some source)) "source"
  require (decide ((get fields "symbol").str? = some symbol)) "symbol"
  let _ ← isoDatetime py (get fields "generated_at")
  let period ← dictOf (get fields "period") periodKeys "period"
  let first ← isoDate py (get period "from") "period"
  let last ← isoDate py (get period "to") "period"
  require (decide (first ≤ last)) "period"
  let trades ← countOf (get fields "trades")
  let wins ← countOf (get fields "wins")
  let losses ← countOf (get fields "losses")
  require (decide (wins + losses ≤ trades)) "counts"
  let rate ← numberOf (get fields "win_rate") "win_rate"
  require (decide (0 ≤ rate ∧ rate ≤ 1)) "win_rate"
  require (decide (|rate - (if trades = 0 then 0 else (wins : ℚ) / trades)| ≤ 1 / 1000)) "win_rate"
  let expectancy ← numberOf (get fields "expectancy_r") "expectancy_r"
  let drawdown ← numberOf (get fields "max_drawdown_r") "max_drawdown_r"
  require (decide (0 ≤ drawdown)) "max_drawdown_r"
  let profitFactor ← optionalOf (get fields "profit_factor") "profit_factor"
  let avgWin ← optionalOf (get fields "avg_r_win") "avg_r_win"
  let avgLoss ← optionalOf (get fields "avg_r_loss") "avg_r_loss"
  require (profitFactor.all (0 ≤ ·)) "profit_factor"
  require (avgWin.all (0 < ·)) "avg_r_win"
  require (avgLoss.all (· < 0)) "avg_r_loss"
  require (decide (0 < wins) == avgWin.isSome) "avg_r_win"
  require (decide (0 < losses) == avgLoss.isSome) "avg_r_loss"
  checkEmpty trades rate expectancy drawdown profitFactor
  checkExpectancy trades wins losses rate expectancy avgWin avgLoss
  checkNotes py (get fields "notes")
  return .dict fields

end Loader

/-! ## The builder -/

section Builder

variable (py : Texts)

def normalizeSymbol (value : Value) : String :=
  py.strip (String.ofList ((py.upper value.text).toList.filter (· ∉ ['/', '_', '-'])))

/-- `_number`; a blank field has no number. -/
def number (fields : List (String × Value)) (name : String) : Except String (Option ℚ) :=
  match get fields name with
  | .null => .ok none
  | .int n => .ok (some n)
  | .real q => .ok (some q)
  | .str s =>
    if py.strip s = "" then .ok none
    else (py.float s).elim (.error name) (fun q => .ok (some q))
  | _ => .error name

/-- `_timestamp` -/
def timestamp (value : Value) (name : String) : Except String Stamp :=
  match value with
  | .str s =>
    if py.strip s = "" then .error name
    else (py.fromisoformat (replaceZ (py.strip s))).elim (.error name) (fun parsed => .ok parsed.aware)
  | _ => .error name

/-- Which way prices gain. -/
def sideSign (side : String) : Option ℚ :=
  if side ∈ ["BUY", "LONG"] then some 1
  else if side ∈ ["SELL", "SHORT"] then some (-1)
  else none

/-- The R-multiple from prices. -/
def pricesR (fields : List (String × Value)) : Except String ℚ := do
  let entry ← number py fields "entry"
  let stop ← number py fields "stop"
  let exit ← number py fields "exit"
  match sideSign (py.upper (py.strip (get fields "side").text)), entry, stop, exit with
  | some sign, some entry, some stop, some exit => do
    require (decide (0 < sign * (entry - stop))) "stop"
    return sign * (exit - entry) / (sign * (entry - stop))
  | _, _, _, _ => .error "r"

/-- `row_r` -/
def rowR (fields : List (String × Value)) : Except String ℚ := do
  match ← number py fields "r_multiple" with
  | some r => return r
  | none =>
    match ← number py fields "pnl", ← number py fields "initial_risk" with
    | some pnl, some risk => do
      require (decide (0 < risk)) "initial_risk"
      return pnl / risk
    | _, _ => pricesR py fields

/-- A row that counts. -/
structure Trade where
  closed : Stamp
  opened : Stamp
  r : ℚ
  deriving DecidableEq

/-- When a trade was opened; without a time, when it was closed. -/
def openedAt (fields : List (String × Value)) (closed : Stamp) : Except String Stamp :=
  if (get fields "opened_at").truthy then timestamp py (get fields "opened_at") "opened_at"
  else .ok closed

def readTrade (fields : List (String × Value)) : Except String Trade := do
  let closed ← timestamp py (get fields "closed_at") "closed_at"
  let opened ← openedAt py fields closed
  require (decide (opened.instant ≤ closed.instant)) "opened_at"
  let r ← rowR py fields
  return ⟨closed, opened, rounded r⟩

/-- One row; a row of another symbol is passed over. -/
def readRow (index : ℕ) (row : Value) : Except String (Option Trade) :=
  match row with
  | .dict fields =>
    if normalizeSymbol py (get fields "symbol") = symbol then
      ((readTrade py fields).map some).mapError (fun field => "row " ++ toString index ++ ": " ++ field)
    else .ok none
  | _ => .error ("row " ++ toString index ++ ": not an object")

/-- The rows that count, from an index on. -/
def readRows : ℕ → List Value → Except String (List Trade)
  | _, [] => .ok []
  | index, row :: rows => do
    let trade ← readRow py index row
    let trades ← readRows (index + 1) rows
    return trade.toList ++ trades

/-- `trades.sort(key=lambda t: t[0])` -/
def byClosing (trades : List Trade) : List Trade :=
  trades.insertionSort (fun t u => t.closed.instant ≤ u.closed.instant)

def winners (rs : List ℚ) : List ℚ := rs.filter (0 < ·)

def losers (rs : List ℚ) : List ℚ := rs.filter (· < 0)

/-- The loop over the R-multiples. -/
structure Walk where
  cumulative : ℚ
  peak : ℚ
  drawdown : ℚ

def Walk.step (w : Walk) (r : ℚ) : Walk :=
  let cumulative := w.cumulative + r
  let peak := max w.peak cumulative
  { cumulative := cumulative, peak := peak, drawdown := max w.drawdown (peak - cumulative) }

def maxDrawdown (rs : List ℚ) : ℚ := (rs.foldl Walk.step ⟨0, 0, 0⟩).drawdown

/-- The first of the earliest times. -/
def earliest (best : Stamp) (times : List Stamp) : Stamp :=
  times.foldl (fun best time => if time.instant < best.instant then time else best) best

/-- What the dates of the period are taken from, the trades in the order of their closing. -/
def periodOf (trades : List Trade) (now : Stamp) : Stamp × Stamp :=
  match trades with
  | [] => (now, now)
  | trade :: rest =>
    (earliest trade.opened (rest.map Trade.opened), (rest.getLastD trade).closed)

/-- The dictionary of the builder, before it is one. -/
structure Summary where
  source : String
  generatedAt : String
  first : String
  last : String
  trades : ℕ
  wins : ℕ
  losses : ℕ
  winRate : ℚ
  expectancyR : ℚ
  profitFactor : Option ℚ
  maxDrawdownR : ℚ
  avgRWin : Option ℚ
  avgRLoss : Option ℚ
  notes : String

def realOrNone (value : Option ℚ) : Value := value.elim .null .real

def Summary.fields (s : Summary) : List (String × Value) :=
  [("version", .int schemaVersion), ("source", .str s.source), ("symbol", .str symbol),
    ("generated_at", .str s.generatedAt),
    ("period", .dict [("from", .str s.first), ("to", .str s.last)]), ("trades", .int s.trades),
    ("wins", .int s.wins), ("losses", .int s.losses), ("win_rate", .real s.winRate),
    ("expectancy_r", .real s.expectancyR), ("profit_factor", realOrNone s.profitFactor),
    ("max_drawdown_r", .real s.maxDrawdownR), ("avg_r_win", realOrNone s.avgRWin),
    ("avg_r_loss", realOrNone s.avgRLoss), ("notes", .str s.notes)]

/-- `date().isoformat()` -/
def dateString (time : Stamp) : String := String.ofList (dateText time.day)

/-- `astimezone(timezone.utc).isoformat(timespec="seconds")`, of a time whose UTC is representable. -/
def secondsString (time : Stamp) : String :=
  String.ofList (utc (time.instant - time.instant % 1000000))

/-- The average of R-multiples, when there are any. -/
def average (rs : List ℚ) : Option ℚ := if rs = [] then none else some (rounded (rs.sum / rs.length))

/-- What the trades in the order of their closing come to. -/
def summarize (trades : List Trade) (source notes : String) (now : Stamp) : Summary :=
  let rs := trades.map Trade.r
  let grossLoss := -(losers rs).sum
  { source := source
    generatedAt := secondsString now
    first := dateString (periodOf trades now).1
    last := dateString (periodOf trades now).2
    trades := rs.length
    wins := (winners rs).length
    losses := (losers rs).length
    winRate := if rs = [] then 0 else rounded ((winners rs).length / rs.length)
    expectancyR := if rs = [] then 0 else rounded (rs.sum / rs.length)
    profitFactor := if 0 < grossLoss then some (rounded ((winners rs).sum / grossLoss)) else none
    maxDrawdownR := rounded (maxDrawdown rs)
    avgRWin := average (winners rs)
    avgRLoss := average (losers rs)
    notes := notes }

/-- `build_summary`, at the time `now`. -/
def buildSummary (rows : List Value) (source notes : String) (now : Stamp) : Except String Value := do
  require (known source) "source"
  let trades ← readRows py 1 rows
  return .dict (summarize (byClosing trades) source notes now).fields

end Builder

end MarketSystem.Historial
