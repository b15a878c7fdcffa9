import Mathlib.Algebra.Order.Ring.Rat
import Mathlib.Algebra.BigOperators.Group.List.Basic
import Mathlib.Data.List.Sort
import MarketSystem.Execution.Contracts

/-!
# Demo numbers

The dashboard counts the routed trades of the practice account since the demo epoch. Numbers are
what `as_float` reads and times what `parse_time` reads; the New York date of an instant is a
parameter.
-/
namespace MarketSystem.DemoMetrics

/-- A trade as the read-only client returns it (`TRADE_FIELDS`). -/
structure Trade where
  id : Option String
  instrument : Option String
  initialUnits : Option ℚ
  currentUnits : Option ℚ
  price : Option ℚ
  openTime : Option Instant
  closeTime : Option Instant
  state : Option String
  realizedPL : Option ℚ
  financing : Option ℚ
  unrealizedPL : Option ℚ
  averageClosePrice : Option ℚ
  clientId : Option String
  stopLoss : Option ℚ
  takeProfit : Option ℚ

/-- A `broker_demo_trades` row of the router. -/
structure RiskRow where
  units : Option ℚ
  entry : Option ℚ
  stop : Option ℚ
  initialStop : Option ℚ
  fillPrice : Option ℚ
  closedReason : Option String

def demoPrefix : String := "aif-"
def testPrefix : String := "aif-test-"

/-- `is_demo_trade` -/
def isDemoTrade (clientId : String) : Bool :=
  demoPrefix.toList.isPrefixOf clientId.toList && !testPrefix.toList.isPrefixOf clientId.toList &&
    decide (demoPrefix.length < clientId.length)

def noClosedReason : String := "aún sin operaciones cerradas del demo"
def noRiskReason : String := "sin datos del stop original"

/-- `_symbol` -/
def symbol (instrument : String) : String := String.ofList (instrument.toList.filter (· ≠ '_'))

/-- `_side` -/
def side (units : Option ℚ) : Option Side :=
  match units with
  | none => none
  | some units => if units = 0 then none else if 0 < units then some .long else some .short

/-- `_in_demo` -/
def inDemo (epoch : Instant) (trade : Trade) : Bool :=
  trade.clientId.any isDemoTrade && trade.openTime.any (fun opened => decide (epoch ≤ opened))

/-- `realized_r`: the multiple of the original risk, or why it is unknown. -/
def realizedR (pnl : Option ℚ) (trade : Trade) : Option RiskRow → Option ℚ × Option String
  | none => (none, some "sin datos de la orden del router")
  | some row =>
    let stop := row.initialStop.or row.stop
    let entry := row.fillPrice.or row.entry
    let units := (row.units.filter (· ≠ 0)).or trade.initialUnits
    match stop, entry, units, pnl with
    | some stop, some entry, some units, some pnl =>
      let risk := |entry - stop| * |units|
      if risk ≤ 0 then (none, some noRiskReason) else (some (pnl / risk), none)
    | _, _, _, _ => (none, some noRiskReason)

/-- What every row of the screens shows. -/
structure Base where
  tradeId : Option String
  clientId : Option String
  symbol : Option String
  openedAt : Option Instant
  entryPrice : Option ℚ
  stop : Option ℚ
  target : Option ℚ
  deriving DecidableEq

structure ClosedRow extends Base where
  side : Option Side
  units : Option ℚ
  exitedAt : Option Instant
  exitPrice : Option ℚ
  netPnl : Option ℚ
  realizedR : Option ℚ
  realizedRReason : Option String
  closeReason : Option String
  deriving DecidableEq

structure OpenRow extends Base where
  side : Option Side
  units : Option ℚ
  unrealizedPnl : Option ℚ
  deriving DecidableEq

def base (trade : Trade) : Base :=
  ⟨trade.id, trade.clientId, trade.instrument.map symbol, trade.openTime, trade.price,
    trade.stopLoss, trade.takeProfit⟩

/-- A trade with a close time is closed, whatever its state says. -/
def isClosed (trade : Trade) : Bool := trade.state = some "CLOSED" ∨ trade.closeTime.isSome

/-- Closed P&L is `realizedPL + financing`; no financing counts as none charged. -/
def netPnl (trade : Trade) : Option ℚ :=
  trade.realizedPL.map (fun realized => realized + trade.financing.getD 0)

def closedRow (riskRows : String → Option RiskRow) (trade : Trade) : ClosedRow :=
  let row := trade.clientId.bind riskRows
  let r := realizedR (netPnl trade) trade row
  { base trade with
    side := side trade.initialUnits
    units := trade.initialUnits.map (fun u => |u|)
    exitedAt := trade.closeTime
    exitPrice := trade.averageClosePrice
    netPnl := netPnl trade
    realizedR := r.1
    realizedRReason := r.2
    closeReason := row.bind (·.closedReason) }

def openRow (trade : Trade) : OpenRow :=
  let current := trade.currentUnits.or trade.initialUnits
  { base trade with
    side := side current
    units := current.map (fun u => |u|)
    unrealizedPnl := trade.unrealizedPL }

/-- `str(trade_id)` -/
def idText (row : Base) : String := row.tradeId.getD "None"

/-- `datetime.max`, the last microsecond of the year 9999. -/
def far : Instant := 253402300799999999

/-- `exited_at or far` -/
def exitKey (row : ClosedRow) : Instant := row.exitedAt.getD far

/-- The key `(exited_at or far, str(trade_id))`. -/
def ClosedBefore (a b : ClosedRow) : Prop :=
  exitKey a < exitKey b ∨ exitKey a = exitKey b ∧ idText a.toBase ≤ idText b.toBase

/-- The key `(opened_at, str(trade_id))`, reversed. A demo trade has an open time. -/
def OpenedAfter (a b : OpenRow) : Prop :=
  b.openedAt.getD 0 < a.openedAt.getD 0 ∨
    a.openedAt.getD 0 = b.openedAt.getD 0 ∧ idText b.toBase ≤ idText a.toBase

instance : DecidableRel ClosedBefore := fun a b =>
  inferInstanceAs (Decidable (exitKey a < exitKey b ∨
    exitKey a = exitKey b ∧ idText a.toBase ≤ idText b.toBase))

instance : DecidableRel OpenedAfter := fun a b =>
  inferInstanceAs (Decidable (b.openedAt.getD 0 < a.openedAt.getD 0 ∨
    a.openedAt.getD 0 = b.openedAt.getD 0 ∧ idText b.toBase ≤ idText a.toBase))

/-- `demo_rows`: closed oldest first by close time, open newest first. -/
def demoRows (trades : List Trade) (epoch : Instant) (riskRows : String → Option RiskRow) :
    List ClosedRow × List OpenRow :=
  let demo := trades.filter (inDemo epoch)
  (((demo.filter isClosed).map (closedRow riskRows)).insertionSort ClosedBefore,
    ((demo.filter (fun trade => !isClosed trade)).map openRow).insertionSort OpenedAfter)

structure Stats where
  trades : ℕ
  wins : ℕ
  totalPnl : Option ℚ
  todayPnl : Option ℚ
  maxDrawdown : Option ℚ
  avgR : Option ℚ
  avgRReason : Option String
  deriving DecidableEq

/-- The sums of `demo_statistics` while it walks the closed rows. -/
structure Tally where
  total : ℚ := 0
  peak : ℚ := 0
  drawdown : ℚ := 0
  todayPnl : ℚ := 0
  sumR : ℚ := 0
  wins : ℕ := 0
  unknown : ℕ := 0
  reason : Option String := none
  curve : List (Instant × ℚ) := []

variable (date : Instant → ℤ)

/-- One readable row. -/
def Tally.add (today : ℤ) (t : Tally) (row : ClosedRow) (pnl : ℚ) (at_ : Instant) : Tally :=
  let total := t.total + pnl
  let peak := max t.peak total
  { total := total
    peak := peak
    drawdown := max t.drawdown (peak - total)
    todayPnl := if date at_ = today then t.todayPnl + pnl else t.todayPnl
    sumR := t.sumR + row.realizedR.getD 0
    wins := if 0 < pnl then t.wins + 1 else t.wins
    unknown := if row.realizedR = none then t.unknown + 1 else t.unknown
    reason := if row.realizedR = none then t.reason.or row.realizedRReason else t.reason
    curve := t.curve ++ [(at_, total)] }

/-- The loop over the closed rows; a row without a P&L or a close time ends it. -/
def tally (today : ℤ) : List ClosedRow → Tally → Option Tally
  | [], t => some t
  | row :: rows, t =>
    match row.netPnl, row.exitedAt with
    | some pnl, some at_ => tally today rows (t.add date today row pnl at_)
    | _, _ => none

/-- `demo_statistics` -/
def demoStatistics (trades : List Trade) (now epoch : Instant)
    (riskRows : String → Option RiskRow) : Stats × List (Instant × ℚ) × List OpenRow :=
  let rows := demoRows trades epoch riskRows
  let count := rows.1.length
  if rows.1 = [] then
    (⟨0, 0, some 0, some 0, some 0, none, some noClosedReason⟩, [], rows.2)
  else
    match tally date (date now) rows.1 {} with
    | none =>
      (⟨count, 0, none, none, none, none, some "datos de cierre incompletos en OANDA"⟩, [], rows.2)
    | some t =>
      (⟨count, t.wins, some t.total, some t.todayPnl, some t.drawdown,
        if t.unknown ≠ 0 then none else some (t.sumR / count),
        if t.unknown ≠ 0 then some (t.reason.getD "None" ++ " en " ++ toString t.unknown ++ " de " ++
          toString count ++ " operaciones") else none⟩, t.curve, rows.2)

structure Capital where
  start : Option ℚ
  change : Option ℚ
  deriving DecidableEq

/-- `demo_capital` -/
def demoCapital (nav balance : Option ℚ) (stats : Option Stats) : Capital :=
  let realized := stats.bind (·.totalPnl)
  let start := balance.bind (fun balance => realized.map (balance - ·))
  ⟨start, nav.bind (fun nav => start.map (nav - ·))⟩

/-- What a trades reader answers: `None`, an error code or the two lists. -/
inductive TradesRead where
  | missing
  | error (code : String)
  | read (closed open_ : List Trade) (stale : Bool)

/-- What an account reader answers; `ok` is its status. -/
structure AccountView where
  ok : Bool
  nav : Option ℚ
  balance : Option ℚ
  stale : Bool

structure Snapshot where
  stats : Option Stats := none
  curve : List (Instant × ℚ) := []
  openRows : List OpenRow := []
  closedRows : List ClosedRow := []
  nav : Option ℚ := none
  balance : Option ℚ := none
  capital : Capital := ⟨none, none⟩
  stale : Bool := false
  tradesError : Option String := none
  tradesStale : Bool := false

/-- The trades of `demo_snapshot`. A slow or incomplete read has no totals. -/
def Snapshot.readTrades (now epoch : Instant) (riskRows : String → Option RiskRow) :
    TradesRead → Snapshot
  | .missing => {}
  | .error code => { tradesError := some code }
  | .read closed open_ stale =>
    let listed := closed ++ open_
    let r := demoStatistics date listed now epoch riskRows
    { stats := some r.1
      curve := r.2.1
      openRows := r.2.2
      closedRows := (demoRows listed epoch riskRows).1
      tradesStale := stale }

/-- `demo_snapshot` -/
def demoSnapshot (now epoch : Instant) (riskRows : String → Option RiskRow) (trades : TradesRead)
    (view : AccountView) : Snapshot :=
  let s := Snapshot.readTrades date now epoch riskRows trades
  let s := if view.ok then
    { s with nav := view.nav, balance := view.balance, stale := view.stale } else s
  if s.stats.isSome then { s with capital := demoCapital s.nav s.balance s.stats } else s

/-! ### The sums -/

variable {date} {today : ℤ} {rows : List ClosedRow} {t : Tally}

/-- The total of the loop is the sum of the rows it read. -/
theorem tally_total (hread : ∀ row ∈ rows, row.netPnl.isSome ∧ row.exitedAt.isSome) :
    ∃ t', tally date today rows t = some t' ∧
      t'.total = t.total + (rows.map (fun row => row.netPnl.getD 0)).sum := by
  induction rows generalizing t with
  | nil => exact ⟨t, rfl, by simp⟩
  | cons row rows ih =>
    obtain ⟨hpnl, hat⟩ := hread row List.mem_cons_self
    obtain ⟨pnl, hpnl⟩ := Option.isSome_iff_exists.mp hpnl
    obtain ⟨at_, hat⟩ := Option.isSome_iff_exists.mp hat
    obtain ⟨t', ht', htotal⟩ := ih (t := t.add date today row pnl at_)
      (fun row' h => hread row' (List.mem_cons_of_mem row h))
    refine ⟨t', ?_, ?_⟩
    · rw [tally, hpnl, hat]
      exact ht'
    · rw [htotal, List.map_cons, List.sum_cons, hpnl]
      simp only [Tally.add, Option.getD_some, add_assoc]

/-- The realized total is the net P&L of the closed demo trades, in whatever order they come. -/
theorem totalPnl_eq {trades : List Trade} {now epoch : Instant}
    {riskRows : String → Option RiskRow} {closed : List Trade}
    (hclosed : closed = (trades.filter (inDemo epoch)).filter isClosed)
    (hread : ∀ trade ∈ closed, (netPnl trade).isSome ∧ trade.closeTime.isSome) :
    (demoStatistics date trades now epoch riskRows).1.totalPnl =
      some (closed.map (fun trade => (netPnl trade).getD 0)).sum := by
  have hperm : (demoRows trades epoch riskRows).1.Perm (closed.map (closedRow riskRows)) := by
    rw [hclosed]
    exact List.perm_insertionSort ..
  have hsum : ((demoRows trades epoch riskRows).1.map (fun row => row.netPnl.getD 0)).sum =
      (closed.map (fun trade => (netPnl trade).getD 0)).sum := by
    rw [(hperm.map _).sum_eq, List.map_map]
    rfl
  unfold demoStatistics
  by_cases hnone : (demoRows trades epoch riskRows).1 = []
  · rw [hnone] at hsum
    simp only [if_pos hnone, ← hsum, List.map_nil, List.sum_nil]
  · have hrows : ∀ row ∈ (demoRows trades epoch riskRows).1,
        row.netPnl.isSome ∧ row.exitedAt.isSome := by
      intro row hrow
      obtain ⟨trade, htrade, rfl⟩ := List.mem_map.mp (hperm.mem_iff.mp hrow)
      exact hread trade htrade
    obtain ⟨t', ht', htotal⟩ : ∃ t', tally date (date now) (demoRows trades epoch riskRows).1 {}
        = some t' ∧ t'.total =
          0 + ((demoRows trades epoch riskRows).1.map (fun row => row.netPnl.getD 0)).sum :=
      tally_total hrows
    simp only [if_neg hnone, ht', htotal, hsum, zero_add]

end MarketSystem.DemoMetrics
