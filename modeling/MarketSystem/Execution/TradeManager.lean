import MarketSystem.Core.RiskPolicy
import MarketSystem.Execution.Contracts

/-!
# Position management

`process_bar` walks over the open positions and lets the bar act on the one with
its symbol: a gap through stop or target exits at the open, a touch exits at the
level, and stop wins over target. A position that survives the bar records the
bar as its watermark, so the same bar never acts on it again.

The trade id of a close is drawn by the source from `uuid4`; here it is an
argument.
-/
namespace MarketSystem

open Library

structure Instrument where
  symbol : String
  priceIncrement : Option ℚ
  quantityIncrement : Option ℚ
  contractMultiplier : Option ℚ
  deriving DecidableEq, Repr

/-- The in-memory broker: a loaded account with its orders, fills and the journal
events that the next save will persist. -/
structure PaperBroker where
  account : PaperAccount
  instrument : Option Instrument := none
  rrPolicy : Option RrContract.Policy := none
  orders : Orders := Table.empty
  fills : Fills := Table.empty
  journal : List JournalEvent := []

namespace PaperBroker

/-- `_event`: append to the in-memory journal. -/
def event (b : PaperBroker) (timestamp : Option Instant) (runId symbol entityId eventType : String)
    (details : Json := .obj []) : PaperBroker :=
  { b with journal := b.journal ++ [⟨timestamp, runId, symbol, entityId, eventType, details⟩] }

@[simp] theorem event_account (b : PaperBroker) (t : Option Instant) (r s i e : String) (d : Json) :
    (b.event t r s i e d).account = b.account := rfl

@[simp] theorem event_orders (b : PaperBroker) (t : Option Instant) (r s i e : String) (d : Json) :
    (b.event t r s i e d).orders = b.orders := rfl

@[simp] theorem event_fills (b : PaperBroker) (t : Option Instant) (r s i e : String) (d : Json) :
    (b.event t r s i e d).fills = b.fills := rfl

end PaperBroker

namespace TradeManager

/-- `_unrealized`: the open profit of one position at its last price. -/
def unrealized (position : PaperPosition) : ℚ :=
  match position.lastPrice, position.contractMultiplier with
  | some last, some multiplier =>
      if valid multiplier then
        (match position.side with
          | .long => last - position.entryPrice
          | .short => position.entryPrice - last) * position.quantity * multiplier
      else 0
  | _, _ => 0

/-- Re-mark the account to the last prices of its open positions. -/
def remark (account : PaperAccount) : PaperAccount :=
  let unrealizedPnl := account.openPositions.total unrealized
  { account with
    unrealizedPnl := unrealizedPnl
    equity := account.startingEquity + account.realizedPnl + unrealizedPnl }

@[simp] theorem remark_openPositions (a : PaperAccount) :
    (remark a).openPositions = a.openPositions := rfl

@[simp] theorem remark_closedTrades (a : PaperAccount) :
    (remark a).closedTrades = a.closedTrades := rfl

@[simp] theorem remark_realizedPnl (a : PaperAccount) :
    (remark a).realizedPnl = a.realizedPnl := rfl

@[simp] theorem remark_startingEquity (a : PaperAccount) :
    (remark a).startingEquity = a.startingEquity := rfl

@[simp] theorem remark_accountId (a : PaperAccount) : (remark a).accountId = a.accountId := rfl

/-- `_closed_trade`: one cost charge on the entry notional. -/
def closedTrade (tradeId : String) (position : PaperPosition) (exitPrice : ℚ) (at_ : Instant)
    (reason : String) : ClosedTrade :=
  let gross := (match position.side with
    | .long => exitPrice - position.entryPrice
    | .short => position.entryPrice - exitPrice)
      * position.quantity * position.contractMultiplier.getD 0
  let cost := position.costRate * position.quantity * position.entryPrice / 100
  { tradeId := tradeId
    positionId := position.positionId
    runId := position.runId
    symbol := position.symbol
    side := position.side
    entryPrice := position.entryPrice
    exitPrice := exitPrice
    quantity := position.quantity
    grossPnl := gross
    cost := cost
    netPnl := gross - cost
    exitedAt := at_
    reason := reason }

/-- The exit a bar forces: gaps at the open first, then touched levels, stop first. -/
def exitOf (position : PaperPosition) (bar : Bar) : Option (ℚ × String) :=
  let gapStop := match position.side with
    | .long => decide (bar.open_ ≤ position.stop)
    | .short => decide (bar.open_ ≥ position.stop)
  let gapTarget := match position.side with
    | .long => decide (bar.open_ ≥ position.target)
    | .short => decide (bar.open_ ≤ position.target)
  let stopHit := match position.side with
    | .long => decide (bar.low ≤ position.stop)
    | .short => decide (bar.high ≥ position.stop)
  let targetHit := match position.side with
    | .long => decide (bar.high ≥ position.target)
    | .short => decide (bar.low ≤ position.target)
  if gapStop then some (bar.open_, "stop")
  else if gapTarget then some (bar.open_, "target")
  else if stopHit then some (position.stop, "stop")
  else if targetHit then some (position.target, "target")
  else none

/-- The guards under which a bar acts on a position at all: it is open, the bar is
later than the opening and than the watermark, and its prices are coherent. -/
def actsOn (bar : Bar) (position : PaperPosition) : Bool :=
  decide (position.status = .open) && decide (bar.symbol = position.symbol)
    && validMultiplier position.contractMultiplier
    && decide (position.openedAt < bar.timestamp)
    && (match position.lastProcessedAt with
        | some last => decide (last < bar.timestamp)
        | none => true)
    && bar.validOhlc

/-- Book a close: realize the net profit and drop the position. -/
def settle (account : PaperAccount) (position : PaperPosition) (trade : ClosedTrade) :
    PaperAccount :=
  { account with
    realizedPnl := account.realizedPnl + trade.netPnl
    closedTrades := account.closedTrades ++ [trade]
    openPositions := account.openPositions.erase position.symbol }

/-- The journal event of an ordinary level exit, when the reason is one. -/
def levelEvent (b : PaperBroker) (at_ : Instant) (runId symbol tradeId reason : String) :
    PaperBroker :=
  if reason = "stop" then b.event (some at_) runId symbol tradeId "STOP_HIT"
  else if reason = "target" then b.event (some at_) runId symbol tradeId "TARGET_HIT"
  else b

@[simp] theorem levelEvent_account (b : PaperBroker) (a : Instant) (r s t w : String) :
    (levelEvent b a r s t w).account = b.account := by
  unfold levelEvent; split_ifs <;> rfl

@[simp] theorem levelEvent_orders (b : PaperBroker) (a : Instant) (r s t w : String) :
    (levelEvent b a r s t w).orders = b.orders := by
  unfold levelEvent; split_ifs <;> rfl

@[simp] theorem levelEvent_fills (b : PaperBroker) (a : Instant) (r s t w : String) :
    (levelEvent b a r s t w).fills = b.fills := by
  unfold levelEvent; split_ifs <;> rfl

/-- The body of the loop for one open position. -/
def processPosition (bar : Bar) (tradeId : String) (acc : PaperBroker × List ClosedTrade)
    (position : PaperPosition) : PaperBroker × List ClosedTrade :=
  let (b, closed) := acc
  if actsOn bar position then
    match exitOf position bar with
    | none =>
        let held := { position with
          lastPrice := some bar.close
          lastProcessedAt := some bar.timestamp }
        let account := { b.account with openPositions := b.account.openPositions.put held }
        ({ b with account := account }, closed)
    | some (exitPrice, reason) =>
        let trade := closedTrade tradeId position exitPrice bar.timestamp reason
        let b := { b with account := settle b.account position trade }
        let b := levelEvent b bar.timestamp position.runId position.symbol trade.tradeId reason
        (b.event (some bar.timestamp) position.runId position.symbol trade.tradeId
          "POSITION_CLOSED", closed ++ [trade])
  else acc

/-- `process_bar`: the bar acts on every open position, then the account is re-marked. -/
def processBar (b : PaperBroker) (bar : Bar) (tradeId : String) :
    PaperBroker × List ClosedTrade :=
  if bar.isClosed then
    let (b, closed) := b.account.openPositions.rows.foldl (processPosition bar tradeId) (b, [])
    ({ b with account := remark b.account }, closed)
  else (b, [])

/-- `close_position`: an explicit exit, booked like a level exit. -/
def closePosition (b : PaperBroker) (position : PaperPosition) (exitPrice : ℚ) (at_ : Instant)
    (reason tradeId : String) (eventRunId : Option String := none) :
    Except String (PaperBroker × ClosedTrade) :=
  if validMultiplier position.contractMultiplier then
    let trade := closedTrade tradeId position exitPrice at_ reason
    let b := { b with account := settle b.account position trade }
    let runId := eventRunId.getD position.runId
    let b := levelEvent b at_ runId position.symbol trade.tradeId reason
    let details := match eventRunId with
      | some _ => Json.obj [("exit_reason", .str reason)]
      | none => Json.obj []
    let b := b.event (some at_) runId position.symbol trade.tradeId "POSITION_CLOSED" details
    .ok ({ b with account := remark b.account }, trade)
  else .error "invalid position contract multiplier"

/-! ## One bar acts on one position -/

theorem processPosition_of_not_actsOn {bar : Bar} {tradeId : String}
    {acc : PaperBroker × List ClosedTrade} {position : PaperPosition}
    (h : actsOn bar position = false) : processPosition bar tradeId acc position = acc := by
  simp [processPosition, h]

theorem symbol_of_actsOn {bar : Bar} {position : PaperPosition}
    (h : actsOn bar position = true) : bar.symbol = position.symbol := by
  simp only [actsOn, Bool.and_eq_true, decide_eq_true_eq] at h
  exact h.1.1.1.1.2

theorem foldl_processPosition_of_other {bar : Bar} {tradeId : String} {ps : List PaperPosition}
    (h : ∀ p ∈ ps, p.symbol ≠ bar.symbol) (acc : PaperBroker × List ClosedTrade) :
    ps.foldl (processPosition bar tradeId) acc = acc := by
  induction ps generalizing acc with
  | nil => rfl
  | cons p ps ih =>
    have hp : actsOn bar p = false := by
      by_contra hne
      exact h p (by simp) (symbol_of_actsOn (by simpa using hne)).symm
    rw [List.foldl_cons, processPosition_of_not_actsOn hp]
    exact ih (fun q hq => h q (by simp [hq])) acc

/-- The loop reduces to the position that carries the symbol of the bar. -/
theorem foldl_processPosition {bar : Bar} {tradeId : String} (t : Table PaperPosition.symbol)
    (acc : PaperBroker × List ClosedTrade) :
    t.rows.foldl (processPosition bar tradeId) acc =
      match t.get? bar.symbol with
      | some p => processPosition bar tradeId acc p
      | none => acc := by
  cases hg : t.get? bar.symbol with
  | none =>
    exact foldl_processPosition_of_other (fun p hp => Table.get?_eq_none.mp hg p hp) acc
  | some p =>
    obtain ⟨hp, hsym⟩ := Table.get?_eq_some.mp hg
    obtain ⟨before, after, hrows⟩ := List.append_of_mem hp
    have hn := t.nodup
    rw [hrows] at hn ⊢
    simp only [List.map_append, List.map_cons, List.nodup_append, List.nodup_cons,
      List.mem_map, List.mem_cons] at hn
    obtain ⟨-, ⟨hafter, -⟩, hbefore⟩ := hn
    have h1 : ∀ q ∈ before, q.symbol ≠ bar.symbol := fun q hq he =>
      hbefore q.symbol ⟨q, hq, rfl⟩ p.symbol (.inl rfl) (he.trans hsym.symm)
    have h2 : ∀ q ∈ after, q.symbol ≠ bar.symbol := fun q hq he =>
      hafter ⟨q, hq, he.trans hsym.symm⟩
    rw [List.foldl_append, foldl_processPosition_of_other h1, List.foldl_cons,
      foldl_processPosition_of_other h2]

/-- What a closed bar does to a broker, read off the position under its symbol. -/
theorem processBar_eq {b : PaperBroker} {bar : Bar} {tradeId : String}
    (hclosed : bar.isClosed = true) :
    processBar b bar tradeId =
      let acc := match b.account.openPositions.get? bar.symbol with
        | some p => processPosition bar tradeId (b, []) p
        | none => (b, [])
      ({ acc.1 with account := remark acc.1.account }, acc.2) := by
  simp only [processBar, hclosed, if_true]
  rw [foldl_processPosition]

/-- The position after a bar that did not close it. -/
def held (position : PaperPosition) (bar : Bar) : PaperPosition :=
  { position with lastPrice := some bar.close, lastProcessedAt := some bar.timestamp }

/-- Everything a closed bar can do: nothing, advance the position under its symbol, or
close it. -/
theorem processBar_cases (b : PaperBroker) {bar : Bar} (tradeId : String)
    (hclosed : bar.isClosed = true) :
    ((∀ p, b.account.openPositions.get? bar.symbol = some p → actsOn bar p = false) ∧
      processBar b bar tradeId = ({ b with account := remark b.account }, [])) ∨
    (∃ p, b.account.openPositions.get? bar.symbol = some p ∧ actsOn bar p = true ∧
      exitOf p bar = none ∧
      processBar b bar tradeId = ({ b with account := remark { b.account with
        openPositions := b.account.openPositions.put (held p bar) } }, [])) ∨
    (∃ p exitPrice reason, b.account.openPositions.get? bar.symbol = some p ∧
      actsOn bar p = true ∧ exitOf p bar = some (exitPrice, reason) ∧
      (processBar b bar tradeId).2 = [closedTrade tradeId p exitPrice bar.timestamp reason] ∧
      (processBar b bar tradeId).1.account =
        remark (settle b.account p (closedTrade tradeId p exitPrice bar.timestamp reason)) ∧
      (processBar b bar tradeId).1.orders = b.orders ∧
      (processBar b bar tradeId).1.fills = b.fills) := by
  rw [processBar_eq hclosed]
  cases hg : b.account.openPositions.get? bar.symbol with
  | none => exact .inl ⟨by simp, rfl⟩
  | some p =>
    cases hacts : actsOn bar p with
    | false =>
      refine .inl ⟨?_, ?_⟩
      · intro q hq
        rw [Option.some.inj hq] at hacts
        exact hacts
      · simp only [processPosition_of_not_actsOn hacts]
    | true =>
      cases hexit : exitOf p bar with
      | none =>
        refine .inr (.inl ⟨p, rfl, hacts, hexit, ?_⟩)
        simp only [processPosition, hacts, hexit, if_true]
        rfl
      | some exit =>
        obtain ⟨exitPrice, reason⟩ := exit
        refine .inr (.inr ⟨p, exitPrice, reason, rfl, hacts, hexit, ?_⟩)
        simp [processPosition, hacts, hexit]

theorem processBar_accountId (b : PaperBroker) {bar : Bar} (tradeId : String)
    (hclosed : bar.isClosed = true) :
    (processBar b bar tradeId).1.account.accountId = b.account.accountId := by
  rcases processBar_cases b tradeId hclosed with ⟨-, he⟩ | ⟨p, -, -, -, he⟩ |
    ⟨p, exitPrice, reason, -, -, -, -, haccount, -, -⟩
  · rw [he]
    rfl
  · rw [he]
    rfl
  · rw [haccount]
    rfl

/-- What a bar that acts on a position leaves of it: the advanced position, or its trade. -/
def outcome (position : PaperPosition) (bar : Bar) (tradeId : String) :
    Option PaperPosition × List ClosedTrade :=
  match exitOf position bar with
  | none => (some (held position bar), [])
  | some (exitPrice, reason) =>
      (none, [closedTrade tradeId position exitPrice bar.timestamp reason])

/-- `process_bar` does to the position under the symbol of the bar what `outcome` says,
whatever else the account holds. -/
theorem processBar_outcome {b : PaperBroker} {bar : Bar} {p : PaperPosition} (tradeId : String)
    (hclosed : bar.isClosed = true) (hp : b.account.openPositions.get? bar.symbol = some p)
    (hacts : actsOn bar p = true) :
    (processBar b bar tradeId).1.account.openPositions.get? bar.symbol =
        (outcome p bar tradeId).1 ∧
      (processBar b bar tradeId).2 = (outcome p bar tradeId).2 ∧
      (processBar b bar tradeId).1.account.closedTrades =
        b.account.closedTrades ++ (outcome p bar tradeId).2 ∧
      (processBar b bar tradeId).1.account.realizedPnl =
        b.account.realizedPnl + ((outcome p bar tradeId).2.map (·.netPnl)).sum := by
  have hsymbol : bar.symbol = p.symbol := symbol_of_actsOn hacts
  rcases processBar_cases b tradeId hclosed with ⟨hnone, -⟩ | ⟨q, hq, -, hexit, he⟩ |
    ⟨q, exitPrice, reason, hq, -, hexit, hclosed', haccount, -, -⟩
  · rw [hnone p hp] at hacts
    cases hacts
  · obtain rfl : p = q := Option.some.inj (hp.symm.trans hq)
    have hheld : (held p bar).symbol = bar.symbol := hsymbol.symm
    rw [he]
    simp only [outcome, hexit, remark_openPositions, remark_closedTrades, remark_realizedPnl,
      List.append_nil, List.map_nil, List.sum_nil, add_zero, and_true, ← hheld]
    exact Table.get?_put_self
  · obtain rfl : p = q := Option.some.inj (hp.symm.trans hq)
    rw [hclosed', haccount]
    simp only [outcome, hexit, settle, remark_openPositions, remark_closedTrades,
      remark_realizedPnl, List.map_cons, List.map_nil, List.sum_cons, List.sum_nil, add_zero,
      and_true]
    refine Table.get?_eq_none.mpr (fun r hr he => ?_)
    exact (Table.mem_erase.mp hr).2 (he.trans hsymbol)

end TradeManager

end MarketSystem
