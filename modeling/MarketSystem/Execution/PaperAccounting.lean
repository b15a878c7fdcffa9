import MarketSystem.Execution.BrokerRuns

/-!
# The books of the PAPER account

Profits are booked when a position closes and marked when a bar or a close is
processed; a fill marks nothing. The books balance as long as a fill adds a position
without profit and replaces none.
-/
namespace MarketSystem.PaperAccounting

open Library GuardedWrite BrokerRuns

/-- `close_position` on any position. The trade is booked first; where no position is open
under the symbol, the call then raises and nothing is marked. -/
def closePosition (b : PaperBroker) (position : PaperPosition) (exitPrice : ℚ) (at_ : Instant)
    (reason tradeId : String) : PaperBroker :=
  match TradeManager.closePosition b position exitPrice at_ reason tradeId with
  | .error _ => b
  | .ok (closed, trade) =>
      match b.account.openPositions.get? position.symbol with
      | some _ => closed
      | none => { b with account := TradeManager.settle b.account position trade }

/-- A move on the account. -/
inductive Move
  | call (c : Call)
  | closePosition (position : PaperPosition) (exitPrice : ℚ) (at_ : Instant) (reason : String)

def Move.apply (uuid4 : Uuid4) (b : PaperBroker) (m : Move) : PaperBroker :=
  match m with
  | .call c => (c.apply (uuid4.draw b) b).1
  | .closePosition position exitPrice at_ reason =>
      PaperAccounting.closePosition b position exitPrice at_ reason (uuid4.draw b).tradeId

/-- No order fills on a taken symbol, and what is closed is the position under its symbol. -/
def Proper (b : PaperBroker) (m : Move) : Prop :=
  match m with
  | .call c => Spares b c
  | .closePosition position _ _ _ =>
      b.account.openPositions.get? position.symbol = some position

/-- No position, trade or profit yet. -/
structure Fresh (a : PaperAccount) : Prop where
  positions : a.openPositions = Table.empty
  trades : a.closedTrades = []
  realized : a.realizedPnl = 0
  unrealized : a.unrealizedPnl = 0
  equity : a.equity = a.startingEquity

/-! ## The books -/

/-- The identity of the account. -/
structure Balanced (a : PaperAccount) : Prop where
  realized : a.realizedPnl = (a.closedTrades.map (·.netPnl)).sum
  unrealized : a.unrealizedPnl = a.openPositions.total TradeManager.unrealized
  equity : a.equity = a.startingEquity + a.realizedPnl + a.unrealizedPnl

section Effect

variable {b b' : PaperBroker}

/-- Marking sets the profit and the equity right, whatever they were. -/
theorem balanced_remark {a : PaperAccount}
    (hrealized : a.realizedPnl = (a.closedTrades.map (·.netPnl)).sum) :
    Balanced (TradeManager.remark a) :=
  ⟨hrealized, rfl, rfl⟩

theorem Balanced.effect (h : Balanced b.account) {opened : Option PaperPosition}
    (heffect : Effect b b' opened) : Balanced b'.account := by
  cases heffect with
  | marked haccount horders hfills =>
    rcases haccount with he | he
    · rw [he]
      exact h
    · rw [he]
      exact balanced_remark h.realized
  | ordered hstatus hold haccount horders hfills =>
    rw [haccount]
    exact h
  | @filled order position fill hmem hpending hfree horigin hzero hopen hclosed hfillId hfillOrder
      haccount horders hfills =>
    -- nothing is marked, and the new position is worth nothing
    have hothers : (b.account.openPositions.erase position.symbol).total TradeManager.unrealized =
        b.account.openPositions.total TradeManager.unrealized := by
      unfold Table.total
      rw [Table.erase_eq_self (Table.get?_eq_none.mp hfree)]
    have htotal : (b.account.openPositions.put position).total TradeManager.unrealized =
        b.account.openPositions.total TradeManager.unrealized := by
      rw [Table.total_put, hzero, hothers, zero_add]
    rw [haccount]
    exact ⟨h.realized, h.unrealized.trans htotal.symm, h.equity⟩
  | held hmem hid hsymbol horigin haccount horders hfills =>
    rw [haccount]
    exact balanced_remark h.realized
  | @closed p trade hmem hid haccount horders hfills =>
    rw [haccount]
    refine balanced_remark ?_
    change b.account.realizedPnl + trade.netPnl =
      ((b.account.closedTrades ++ [trade]).map (·.netPnl)).sum
    rw [h.realized, List.map_append, List.sum_append]
    simp

theorem closePosition_effect {position : PaperPosition} (exitPrice : ℚ) (at_ : Instant)
    (reason tradeId : String)
    (hstored : b.account.openPositions.get? position.symbol = some position) :
    Effect b (closePosition b position exitPrice at_ reason tradeId) none := by
  unfold closePosition TradeManager.closePosition
  cases hvalid : validMultiplier position.contractMultiplier with
  | false => exact effect_self
  | true =>
    simp only [hstored, if_true]
    refine @Effect.closed b _ position (TradeManager.closedTrade tradeId position exitPrice at_ reason)
      (Table.get?_eq_some.mp hstored).1 rfl ?_ ?_ ?_
    · simp
    · simp
    · simp

theorem apply_effect (uuid4 : Uuid4) {m : Move} (hproper : Proper b m) :
    ∃ opened, Effect b (m.apply uuid4 b) opened := by
  cases m with
  | call c => exact ⟨_, BrokerRuns.apply_effect (uuid4.fresh b) hproper⟩
  | closePosition position exitPrice at_ reason =>
    exact ⟨none, closePosition_effect exitPrice at_ reason _ hproper⟩

end Effect

/-! ## A bar that has been seen -/

/-- The time up to which a position has taken its bars. -/
def watermark (position : PaperPosition) : Instant :=
  position.lastProcessedAt.getD position.openedAt

/-- No bar up to the watermark of an open position changes its row or closes it. -/
def Settled (b : PaperBroker) : Prop :=
  ∀ position ∈ b.account.openPositions, ∀ (bar : RawBar) (tradeId : String) (at_ : Instant),
    bar.timestamp = some at_ → at_ ≤ watermark position →
      position ∈ (BrokerRuns.processBar b (some bar) tradeId).account.openPositions ∧
      ∀ t ∈ (BrokerRuns.processBar b (some bar) tradeId).account.closedTrades,
        t.positionId = position.positionId → t ∈ b.account.closedTrades

theorem not_actsOn_of_seen {position : PaperPosition} {bar : Bar}
    (h : bar.timestamp ≤ watermark position) : TradeManager.actsOn bar position = false := by
  unfold watermark at h
  unfold TradeManager.actsOn
  cases hlast : position.lastProcessedAt with
  | none =>
    rw [hlast, Option.getD_none] at h
    simp [not_lt.mpr h]
  | some last =>
    rw [hlast, Option.getD_some] at h
    simp [not_lt.mpr h]

theorem toBar?_timestamp {bar : RawBar} {bar' : Bar} (h : bar.toBar? = some bar') {at_ : Instant}
    (hat : bar.timestamp = some at_) : bar'.timestamp = at_ := by
  unfold RawBar.toBar? at h
  split at h
  · rename_i heq _ _ _ _
    rw [hat] at heq
    cases h
    exact (Option.some.inj heq).symm
  · cases h

theorem seen_bar_skips {b : PaperBroker} (h : Distinct b.account) {position : PaperPosition}
    (hmem : position ∈ b.account.openPositions) {bar : Bar} (tradeId : String)
    (hseen : bar.timestamp ≤ watermark position) :
    position ∈ (TradeManager.processBar b bar tradeId).1.account.openPositions ∧
      ∀ t ∈ (TradeManager.processBar b bar tradeId).1.account.closedTrades,
        t.positionId = position.positionId → t ∈ b.account.closedTrades := by
  -- the bar acts on another position, if on any
  have hother : ∀ p, TradeManager.actsOn bar p = true → p ≠ position := by
    rintro p hacts rfl
    rw [not_actsOn_of_seen hseen] at hacts
    cases hacts
  cases hbar : bar.isClosed with
  | false =>
    simp only [TradeManager.processBar, hbar, Bool.false_eq_true, if_false]
    exact ⟨hmem, fun t ht _ => ht⟩
  | true =>
    rcases TradeManager.processBar_cases b tradeId hbar with ⟨-, he⟩ | ⟨p, hp, hacts, -, he⟩ |
      ⟨p, exitPrice, reason, hp, hacts, -, -, haccount, -, -⟩
    · rw [he]
      exact ⟨hmem, fun t ht _ => ht⟩
    · have hp' := (Table.get?_eq_some.mp hp).1
      rw [he]
      refine ⟨Table.mem_put.mpr (.inr ⟨hmem, fun hsymbol => ?_⟩), fun t ht _ => ht⟩
      exact hother p hacts (Table.eq_of_key hp' hmem hsymbol.symm)
    · have hp' := (Table.get?_eq_some.mp hp).1
      rw [haccount]
      refine ⟨Table.mem_erase.mpr ⟨hmem, fun hsymbol => ?_⟩, fun t ht hid => ?_⟩
      · exact hother p hacts (Table.eq_of_key hp' hmem hsymbol.symm)
      · rcases List.mem_append.mp ht with ht | ht
        · exact ht
        · rw [List.mem_singleton.mp ht] at hid
          exact absurd (h.identity p hp' position hmem hid) (hother p hacts)

theorem settled_of_distinct {b : PaperBroker} (h : Distinct b.account) : Settled b := by
  intro position hmem bar tradeId at_ hat hseen
  unfold BrokerRuns.processBar
  dsimp only
  split_ifs
  · exact ⟨hmem, fun t ht _ => ht⟩
  · cases hraw : bar.toBar? with
    | none => exact ⟨hmem, fun t ht _ => ht⟩
    | some bar' =>
      refine seen_bar_skips h hmem tradeId ?_
      rw [toBar?_timestamp hraw hat]
      exact hseen

/-! ## Runs -/

/-- In every run of proper moves from a fresh account the books balance, no position is closed
twice, and a bar that a position has seen leaves it as it is. -/
theorem books_balance (uuid4 : Uuid4) {b : PaperBroker} (hb : Fresh b.account) {moves : List Move}
    (hproper : Meets (Move.apply uuid4) Proper moves b) :
    Balanced (run (Move.apply uuid4) moves b).account ∧
      ((run (Move.apply uuid4) moves b).account.closedTrades.map (·.positionId)).Nodup ∧
      Settled (run (Move.apply uuid4) moves b) := by
  have hstart : Balanced b.account := by
    constructor
    · rw [hb.realized, hb.trades]
      rfl
    · rw [hb.unrealized, hb.positions]
      rfl
    · rw [hb.equity, hb.realized, hb.unrealized]
      simp
  have hrun : Balanced (run (Move.apply uuid4) moves b).account ∧
      Distinct (run (Move.apply uuid4) moves b).account := by
    refine run_induction (P := fun b => Balanced b.account ∧ Distinct b.account) ?_
      ⟨hstart, distinct_of_empty hb.positions hb.trades⟩ hproper
    rintro b m ⟨hbalanced, hdistinct⟩ hm
    obtain ⟨opened, heffect⟩ := apply_effect uuid4 hm
    exact ⟨hbalanced.effect heffect, hdistinct.effect heffect⟩
  exact ⟨hrun.1, hrun.2.once, settled_of_distinct hrun.2⟩

/-! ## A run that balances, and a fill that leaves the profit of a lost position -/

/-- One order fills, moves in profit, and is closed by `close_market`. -/
def sampleMoves : List Move :=
  [.call (.submitPlan (sampleReport "R1") (some 0)),
    .call (.processNextBar "x" (some (sampleBar 1 100))),
    .call (.processBar (some (sampleBar 2 101))),
    .call (.closeMarket "XAUUSD" 102 (some 3) "manual" "R1")]

theorem sampleMoves_proper : Meets (Move.apply sampleUuid4) Proper sampleMoves sampleBroker := by
  refine ⟨?_, ?_, ?_, ?_, trivial⟩
  · intro orderId bar hcall
    cases hcall
  · intro orderId bar hcall order horder hfills
    rfl
  · intro orderId bar hcall
    cases hcall
  · intro orderId bar hcall
    cases hcall

theorem books_balance_sample :
    Balanced (run (Move.apply sampleUuid4) sampleMoves sampleBroker).account ∧
      (run (Move.apply sampleUuid4) sampleMoves sampleBroker).account.realizedPnl = 2 :=
  ⟨(books_balance sampleUuid4 ⟨rfl, rfl, rfl, rfl, rfl⟩ sampleMoves_proper).1, by decide +kernel⟩

/-- The second order fills while the first is in profit: the profit stays marked. -/
theorem second_fill_unbalances :
    ¬ ∀ (uuid4 : Uuid4) (b : PaperBroker) (moves : List Move), Fresh b.account →
      Balanced (run (Move.apply uuid4) moves b).account := by
  intro h
  have hmarked := (h sampleUuid4 sampleBroker
    [.call (.submitPlan (sampleReport "R1") (some 0)),
      .call (.submitPlan (sampleReport "R2") (some 0)),
      .call (.processNextBar "x" (some (sampleBar 1 100))),
      .call (.processBar (some (sampleBar 2 101))),
      .call (.processNextBar "xx" (some (sampleBar 3 101)))]
    ⟨rfl, rfl, rfl, rfl, rfl⟩).unrealized
  revert hmarked
  decide +kernel

end MarketSystem.PaperAccounting
