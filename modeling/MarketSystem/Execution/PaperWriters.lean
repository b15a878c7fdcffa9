import MarketSystem.Execution.PaperBroker
import MarketSystem.Storage.PaperStore

/-!
# The writers of the PAPER account

Every writer loads a broker, changes it by one of the operations below and saves
it under the compare-and-swap. Each operation keeps the account sound and moves
it forward; a save may hold several of them in a row.

Ids drawn from `uuid4` differ from every id in use, which is what the freshness
premises say.
-/
namespace MarketSystem

open Library

namespace TradeDuration

/-- `STAGE_DAY2`. -/
def stageDay2 : String := "DAY2_BREAKEVEN"

/-- `move_stop_to_entry`: remember the original stop and enter Day 2. -/
def moveStopToEntry (position : PaperPosition) : PaperPosition :=
  { position with
    initialStop := some position.stop
    stop := position.entryPrice
    durationStage := some stageDay2 }

end TradeDuration

namespace PaperBroker

/-- Replace the open position under its symbol. -/
def putPosition (b : PaperBroker) (position : PaperPosition) : PaperBroker :=
  { b with account :=
      { b.account with openPositions := b.account.openPositions.put position } }

/-- One operation of a writer on a loaded broker. -/
inductive Writes : PaperBroker → PaperBroker → Prop
  /-- `process_next_bar` on a stored order. -/
  | nextBar {b b' : PaperBroker} {order : PaperOrder} {bar : Bar} {fillId positionId : String}
      {opened : Option PaperPosition} (hmem : order ∈ b.orders)
      (hfill : ∀ f ∈ b.fills, f.fillId ≠ fillId)
      (hopen : ∀ p ∈ b.account.openPositions, p.positionId ≠ positionId)
      (hclosed : ∀ t ∈ b.account.closedTrades, t.positionId ≠ positionId)
      (h : b.processNextBar order bar fillId positionId = .ok (b', opened)) : Writes b b'
  /-- A PENDING order is cancelled at its time boundary. -/
  | cancel {b : PaperBroker} {order : PaperOrder} (hmem : order ∈ b.orders)
      (hpending : order.status = .pending) (at_ : Option Instant) (reason : String) :
      Writes b (b.cancelOrder order at_ reason)
  /-- A PENDING order is submitted on a symbol without exposure. -/
  | submit {b : PaperBroker} {order : PaperOrder} (hpending : order.status = .pending)
      (hid : ∀ o ∈ b.orders, o.orderId ≠ order.orderId)
      (hposition : b.account.openPositions.get? order.symbol = none)
      (horder : ∀ o ∈ b.orders, o.status = .pending → o.symbol ≠ order.symbol)
      (events : List JournalEvent) :
      Writes b { b with orders := b.orders.put order, journal := b.journal ++ events }
  /-- `process_bar` with a closed bar. -/
  | processBar {b : PaperBroker} {bar : Bar} {tradeId : String} (hbar : bar.isClosed = true)
      (hid : ∀ t ∈ b.account.closedTrades, t.tradeId ≠ tradeId) :
      Writes b (TradeManager.processBar b bar tradeId).1
  /-- `close_market`: an explicit exit of an open position. -/
  | closeMarket {b b' : PaperBroker} {symbol : String} {price : ℚ} {asOf : Instant}
      {exitReason decisionRunId tradeId : String} {trade : ClosedTrade}
      (hid : ∀ t ∈ b.account.closedTrades, t.tradeId ≠ tradeId)
      (h : b.closeMarket symbol price asOf exitReason decisionRunId tradeId = .ok (b', trade)) :
      Writes b b'
  /-- The duration rule moves the stop of an open position, once. -/
  | moveStop {b : PaperBroker} {position : PaperPosition}
      (hmem : position ∈ b.account.openPositions) (hstage : position.durationStage = none)
      (events : List JournalEvent) :
      Writes b { b.putPosition (TradeDuration.moveStopToEntry position) with
        journal := b.journal ++ events }

/-! ## The invariant looks at the account and the orders only -/

theorem Sound.congr {b c : PaperBroker} (hb : b.Sound) (haccount : c.account = b.account)
    (horders : c.orders = b.orders) : c.Sound := by
  cases b
  cases c
  simp only at haccount horders
  subst haccount horders
  exact { hb with }

theorem Later.congr {a b c : PaperBroker} (hb : a.Later b) (haccount : c.account = b.account)
    (horders : c.orders = b.orders) (hfills : c.fills = b.fills) : a.Later c := by
  cases b
  cases c
  simp only at haccount horders hfills
  subst haccount horders hfills
  exact { hb with }

/-! ## Re-marking -/

/-- Re-marking an account whose books balance changes none of its figures. -/
theorem Sound.remark_eq {b : PaperBroker} (hb : b.Sound) :
    TradeManager.remark b.account = b.account := by
  have hu := hb.unrealized
  have he := hb.equity
  cases hacc : b.account with
  | mk accountId startingEquity cash equity realizedPnl unrealizedPnl openPositions closedTrades =>
    simp only [hacc] at hu he
    simp only [TradeManager.remark, ← hu, ← he]

/-! ## Closing a position -/

section Close

variable {b c : PaperBroker} {p : PaperPosition} {t : ClosedTrade}

theorem Sound.close (hb : b.Sound) (hp : p ∈ b.account.openPositions)
    (hid : t.positionId = p.positionId) (hfresh : ∀ s ∈ b.account.closedTrades,
      s.tradeId ≠ t.tradeId)
    (haccount : c.account = TradeManager.remark (TradeManager.settle b.account p t))
    (horders : c.orders = b.orders) : c.Sound := by
  have hmem : ∀ q, q ∈ c.account.openPositions ↔
      q ∈ b.account.openPositions ∧ q.symbol ≠ p.symbol := by
    intro q
    rw [haccount]
    exact Table.mem_erase
  have htrades : c.account.closedTrades = b.account.closedTrades ++ [t] := by
    rw [haccount]
    rfl
  refine { position := ?_, identity := ?_, apart := ?_, trades := ?_, exposure := ?_,
           pending := ?_, realized := ?_, unrealized := ?_, equity := ?_ }
  · exact fun q hq => hb.position q ((hmem q).mp hq).1
  · exact fun q hq r hr => hb.identity q ((hmem q).mp hq).1 r ((hmem r).mp hr).1
  · intro q hq s hs
    rw [htrades] at hs
    obtain ⟨hq, hne⟩ := (hmem q).mp hq
    rcases List.mem_append.mp hs with hs | hs
    · exact hb.apart q hq s hs
    · rw [List.mem_singleton.mp hs, hid]
      intro he
      exact hne (congrArg _ (hb.identity p hp q hq he)).symm
  · rw [htrades, List.map_append, List.nodup_append]
    refine ⟨hb.trades, by simp, ?_⟩
    intro x hx y hy
    obtain ⟨s, hs, rfl⟩ := List.mem_map.mp hx
    have hy : y = t.tradeId := by simpa using hy
    rw [hy]
    exact hfresh s hs
  · intro q hq o ho
    rw [horders] at ho
    exact hb.exposure q ((hmem q).mp hq).1 o ho
  · rw [horders]
    exact hb.pending
  · rw [htrades, haccount]
    have hr := hb.realized
    simp only [TradeManager.remark, TradeManager.settle, List.map_append, List.sum_append,
      List.map_cons, List.map_nil, List.sum_cons, List.sum_nil, add_zero]
    rw [hr]
  · rw [haccount]
    rfl
  · rw [haccount]
    rfl

theorem Later.close (hp : p ∈ b.account.openPositions) (hid : t.positionId = p.positionId)
    (haccount : c.account = TradeManager.remark (TradeManager.settle b.account p t))
    (horders : c.orders = b.orders) (hfills : c.fills = b.fills) : b.Later c := by
  have htrades : c.account.closedTrades = b.account.closedTrades ++ [t] := by
    rw [haccount]
    rfl
  refine { accountId := ?_, startingEquity := ?_, cash := ?_, orders := ?_, fills := ?_,
           trades := ?_, positions := ?_ }
  · rw [haccount]; rfl
  · rw [haccount]; rfl
  · rw [haccount]; rfl
  · exact fun o ho => ⟨o, by rwa [horders], rfl, .inl rfl⟩
  · exact fun f hf => by rwa [hfills]
  · exact fun s hs => by rw [htrades]; exact List.mem_append_left _ hs
  · intro q hq
    by_cases hs : q.symbol = p.symbol
    · obtain rfl := Table.eq_of_key hq hp hs
      exact .inl ⟨t, by simp [htrades], hid⟩
    · refine .inr ⟨q, ?_, rfl, rfl, .inl rfl⟩
      rw [haccount]
      exact Table.mem_erase.mpr ⟨hq, hs⟩

end Close

/-! ## Advancing a position -/

section Advance

variable {b c : PaperBroker} {p q : PaperPosition}

/-- The position `q` replaces `p`, under the same id and symbol. -/
structure Advances (b : PaperBroker) (p q : PaperPosition) : Prop where
  mem : p ∈ b.account.openPositions
  positionId : q.positionId = p.positionId
  symbol : q.symbol = p.symbol
  wellFormed : q.WellFormed
  progress : p.progress < q.progress

theorem Advances.mem_put (h : b.Advances p q) {r : PaperPosition} :
    r ∈ b.account.openPositions.put q ↔
      r = q ∨ (r ∈ b.account.openPositions ∧ r.symbol ≠ p.symbol) := by
  rw [Table.mem_put, h.symbol]

theorem Sound.advance (hb : b.Sound) (h : b.Advances p q)
    (hpositions : c.account.openPositions = b.account.openPositions.put q)
    (htrades : c.account.closedTrades = b.account.closedTrades)
    (hrealized : c.account.realizedPnl = b.account.realizedPnl)
    (hunrealized : c.account.unrealizedPnl =
      c.account.openPositions.total TradeManager.unrealized)
    (hequity : c.account.equity =
      c.account.startingEquity + c.account.realizedPnl + c.account.unrealizedPnl)
    (horders : c.orders = b.orders) : c.Sound := by
  have hmem : ∀ r, r ∈ c.account.openPositions ↔
      r = q ∨ (r ∈ b.account.openPositions ∧ r.symbol ≠ p.symbol) := fun r => by
    rw [hpositions, h.mem_put]
  refine { position := ?_, identity := ?_, apart := ?_, trades := ?_, exposure := ?_,
           pending := ?_, realized := ?_, unrealized := hunrealized, equity := hequity }
  · intro r hr
    rcases (hmem r).mp hr with rfl | ⟨hr, -⟩
    · exact h.wellFormed
    · exact hb.position r hr
  · intro r hr s hs hid
    rcases (hmem r).mp hr with rfl | ⟨hr, hrne⟩
    · rcases (hmem s).mp hs with rfl | ⟨hs, hsne⟩
      · rfl
      · exact absurd (congrArg _ (hb.identity p h.mem s hs (h.positionId.symm.trans hid))).symm hsne
    · rcases (hmem s).mp hs with rfl | ⟨hs, -⟩
      · exact absurd (congrArg _ (hb.identity r hr p h.mem (hid.trans h.positionId))) hrne
      · exact hb.identity r hr s hs hid
  · intro r hr t ht
    rw [htrades] at ht
    rcases (hmem r).mp hr with rfl | ⟨hr, -⟩
    · rw [h.positionId]
      exact hb.apart p h.mem t ht
    · exact hb.apart r hr t ht
  · rw [htrades]
    exact hb.trades
  · intro r hr o ho hpending
    rw [horders] at ho
    rcases (hmem r).mp hr with rfl | ⟨hr, -⟩
    · rw [h.symbol]
      exact hb.exposure p h.mem o ho hpending
    · exact hb.exposure r hr o ho hpending
  · rw [horders]
    exact hb.pending
  · rw [htrades, hrealized]
    exact hb.realized

theorem Later.advance (h : b.Advances p q)
    (hpositions : c.account.openPositions = b.account.openPositions.put q)
    (htrades : c.account.closedTrades = b.account.closedTrades)
    (hid : c.account.accountId = b.account.accountId)
    (hstart : c.account.startingEquity = b.account.startingEquity)
    (hcash : c.account.cash = b.account.cash)
    (horders : c.orders = b.orders) (hfills : c.fills = b.fills) : b.Later c where
  accountId := hid
  startingEquity := hstart
  cash := hcash
  orders := fun o ho => ⟨o, by rwa [horders], rfl, .inl rfl⟩
  fills := fun f hf => by rwa [hfills]
  trades := fun t ht => by rwa [htrades]
  positions := by
    intro r hr
    by_cases hs : r.symbol = p.symbol
    · obtain rfl := Table.eq_of_key hr h.mem hs
      exact .inr ⟨q, by rw [hpositions]; exact h.mem_put.mpr (.inl rfl), h.positionId,
        h.symbol, .inr h.progress⟩
    · exact .inr ⟨r, by rw [hpositions]; exact h.mem_put.mpr (.inr ⟨hr, hs⟩), rfl, rfl,
        .inl rfl⟩

end Advance

/-! ## Orders -/

section OrderChange

variable {b c : PaperBroker} {order : PaperOrder} (status : OrderStatus)

theorem mem_setOrder {r : PaperOrder} : r ∈ b.orders.put { order with status := status } ↔
    r = { order with status := status } ∨ (r ∈ b.orders ∧ r.orderId ≠ order.orderId) :=
  Table.mem_put

/-- An order leaves PENDING. -/
theorem Sound.settleOrder (hb : b.Sound) (hstatus : status ≠ .pending)
    (haccount : c.account = b.account)
    (horders : c.orders = b.orders.put { order with status := status }) : c.Sound := by
  have hmem : ∀ o ∈ c.orders, o.status = .pending → o ∈ b.orders := by
    intro o ho hpending
    rw [horders, mem_setOrder] at ho
    rcases ho with rfl | ⟨ho, -⟩
    · exact absurd hpending hstatus
    · exact ho
  refine { position := ?_, identity := ?_, apart := ?_, trades := ?_, exposure := ?_,
           pending := ?_, realized := ?_, unrealized := ?_, equity := ?_ }
  · rw [haccount]; exact hb.position
  · rw [haccount]; exact hb.identity
  · rw [haccount]; exact hb.apart
  · rw [haccount]; exact hb.trades
  · intro p hp o ho hpending
    rw [haccount] at hp
    exact hb.exposure p hp o (hmem o ho hpending) hpending
  · intro o ho o' ho' hpending hpending'
    exact hb.pending o (hmem o ho hpending) o' (hmem o' ho' hpending') hpending hpending'
  · rw [haccount]; exact hb.realized
  · rw [haccount]; exact hb.unrealized
  · rw [haccount]; exact hb.equity

theorem Later.settleOrder (hmem : order ∈ b.orders) (hpending : order.status = .pending)
    (hstatus : status ≠ .pending)
    (hid : c.account.accountId = b.account.accountId)
    (hstart : c.account.startingEquity = b.account.startingEquity)
    (hcash : c.account.cash = b.account.cash)
    (horders : c.orders = b.orders.put { order with status := status })
    (hfills : ∀ f ∈ b.fills, f ∈ c.fills)
    (htrades : c.account.closedTrades = b.account.closedTrades)
    (hpositions : ∀ p ∈ b.account.openPositions, p ∈ c.account.openPositions) : b.Later c where
  accountId := hid
  startingEquity := hstart
  cash := hcash
  orders := by
    intro o ho
    by_cases he : o.orderId = order.orderId
    · obtain rfl := Table.eq_of_key ho hmem he
      refine ⟨{ o with status := status }, ?_, rfl, .inr ⟨hpending, hstatus⟩⟩
      rw [horders, mem_setOrder]
      exact .inl rfl
    · refine ⟨o, ?_, rfl, .inl rfl⟩
      rw [horders, mem_setOrder]
      exact .inr ⟨ho, he⟩
  fills := hfills
  trades := fun t ht => by rwa [htrades]
  positions := fun p hp => .inr ⟨p, hpositions p hp, rfl, rfl, .inl rfl⟩

end OrderChange

/-- A filled order opens its position, on a symbol that carries no other exposure. -/
theorem Sound.open {b c : PaperBroker} {order : PaperOrder} {p : PaperPosition} (hb : b.Sound)
    (hmem : order ∈ b.orders) (hpending : order.status = .pending)
    (hsymbol : p.symbol = order.symbol) (hwf : p.WellFormed)
    (hunrealized : TradeManager.unrealized p = 0)
    (hopen : ∀ q ∈ b.account.openPositions, q.positionId ≠ p.positionId)
    (hclosed : ∀ t ∈ b.account.closedTrades, t.positionId ≠ p.positionId)
    (haccount : c.account =
      { b.account with openPositions := b.account.openPositions.put p })
    (horders : c.orders = b.orders.put { order with status := .filled }) : c.Sound := by
  have hfree : ∀ q ∈ b.account.openPositions, q.symbol ≠ p.symbol := by
    intro q hq he
    exact hb.exposure q hq order hmem hpending (hsymbol.symm.trans he.symm)
  have hpositions : ∀ q, q ∈ c.account.openPositions ↔ q = p ∨ q ∈ b.account.openPositions := by
    intro q
    rw [haccount, Table.mem_put]
    exact or_congr_right (and_iff_left_of_imp (hfree q))
  have horder : ∀ o ∈ c.orders, o.status = .pending → o ∈ b.orders ∧ o.symbol ≠ p.symbol := by
    intro o ho hp
    rw [horders, mem_setOrder] at ho
    rcases ho with rfl | ⟨ho, hne⟩
    · cases hp
    · refine ⟨ho, fun he => hne ?_⟩
      rw [hb.pending o ho order hmem hp hpending (he.trans hsymbol)]
  refine { position := ?_, identity := ?_, apart := ?_, trades := ?_, exposure := ?_,
           pending := ?_, realized := ?_, unrealized := ?_, equity := ?_ }
  · intro q hq
    rcases (hpositions q).mp hq with rfl | hq
    · exact hwf
    · exact hb.position q hq
  · intro q hq r hr hid
    rcases (hpositions q).mp hq with rfl | hq
    · rcases (hpositions r).mp hr with rfl | hr
      · rfl
      · exact absurd hid.symm (hopen r hr)
    · rcases (hpositions r).mp hr with rfl | hr
      · exact absurd hid (hopen q hq)
      · exact hb.identity q hq r hr hid
  · intro q hq t ht
    rw [haccount] at ht
    rcases (hpositions q).mp hq with rfl | hq
    · exact hclosed t ht
    · exact hb.apart q hq t ht
  · rw [haccount]; exact hb.trades
  · intro q hq o ho hp
    obtain ⟨ho, hne⟩ := horder o ho hp
    rcases (hpositions q).mp hq with rfl | hq
    · exact hne
    · exact hb.exposure q hq o ho hp
  · intro o ho o' ho' hp hp'
    exact hb.pending o (horder o ho hp).1 o' (horder o' ho' hp').1 hp hp'
  · rw [haccount]; exact hb.realized
  · have he : (b.account.openPositions.erase p.symbol).rows = b.account.openPositions.rows :=
      Table.erase_eq_self hfree
    rw [haccount]
    change b.account.unrealizedPnl = (b.account.openPositions.put p).total TradeManager.unrealized
    rw [Table.total_put, hunrealized, zero_add, hb.unrealized, Table.total, Table.total, he]
  · rw [haccount]; exact hb.equity

theorem Sound.submit {b c : PaperBroker} {order : PaperOrder} (hb : b.Sound)
    (hid : ∀ o ∈ b.orders, o.orderId ≠ order.orderId)
    (hposition : b.account.openPositions.get? order.symbol = none)
    (horder : ∀ o ∈ b.orders, o.status = .pending → o.symbol ≠ order.symbol)
    (haccount : c.account = b.account) (horders : c.orders = b.orders.put order) : c.Sound := by
  have hmem : ∀ o, o ∈ c.orders ↔ o = order ∨ o ∈ b.orders := by
    intro o
    rw [horders, Table.mem_put]
    exact or_congr_right (and_iff_left_of_imp (hid o))
  refine { position := ?_, identity := ?_, apart := ?_, trades := ?_, exposure := ?_,
           pending := ?_, realized := ?_, unrealized := ?_, equity := ?_ }
  · rw [haccount]; exact hb.position
  · rw [haccount]; exact hb.identity
  · rw [haccount]; exact hb.apart
  · rw [haccount]; exact hb.trades
  · intro p hp o ho hpending
    rw [haccount] at hp
    rcases (hmem o).mp ho with rfl | ho
    · exact fun he => Table.get?_eq_none.mp hposition p hp he.symm
    · exact hb.exposure p hp o ho hpending
  · intro o ho o' ho' hp hp' he
    rcases (hmem o).mp ho with rfl | ho
    · rcases (hmem o').mp ho' with rfl | ho'
      · rfl
      · exact absurd he.symm (horder o' ho' hp')
    · rcases (hmem o').mp ho' with rfl | ho'
      · exact absurd he (horder o ho hp)
      · exact hb.pending o ho o' ho' hp hp' he
  · rw [haccount]; exact hb.realized
  · rw [haccount]; exact hb.unrealized
  · rw [haccount]; exact hb.equity

theorem Later.submit {b c : PaperBroker} {order : PaperOrder}
    (hid : ∀ o ∈ b.orders, o.orderId ≠ order.orderId) (haccount : c.account = b.account)
    (horders : c.orders = b.orders.put order) (hfills : c.fills = b.fills) : b.Later c where
  accountId := by rw [haccount]
  startingEquity := by rw [haccount]
  cash := by rw [haccount]
  orders := by
    intro o ho
    refine ⟨o, ?_, rfl, .inl rfl⟩
    rw [horders, Table.mem_put]
    exact .inr ⟨ho, hid o ho⟩
  fills := fun f hf => by rwa [hfills]
  trades := fun t ht => by rwa [haccount]
  positions := fun p hp => .inr ⟨p, by rwa [haccount], rfl, rfl, .inl rfl⟩

/-! ## Each operation -/

theorem openedPosition_wellFormed {order : PaperOrder} {multiplier : ℚ} {bar : Bar}
    {positionId : String} (h : 0 < multiplier) :
    (openedPosition order multiplier bar positionId).WellFormed where
  isOpen := rfl
  multiplier := by simpa [openedPosition] using h
  opened := le_refl _

/-- A position opens at its own price, so it carries no open profit yet. -/
theorem unrealized_openedPosition (order : PaperOrder) (multiplier : ℚ) (bar : Bar)
    (positionId : String) :
    TradeManager.unrealized (openedPosition order multiplier bar positionId) = 0 := by
  simp only [TradeManager.unrealized, openedPosition]
  split_ifs <;> cases order.side <;> simp

/-- A bar that acts on a position is later than its watermark. -/
theorem watermark_lt_of_actsOn {p : PaperPosition} {bar : Bar}
    (h : TradeManager.actsOn bar p = true) : p.watermark < bar.timestamp := by
  simp only [TradeManager.actsOn, Bool.and_eq_true, decide_eq_true_eq] at h
  obtain ⟨⟨⟨-, hopened⟩, hlast⟩, -⟩ := h
  unfold PaperPosition.watermark
  cases hl : p.lastProcessedAt with
  | none => simpa using hopened
  | some last =>
    simp only [hl, decide_eq_true_eq] at hlast
    simpa using hlast

theorem advances_held {b : PaperBroker} {p : PaperPosition} {bar : Bar} (hb : b.Sound)
    (hmem : p ∈ b.account.openPositions) (h : TradeManager.actsOn bar p = true) :
    b.Advances p (TradeManager.held p bar) where
  mem := hmem
  positionId := rfl
  symbol := rfl
  wellFormed :=
    { isOpen := (hb.position p hmem).isOpen
      multiplier := (hb.position p hmem).multiplier
      opened := by
        have hw := watermark_lt_of_actsOn h
        have ho := (hb.position p hmem).opened
        exact (ho.trans hw.le : p.openedAt ≤ bar.timestamp) }
  progress := Prod.Lex.toLex_lt_toLex.mpr (.inl (watermark_lt_of_actsOn h))

theorem advances_moveStop {b : PaperBroker} {p : PaperPosition} (hb : b.Sound)
    (hmem : p ∈ b.account.openPositions) (hstage : p.durationStage = none) :
    b.Advances p (TradeDuration.moveStopToEntry p) where
  mem := hmem
  positionId := rfl
  symbol := rfl
  wellFormed :=
    { isOpen := (hb.position p hmem).isOpen
      multiplier := (hb.position p hmem).multiplier
      opened := (hb.position p hmem).opened }
  progress := Prod.Lex.toLex_lt_toLex.mpr (.inr ⟨rfl, by
    simp [TradeDuration.moveStopToEntry, hstage]⟩)

/-- `close_market` removes the position under the symbol and books its trade. -/
theorem closeMarket_ok {b b' : PaperBroker} {symbol : String} {price : ℚ} {asOf : Instant}
    {exitReason decisionRunId tradeId : String} {trade : ClosedTrade}
    (h : b.closeMarket symbol price asOf exitReason decisionRunId tradeId = .ok (b', trade)) :
    ∃ p, b.account.openPositions.get? symbol = some p ∧ 0 < price ∧ p.openedAt < asOf ∧
      trade = TradeManager.closedTrade tradeId p price asOf exitReason ∧
      b'.account = TradeManager.remark (TradeManager.settle b.account p trade) ∧
      b'.orders = b.orders ∧ b'.fills = b.fills := by
  unfold closeMarket at h
  split_ifs at h with hprice
  cases hp : b.account.openPositions.get? symbol with
  | none => simp [hp] at h
  | some p =>
    simp only [hp] at h
    split_ifs at h with hopen
    unfold TradeManager.closePosition at h
    split_ifs at h with hmultiplier
    simp only [Except.ok.injEq, Prod.mk.injEq] at h
    obtain ⟨rfl, rfl⟩ := h
    refine ⟨p, rfl, valid_eq_true.mp hprice, hopen.2, rfl, ?_⟩
    simp

theorem Writes.sound {b c : PaperBroker} (h : Writes b c) (hb : b.Sound) : c.Sound := by
  cases h with
  | @nextBar _ order bar fillId positionId opened hmem hfill hopen hclosed h =>
    rcases processNextBar_cases h with ⟨-, rfl, -⟩ | ⟨-, -, at_, reason, rfl | rfl⟩ |
      ⟨hpending, multiplier, -, hpos, -, -, -, rfl⟩
    · exact hb
    · exact hb.settleOrder .rejected (by decide) rfl rfl
    · exact hb.settleOrder .cancelled (by decide) rfl rfl
    · exact hb.open hmem hpending rfl (openedPosition_wellFormed hpos)
        (unrealized_openedPosition order multiplier bar positionId) hopen hclosed rfl rfl
  | cancel hmem hpending at_ reason =>
    exact hb.settleOrder .cancelled (by decide) rfl rfl
  | submit hpending hid hposition horder events =>
    exact hb.submit hid hposition horder rfl rfl
  | @processBar bar tradeId hbar hid =>
    rcases TradeManager.processBar_cases b tradeId hbar with ⟨-, he⟩ | ⟨p, hp, hacts, -, he⟩ |
      ⟨p, exitPrice, reason, hp, -, -, -, haccount, horders, -⟩
    · rw [he]
      exact hb.congr hb.remark_eq rfl
    · rw [he]
      have hmem := (Table.get?_eq_some.mp hp).1
      exact hb.advance (advances_held hb hmem hacts) rfl rfl rfl rfl rfl rfl
    · exact hb.close (Table.get?_eq_some.mp hp).1 rfl hid haccount horders
  | @closeMarket _ symbol price asOf exitReason decisionRunId tradeId trade hid h =>
    obtain ⟨p, hp, -, -, rfl, haccount, horders, -⟩ := closeMarket_ok h
    exact hb.close (Table.get?_eq_some.mp hp).1 rfl hid haccount horders
  | @moveStop position hmem hstage events =>
    refine hb.advance (advances_moveStop hb hmem hstage) rfl rfl rfl ?_ hb.equity rfl
    -- the open profit looks at neither the stop nor the stage
    have hsame : TradeManager.unrealized (TradeDuration.moveStopToEntry position) =
        TradeManager.unrealized position := rfl
    have hsymbol : (TradeDuration.moveStopToEntry position).symbol = position.symbol := rfl
    change b.account.unrealizedPnl = (b.account.openPositions.put
      (TradeDuration.moveStopToEntry position)).total TradeManager.unrealized
    rw [hb.unrealized, Table.total_put, hsame, hsymbol]
    exact Table.total_erase hmem _

theorem Writes.later {b c : PaperBroker} (h : Writes b c) (hb : b.Sound) : b.Later c := by
  cases h with
  | @nextBar _ order bar fillId positionId opened hmem hfill hopen hclosed h =>
    rcases processNextBar_cases h with ⟨-, rfl, -⟩ | ⟨hpending, -, at_, reason, rfl | rfl⟩ |
      ⟨hpending, multiplier, -, hpos, -, -, -, rfl⟩
    · exact Later.refl _
    · exact Later.settleOrder .rejected hmem hpending (by decide) rfl rfl rfl rfl
        (fun _ h => h) rfl (fun _ h => h)
    · exact Later.settleOrder .cancelled hmem hpending (by decide) rfl rfl rfl rfl
        (fun _ h => h) rfl (fun _ h => h)
    · refine Later.settleOrder .filled hmem hpending (by decide) rfl rfl rfl rfl
        ?_ rfl ?_
      · exact fun f hf => Table.mem_put.mpr (.inr ⟨hf, hfill f hf⟩)
      · intro p hp
        refine Table.mem_put.mpr (.inr ⟨hp, ?_⟩)
        exact fun he => hb.exposure p hp order hmem hpending he.symm
  | cancel hmem hpending at_ reason =>
    exact Later.settleOrder .cancelled hmem hpending (by decide) rfl rfl rfl rfl
      (fun _ h => h) rfl (fun _ h => h)
  | submit hpending hid hposition horder events =>
    exact Later.submit hid rfl rfl rfl
  | @processBar bar tradeId hbar hid =>
    rcases TradeManager.processBar_cases b tradeId hbar with ⟨-, he⟩ | ⟨p, hp, hacts, -, he⟩ |
      ⟨p, exitPrice, reason, hp, -, -, -, haccount, horders, hfills⟩
    · rw [he]
      exact (Later.refl b).congr hb.remark_eq rfl rfl
    · rw [he]
      have hmem := (Table.get?_eq_some.mp hp).1
      exact Later.advance (advances_held hb hmem hacts) rfl rfl rfl rfl rfl rfl rfl
    · exact Later.close (Table.get?_eq_some.mp hp).1 rfl haccount horders hfills
  | @closeMarket _ symbol price asOf exitReason decisionRunId tradeId trade hid h =>
    obtain ⟨p, hp, -, -, rfl, haccount, horders, hfills⟩ := closeMarket_ok h
    exact Later.close (Table.get?_eq_some.mp hp).1 rfl haccount horders hfills
  | @moveStop position hmem hstage events =>
    exact Later.advance (advances_moveStop hb hmem hstage) rfl rfl rfl rfl rfl rfl rfl

/-- A whole save: several operations in a row. -/
abbrev Writing : PaperBroker → PaperBroker → Prop := Relation.ReflTransGen Writes

theorem Writing.sound_later {b c : PaperBroker} (h : Writing b c) (hb : b.Sound) :
    c.Sound ∧ b.Later c := by
  induction h with
  | refl => exact ⟨hb, Later.refl b⟩
  | tail _ hstep ih => exact ⟨hstep.sound ih.1, ih.2.trans (hstep.later ih.1)⟩

end PaperBroker

end MarketSystem
