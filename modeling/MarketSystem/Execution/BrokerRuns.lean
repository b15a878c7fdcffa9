import MarketSystem.Library.Runs
import MarketSystem.Runtime.GuardedWrite

/-!
# Runs of the PAPER broker

The calls of the broker and of the trade manager on one account, in any order and with
any bars. A fill stores its position under its symbol whatever is there, so nothing
is lost only as long as every fill finds its symbol free.

A call that raises leaves the account as it was, except for `close_position`, which
books its trade before it looks for the position.
-/
namespace MarketSystem.BrokerRuns

open Library GuardedWrite

/-- A bar as a caller may hand it over: any field may be missing or unusable. -/
structure RawBar where
  symbol : Option String
  timestamp : Option Instant
  isClosed : Bool
  open_ : Option ℚ
  high : Option ℚ
  low : Option ℚ
  close : Option ℚ

def RawBar.toBar? (bar : RawBar) : Option Bar :=
  match bar.symbol, bar.timestamp, bar.open_, bar.high, bar.low, bar.close with
  | some symbol, some timestamp, some open_, some high, some low, some close =>
      some ⟨symbol, timestamp, open_, high, low, close, bar.isClosed⟩
  | _, _, _, _, _, _ => none

/-- `process_bar` on any bar. Without prices no position is touched, but the account is
marked again. -/
def processBar (b : PaperBroker) (bar : Option RawBar) (tradeId : String) : PaperBroker :=
  match bar with
  | none => b
  | some bar =>
      if bar.symbol = none ∨ bar.timestamp = none ∨ bar.isClosed = false then b
      else match bar.toBar? with
        | some bar => (TradeManager.processBar b bar tradeId).1
        | none => { b with account := TradeManager.remark b.account }

/-- `process_next_bar` on any bar: one that lacks a field cancels the order. -/
def processNextBar (b : PaperBroker) (order : PaperOrder) (bar : Option RawBar) (ids : Ids) :
    PaperBroker × Option PaperPosition :=
  match bar.bind RawBar.toBar? with
  | some bar =>
      match b.processNextBar order bar ids.fillId ids.positionId with
      | .ok result => result
      | .error _ => (b, none)
  | none =>
      if order.status ≠ .pending then (b, none)
      else if validMultiplier order.contractMultiplier = false then
        (b.rejectOrder order none "invalid_order_contract", none)
      else (b.cancelOrder order (bar.bind (·.timestamp)) "invalid_fill_bar", none)

/-- One call, with the arguments a caller chooses. -/
inductive Call
  | submitPlan (report : FloorReport) (asOf : Option Instant)
  | processNextBar (orderId : String) (bar : Option RawBar)
  | closeMarket (symbol : String) (price : ℚ) (asOf : Option Instant)
      (exitReason decisionRunId : String)
  | processBar (bar : Option RawBar)

/-- What the call makes of the broker, and the position that it opens. -/
def Call.apply (c : Call) (ids : Ids) (b : PaperBroker) : PaperBroker × Option PaperPosition :=
  match c with
  | .submitPlan report asOf =>
      match asOf with
      | none => (b, none)
      | some asOf => ((b.submitPlan report asOf ids.orderId).1, none)
  | .processNextBar orderId bar =>
      match b.orders.get? orderId with
      | none => (b, none)
      | some order => BrokerRuns.processNextBar b order bar ids
  | .closeMarket symbol price asOf exitReason decisionRunId =>
      match asOf with
      | none => (b, none)
      | some asOf =>
          match b.closeMarket symbol price asOf exitReason decisionRunId ids.tradeId with
          | .ok (b, _) => (b, none)
          | .error _ => (b, none)
  | .processBar bar => (BrokerRuns.processBar b bar ids.tradeId, none)

/-- The gates of `process_next_bar` let the order fill with the bar. -/
def Fills (b : PaperBroker) (order : PaperOrder) (bar : Option RawBar) : Prop :=
  order.status = .pending ∧ ∃ multiplier asOf bar', order.contractMultiplier = some multiplier ∧
    0 < multiplier ∧ order.asOf = some asOf ∧ bar.bind RawBar.toBar? = some bar' ∧
    bar'.symbol = order.symbol ∧ bar'.isClosed = true ∧ bar'.validOhlc = true ∧
    asOf < bar'.timestamp ∧ b.fillReason order bar'.open_ multiplier = .ok none

/-- The call fills no order while its symbol has an open position. -/
def Spares (b : PaperBroker) (c : Call) : Prop :=
  ∀ orderId bar, c = .processNextBar orderId bar → ∀ order, b.orders.get? orderId = some order →
    Fills b order bar → b.account.openPositions.get? order.symbol = none

/-! ## What one call does -/

/-- The shapes of a call that spares the open positions. -/
inductive Effect (b b' : PaperBroker) : Option PaperPosition → Prop
  /-- Nothing, or the account is marked again. -/
  | marked (haccount : b'.account = b.account ∨ b'.account = TradeManager.remark b.account)
      (horders : b'.orders = b.orders) (hfills : b'.fills = b.fills) : Effect b b' none
  /-- An order is added, or leaves PENDING without a fill. -/
  | ordered {order : PaperOrder} (hstatus : order.status ≠ .filled)
      (hold : ∀ o ∈ b.orders, o.orderId = order.orderId → o.status ≠ .filled)
      (haccount : b'.account = b.account) (horders : b'.orders = b.orders.put order)
      (hfills : b'.fills = b.fills) : Effect b b' none
  /-- A PENDING order is filled on a free symbol. -/
  | filled {order : PaperOrder} {position : PaperPosition} {fill : PaperFill}
      (hmem : order ∈ b.orders) (hpending : order.status = .pending)
      (hfree : b.account.openPositions.get? position.symbol = none)
      (horigin : position.originOrderId = order.orderId)
      (hzero : TradeManager.unrealized position = 0)
      (hopen : ∀ p ∈ b.account.openPositions, p.positionId ≠ position.positionId)
      (hclosed : ∀ t ∈ b.account.closedTrades, t.positionId ≠ position.positionId)
      (hfillId : ∀ f ∈ b.fills, f.fillId ≠ fill.fillId) (hfillOrder : fill.orderId = order.orderId)
      (haccount : b'.account =
        { b.account with openPositions := b.account.openPositions.put position })
      (horders : b'.orders = b.orders.put { order with status := .filled })
      (hfills : b'.fills = b.fills.put fill) : Effect b b' (some position)
  /-- An open position advances. -/
  | held {p q : PaperPosition} (hmem : p ∈ b.account.openPositions)
      (hid : q.positionId = p.positionId) (hsymbol : q.symbol = p.symbol)
      (horigin : q.originOrderId = p.originOrderId)
      (haccount : b'.account = TradeManager.remark
        { b.account with openPositions := b.account.openPositions.put q })
      (horders : b'.orders = b.orders) (hfills : b'.fills = b.fills) : Effect b b' none
  /-- An open position is closed by one trade. -/
  | closed {p : PaperPosition} {trade : ClosedTrade} (hmem : p ∈ b.account.openPositions)
      (hid : trade.positionId = p.positionId)
      (haccount : b'.account = TradeManager.remark (TradeManager.settle b.account p trade))
      (horders : b'.orders = b.orders) (hfills : b'.fills = b.fills) : Effect b b' none

section Effect

variable {b : PaperBroker} {ids : Ids}

theorem effect_self : Effect b b none := .marked (.inl rfl) rfl rfl

theorem effect_bar (bar : Bar) (tradeId : String) :
    Effect b (TradeManager.processBar b bar tradeId).1 none := by
  cases hbar : bar.isClosed with
  | false =>
    simp only [TradeManager.processBar, hbar, Bool.false_eq_true, if_false]
    exact effect_self
  | true =>
    rcases TradeManager.processBar_cases b tradeId hbar with ⟨-, he⟩ | ⟨p, hp, -, -, he⟩ |
      ⟨p, exitPrice, reason, hp, -, -, -, haccount, horders, hfills⟩
    · rw [he]
      exact .marked (.inr rfl) rfl rfl
    · rw [he]
      exact @Effect.held b _ p (TradeManager.held p bar) (Table.get?_eq_some.mp hp).1 rfl rfl rfl
        rfl rfl rfl
    · exact .closed (Table.get?_eq_some.mp hp).1 rfl haccount horders hfills

theorem effect_processBar (bar : Option RawBar) (tradeId : String) :
    Effect b (processBar b bar tradeId) none := by
  unfold processBar
  cases bar with
  | none => exact effect_self
  | some bar =>
    dsimp only
    split_ifs
    · exact effect_self
    · cases bar.toBar? with
      | none => exact .marked (.inr rfl) rfl rfl
      | some bar => exact effect_bar bar tradeId

theorem effect_submitPlan (hids : ids.Fresh b) (report : FloorReport) (asOf : Instant) :
    Effect b (b.submitPlan report asOf ids.orderId).1 none := by
  unfold PaperBroker.submitPlan
  cases hsubmittable : PaperBroker.submittable report with
  | none => exact effect_self
  | some guards =>
    obtain ⟨plan, decision, planAsOf⟩ := guards
    dsimp only
    cases PaperBroker.runOrder b.orders report.runId with
    | some existing => exact effect_self
    | none =>
      cases b.admissible report decision with
      | none => exact effect_self
      | some numbers =>
        refine .ordered (fun h => by cases h) ?_ rfl rfl rfl
        exact fun o ho hid => absurd hid (hids.order o ho)

/-- An order leaves PENDING. -/
theorem effect_settle {order : PaperOrder} (hmem : order ∈ b.orders)
    (hpending : order.status = .pending) {status : OrderStatus} (hstatus : status ≠ .filled)
    {b' : PaperBroker} (haccount : b'.account = b.account)
    (horders : b'.orders = b.orders.put { order with status := status })
    (hfills : b'.fills = b.fills) : Effect b b' none := by
  refine .ordered hstatus (fun o ho hid => ?_) haccount horders hfills
  obtain rfl : o = order := Table.eq_of_key ho hmem hid
  rw [hpending]
  decide

/-- A fill passes every gate. -/
theorem fills_of_opened {order : PaperOrder} {bar : Bar} {raw : Option RawBar}
    (hraw : raw.bind RawBar.toBar? = some bar) {b' : PaperBroker} {p : PaperPosition}
    (h : b.processNextBar order bar ids.fillId ids.positionId = .ok (b', some p)) :
    Fills b order raw := by
  unfold PaperBroker.processNextBar at h
  by_cases hstatus : order.status = .pending
  · rw [if_neg (not_not.mpr hstatus)] at h
    cases hmultiplier : order.contractMultiplier with
    | none => simp [hmultiplier] at h
    | some multiplier =>
      by_cases hvalid : 0 < multiplier
      · simp only [hmultiplier, valid, hvalid, decide_true, Bool.not_true, Bool.false_eq_true,
          if_false] at h
        cases hasOf : order.asOf with
        | none => simp [hasOf] at h
        | some asOf =>
          simp only [hasOf] at h
          split_ifs at h with hbar hafter
          · cases h
          · cases h
          · push Not at hbar hafter
            cases hreason : b.fillReason order bar.open_ multiplier with
            | error e => simp [hreason] at h
            | ok reason =>
              cases reason with
              | some reason => simp [hreason] at h
              | none =>
                exact ⟨hstatus, multiplier, asOf, bar, hmultiplier, hvalid, hasOf, hraw, hbar.1,
                  by simpa using hbar.2.1, by simpa using hbar.2.2, hafter, hreason⟩
      · simp [hmultiplier, valid, hvalid] at h
  · rw [if_pos hstatus] at h
    cases h

theorem effect_processNextBar (hids : ids.Fresh b) {order : PaperOrder} (hmem : order ∈ b.orders)
    {bar : Option RawBar}
    (hspares : Fills b order bar → b.account.openPositions.get? order.symbol = none) :
    Effect b (processNextBar b order bar ids).1 (processNextBar b order bar ids).2 := by
  unfold processNextBar
  cases hraw : bar.bind RawBar.toBar? with
  | none =>
    dsimp only
    split_ifs with hstatus
    · exact effect_self
    · push Not at hstatus
      exact @effect_settle b order hmem hstatus .rejected (by decide) _ rfl rfl rfl
    · push Not at hstatus
      exact @effect_settle b order hmem hstatus .cancelled (by decide) _ rfl rfl rfl
  | some bar' =>
    dsimp only
    cases hnext : b.processNextBar order bar' ids.fillId ids.positionId with
    | error e => exact effect_self
    | ok result =>
      obtain ⟨b', opened⟩ := result
      rcases PaperBroker.processNextBar_cases hnext with ⟨-, rfl, rfl⟩ |
        ⟨hpending, rfl, at_, reason, rfl | rfl⟩ | ⟨hpending, multiplier, -, -, -, -, rfl, rfl⟩
      · exact effect_self
      · exact @effect_settle b order hmem hpending .rejected (by decide) _ rfl rfl rfl
      · exact @effect_settle b order hmem hpending .cancelled (by decide) _ rfl rfl rfl
      · have hfree := hspares (fills_of_opened hraw hnext)
        exact .filled hmem hpending hfree rfl (PaperBroker.unrealized_openedPosition ..)
          hids.position hids.closed hids.fill rfl rfl rfl rfl

theorem apply_effect (hids : ids.Fresh b) {c : Call} (hspares : Spares b c) :
    Effect b (c.apply ids b).1 (c.apply ids b).2 := by
  cases c with
  | submitPlan report asOf =>
    cases asOf with
    | none => exact effect_self
    | some asOf => exact effect_submitPlan hids report asOf
  | processNextBar orderId bar =>
    unfold Call.apply
    dsimp only
    cases horder : b.orders.get? orderId with
    | none => exact effect_self
    | some order =>
      exact effect_processNextBar hids (Table.get?_eq_some.mp horder).1
        (hspares orderId bar rfl order horder)
  | closeMarket symbol price asOf exitReason decisionRunId =>
    cases asOf with
    | none => exact effect_self
    | some asOf =>
      unfold Call.apply
      dsimp only
      cases hclose : b.closeMarket symbol price asOf exitReason decisionRunId ids.tradeId with
      | error e => exact effect_self
      | ok result =>
        obtain ⟨b', trade⟩ := result
        obtain ⟨p, hp, -, -, rfl, haccount, horders, hfills⟩ := PaperBroker.closeMarket_ok hclose
        exact .closed (Table.get?_eq_some.mp hp).1 rfl haccount horders hfills
  | processBar bar => exact effect_processBar bar ids.tradeId

end Effect

/-! ## Runs -/

/-- The broker, with every position its fills have opened. -/
structure Books where
  broker : PaperBroker
  opened : List PaperPosition

def Books.step (uuid4 : Uuid4) (s : Books) (c : Call) : Books :=
  let result := c.apply (uuid4.draw s.broker) s.broker
  ⟨result.1, s.opened ++ result.2.toList⟩

/-- No order, fill, position or trade yet. -/
structure Empty (b : PaperBroker) : Prop where
  orders : b.orders = Table.empty
  fills : b.fills = Table.empty
  positions : b.account.openPositions = Table.empty
  trades : b.account.closedTrades = []

def Books.start (b : PaperBroker) : Books := ⟨b, []⟩

/-- Where the calls lead, one after the other. -/
def afterCalls (uuid4 : Uuid4) (calls : List Call) (b : PaperBroker) : Books :=
  run (Books.step uuid4) calls (Books.start b)

/-- No call of the run fills an order on a taken symbol. -/
def Sparing (uuid4 : Uuid4) (calls : List Call) (b : PaperBroker) : Prop :=
  Meets (Books.step uuid4) (fun s c => Spares s.broker c) calls (Books.start b)

/-- Open positions differ in id, and each id has at most one trade, which only a closed
position has. -/
structure Distinct (a : PaperAccount) : Prop where
  identity : ∀ p ∈ a.openPositions, ∀ q ∈ a.openPositions, p.positionId = q.positionId → p = q
  apart : ∀ p ∈ a.openPositions, ∀ t ∈ a.closedTrades, t.positionId ≠ p.positionId
  once : (a.closedTrades.map (·.positionId)).Nodup

theorem distinct_of_empty {a : PaperAccount} (hpositions : a.openPositions = Table.empty)
    (htrades : a.closedTrades = []) : Distinct a := by
  have hnone : ∀ p, p ∉ a.openPositions := fun p hp => by rw [hpositions] at hp; cases hp
  refine ⟨fun p hp => absurd hp (hnone p), fun p hp => absurd hp (hnone p), ?_⟩
  rw [htrades]
  exact List.nodup_nil

section Distinct

variable {a : PaperAccount}

theorem Distinct.opens (h : Distinct a) {position : PaperPosition}
    (hopen : ∀ p ∈ a.openPositions, p.positionId ≠ position.positionId)
    (hclosed : ∀ t ∈ a.closedTrades, t.positionId ≠ position.positionId) :
    Distinct { a with openPositions := a.openPositions.put position } where
  identity := by
    intro p hp q hq hid
    rcases Table.mem_put.mp hp with rfl | ⟨hp', -⟩
    · rcases Table.mem_put.mp hq with rfl | ⟨hq', -⟩
      · rfl
      · exact absurd hid.symm (hopen q hq')
    · rcases Table.mem_put.mp hq with rfl | ⟨hq', -⟩
      · exact absurd hid (hopen p hp')
      · exact h.identity p hp' q hq' hid
  apart := by
    intro p hp t ht
    rcases Table.mem_put.mp hp with rfl | ⟨hp', -⟩
    · exact hclosed t ht
    · exact h.apart p hp' t ht
  once := h.once

theorem Distinct.holds (h : Distinct a) {p q : PaperPosition} (hmem : p ∈ a.openPositions)
    (hid : q.positionId = p.positionId) (hsymbol : q.symbol = p.symbol) :
    Distinct { a with openPositions := a.openPositions.put q } where
  identity := by
    -- another position with the id of `q` would be `p`, whose row `q` took
    have hother : ∀ r ∈ a.openPositions, r.symbol ≠ q.symbol → r.positionId ≠ q.positionId := by
      intro r hr hne he
      rw [h.identity r hr p hmem (he.trans hid)] at hne
      exact hne hsymbol.symm
    intro r hr t ht hrt
    rcases Table.mem_put.mp hr with rfl | ⟨hr', hrs⟩
    · rcases Table.mem_put.mp ht with rfl | ⟨ht', hts⟩
      · rfl
      · exact absurd hrt.symm (hother t ht' hts)
    · rcases Table.mem_put.mp ht with rfl | ⟨ht', -⟩
      · exact absurd hrt (hother r hr' hrs)
      · exact h.identity r hr' t ht' hrt
  apart := by
    intro r hr t ht
    rcases Table.mem_put.mp hr with rfl | ⟨hr', -⟩
    · rw [hid]
      exact h.apart p hmem t ht
    · exact h.apart r hr' t ht
  once := h.once

theorem Distinct.settles (h : Distinct a) {p : PaperPosition} {trade : ClosedTrade}
    (hmem : p ∈ a.openPositions) (hid : trade.positionId = p.positionId) :
    Distinct (TradeManager.settle a p trade) where
  identity := by
    intro q hq r hr
    exact h.identity q (Table.mem_erase.mp hq).1 r (Table.mem_erase.mp hr).1
  apart := by
    intro q hq t ht
    obtain ⟨hq', hsymbol⟩ := Table.mem_erase.mp hq
    rcases List.mem_append.mp ht with ht' | ht'
    · exact h.apart q hq' t ht'
    · rw [List.mem_singleton.mp ht', hid]
      intro he
      exact hsymbol (congrArg _ (h.identity p hmem q hq' he)).symm
  once := by
    change ((a.closedTrades ++ [trade]).map (·.positionId)).Nodup
    rw [List.map_append, List.nodup_append]
    refine ⟨h.once, by simp, fun x hx y hy => ?_⟩
    obtain ⟨t, ht, rfl⟩ := List.mem_map.mp hx
    have hy : y = trade.positionId := by simpa using hy
    rw [hy, hid]
    exact h.apart p hmem t ht

theorem Distinct.marks (h : Distinct a) : Distinct (TradeManager.remark a) :=
  ⟨h.identity, h.apart, h.once⟩

theorem Distinct.effect {b b' : PaperBroker} (h : Distinct b.account)
    {opened : Option PaperPosition} (heffect : Effect b b' opened) : Distinct b'.account := by
  cases heffect with
  | marked haccount horders hfills =>
    rcases haccount with he | he
    · rw [he]
      exact h
    · rw [he]
      exact h.marks
  | ordered hstatus hold haccount horders hfills =>
    rw [haccount]
    exact h
  | filled hmem hpending hfree horigin hzero hopen hclosed hfillId hfillOrder haccount horders
      hfills =>
    rw [haccount]
    exact h.opens hopen hclosed
  | held hmem hid hsymbol horigin haccount horders hfills =>
    rw [haccount]
    exact (h.holds hmem hid hsymbol).marks
  | closed hmem hid haccount horders hfills =>
    rw [haccount]
    exact (h.settles hmem hid).marks

end Distinct

/-! ## No filled position is lost -/

/-- The position is in the account. -/
def Books.isOpen (s : Books) (p : PaperPosition) : Bool :=
  s.broker.account.openPositions.rows.any (fun q => decide (q.positionId = p.positionId))

/-- A FILLED order has one fill and one position, which is open without a trade or closed
by one trade. -/
def Books.Kept (s : Books) : Prop :=
  ∀ o ∈ s.broker.orders.rows, o.status = .filled →
    (s.broker.fills.rows.map (·.orderId)).count o.orderId = 1 ∧
    (s.opened.map (·.originOrderId)).count o.orderId = 1 ∧
    ∀ p ∈ s.opened, p.originOrderId = o.orderId →
      (s.broker.account.closedTrades.map (·.positionId)).count p.positionId =
        if s.isOpen p then 0 else 1

instance (s : Books) : Decidable s.Kept :=
  inferInstanceAs (Decidable (∀ o ∈ s.broker.orders.rows, o.status = .filled → _))

/-- The links between orders, fills, positions and trades. -/
structure Books.Whole (s : Books) : Prop where
  fillOrder : ∀ f ∈ s.broker.fills, ∃ o ∈ s.broker.orders,
    o.orderId = f.orderId ∧ o.status = .filled
  oneFill : ∀ f ∈ s.broker.fills, ∀ f' ∈ s.broker.fills, f.orderId = f'.orderId → f = f'
  hasFill : ∀ o ∈ s.broker.orders, o.status = .filled →
    ∃ f ∈ s.broker.fills, f.orderId = o.orderId
  origin : ∀ p ∈ s.opened, ∃ o ∈ s.broker.orders,
    o.orderId = p.originOrderId ∧ o.status = .filled
  onePosition : (s.opened.map (·.originOrderId)).Nodup
  hasPosition : ∀ o ∈ s.broker.orders, o.status = .filled →
    ∃ p ∈ s.opened, p.originOrderId = o.orderId
  openKnown : ∀ q ∈ s.broker.account.openPositions, ∃ p ∈ s.opened, p.positionId = q.positionId
  tradeKnown : ∀ t ∈ s.broker.account.closedTrades, ∃ p ∈ s.opened, p.positionId = t.positionId
  distinct : Distinct s.broker.account
  accounted : ∀ p ∈ s.opened,
    (∃ q ∈ s.broker.account.openPositions, q.positionId = p.positionId) ∨
      ∃ t ∈ s.broker.account.closedTrades, t.positionId = p.positionId

theorem Books.Whole.kept {s : Books} (h : s.Whole) : s.Kept := by
  intro o ho hstatus
  refine ⟨?_, ?_, fun p hp horigin => ?_⟩
  · obtain ⟨f, hf, hid⟩ := h.hasFill o ho hstatus
    have hnodup : (s.broker.fills.rows.map (·.orderId)).Nodup :=
      s.broker.fills.nodup.of_map.map_on (fun f hf f' hf' => h.oneFill f hf f' hf')
    exact List.count_eq_one_of_mem hnodup (List.mem_map.mpr ⟨f, hf, hid⟩)
  · obtain ⟨p, hp, hid⟩ := h.hasPosition o ho hstatus
    exact List.count_eq_one_of_mem h.onePosition (List.mem_map.mpr ⟨p, hp, hid⟩)
  · by_cases hopen : s.isOpen p = true
    · rw [if_pos hopen]
      obtain ⟨q, hq, hid⟩ := List.any_eq_true.mp hopen
      refine List.count_eq_zero_of_not_mem (fun hmem => ?_)
      obtain ⟨t, ht, hid'⟩ := List.mem_map.mp hmem
      exact h.distinct.apart q hq t ht (hid'.trans (of_decide_eq_true hid).symm)
    · rw [if_neg hopen]
      rcases h.accounted p hp with ⟨q, hq, hid⟩ | ⟨t, ht, hid⟩
      · exact absurd (List.any_eq_true.mpr ⟨q, hq, decide_eq_true hid⟩) hopen
      · exact List.count_eq_one_of_mem h.distinct.once (List.mem_map.mpr ⟨t, ht, hid⟩)

theorem whole_start {b : PaperBroker} (h : Empty b) : (Books.start b).Whole := by
  have horders : ∀ o, o ∉ b.orders := fun o ho => by rw [h.orders] at ho; cases ho
  have hfills : ∀ f, f ∉ b.fills := fun f hf => by rw [h.fills] at hf; cases hf
  have hpositions : ∀ p, p ∉ b.account.openPositions :=
    fun p hp => by rw [h.positions] at hp; cases hp
  have htrades : ∀ t, t ∉ b.account.closedTrades := fun t ht => by rw [h.trades] at ht; cases ht
  constructor
  · exact fun f hf => absurd hf (hfills f)
  · exact fun f hf => absurd hf (hfills f)
  · exact fun o ho => absurd ho (horders o)
  · exact fun p hp => by cases hp
  · exact List.nodup_nil
  · exact fun o ho => absurd ho (horders o)
  · exact fun q hq => absurd hq (hpositions q)
  · exact fun t ht => absurd ht (htrades t)
  · exact distinct_of_empty h.positions h.trades
  · exact fun p hp => by cases hp

section Whole

variable {s : Books} {b' : PaperBroker}

/-- A change of the account that keeps the ids of open positions, or moves one of them to the
closed trades, leaves everything linked. -/
theorem Books.Whole.congr (h : s.Whole) (horders : ∀ o, o.status = .filled →
      (o ∈ b'.orders ↔ o ∈ s.broker.orders)) (hfills : b'.fills = s.broker.fills)
    (htrades : b'.account.closedTrades = s.broker.account.closedTrades)
    (hopen : ∀ q ∈ b'.account.openPositions, ∃ p ∈ s.broker.account.openPositions,
      p.positionId = q.positionId)
    (hkept : ∀ p ∈ s.broker.account.openPositions, ∃ q ∈ b'.account.openPositions,
      q.positionId = p.positionId)
    (hdistinct : Distinct b'.account) : (⟨b', s.opened⟩ : Books).Whole where
  fillOrder := by
    intro f hf
    obtain ⟨o, ho, hid, hstatus⟩ := h.fillOrder f (hfills ▸ hf)
    exact ⟨o, (horders o hstatus).mpr ho, hid, hstatus⟩
  oneFill := by
    intro f hf f' hf'
    exact h.oneFill f (hfills ▸ hf) f' (hfills ▸ hf')
  hasFill := by
    intro o ho hstatus
    obtain ⟨f, hf, hid⟩ := h.hasFill o ((horders o hstatus).mp ho) hstatus
    exact ⟨f, hfills ▸ hf, hid⟩
  origin := by
    intro p hp
    obtain ⟨o, ho, hid, hstatus⟩ := h.origin p hp
    exact ⟨o, (horders o hstatus).mpr ho, hid, hstatus⟩
  onePosition := h.onePosition
  hasPosition := fun o ho hstatus => h.hasPosition o ((horders o hstatus).mp ho) hstatus
  openKnown := by
    intro q hq
    obtain ⟨p, hp, hid⟩ := hopen q hq
    obtain ⟨r, hr, hid'⟩ := h.openKnown p hp
    exact ⟨r, hr, hid'.trans hid⟩
  tradeKnown := fun t ht => h.tradeKnown t (htrades ▸ ht)
  distinct := hdistinct
  accounted := by
    intro p hp
    rcases h.accounted p hp with ⟨q, hq, hid⟩ | ⟨t, ht, hid⟩
    · obtain ⟨r, hr, hid'⟩ := hkept q hq
      exact .inl ⟨r, hr, hid'.trans hid⟩
    · exact .inr ⟨t, htrades ▸ ht, hid⟩

/-- An order joins the FILLED ones with a fill and a position of its own. -/
theorem Books.Whole.fill (h : s.Whole) {order : PaperOrder} {position : PaperPosition}
    {fill : PaperFill} (hmem : order ∈ s.broker.orders) (hpending : order.status = .pending)
    (hfree : s.broker.account.openPositions.get? position.symbol = none)
    (horigin : position.originOrderId = order.orderId)
    (hopen : ∀ p ∈ s.broker.account.openPositions, p.positionId ≠ position.positionId)
    (hclosed : ∀ t ∈ s.broker.account.closedTrades, t.positionId ≠ position.positionId)
    (hfillId : ∀ f ∈ s.broker.fills, f.fillId ≠ fill.fillId)
    (hfillOrder : fill.orderId = order.orderId)
    (haccount : b'.account =
      { s.broker.account with openPositions := s.broker.account.openPositions.put position })
    (horders : b'.orders = s.broker.orders.put { order with status := .filled })
    (hfills : b'.fills = s.broker.fills.put fill) :
    (⟨b', s.opened ++ [position]⟩ : Books).Whole := by
  have hother : ∀ o ∈ s.broker.orders, o.status = .filled → o.orderId ≠ order.orderId := by
    intro o ho hstatus hid
    rw [Table.eq_of_key ho hmem hid, hpending] at hstatus
    cases hstatus
  have hmemOrders : ∀ o, o ∈ b'.orders ↔
      o = { order with status := .filled } ∨ (o ∈ s.broker.orders ∧ o.orderId ≠ order.orderId) := by
    intro o
    rw [horders, PaperBroker.mem_setOrder]
  have hmemFills : ∀ f, f ∈ b'.fills ↔ f = fill ∨ f ∈ s.broker.fills := by
    intro f
    rw [hfills, Table.mem_put]
    exact or_congr_right (and_iff_left_of_imp (hfillId f))
  have hmemOpen : ∀ q, q ∈ b'.account.openPositions ↔
      q = position ∨ q ∈ s.broker.account.openPositions := by
    intro q
    rw [haccount, Table.mem_put]
    exact or_congr_right (and_iff_left_of_imp (Table.get?_eq_none.mp hfree q))
  have htrades : b'.account.closedTrades = s.broker.account.closedTrades := by rw [haccount]
  have hkept : ∀ o ∈ s.broker.orders, o.status = .filled → o ∈ b'.orders :=
    fun o ho hstatus => (hmemOrders o).mpr (.inr ⟨ho, hother o ho hstatus⟩)
  have hfilled : { order with status := OrderStatus.filled } ∈ b'.orders :=
    (hmemOrders _).mpr (.inl rfl)
  constructor
  · intro f hf
    rcases (hmemFills f).mp hf with rfl | hf
    · exact ⟨_, hfilled, hfillOrder.symm, rfl⟩
    · obtain ⟨o, ho, hid, hstatus⟩ := h.fillOrder f hf
      exact ⟨o, hkept o ho hstatus, hid, hstatus⟩
  · have hnew : ∀ f ∈ s.broker.fills, f.orderId ≠ fill.orderId := by
      intro f hf hid
      obtain ⟨o, ho, hid', hstatus⟩ := h.fillOrder f hf
      exact hother o ho hstatus (hid'.trans (hid.trans hfillOrder))
    intro f hf f' hf' hid
    rcases (hmemFills f).mp hf with rfl | hf
    · rcases (hmemFills f').mp hf' with rfl | hf'
      · rfl
      · exact absurd hid.symm (hnew f' hf')
    · rcases (hmemFills f').mp hf' with rfl | hf'
      · exact absurd hid (hnew f hf)
      · exact h.oneFill f hf f' hf' hid
  · intro o ho hstatus
    rcases (hmemOrders o).mp ho with rfl | ⟨ho, -⟩
    · exact ⟨fill, (hmemFills fill).mpr (.inl rfl), hfillOrder⟩
    · obtain ⟨f, hf, hid⟩ := h.hasFill o ho hstatus
      exact ⟨f, (hmemFills f).mpr (.inr hf), hid⟩
  · intro p hp
    rcases List.mem_append.mp hp with hp | hp
    · obtain ⟨o, ho, hid, hstatus⟩ := h.origin p hp
      exact ⟨o, hkept o ho hstatus, hid, hstatus⟩
    · rw [List.mem_singleton.mp hp]
      exact ⟨_, hfilled, horigin.symm, rfl⟩
  · rw [List.map_append, List.nodup_append]
    refine ⟨h.onePosition, by simp, fun x hx y hy => ?_⟩
    obtain ⟨p, hp, rfl⟩ := List.mem_map.mp hx
    obtain ⟨o, ho, hid, hstatus⟩ := h.origin p hp
    have hy : y = position.originOrderId := by simpa using hy
    rw [hy, horigin, ← hid]
    exact hother o ho hstatus
  · intro o ho hstatus
    rcases (hmemOrders o).mp ho with rfl | ⟨ho, -⟩
    · exact ⟨position, by simp, horigin⟩
    · obtain ⟨p, hp, hid⟩ := h.hasPosition o ho hstatus
      exact ⟨p, List.mem_append_left _ hp, hid⟩
  · intro q hq
    rcases (hmemOpen q).mp hq with rfl | hq
    · exact ⟨q, by simp, rfl⟩
    · obtain ⟨p, hp, hid⟩ := h.openKnown q hq
      exact ⟨p, List.mem_append_left _ hp, hid⟩
  · intro t ht
    rw [htrades] at ht
    obtain ⟨p, hp, hid⟩ := h.tradeKnown t ht
    exact ⟨p, List.mem_append_left _ hp, hid⟩
  · change Distinct b'.account
    rw [haccount]
    exact h.distinct.opens hopen hclosed
  · intro p hp
    rw [htrades]
    rcases List.mem_append.mp hp with hp | hp
    · refine (h.accounted p hp).imp_left (fun ⟨q, hq, hid⟩ => ?_)
      exact ⟨q, (hmemOpen q).mpr (.inr hq), hid⟩
    · rw [List.mem_singleton.mp hp]
      exact .inl ⟨position, (hmemOpen position).mpr (.inl rfl), rfl⟩

/-- A position leaves the account with a trade of its own. -/
theorem Books.Whole.close (h : s.Whole) {p : PaperPosition} {trade : ClosedTrade}
    (hmem : p ∈ s.broker.account.openPositions) (hid : trade.positionId = p.positionId)
    (haccount : b'.account = TradeManager.remark (TradeManager.settle s.broker.account p trade))
    (horders : b'.orders = s.broker.orders) (hfills : b'.fills = s.broker.fills) :
    (⟨b', s.opened⟩ : Books).Whole := by
  have htrades : b'.account.closedTrades = s.broker.account.closedTrades ++ [trade] := by
    rw [haccount]
    rfl
  have hmemOpen : ∀ q, q ∈ b'.account.openPositions ↔
      q ∈ s.broker.account.openPositions ∧ q.symbol ≠ p.symbol := by
    intro q
    rw [haccount]
    exact Table.mem_erase
  constructor
  · rw [hfills, horders]
    exact h.fillOrder
  · rw [hfills]
    exact h.oneFill
  · rw [hfills, horders]
    exact h.hasFill
  · rw [horders]
    exact h.origin
  · exact h.onePosition
  · rw [horders]
    exact h.hasPosition
  · exact fun q hq => h.openKnown q ((hmemOpen q).mp hq).1
  · intro t ht
    rw [htrades] at ht
    rcases List.mem_append.mp ht with ht | ht
    · exact h.tradeKnown t ht
    · rw [List.mem_singleton.mp ht, hid]
      exact h.openKnown p hmem
  · change Distinct b'.account
    rw [haccount]
    exact (h.distinct.settles hmem hid).marks
  · intro q hq
    rw [htrades]
    rcases h.accounted q hq with ⟨r, hr, hid'⟩ | ⟨t, ht, hid'⟩
    · by_cases hsymbol : r.symbol = p.symbol
      · obtain rfl := Table.eq_of_key hr hmem hsymbol
        exact .inr ⟨trade, by simp, hid.trans hid'⟩
      · exact .inl ⟨r, (hmemOpen r).mpr ⟨hr, hsymbol⟩, hid'⟩
    · exact .inr ⟨t, List.mem_append_left _ ht, hid'⟩

/-- The position `q` in place of `p` carries its id, so no id is gained or lost. -/
theorem Books.Whole.hold (h : s.Whole) {p q : PaperPosition}
    (hmem : p ∈ s.broker.account.openPositions) (hid : q.positionId = p.positionId)
    (hsymbol : q.symbol = p.symbol)
    (haccount : b'.account = TradeManager.remark
      { s.broker.account with openPositions := s.broker.account.openPositions.put q })
    (horders : b'.orders = s.broker.orders) (hfills : b'.fills = s.broker.fills) :
    (⟨b', s.opened⟩ : Books).Whole := by
  have hmemOpen : ∀ r, r ∈ b'.account.openPositions ↔
      r = q ∨ (r ∈ s.broker.account.openPositions ∧ r.symbol ≠ p.symbol) := by
    intro r
    rw [haccount, TradeManager.remark_openPositions, Table.mem_put, hsymbol]
  refine h.congr (fun o _ => by rw [horders]) hfills (by rw [haccount]; rfl) ?_ ?_ ?_
  · intro r hr
    rcases (hmemOpen r).mp hr with rfl | ⟨hr, -⟩
    · exact ⟨p, hmem, hid.symm⟩
    · exact ⟨r, hr, rfl⟩
  · intro r hr
    by_cases hs : r.symbol = p.symbol
    · obtain rfl := Table.eq_of_key hr hmem hs
      exact ⟨q, (hmemOpen q).mpr (.inl rfl), hid⟩
    · exact ⟨r, (hmemOpen r).mpr (.inr ⟨hr, hs⟩), rfl⟩
  · rw [haccount]
    exact (h.distinct.holds hmem hid hsymbol).marks

theorem Books.Whole.effect (h : s.Whole) {opened : Option PaperPosition}
    (heffect : Effect s.broker b' opened) : (⟨b', s.opened ++ opened.toList⟩ : Books).Whole := by
  cases heffect with
  | marked haccount horders hfills =>
    have hsame : b'.account.openPositions = s.broker.account.openPositions ∧
        b'.account.closedTrades = s.broker.account.closedTrades := by
      rcases haccount with he | he <;> rw [he] <;> exact ⟨rfl, rfl⟩
    rw [Option.toList_none, List.append_nil]
    refine h.congr (fun o _ => by rw [horders]) hfills hsame.2 ?_ ?_ ?_
    · exact fun q hq => ⟨q, hsame.1 ▸ hq, rfl⟩
    · exact fun q hq => ⟨q, hsame.1 ▸ hq, rfl⟩
    · exact h.distinct.effect (.marked haccount horders hfills)
  | @ordered order hstatus hold haccount horders hfills =>
    rw [Option.toList_none, List.append_nil]
    refine h.congr (fun o ho => ?_) hfills (by rw [haccount]) ?_ ?_ ?_
    · rw [horders, Table.mem_put]
      constructor
      · rintro (rfl | ⟨hmem, -⟩)
        · exact absurd ho hstatus
        · exact hmem
      · exact fun hmem => .inr ⟨hmem, fun hid => hold o hmem hid ho⟩
    · exact fun q hq => ⟨q, haccount ▸ hq, rfl⟩
    · exact fun q hq => ⟨q, haccount ▸ hq, rfl⟩
    · rw [haccount]
      exact h.distinct
  | filled hmem hpending hfree horigin hzero hopen hclosed hfillId hfillOrder haccount horders
      hfills =>
    exact h.fill hmem hpending hfree horigin hopen hclosed hfillId hfillOrder haccount horders
      hfills
  | held hmem hid hsymbol horigin haccount horders hfills =>
    rw [Option.toList_none, List.append_nil]
    exact h.hold hmem hid hsymbol haccount horders hfills
  | closed hmem hid haccount horders hfills =>
    rw [Option.toList_none, List.append_nil]
    exact h.close hmem hid haccount horders hfills

end Whole

section Lost

variable {b : PaperBroker} {ids : Ids} {order : PaperOrder} {bar : Option RawBar}

/-- An order that passes the gates is filled. -/
theorem processNextBar_of_fills (h : Fills b order bar) :
    ∃ multiplier bar', bar.bind RawBar.toBar? = some bar' ∧
      processNextBar b order bar ids =
        ((b.fillOrder order multiplier bar' ids.fillId ids.positionId).1,
          some (PaperBroker.openedPosition order multiplier bar' ids.positionId)) := by
  obtain ⟨hstatus, multiplier, asOf, bar', hmultiplier, hvalid, hasOf, hraw, hsymbol, hclosed, hohlc,
    hafter, hreason⟩ := h
  refine ⟨multiplier, bar', hraw, ?_⟩
  have hnext : b.processNextBar order bar' ids.fillId ids.positionId =
      .ok ((b.fillOrder order multiplier bar' ids.fillId ids.positionId).1,
        some (PaperBroker.openedPosition order multiplier bar' ids.positionId)) := by
    have hgate : ¬ (bar'.symbol ≠ order.symbol ∨ bar'.isClosed = false ∨
        bar'.validOhlc = false) := by
      simp [hsymbol, hclosed, hohlc]
    unfold PaperBroker.processNextBar
    rw [if_neg (not_not.mpr hstatus)]
    simp only [hmultiplier, valid, hvalid, decide_true, Bool.not_true, Bool.false_eq_true, if_false,
      hasOf]
    rw [if_neg hgate, if_neg (not_le.mpr hafter), hreason]
    rfl
  unfold processNextBar
  rw [hraw]
  simp only [hnext]

/-- The order whose fill would replace an open position. -/
theorem not_spares {c : Call} (h : ¬ Spares b c) :
    ∃ orderId bar order p, c = .processNextBar orderId bar ∧ b.orders.get? orderId = some order ∧
      Fills b order bar ∧ b.account.openPositions.get? order.symbol = some p := by
  unfold Spares at h
  push Not at h
  obtain ⟨orderId, bar, hcall, order, horder, hfills, hfree⟩ := h
  obtain ⟨p, hp⟩ := Option.ne_none_iff_exists'.mp hfree
  exact ⟨orderId, bar, order, p, hcall, horder, hfills, hp⟩

/-- A filled position that is neither open nor closed is lost. -/
theorem Books.not_kept {s : Books} {o : PaperOrder} {r : PaperPosition}
    (ho : o ∈ s.broker.orders) (hstatus : o.status = .filled) (hr : r ∈ s.opened)
    (horigin : r.originOrderId = o.orderId)
    (hopen : ∀ q ∈ s.broker.account.openPositions, q.positionId ≠ r.positionId)
    (htrades : ∀ t ∈ s.broker.account.closedTrades, t.positionId ≠ r.positionId) : ¬ s.Kept := by
  intro hkept
  have hcount := (hkept o ho hstatus).2.2 r hr horigin
  have hgone : s.isOpen r = false :=
    List.any_eq_false.mpr (fun q hq => by simpa using hopen q hq)
  have hnone : (s.broker.account.closedTrades.map (·.positionId)).count r.positionId = 0 := by
    refine List.count_eq_zero_of_not_mem (fun hmem => ?_)
    obtain ⟨t, ht, hid⟩ := List.mem_map.mp hmem
    exact htrades t ht hid
  rw [hgone, hnone] at hcount
  cases hcount

/-- A fill on a taken symbol loses the position there: it is neither open nor closed. -/
theorem lost_of_not_spares (uuid4 : Uuid4) {s : Books} (hs : s.Whole) {c : Call}
    (h : ¬ Spares s.broker c) : ¬ (s.step uuid4 c).Kept := by
  obtain ⟨orderId, bar, order, p, rfl, horder, hfills, hp⟩ := not_spares h
  obtain ⟨hmem, -⟩ := Table.get?_eq_some.mp horder
  obtain ⟨hpmem, hpsymbol⟩ := Table.get?_eq_some.mp hp
  obtain ⟨multiplier, bar', -, hnext⟩ :=
    @processNextBar_of_fills s.broker (uuid4.draw s.broker) order bar hfills
  have hstep : s.step uuid4 (.processNextBar orderId bar) =
      ⟨(s.broker.fillOrder order multiplier bar' (uuid4.draw s.broker).fillId
          (uuid4.draw s.broker).positionId).1,
        s.opened ++ [PaperBroker.openedPosition order multiplier bar'
          (uuid4.draw s.broker).positionId]⟩ := by
    simp only [Books.step, Call.apply, horder, hnext, Option.toList_some]
  rw [hstep]
  -- `r` is the position as its own fill opened it, `o` the order it came from
  obtain ⟨r, hr, hid⟩ := hs.openKnown p hpmem
  obtain ⟨o, ho, horigin, hstatus⟩ := hs.origin r hr
  have hne : o.orderId ≠ order.orderId := by
    intro he
    rw [Table.eq_of_key ho hmem he, hfills.1] at hstatus
    cases hstatus
  refine Books.not_kept ((PaperBroker.mem_setOrder ..).mpr (.inr ⟨ho, hne⟩)) hstatus
    (List.mem_append_left _ hr) horigin.symm ?_ ?_
  · intro q hq hqid
    rcases Table.mem_put.mp hq with rfl | ⟨hq, hqsymbol⟩
    · exact (uuid4.fresh s.broker).position p hpmem (hid.symm.trans hqid.symm)
    · have hqp := hs.distinct.identity q hq p hpmem (hqid.trans hid)
      exact hqsymbol (by rw [hqp, hpsymbol]; rfl)
  · intro t ht htid
    exact hs.distinct.apart p hpmem t ht (htid.trans hid)

end Lost

/-- Whatever is open under a symbol before and after a call is one position. -/
def Unreplaced (s s' : Books) : Prop :=
  ∀ p ∈ s.broker.account.openPositions, ∀ q ∈ s'.broker.account.openPositions,
    p.symbol = q.symbol → p.positionId = q.positionId

theorem Effect.unreplaced {s : Books} {b' : PaperBroker} {opened : Option PaperPosition}
    (h : Effect s.broker b' opened) (log : List PaperPosition) : Unreplaced s ⟨b', log⟩ := by
  intro p hp q hq hsymbol
  change q ∈ b'.account.openPositions at hq
  cases h with
  | marked haccount horders hfills =>
    have hq' : q ∈ s.broker.account.openPositions := by
      rcases haccount with he | he <;> rw [he] at hq <;> exact hq
    rw [Table.eq_of_key hp hq' hsymbol]
  | ordered hstatus hold haccount horders hfills =>
    rw [haccount] at hq
    rw [Table.eq_of_key hp hq hsymbol]
  | filled hmem hpending hfree horigin hzero hopen hclosed hfillId hfillOrder haccount horders
      hfills =>
    rw [haccount] at hq
    rcases Table.mem_put.mp hq with rfl | ⟨hq, -⟩
    · exact absurd hsymbol (Table.get?_eq_none.mp hfree p hp)
    · rw [Table.eq_of_key hp hq hsymbol]
  | @held p' q' hmem hid hsym horigin haccount horders hfills =>
    rw [haccount] at hq
    rcases Table.mem_put.mp hq with rfl | ⟨hq, -⟩
    · rw [Table.eq_of_key hp hmem (hsymbol.trans hsym)]
      exact hid.symm
    · rw [Table.eq_of_key hp hq hsymbol]
  | closed hmem hid haccount horders hfills =>
    rw [haccount] at hq
    rw [Table.eq_of_key hp (Table.mem_erase.mp hq).1 hsymbol]

theorem whole_run (uuid4 : Uuid4) {b : PaperBroker} (hb : Empty b) {calls : List Call}
    (hspares : Sparing uuid4 calls b) :
    (afterCalls uuid4 calls b).Whole := by
  refine run_induction ?_ (whole_start hb) hspares
  intro s c hs hc
  exact hs.effect (apply_effect (uuid4.fresh s.broker) hc)

/-- In a run that fills no order on a taken symbol, every FILLED order has one fill and one
position, open or closed by one trade. The next call keeps that, and replaces no open
position, exactly when it fills no order on a taken symbol either. -/
theorem filled_positions_kept (uuid4 : Uuid4) {b : PaperBroker} (hb : Empty b) {calls : List Call}
    (hspares : Sparing uuid4 calls b) :
    (afterCalls uuid4 calls b).Kept ∧
      ∀ c, Spares (afterCalls uuid4 calls b).broker c ↔
        ((afterCalls uuid4 calls b).step uuid4 c).Kept ∧
          Unreplaced (afterCalls uuid4 calls b)
            ((afterCalls uuid4 calls b).step uuid4 c) := by
  have hwhole := whole_run uuid4 hb hspares
  refine ⟨hwhole.kept, fun c => ⟨fun hc => ?_, fun hkept => ?_⟩⟩
  · have heffect := apply_effect (uuid4.fresh _) hc
    exact ⟨(hwhole.effect heffect).kept, heffect.unreplaced _⟩
  · by_contra hc
    exact lost_of_not_spares uuid4 hwhole hc hkept.1

/-! ## A run of one order, and a run of two orders on one symbol -/

/-- An approved LONG plan of a run. -/
def sampleReport (runId : String) : FloorReport where
  runId := runId
  symbol := "XAUUSD"
  finalStatus := "PLAN_READY"
  tradePlan := some ⟨"XAUUSD", .long, 100, 99, 104, 4, some runId, some 0, none⟩
  riskDecision := some
    { status := .approved
      symbol := "XAUUSD"
      side := .long
      quantity := some 1
      capitalAtRisk := some 1
      entry := 100
      stop := 99
      target := 104
      reason := "approved" }
  setupAssessment := none

def sampleBroker : PaperBroker where
  account := { accountId := "A", startingEquity := 10000, cash := 10000, equity := 10000 }
  instrument := some ⟨"XAUUSD", some (1 / 100), some 1, some 1⟩

/-- A bar that moves from 100 to `close`. -/
def sampleBar (at_ : Instant) (close : ℚ) : RawBar where
  symbol := some "XAUUSD"
  timestamp := some at_
  isClosed := true
  open_ := some 100
  high := some 102
  low := some 100
  close := some close

/-- Two runs submit on one symbol before either of them fills. -/
def sampleSubmits : List Call :=
  [.submitPlan (sampleReport "R1") (some 0), .submitPlan (sampleReport "R2") (some 0)]

theorem sampleSubmits_spare :
    Sparing sampleUuid4 (sampleSubmits ++ [.processNextBar "x" (some (sampleBar 1 100))])
      sampleBroker := by
  refine ⟨?_, ?_, ?_, trivial⟩
  · intro orderId bar hcall
    cases hcall
  · intro orderId bar hcall
    cases hcall
  · intro orderId bar hcall order horder hfills
    rfl

theorem filled_positions_kept_sample :
    (afterCalls sampleUuid4 (sampleSubmits ++ [.processNextBar "x" (some (sampleBar 1 100))])
        sampleBroker).Kept ∧
      (afterCalls sampleUuid4 (sampleSubmits ++ [.processNextBar "x" (some (sampleBar 1 100))])
        sampleBroker).opened.length = 1 :=
  ⟨(filled_positions_kept sampleUuid4 ⟨rfl, rfl, rfl, rfl⟩ sampleSubmits_spare).1,
    by decide +kernel⟩

/-- The second order fills on the symbol of the first position, which is lost. -/
theorem second_fill_loses_position :
    ¬ ∀ (uuid4 : Uuid4) (b : PaperBroker) (calls : List Call), Empty b →
      (afterCalls uuid4 calls b).Kept := by
  intro h
  have hkept := h sampleUuid4 sampleBroker (sampleSubmits ++
    [.processNextBar "x" (some (sampleBar 1 100)), .processNextBar "xx" (some (sampleBar 2 101))])
    ⟨rfl, rfl, rfl, rfl⟩
  revert hkept
  decide +kernel

end MarketSystem.BrokerRuns
