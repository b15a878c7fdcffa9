import MarketSystem.Execution.PaperWriters

/-!
# Orders, positions and trades

A FILLED order has one position row, a closed position one trade. In memory only
the open positions are at hand; the rows of the closed ones stay in the database.
`Saved` says what one save of the runtime may do to the broker it loaded: at most
one order leaves PENDING, at most one position opens, advances or closes, and no
save opens and closes. That is what keeps the rows linked.
-/
namespace MarketSystem

open Library

namespace PaperBroker

/-- Every open position comes from a FILLED order of its own, and every trade closed a
position of its own. -/
structure Linked (b : PaperBroker) : Prop where
  origin : ∀ p ∈ b.account.openPositions,
    ∃ o ∈ b.orders, o.orderId = p.originOrderId ∧ o.status = .filled
  single : ∀ p ∈ b.account.openPositions, ∀ q ∈ b.account.openPositions,
    p.originOrderId = q.originOrderId → p = q
  traded : ∀ t ∈ b.account.closedTrades, ∀ t' ∈ b.account.closedTrades,
    t.positionId = t'.positionId → t = t'

/-- The position is one of `a`, perhaps advanced, or one that an order of `a` has opened. -/
inductive From (a : PaperBroker) (p : PaperPosition) : Prop
  | kept {q : PaperPosition} (hq : q ∈ a.account.openPositions)
      (hid : q.positionId = p.positionId) (horigin : q.originOrderId = p.originOrderId)
  | opened {o : PaperOrder} (ho : o ∈ a.orders) (horigin : o.orderId = p.originOrderId)
      (hstatus : o.status ≠ .filled)
      (hopen : ∀ q ∈ a.account.openPositions, q.positionId ≠ p.positionId)
      (hclosed : ∀ t ∈ a.account.closedTrades, t.positionId ≠ p.positionId)

/-- What a save of the runtime makes of the broker it loaded. -/
structure Saved (a b : PaperBroker) : Prop where
  accountId : b.account.accountId = a.account.accountId
  sound : b.Sound
  linked : b.Linked
  covers : a.Covers b
  kept : ∀ o ∈ a.orders, o.status = .filled →
    ∃ o' ∈ b.orders, o'.orderId = o.orderId ∧ o'.status = .filled
  filled : ∀ o ∈ b.orders, o.status = .filled →
    (∃ o' ∈ a.orders, o'.orderId = o.orderId ∧ o'.status = .filled) ∨
      ∃ p ∈ b.account.openPositions, p.originOrderId = o.orderId
  from_ : ∀ p ∈ b.account.openPositions, a.From p

section Saved

variable {a b : PaperBroker}

/-- A position of `a` that is still there. -/
theorem From.of_mem {p : PaperPosition} (hp : p ∈ a.account.openPositions) : a.From p :=
  .kept hp rfl rfl

/-- A save that moves no position: orders may be added or leave PENDING, none is filled. -/
theorem Saved.of_orders (ha : a.Linked) (hsound : b.Sound) (haccount : b.account = a.account)
    (hfills : b.fills = a.fills)
    (hkept : ∀ o ∈ a.orders, ∃ o' ∈ b.orders, o'.orderId = o.orderId ∧
      (o.status = .filled → o'.status = .filled))
    (hfilled : ∀ o ∈ b.orders, o.status = .filled →
      ∃ o' ∈ a.orders, o'.orderId = o.orderId ∧ o'.status = .filled) : Saved a b where
  accountId := by rw [haccount]
  sound := hsound
  linked := by
    refine ⟨fun p hp => ?_, haccount ▸ ha.single, haccount ▸ ha.traded⟩
    rw [haccount] at hp
    obtain ⟨o, ho, hid, hstatus⟩ := ha.origin p hp
    obtain ⟨o', ho', hid', hstatus'⟩ := hkept o ho
    exact ⟨o', ho', hid'.trans hid, hstatus' hstatus⟩
  covers := {
    orders := fun o ho => by
      obtain ⟨o', ho', hid, -⟩ := hkept o ho
      exact ⟨o', ho', hid⟩
    fills := fun f hf => ⟨f, hfills ▸ hf, rfl⟩
    trades := fun t ht => haccount ▸ ht
    positions := fun p hp => .inr ⟨p, haccount ▸ hp, rfl⟩ }
  kept := fun o ho hstatus => by
    obtain ⟨o', ho', hid, hstatus'⟩ := hkept o ho
    exact ⟨o', ho', hid, hstatus' hstatus⟩
  filled := fun o ho hstatus => .inl (hfilled o ho hstatus)
  from_ := fun p hp => .of_mem (haccount ▸ hp)

/-- An order leaves PENDING without being filled. -/
theorem Saved.leave (hs : a.Sound) (ha : a.Linked) {order : PaperOrder} (hmem : order ∈ a.orders)
    (hpending : order.status = .pending) {status : OrderStatus} (hleft : status ≠ .pending)
    (hnot : status ≠ .filled) (haccount : b.account = a.account) (hfills : b.fills = a.fills)
    (horders : b.orders = a.orders.put { order with status := status }) : Saved a b := by
  refine .of_orders ha (hs.settleOrder status hleft haccount horders) haccount hfills ?_ ?_
  · intro o ho
    by_cases hid : o.orderId = order.orderId
    · obtain rfl := Table.eq_of_key ho hmem hid
      refine ⟨{ o with status := status }, ?_, rfl, fun hstatus => ?_⟩
      · rw [horders, mem_setOrder]
        exact .inl rfl
      · rw [hpending] at hstatus
        cases hstatus
    · refine ⟨o, ?_, rfl, id⟩
      rw [horders, mem_setOrder]
      exact .inr ⟨ho, hid⟩
  · intro o ho hstatus
    rw [horders, mem_setOrder] at ho
    rcases ho with rfl | ⟨ho, -⟩
    · exact absurd hstatus hnot
    · exact ⟨o, ho, rfl, hstatus⟩

/-- A PENDING order is submitted on a symbol without exposure. -/
theorem Saved.submit (hs : a.Sound) (ha : a.Linked) {order : PaperOrder}
    (hpending : order.status = .pending) (hid : ∀ o ∈ a.orders, o.orderId ≠ order.orderId)
    (hposition : a.account.openPositions.get? order.symbol = none)
    (hsymbol : ∀ o ∈ a.orders, o.status = .pending → o.symbol ≠ order.symbol)
    (haccount : b.account = a.account) (hfills : b.fills = a.fills)
    (horders : ∀ o, o ∈ b.orders ↔ o = order ∨ o ∈ a.orders) : Saved a b := by
  have hput : ({ a with orders := a.orders.put order } : PaperBroker).Sound :=
    @Sound.submit a _ order hs hid hposition hsymbol rfl rfl
  have hsound : b.Sound := by
    refine Database.sound_of_stateOf hput (Database.paperState_eq_iff.mpr ⟨?_, ?_, ?_, ?_, ?_⟩)
    · rw [haccount]
    · exact fun p => by rw [haccount]
    · rw [haccount]
    · intro o
      rw [horders, Table.mem_put]
      exact or_congr_right (and_iff_left_of_imp (hid o))
    · exact fun f => by rw [hfills]
  refine .of_orders ha hsound haccount hfills ?_ ?_
  · exact fun o ho => ⟨o, (horders o).mpr (.inr ho), rfl, id⟩
  · intro o ho hstatus
    rcases (horders o).mp ho with rfl | ho
    · rw [hpending] at hstatus
      cases hstatus
    · exact ⟨o, ho, rfl, hstatus⟩

/-- The identity of the risk policy is stamped on an order; its symbol and status stay. -/
theorem Saved.restamp (hs : a.Sound) (ha : a.Linked) {order stamped : PaperOrder}
    (hmem : order ∈ a.orders) (hid : stamped.orderId = order.orderId)
    (hsymbol : stamped.symbol = order.symbol) (hstatus : stamped.status = order.status)
    (haccount : b.account = a.account) (hfills : b.fills = a.fills)
    (horders : ∀ o, o ∈ b.orders ↔ o ∈ a.orders.put stamped) : Saved a b := by
  have hback : ∀ o ∈ b.orders, ∃ o' ∈ a.orders,
      o'.orderId = o.orderId ∧ o'.symbol = o.symbol ∧ o'.status = o.status := by
    intro o ho
    rcases Table.mem_put.mp ((horders o).mp ho) with rfl | ⟨ho, -⟩
    · exact ⟨order, hmem, hid.symm, hsymbol.symm, hstatus.symm⟩
    · exact ⟨o, ho, rfl, rfl, rfl⟩
  have hsound : b.Sound := by
    refine { position := haccount ▸ hs.position, identity := haccount ▸ hs.identity,
             apart := haccount ▸ hs.apart, trades := haccount ▸ hs.trades, exposure := ?_,
             pending := ?_, realized := haccount ▸ hs.realized,
             unrealized := haccount ▸ hs.unrealized, equity := haccount ▸ hs.equity }
    · intro p hp o ho hpending
      obtain ⟨o', ho', -, hsym, hstat⟩ := hback o ho
      exact hsym ▸ hs.exposure p (haccount ▸ hp) o' ho' (hstat.trans hpending)
    · intro o ho r hr hpo hpr he
      obtain ⟨o', ho', hoid, hosym, hostat⟩ := hback o ho
      obtain ⟨r', hr', hrid, hrsym, hrstat⟩ := hback r hr
      have hsame := hs.pending o' ho' r' hr' (hostat.trans hpo) (hrstat.trans hpr)
        (hosym.trans (he.trans hrsym.symm))
      exact Table.eq_of_key ho hr (hoid.symm.trans (hsame ▸ hrid))
  refine .of_orders ha hsound haccount hfills ?_ ?_
  · intro o ho
    by_cases hkey : o.orderId = order.orderId
    · obtain rfl := Table.eq_of_key ho hmem hkey
      exact ⟨stamped, (horders _).mpr (Table.mem_put.mpr (.inl rfl)), hid, hstatus.trans⟩
    · refine ⟨o, (horders o).mpr (Table.mem_put.mpr (.inr ⟨ho, ?_⟩)), rfl, id⟩
      exact fun he => hkey (he.trans hid)
  · intro o ho hfilled
    obtain ⟨o', ho', hoid, -, hstat⟩ := hback o ho
    exact ⟨o', ho', hoid, hstat.trans hfilled⟩

/-- A PENDING order is filled and opens its position. -/
theorem Saved.fill (hs : a.Sound) (ha : a.Linked) {order : PaperOrder} {p : PaperPosition}
    (hmem : order ∈ a.orders) (hpending : order.status = .pending) (hsound : b.Sound)
    (horigin : p.originOrderId = order.orderId) (hsymbol : p.symbol = order.symbol)
    (hopen : ∀ q ∈ a.account.openPositions, q.positionId ≠ p.positionId)
    (hclosed : ∀ t ∈ a.account.closedTrades, t.positionId ≠ p.positionId)
    (haccount : b.account = { a.account with openPositions := a.account.openPositions.put p })
    (hfills : ∀ f ∈ a.fills, ∃ f' ∈ b.fills, f'.fillId = f.fillId)
    (horders : b.orders = a.orders.put { order with status := .filled }) : Saved a b := by
  have hpositions : ∀ q, q ∈ b.account.openPositions ↔ q = p ∨ q ∈ a.account.openPositions := by
    intro q
    rw [haccount, Table.mem_put]
    refine or_congr_right (and_iff_left_of_imp (fun hq he => ?_))
    exact hs.exposure q hq order hmem hpending (hsymbol.symm.trans he.symm)
  have htrades : b.account.closedTrades = a.account.closedTrades := by rw [haccount]
  have hkept : ∀ o ∈ a.orders, o.status = .filled →
      ∃ o' ∈ b.orders, o'.orderId = o.orderId ∧ o'.status = .filled := by
    intro o ho hstatus
    refine ⟨o, ?_, rfl, hstatus⟩
    rw [horders, mem_setOrder]
    refine .inr ⟨ho, fun hid => ?_⟩
    obtain rfl := Table.eq_of_key ho hmem hid
    rw [hpending] at hstatus
    cases hstatus
  -- the order was PENDING, so no position came from it before
  have hfirst : ∀ q ∈ a.account.openPositions, q.originOrderId ≠ order.orderId := by
    intro q hq he
    obtain ⟨o, ho, hid, hstatus⟩ := ha.origin q hq
    obtain rfl := Table.eq_of_key ho hmem (hid.trans he)
    rw [hpending] at hstatus
    cases hstatus
  have hnew : { order with status := OrderStatus.filled } ∈ b.orders := by
    rw [horders, mem_setOrder]
    exact .inl rfl
  refine { accountId := by rw [haccount], sound := hsound, linked := ⟨?_, ?_, ?_⟩, covers := ?_,
           kept := hkept, filled := ?_, from_ := ?_ }
  · intro q hq
    rcases (hpositions q).mp hq with rfl | hq
    · exact ⟨_, hnew, horigin.symm, rfl⟩
    · obtain ⟨o, ho, hid, hstatus⟩ := ha.origin q hq
      obtain ⟨o', ho', hid', hstatus'⟩ := hkept o ho hstatus
      exact ⟨o', ho', hid'.trans hid, hstatus'⟩
  · intro q hq r hr he
    rcases (hpositions q).mp hq with rfl | hq
    · rcases (hpositions r).mp hr with rfl | hr
      · rfl
      · exact absurd (he.symm.trans horigin) (hfirst r hr)
    · rcases (hpositions r).mp hr with rfl | hr
      · exact absurd (he.trans horigin) (hfirst q hq)
      · exact ha.single q hq r hr he
  · rw [htrades]
    exact ha.traded
  · refine ⟨fun o ho => ?_, hfills, fun t ht => htrades ▸ ht, fun q hq => ?_⟩
    · by_cases hid : o.orderId = order.orderId
      · exact ⟨_, hnew, hid.symm⟩
      · refine ⟨o, ?_, rfl⟩
        rw [horders, mem_setOrder]
        exact .inr ⟨ho, hid⟩
    · exact .inr ⟨q, (hpositions q).mpr (.inr hq), rfl⟩
  · intro o ho hstatus
    rw [horders, mem_setOrder] at ho
    rcases ho with rfl | ⟨ho, -⟩
    · exact .inr ⟨p, (hpositions p).mpr (.inl rfl), horigin⟩
    · exact .inl ⟨o, ho, rfl, hstatus⟩
  · intro q hq
    rcases (hpositions q).mp hq with rfl | hq
    · refine .opened hmem horigin.symm ?_ hopen hclosed
      rw [hpending]
      decide
    · exact .of_mem hq

/-- A position advances: the same one, with a later watermark or a moved stop. -/
theorem Saved.advance (ha : a.Linked) {p q : PaperPosition} (hsound : b.Sound)
    (h : a.Advances p q) (horigin : q.originOrderId = p.originOrderId)
    (hid : b.account.accountId = a.account.accountId)
    (hpositions : b.account.openPositions = a.account.openPositions.put q)
    (htrades : b.account.closedTrades = a.account.closedTrades)
    (hfills : b.fills = a.fills) (horders : b.orders = a.orders) : Saved a b := by
  have hmem : ∀ r, r ∈ b.account.openPositions ↔
      r = q ∨ (r ∈ a.account.openPositions ∧ r.symbol ≠ p.symbol) := by
    intro r
    rw [hpositions, h.mem_put]
  have hfrom : ∀ r ∈ b.account.openPositions, ∃ s ∈ a.account.openPositions,
      s.positionId = r.positionId ∧ s.originOrderId = r.originOrderId ∧ s.symbol = r.symbol := by
    intro r hr
    rcases (hmem r).mp hr with rfl | ⟨hr, -⟩
    · exact ⟨p, h.mem, h.positionId.symm, horigin.symm, h.symbol.symm⟩
    · exact ⟨r, hr, rfl, rfl, rfl⟩
  refine { accountId := hid, sound := hsound, linked := ⟨?_, ?_, ?_⟩, covers := ?_, kept := ?_,
           filled := ?_, from_ := ?_ }
  · intro r hr
    obtain ⟨s, hs, -, he, -⟩ := hfrom r hr
    rw [horders, ← he]
    exact ha.origin s hs
  · intro r hr r' hr' he
    obtain ⟨s, hs, -, hso, hsym⟩ := hfrom r hr
    obtain ⟨s', hs', -, hso', hsym'⟩ := hfrom r' hr'
    obtain rfl := ha.single s hs s' hs' (hso.trans (he.trans hso'.symm))
    exact Table.eq_of_key hr hr' (hsym.symm.trans hsym')
  · rw [htrades]
    exact ha.traded
  · refine ⟨fun o ho => ⟨o, horders ▸ ho, rfl⟩, fun f hf => ⟨f, hfills ▸ hf, rfl⟩,
      fun t ht => htrades ▸ ht, fun r hr => .inr ?_⟩
    by_cases hs : r.symbol = p.symbol
    · obtain rfl := Table.eq_of_key hr h.mem hs
      exact ⟨q, (hmem q).mpr (.inl rfl), h.positionId⟩
    · exact ⟨r, (hmem r).mpr (.inr ⟨hr, hs⟩), rfl⟩
  · exact fun o ho hstatus => ⟨o, horders ▸ ho, rfl, hstatus⟩
  · exact fun o ho hstatus => .inl ⟨o, horders ▸ ho, rfl, hstatus⟩
  · intro r hr
    obtain ⟨s, hs, hsid, hso, -⟩ := hfrom r hr
    exact .kept hs hsid hso

/-- A position closes and its trade is booked. -/
theorem Saved.close (hs : a.Sound) (ha : a.Linked) {p : PaperPosition} {t : ClosedTrade}
    (hsound : b.Sound) (hp : p ∈ a.account.openPositions) (hid : t.positionId = p.positionId)
    (haccount : b.account = TradeManager.remark (TradeManager.settle a.account p t))
    (hfills : b.fills = a.fills) (horders : b.orders = a.orders) : Saved a b := by
  have hmem : ∀ q, q ∈ b.account.openPositions ↔
      q ∈ a.account.openPositions ∧ q.symbol ≠ p.symbol := by
    intro q
    rw [haccount]
    exact Table.mem_erase
  have htrades : ∀ s, s ∈ b.account.closedTrades ↔ s ∈ a.account.closedTrades ∨ s = t := by
    intro s
    rw [haccount]
    simp [TradeManager.settle]
  refine { accountId := by rw [haccount]; rfl, sound := hsound, linked := ⟨?_, ?_, ?_⟩,
           covers := ?_, kept := ?_, filled := ?_, from_ := ?_ }
  · intro q hq
    rw [horders]
    exact ha.origin q ((hmem q).mp hq).1
  · exact fun q hq r hr => ha.single q ((hmem q).mp hq).1 r ((hmem r).mp hr).1
  · intro s hs' s' hs'' he
    rcases (htrades s).mp hs' with hold | rfl
    · rcases (htrades s').mp hs'' with hold' | rfl
      · exact ha.traded s hold s' hold' he
      · exact absurd (he.trans hid) (hs.apart p hp s hold)
    · rcases (htrades s').mp hs'' with hold' | rfl
      · exact absurd (he.symm.trans hid) (hs.apart p hp s' hold')
      · rfl
  · refine ⟨fun o ho => ⟨o, horders ▸ ho, rfl⟩, fun f hf => ⟨f, hfills ▸ hf, rfl⟩,
      fun s hs => (htrades s).mpr (.inl hs), fun q hq => ?_⟩
    by_cases he : q.symbol = p.symbol
    · obtain rfl := Table.eq_of_key hq hp he
      exact .inl ⟨t, (htrades t).mpr (.inr rfl), hid⟩
    · exact .inr ⟨q, (hmem q).mpr ⟨hq, he⟩, rfl⟩
  · exact fun o ho hstatus => ⟨o, horders ▸ ho, rfl, hstatus⟩
  · exact fun o ho hstatus => .inl ⟨o, horders ▸ ho, rfl, hstatus⟩
  · exact fun q hq => .of_mem ((hmem q).mp hq).1

/-- Nothing changes. -/
theorem Saved.refl (hs : a.Sound) (ha : a.Linked) : Saved a a :=
  .of_orders ha hs rfl rfl (fun o ho => ⟨o, ho, rfl, id⟩) (fun o ho hf => ⟨o, ho, rfl, hf⟩)

/-- The journal of the broker is not part of its state. -/
theorem Saved.congr {c : PaperBroker} (h : Saved a b) (haccount : c.account = b.account)
    (horders : c.orders = b.orders) (hfills : c.fills = b.fills) : Saved a c := by
  cases b
  cases c
  simp only at haccount horders hfills
  subst haccount horders hfills
  exact ⟨h.accountId, h.sound.congr rfl rfl, ⟨h.linked.origin, h.linked.single, h.linked.traded⟩,
    ⟨h.covers.orders, h.covers.fills, h.covers.trades, h.covers.positions⟩, h.kept, h.filled,
    h.from_⟩

/-- One operation of a writer. -/
theorem Writes.saved (h : Writes a b) (hs : a.Sound) (ha : a.Linked) : Saved a b := by
  have hsound := h.sound hs
  cases h with
  | @nextBar _ order bar fillId positionId opened hmem hfill hopen hclosed h =>
    rcases processNextBar_cases h with ⟨-, rfl, -⟩ | ⟨hpending, -, at_, reason, rfl | rfl⟩ |
      ⟨hpending, multiplier, -, -, -, -, -, rfl⟩
    · exact .refl hs ha
    · exact @Saved.leave _ _ hs ha _ hmem hpending .rejected (by decide) (by decide) rfl rfl rfl
    · exact @Saved.leave _ _ hs ha _ hmem hpending .cancelled (by decide) (by decide) rfl rfl rfl
    · refine .fill hs ha hmem hpending hsound rfl rfl hopen hclosed rfl (fun f hf => ?_) rfl
      exact ⟨f, Table.mem_put.mpr (.inr ⟨hf, hfill f hf⟩), rfl⟩
  | cancel hmem hpending at_ reason =>
    exact @Saved.leave _ _ hs ha _ hmem hpending .cancelled (by decide) (by decide) rfl rfl rfl
  | @submit order hpending hid hposition horder events =>
    refine .submit hs ha hpending hid hposition horder rfl rfl (fun o => ?_)
    rw [Table.mem_put]
    exact or_congr_right (and_iff_left_of_imp (hid o))
  | @processBar bar tradeId hbar hid =>
    rcases TradeManager.processBar_cases a tradeId hbar with ⟨-, he⟩ | ⟨p, hp, hacts, -, he⟩ |
      ⟨p, exitPrice, reason, hp, -, -, -, haccount, horders, hfills⟩
    · rw [he]
      exact (Saved.refl hs ha).congr hs.remark_eq rfl rfl
    · rw [he] at hsound ⊢
      have hmem := (Table.get?_eq_some.mp hp).1
      exact .advance ha hsound (advances_held hs hmem hacts) rfl rfl rfl rfl rfl rfl
    · exact .close hs ha hsound (Table.get?_eq_some.mp hp).1 rfl haccount hfills horders
  | @closeMarket _ symbol price asOf exitReason decisionRunId tradeId trade hid h =>
    obtain ⟨p, hp, -, -, rfl, haccount, horders, hfills⟩ := closeMarket_ok h
    exact .close hs ha hsound (Table.get?_eq_some.mp hp).1 rfl haccount hfills horders
  | @moveStop position hmem hstage events =>
    exact .advance ha hsound (advances_moveStop hs hmem hstage) rfl rfl rfl rfl rfl rfl

/-! ## Reservations -/

/-- The symbol carries neither an open position nor a PENDING order. -/
def Free (b : PaperBroker) (symbol : String) : Prop :=
  (∀ p ∈ b.account.openPositions, p.symbol ≠ symbol) ∧
    ∀ o ∈ b.orders, o.status = .pending → o.symbol ≠ symbol

theorem Free.get?_eq_none {symbol : String} (h : a.Free symbol) :
    a.account.openPositions.get? symbol = none :=
  Table.get?_eq_none.mpr h.1

end Saved

end PaperBroker

namespace RiskReservation

open RiskEngine

/-- A position adds to the exposure of its symbol. -/
theorem addPosition_symbolCount {symbol : String} {e e' : Exposure} {p : PaperPosition}
    (h : addPosition symbol e p = some e') (hzero : e'.symbolCount = 0) :
    e.symbolCount = 0 ∧ p.symbol ≠ symbol := by
  unfold addPosition at h
  cases hrisk : positionRisk p with
  | none => simp [hrisk] at h
  | some risk =>
    simp only [hrisk, Option.some.injEq] at h
    subst h
    by_cases hsymbol : p.symbol = symbol
    · simp [hsymbol] at hzero
    · simp only [hsymbol, if_false] at hzero
      exact ⟨hzero, hsymbol⟩

/-- A PENDING order does as well. -/
theorem addOrder_symbolCount {symbol : String} {e e' : Exposure} {o : PaperOrder}
    (h : addOrder symbol e o = some e') (hzero : e'.symbolCount = 0) :
    e.symbolCount = 0 ∧ (o.status = .pending → o.symbol ≠ symbol) := by
  unfold addOrder at h
  by_cases hpending : o.status ≠ .pending
  · rw [if_pos hpending, Option.some.injEq] at h
    subst h
    exact ⟨hzero, fun hp => absurd hp hpending⟩
  · rw [if_neg hpending] at h
    cases hitem : pendingReservation o with
    | none => simp [hitem] at h
    | some item =>
      by_cases hsymbol : o.symbol = symbol
      · cases hreserved : item.reserved <;>
          simp only [hitem, hreserved, Option.some.injEq] at h <;> subst h <;>
          simp [hsymbol] at hzero
      · cases hreserved : item.reserved <;>
          simp only [hitem, hreserved, Option.some.injEq] at h <;> subst h <;>
          exact ⟨by simpa [hsymbol] using hzero, fun _ => hsymbol⟩

/-- The exposure gate counts every exposure of the symbol. -/
theorem free_of_exposure {symbol : String} {b : PaperBroker} {e : Exposure}
    (h : exposure symbol b.account b.orders = some e) (hzero : e.symbolCount = 0) :
    b.Free symbol := by
  unfold exposure at h
  obtain ⟨c, hc, he⟩ := Option.bind_eq_some_iff.mp h
  obtain ⟨hczero, horders⟩ := Table.forall_of_foldlM (fun e => e.symbolCount = 0)
    (fun _ _ _ h hz => addOrder_symbolCount h hz) he hzero
  obtain ⟨-, hpositions⟩ := Table.forall_of_foldlM (fun e => e.symbolCount = 0)
    (fun _ _ _ h hz => addPosition_symbolCount h hz) hc hczero
  exact ⟨fun p hp => hpositions p hp, fun o ho => horders o ho⟩

/-- An approval for a run that has its order returns that order, stamped. -/
theorem prepareReservation_existing {request : Request} {p : Portfolio} {prepared : PaperBroker}
    {order existing : PaperOrder} {record : RiskRecord}
    (hrun : PaperBroker.runOrder p.orders request.report.runId = some existing)
    (h : prepareReservation request p = .approved prepared order record) :
    prepared.account = p.account ∧ prepared.fills = p.fills ∧
      prepared.orders = p.orders.put (stampOrder request existing) := by
  unfold prepareReservation at h
  dsimp only at h
  split_ifs at h
  generalize hsub : PaperBroker.submitPlan _ _ _ _ = submitted at h
  obtain ⟨b', order'⟩ := submitted
  cases order' with
  | none => cases h
  | some built =>
    simp only [Prepared.approved.injEq] at h
    obtain ⟨rfl, -, -⟩ := h
    unfold PaperBroker.submitPlan at hsub
    split at hsub
    · cases hsub
    · simp only [Portfolio.broker_orders, hrun, Prod.mk.injEq, Option.some.injEq] at hsub
      obtain ⟨rfl, rfl⟩ := hsub
      exact ⟨rfl, rfl, rfl⟩

/-- An approval leaves the account and the fills alone. -/
theorem prepareReservation_portfolio {request : Request} {p : Portfolio} {prepared : PaperBroker}
    {order : PaperOrder} {record : RiskRecord}
    (hplan : request.report.tradePlan = some request.plan)
    (h : prepareReservation request p = .approved prepared order record) :
    prepared.account = p.account ∧ prepared.fills = p.fills := by
  cases hrun : PaperBroker.runOrder p.orders request.report.runId with
  | some existing =>
    obtain ⟨haccount, hfills, -⟩ := prepareReservation_existing hrun h
    exact ⟨haccount, hfills⟩
  | none =>
    obtain ⟨_, _, _, _, -, -, -, -, -, haccount, hfills, -⟩ :=
      prepareReservation_approved hplan hrun h
    exact ⟨haccount, hfills⟩

/-- What an approved preparation makes of a broker is one submission at most. -/
theorem prepareReservation_saved {request : Request} {a prepared : PaperBroker}
    {order : PaperOrder} {record : RiskRecord} (hs : a.Sound) (ha : a.Linked)
    (hplan : request.report.tradePlan = some request.plan)
    (hid : ∀ o ∈ a.orders, o.orderId ≠ request.orderId)
    (hfree : Approval request.plan a.account a.orders request.instrument request.policy
      (evaluate request.plan (some a.account) a.orders request.instrument request.policy
        request.setupId request.drawdownBasis).decision → a.Free request.plan.symbol)
    (h : prepareReservation request a.portfolio = .approved prepared order record) :
    a.Saved prepared := by
  cases hrun : PaperBroker.runOrder a.orders request.report.runId with
  | some existing =>
    obtain ⟨haccount, hfills, horders⟩ := prepareReservation_existing hrun h
    have hmem : existing ∈ a.orders := List.mem_of_find?_eq_some hrun
    refine @PaperBroker.Saved.restamp a prepared hs ha existing (stampOrder request existing) hmem
      rfl rfl rfl haccount hfills (fun o => ?_)
    rw [horders]
    rfl
  | none =>
    obtain ⟨planAsOf, quantity, multiplier, approval, hbuilt, -, -, -, hsymbol, haccount, hfills,
      horders⟩ := prepareReservation_approved hplan hrun h
    have hfresh : ∀ o ∈ a.orders, o.orderId ≠ order.orderId := by
      rw [hbuilt]
      exact hid
    have hosymbol : order.symbol = request.plan.symbol := by rw [hbuilt]; exact hsymbol
    have hfree' := hfree approval
    refine @PaperBroker.Saved.submit a prepared hs ha order ?_ hfresh ?_ ?_ haccount hfills
      (fun o => ?_)
    · rw [hbuilt]
      rfl
    · rw [hosymbol]
      exact hfree'.get?_eq_none
    · rw [hosymbol]
      exact hfree'.2
    · rw [horders, Table.mem_put]
      exact or_congr_right (and_iff_left_of_imp (hfresh o))

/-- Under a registered policy the exposure gate is what frees the symbol. -/
theorem free_of_approval {request : Request} {a : PaperBroker} {decision : RiskDecision}
    (hlimit : request.policy.maxPositionsOrPendingPerSymbol = 1)
    (approval : Approval request.plan a.account a.orders request.instrument request.policy
      decision) : a.Free request.plan.symbol := by
  refine free_of_exposure approval.exposure_eq ?_
  have hcount := approval.symbol_free
  omega

end RiskReservation

/-! ## The rows -/

namespace Database

/-- The rows of orders, positions and trades belong together. -/
structure Linked (db : Database) : Prop where
  origin : ∀ p ∈ db.paperPositions,
    ∃ o ∈ db.paperOrders, o.orderId = p.originOrderId ∧ o.status = .filled
  single : ∀ p ∈ db.paperPositions, ∀ q ∈ db.paperPositions,
    p.originOrderId = q.originOrderId → p = q
  opened : ∀ o ∈ db.paperOrders, o.status = .filled →
    ∃ p ∈ db.paperPositions, p.originOrderId = o.orderId
  traded : ∀ t ∈ db.closedTrades, ∀ t' ∈ db.closedTrades, t.positionId = t'.positionId → t = t'

section Linked

variable {db db' : Database} {a b : PaperBroker}

theorem Linked.broker (h : db.Linked) (ha : db.Shows a) : a.Linked where
  origin := by
    intro p hp
    obtain ⟨o, ho, hrest⟩ := h.origin p ((ha.positions p).mpr hp).1
    exact ⟨o, (ha.orders o).mp ho, hrest⟩
  single := fun p hp q hq =>
    h.single p ((ha.positions p).mpr hp).1 q ((ha.positions q).mpr hq).1
  traded := fun t ht t' ht' => h.traded t (ha.mem_trades.mpr ht) t' (ha.mem_trades.mpr ht')

theorem Linked.congr (h : db.Linked) (horders : db'.paperOrders = db.paperOrders)
    (hpositions : db'.paperPositions = db.paperPositions)
    (htrades : db'.closedTrades = db.closedTrades) : db'.Linked where
  origin := by rw [hpositions, horders]; exact h.origin
  single := by rw [hpositions]; exact h.single
  opened := by rw [hpositions, horders]; exact h.opened
  traded := by rw [htrades]; exact h.traded

/-- A row that no position of the saved broker replaces is not among the new ones. -/
theorem fresh_of_from {p : PaperPosition} (ha : db.Shows a) {row : PaperPosition}
    (hrow : row ∈ db.paperPositions)
    (hopen : ∀ q ∈ a.account.openPositions, q.positionId ≠ p.positionId)
    (hclosed : ∀ t ∈ a.account.closedTrades, t.positionId ≠ p.positionId) :
    row.positionId ≠ p.positionId := by
  cases hstatus : row.status with
  | «open» => exact hopen row ((ha.positions row).mp ⟨hrow, hstatus⟩)
  | closed =>
    obtain ⟨t, ht, hid⟩ := ha.closed row hrow hstatus
    exact fun he => hclosed t (ha.mem_trades.mp ht) (hid.trans he)

/-- A position of the saved broker and the row it replaces come from one order. -/
theorem origin_of_from (ha : db.Shows a) {p row : PaperPosition} (hp : a.From p)
    (hrow : row ∈ db.paperPositions) (hid : row.positionId = p.positionId) :
    p.originOrderId = row.originOrderId := by
  cases hp with
  | @kept q hq hqid horigin =>
    have hqrow := ((ha.positions q).mpr hq).1
    rw [← horigin, Table.eq_of_key hqrow hrow (hqid.trans hid.symm)]
  | opened ho horigin hstatus hopen hclosed =>
    exact absurd hid (fresh_of_from ha hrow hopen hclosed)

/-- A save keeps the rows linked. -/
theorem Linked.persist (h : db.Linked) (ha : db.Shows a) (hsaved : a.Saved b) :
    (db.persist b).Linked := by
  have hb := hsaved.sound
  have hshows := ha.persist_of_covers hsaved.covers hb
  have hclose : ∀ q : PaperPosition, (if q.positionId ∈ b.account.closedTrades.map (·.positionId)
      then { q with status := PositionStatus.closed } else q).originOrderId = q.originOrderId := by
    intro q
    split_ifs <;> rfl
  -- what a row of the save was before its status is settled
  have hrows : ∀ q, (q ∈ b.account.openPositions ∨ (q ∈ db.paperPositions ∧
      ∀ s ∈ b.account.openPositions, s.positionId ≠ q.positionId)) →
      (∃ row ∈ db.paperPositions, row.positionId = q.positionId ∧
        row.originOrderId = q.originOrderId) ∨ (q ∈ b.account.openPositions ∧
        ∀ row ∈ db.paperPositions, row.originOrderId ≠ q.originOrderId) := by
    rintro q (hq | ⟨hq, -⟩)
    · cases hsaved.from_ q hq with
      | @kept r hr hid horigin => exact .inl ⟨r, ((ha.positions r).mpr hr).1, hid, horigin⟩
      | @opened o ho horigin hstatus _ _ =>
        refine .inr ⟨hq, fun row hrow he => hstatus ?_⟩
        obtain ⟨o', ho', hid, hfilled⟩ := h.origin row hrow
        have hkey : o'.orderId = o.orderId := hid.trans (he.trans horigin.symm)
        exact Table.eq_of_key ((ha.orders o').mp ho') ho hkey ▸ hfilled
    · exact .inl ⟨q, hq, rfl, rfl⟩
  refine ⟨?_, ?_, ?_, ?_⟩
  · intro p hp
    obtain ⟨q, hq, rfl⟩ := (mem_persist_positions hb.identity).mp hp
    rw [hclose]
    rcases hq with hq | ⟨hq, -⟩
    · obtain ⟨o, ho, hrest⟩ := hsaved.linked.origin q hq
      exact ⟨o, (hshows.orders o).mpr ho, hrest⟩
    · obtain ⟨o, ho, hid, hstatus⟩ := h.origin q hq
      obtain ⟨o', ho', hid', hstatus'⟩ := hsaved.kept o ((ha.orders o).mp ho) hstatus
      exact ⟨o', (hshows.orders o').mpr ho', hid'.trans hid, hstatus'⟩
  · intro p hp p' hp' he
    obtain ⟨q, hq, rfl⟩ := (mem_persist_positions hb.identity).mp hp
    obtain ⟨q', hq', rfl⟩ := (mem_persist_positions hb.identity).mp hp'
    rw [hclose, hclose] at he
    have hsame : q = q' := by
      rcases hrows q hq with ⟨row, hrow, hid, horigin⟩ | ⟨hqopen, hnone⟩
      · rcases hrows q' hq' with ⟨row', hrow', hid', horigin'⟩ | ⟨hqopen', hnone'⟩
        · obtain rfl := h.single row hrow row' hrow' (horigin.trans (he.trans horigin'.symm))
          have hids : q.positionId = q'.positionId := hid.symm.trans hid'
          rcases hq with hq | ⟨hq, hother⟩
          · rcases hq' with hq' | ⟨hq', hother'⟩
            · exact hb.identity q hq q' hq' hids
            · exact absurd hids (hother' q hq)
          · rcases hq' with hq' | ⟨hq', hother'⟩
            · exact absurd hids.symm (hother q' hq')
            · exact Table.eq_of_key hq hq' hids
        · exact absurd (horigin.trans he) (hnone' row hrow)
      · rcases hrows q' hq' with ⟨row', hrow', hid', horigin'⟩ | ⟨hqopen', -⟩
        · exact absurd (horigin'.trans he.symm) (hnone row' hrow')
        · exact hsaved.linked.single q hqopen q' hqopen' he
    rw [hsame]
  · intro o ho hstatus
    have hrow : ∃ q, (q ∈ b.account.openPositions ∨ (q ∈ db.paperPositions ∧
        ∀ s ∈ b.account.openPositions, s.positionId ≠ q.positionId)) ∧
        q.originOrderId = o.orderId := by
      rcases hsaved.filled o ((hshows.orders o).mp ho) hstatus with
        ⟨o', ho', hid, hstatus'⟩ | ⟨p, hp, horigin⟩
      · obtain ⟨row, hrow, horigin⟩ := h.opened o' ((ha.orders o').mpr ho') hstatus'
        by_cases hreplaced : ∃ s ∈ b.account.openPositions, s.positionId = row.positionId
        · obtain ⟨s, hs', hid'⟩ := hreplaced
          refine ⟨s, .inl hs', ?_⟩
          rw [origin_of_from ha (hsaved.from_ s hs') hrow hid'.symm, horigin, hid]
        · push Not at hreplaced
          exact ⟨row, .inr ⟨hrow, hreplaced⟩, horigin.trans hid⟩
      · exact ⟨p, .inl hp, horigin⟩
    obtain ⟨q, hq, horigin⟩ := hrow
    exact ⟨_, (mem_persist_positions hb.identity).mpr ⟨q, hq, rfl⟩, (hclose q).trans horigin⟩
  · intro t ht t' ht'
    exact hsaved.linked.traded t (hshows.mem_trades.mp ht) t' (hshows.mem_trades.mp ht')

end Linked

end Database

end MarketSystem
