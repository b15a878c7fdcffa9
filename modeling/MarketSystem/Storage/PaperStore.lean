import MarketSystem.Storage.Database
import MarketSystem.Library.Process
import Mathlib.Data.Prod.Lex

/-!
# Durable PAPER state

What the database says about the PAPER account, as a broker: a load returns it up
to the order of the rows, and a compare-and-swap save succeeds only on the state
it was computed from. So a save that succeeds replaces the durable broker by the
saved one, whatever happened between the reads of its load.
-/
namespace MarketSystem

open Library

/-- `_watermark`: the start of the last bar applied, else the opening. -/
def PaperPosition.watermark (p : PaperPosition) : Instant := p.lastProcessedAt.getD p.openedAt

/-- How far a position has come: its watermark, then whether its stop was moved. -/
def PaperPosition.progress (p : PaperPosition) : Instant ×ₗ ℕ :=
  toLex (p.watermark, if p.durationStage.isSome then 1 else 0)

structure PaperPosition.WellFormed (p : PaperPosition) : Prop where
  isOpen : p.status = .open
  multiplier : validMultiplier p.contractMultiplier = true
  opened : p.openedAt ≤ p.watermark

namespace PaperBroker

/-- The invariant of the PAPER account: the books balance, the rows are consistent,
and every symbol carries at most one exposure. -/
structure Sound (b : PaperBroker) : Prop where
  position : ∀ p ∈ b.account.openPositions, p.WellFormed
  identity : ∀ p ∈ b.account.openPositions, ∀ q ∈ b.account.openPositions,
    p.positionId = q.positionId → p = q
  apart : ∀ p ∈ b.account.openPositions, ∀ t ∈ b.account.closedTrades,
    t.positionId ≠ p.positionId
  trades : (b.account.closedTrades.map (·.tradeId)).Nodup
  exposure : ∀ p ∈ b.account.openPositions, ∀ o ∈ b.orders, o.status = .pending →
    o.symbol ≠ p.symbol
  pending : ∀ o ∈ b.orders, ∀ o' ∈ b.orders, o.status = .pending → o'.status = .pending →
    o.symbol = o'.symbol → o = o'
  realized : b.account.realizedPnl = (b.account.closedTrades.map (·.netPnl)).sum
  unrealized : b.account.unrealizedPnl = b.account.openPositions.total TradeManager.unrealized
  equity : b.account.equity =
    b.account.startingEquity + b.account.realizedPnl + b.account.unrealizedPnl

/-- The PAPER account only moves forward: rows stay, orders leave PENDING once, a
position advances until it has a closed trade. -/
structure Later (a b : PaperBroker) : Prop where
  accountId : b.account.accountId = a.account.accountId
  startingEquity : b.account.startingEquity = a.account.startingEquity
  cash : b.account.cash = a.account.cash
  orders : ∀ o ∈ a.orders, ∃ o' ∈ b.orders, o' = { o with status := o'.status } ∧
    (o.status = o'.status ∨ (o.status = .pending ∧ o'.status ≠ .pending))
  fills : ∀ f ∈ a.fills, f ∈ b.fills
  trades : ∀ t ∈ a.account.closedTrades, t ∈ b.account.closedTrades
  positions : ∀ p ∈ a.account.openPositions,
    (∃ t ∈ b.account.closedTrades, t.positionId = p.positionId) ∨
    ∃ q ∈ b.account.openPositions, q.positionId = p.positionId ∧ q.symbol = p.symbol ∧
      (q = p ∨ p.progress < q.progress)

/-- What a save over the state of `a` leaves no row of `a` behind unwritten. -/
structure Covers (a b : PaperBroker) : Prop where
  orders : ∀ o ∈ a.orders, ∃ o' ∈ b.orders, o'.orderId = o.orderId
  fills : ∀ f ∈ a.fills, ∃ f' ∈ b.fills, f'.fillId = f.fillId
  trades : ∀ t ∈ a.account.closedTrades, t ∈ b.account.closedTrades
  positions : ∀ p ∈ a.account.openPositions,
    (∃ t ∈ b.account.closedTrades, t.positionId = p.positionId) ∨
    ∃ q ∈ b.account.openPositions, q.positionId = p.positionId

theorem Later.covers {a b : PaperBroker} (h : Later a b) : Covers a b where
  orders := by
    intro o ho
    obtain ⟨o', ho', he, -⟩ := h.orders o ho
    exact ⟨o', ho', by rw [he]⟩
  fills := fun f hf => ⟨f, h.fills f hf, rfl⟩
  trades := h.trades
  positions := fun p hp => (h.positions p hp).imp_right
    (fun ⟨q, hq, hid, _⟩ => ⟨q, hq, hid⟩)

theorem Later.refl (b : PaperBroker) : Later b b where
  accountId := rfl
  startingEquity := rfl
  cash := rfl
  orders := fun o ho => ⟨o, ho, rfl, .inl rfl⟩
  fills := fun _ h => h
  trades := fun _ h => h
  positions := fun p hp => .inr ⟨p, hp, rfl, rfl, .inl rfl⟩

theorem Later.trans {a b c : PaperBroker} (hab : Later a b) (hbc : Later b c) : Later a c where
  accountId := hbc.accountId.trans hab.accountId
  startingEquity := hbc.startingEquity.trans hab.startingEquity
  cash := hbc.cash.trans hab.cash
  orders := by
    intro o ho
    obtain ⟨o', ho', he, hs⟩ := hab.orders o ho
    obtain ⟨o'', ho'', he', hs'⟩ := hbc.orders o' ho'
    refine ⟨o'', ho'', ?_, ?_⟩
    · rw [he', he]
    · rcases hs with hs | ⟨hp, hn⟩
      · rcases hs' with hs' | ⟨hp', hn'⟩
        · exact .inl (hs.trans hs')
        · exact .inr ⟨hs.trans hp', hn'⟩
      · rcases hs' with hs' | ⟨hp', -⟩
        · exact .inr ⟨hp, hs' ▸ hn⟩
        · exact absurd hp' hn
  fills := fun f hf => hbc.fills f (hab.fills f hf)
  trades := fun t ht => hbc.trades t (hab.trades t ht)
  positions := by
    intro p hp
    rcases hab.positions p hp with ⟨t, ht, hid⟩ | ⟨q, hq, hid, hsymbol, hprogress⟩
    · exact .inl ⟨t, hbc.trades t ht, hid⟩
    · rcases hbc.positions q hq with ⟨t, ht, hid'⟩ | ⟨r, hr, hid', hsymbol', hprogress'⟩
      · exact .inl ⟨t, ht, hid'.trans hid⟩
      · refine .inr ⟨r, hr, hid'.trans hid, hsymbol'.trans hsymbol, ?_⟩
        rcases hprogress with rfl | hlt
        · exact hprogress'
        · rcases hprogress' with rfl | hlt'
          · exact .inr hlt
          · exact .inr (hlt.trans hlt')

/-- A position that is still open has not fallen back. -/
theorem Later.watermark_le {a b : PaperBroker} (h : a.Later b) (hb : b.Sound)
    {p q : PaperPosition} (hp : p ∈ a.account.openPositions) (hq : q ∈ b.account.openPositions)
    (hid : q.positionId = p.positionId) : p.watermark ≤ q.watermark := by
  rcases h.positions p hp with ⟨t, ht, hid'⟩ | ⟨r, hr, hid', -, hprogress⟩
  · exact absurd (hid'.trans hid.symm) (hb.apart q hq t ht)
  · obtain rfl : r = q := hb.identity r hr q hq (hid'.trans hid.symm)
    rcases hprogress with rfl | hlt
    · exact le_refl _
    · rcases Prod.Lex.toLex_lt_toLex.mp hlt with hlt | ⟨heq, -⟩
      · exact hlt.le
      · exact heq.le

end PaperBroker

namespace Database

/-- The database holds exactly the PAPER state of `b`, up to the order of rows. -/
structure Shows (db : Database) (b : PaperBroker) : Prop where
  account : (db.paperAccounts.get? b.account.accountId).map encodeAccount =
    some (encodeAccount b.account)
  orders : ∀ o, o ∈ db.paperOrders ↔ o ∈ b.orders
  fills : ∀ f, f ∈ db.paperFills ↔ f ∈ b.fills
  positions : ∀ p, (p ∈ db.paperPositions ∧ p.status = .open) ↔ p ∈ b.account.openPositions
  trades : db.closedTrades.rows.Perm b.account.closedTrades
  closed : ∀ p ∈ db.paperPositions, p.status = .closed →
    ∃ t ∈ db.closedTrades, t.positionId = p.positionId

theorem Shows.mem_trades {db : Database} {b : PaperBroker} (h : db.Shows b) {t : ClosedTrade} :
    t ∈ db.closedTrades ↔ t ∈ b.account.closedTrades :=
  h.trades.mem_iff

/-! ## Comparison values -/

theorem rows_perm {κ ρ : Type} {key : ρ → κ} {s t : Table key} (h : ∀ r, r ∈ s ↔ r ∈ t) :
    s.rows.Perm t.rows :=
  (List.perm_ext_iff_of_nodup s.nodup.of_map t.nodup.of_map).mpr h

/-- Equal comparison values: the same account figures and the same rows. -/
theorem paperState_eq_iff {a a' : PaperAccount} {o o' : Orders} {f f' : Fills} :
    paperState (some a) o f = paperState (some a') o' f' ↔
      encodeAccount a = encodeAccount a' ∧
      (∀ p, p ∈ a.openPositions ↔ p ∈ a'.openPositions) ∧
      a.closedTrades.Perm a'.closedTrades ∧
      (∀ r, r ∈ o ↔ r ∈ o') ∧ (∀ r, r ∈ f ↔ r ∈ f') := by
  simp only [paperState, PaperState.mk.injEq, Option.map_some, Option.some.injEq,
    Multiset.coe_eq_coe]
  constructor
  · rintro ⟨ha, hp, ht, ho, hf⟩
    exact ⟨ha, fun p => hp.mem_iff, ht, fun r => ho.mem_iff, fun r => hf.mem_iff⟩
  · rintro ⟨ha, hp, ht, ho, hf⟩
    exact ⟨ha, rows_perm hp, ht, rows_perm ho, rows_perm hf⟩

/-- The comparison value `save_paper` expects for a loaded broker. -/
def stateOf (b : PaperBroker) : PaperState := paperState (some b.account) b.orders b.fills

theorem accountId_of_encode {a a' : PaperAccount} (h : encodeAccount a = encodeAccount a') :
    a.accountId = a'.accountId :=
  (PaperAccount.mk.injEq .. ▸ h).1

theorem Shows.of_stateOf {db : Database} {b c : PaperBroker} (h : db.Shows b)
    (he : stateOf b = stateOf c) : db.Shows c := by
  obtain ⟨ha, hp, ht, ho, hf⟩ := paperState_eq_iff.mp he
  exact {
    account := by rw [← accountId_of_encode ha, h.account, ha]
    orders := fun o => (h.orders o).trans (ho o)
    fills := fun f => (h.fills f).trans (hf f)
    positions := fun p => (h.positions p).trans (hp p)
    trades := h.trades.trans ht
    closed := h.closed }

/-- The durable broker is unique up to the order of rows. -/
theorem Shows.stateOf_eq {db : Database} {b c : PaperBroker} (hb : db.Shows b) (hc : db.Shows c)
    (hid : b.account.accountId = c.account.accountId) : stateOf b = stateOf c := by
  have haccount : encodeAccount b.account = encodeAccount c.account :=
    Option.some.inj (hb.account.symm.trans (hid ▸ hc.account))
  refine paperState_eq_iff.mpr ⟨haccount, ?_, hb.trades.symm.trans hc.trades, ?_, ?_⟩
  · exact fun p => (hb.positions p).symm.trans (hc.positions p)
  · exact fun o => (hb.orders o).symm.trans (hc.orders o)
  · exact fun f => (hb.fills f).symm.trans (hc.fills f)

theorem sound_of_stateOf {b c : PaperBroker} (hb : b.Sound) (he : stateOf b = stateOf c) :
    c.Sound := by
  obtain ⟨ha, hp, ht, ho, -⟩ := paperState_eq_iff.mp he
  obtain ⟨-, hstart, -, hequity, hrealized, hunrealized, -, -⟩ := PaperAccount.mk.injEq .. ▸ ha
  exact {
    position := fun p h => hb.position p ((hp p).mpr h)
    identity := fun p h q h' => hb.identity p ((hp p).mpr h) q ((hp q).mpr h')
    apart := fun p h t h' => hb.apart p ((hp p).mpr h) t (ht.mem_iff.mpr h')
    trades := ((ht.map _).nodup_iff).mp hb.trades
    exposure := fun p h o h' => hb.exposure p ((hp p).mpr h) o ((ho o).mpr h')
    pending := fun o h o' h' => hb.pending o ((ho o).mpr h) o' ((ho o').mpr h')
    realized := by rw [← hrealized, hb.realized, (ht.map _).sum_eq]
    unrealized := by rw [← hunrealized, hb.unrealized, Table.total_eq_of_mem_iff hp]
    equity := by rw [← hequity, ← hrealized, ← hunrealized, ← hstart, hb.equity] }

theorem Shows.congr {db db' : Database} {b : PaperBroker} (h : db.Shows b)
    (haccounts : db'.paperAccounts = db.paperAccounts)
    (horders : db'.paperOrders = db.paperOrders) (hfills : db'.paperFills = db.paperFills)
    (hpositions : db'.paperPositions = db.paperPositions)
    (htrades : db'.closedTrades = db.closedTrades) : db'.Shows b where
  account := by rw [haccounts]; exact h.account
  orders := by rw [horders]; exact h.orders
  fills := by rw [hfills]; exact h.fills
  positions := by rw [hpositions]; exact h.positions
  trades := by rw [htrades]; exact h.trades
  closed := by rw [hpositions, htrades]; exact h.closed

theorem later_of_stateOf {a b c : PaperBroker} (h : a.Later b) (he : stateOf b = stateOf c) :
    a.Later c := by
  obtain ⟨ha, hp, ht, ho, hf⟩ := paperState_eq_iff.mp he
  obtain ⟨hid, hstart, hcash, -⟩ := PaperAccount.mk.injEq .. ▸ ha
  refine { accountId := hid ▸ h.accountId, startingEquity := hstart ▸ h.startingEquity,
           cash := hcash ▸ h.cash, orders := ?_, fills := fun f hmem => (hf f).mp (h.fills f hmem),
           trades := fun t hmem => ht.mem_iff.mp (h.trades t hmem), positions := ?_ }
  · intro o hmem
    obtain ⟨o', hmem', hrest⟩ := h.orders o hmem
    exact ⟨o', (ho o').mp hmem', hrest⟩
  · intro p hmem
    rcases h.positions p hmem with ⟨t, htrade, hid⟩ | ⟨q, hq, hrest⟩
    · exact .inl ⟨t, ht.mem_iff.mp htrade, hid⟩
    · exact .inr ⟨q, (hp q).mp hq, hrest⟩

/-! ## No state comes back

A broker between two equal states is equal to them: every change moves the
account forward for good. -/

section Between

variable {s a l : PaperBroker}

theorem order_between (hsa : s.Later a) (hal : a.Later l) (ho : ∀ o, o ∈ l.orders ↔ o ∈ s.orders)
    (o : PaperOrder) : o ∈ a.orders ↔ o ∈ s.orders := by
  have hforward : ∀ o ∈ s.orders, o ∈ a.orders := by
    intro o hmem
    obtain ⟨o', hmem', he', hstatus'⟩ := hsa.orders o hmem
    obtain ⟨o'', hmem'', he'', hstatus''⟩ := hal.orders o' hmem'
    have hkey : o''.orderId = o.orderId := by rw [he'', he']
    obtain rfl : o'' = o := Table.eq_of_key hmem'' ((ho o).mpr hmem) hkey
    have hsame : o''.status = o'.status := by
      rcases hstatus' with h | ⟨hpending, hleft⟩
      · exact h
      · rcases hstatus'' with h | ⟨hpending', -⟩
        · exact h.symm
        · exact absurd hpending' hleft
    rw [← hsame] at he'
    have heq : o' = o'' := he'
    exact heq ▸ hmem'
  constructor
  · intro hmem
    obtain ⟨o', hmem', he', -⟩ := hal.orders o hmem
    have hkey : o'.orderId = o.orderId := by rw [he']
    have hs := (ho o').mp hmem'
    exact Table.eq_of_key (hforward o' hs) hmem hkey ▸ hs
  · exact hforward o

theorem position_between (hsa : s.Later a) (hal : a.Later l) (ha : a.Sound) (hl : l.Sound)
    (hp : ∀ p, p ∈ l.account.openPositions ↔ p ∈ s.account.openPositions)
    (ht : ∀ t, t ∈ l.account.closedTrades → t ∈ s.account.closedTrades) (p : PaperPosition) :
    p ∈ a.account.openPositions ↔ p ∈ s.account.openPositions := by
  have hforward : ∀ p ∈ s.account.openPositions, p ∈ a.account.openPositions := by
    intro p hmem
    have hopen := (hp p).mpr hmem
    rcases hsa.positions p hmem with ⟨t, htrade, hid⟩ | ⟨q, hq, hid, -, hprogress⟩
    · exact absurd hid (hl.apart p hopen t (hal.trades t htrade))
    · rcases hal.positions q hq with ⟨t, htrade, hid'⟩ | ⟨r, hr, hid', -, hprogress'⟩
      · exact absurd (hid'.trans hid) (hl.apart p hopen t htrade)
      · obtain rfl : r = p := hl.identity r hr p hopen (hid'.trans hid)
        rcases hprogress with rfl | hlt
        · exact hq
        · -- a position that advanced cannot be back where it was
          rcases hprogress' with rfl | hlt'
          · exact absurd hlt (lt_irrefl _)
          · exact absurd (hlt.trans hlt') (lt_irrefl _)
  constructor
  · intro hmem
    rcases hal.positions p hmem with ⟨t, htrade, hid⟩ | ⟨r, hr, hid, -, -⟩
    · exact absurd hid (ha.apart p hmem t (hsa.trades t (ht t htrade)))
    · have hs := (hp r).mp hr
      exact ha.identity r (hforward r hs) p hmem hid ▸ hs
  · exact hforward p

theorem stateOf_between (hsa : s.Later a) (hal : a.Later l) (ha : a.Sound) (hl : l.Sound)
    (he : stateOf l = stateOf s) : stateOf a = stateOf s := by
  have hs : s.Sound := sound_of_stateOf hl he
  obtain ⟨haccount, hp, ht, ho, hf⟩ := paperState_eq_iff.mp he
  have hpositions := position_between hsa hal ha hl hp (fun t => ht.mem_iff.mp)
  have htrades : a.account.closedTrades.Perm s.account.closedTrades := by
    refine (List.perm_ext_iff_of_nodup ha.trades.of_map hs.trades.of_map).mpr (fun t => ?_)
    exact ⟨fun h => ht.mem_iff.mp (hal.trades t h), fun h => hsa.trades t h⟩
  have hrealized : a.account.realizedPnl = s.account.realizedPnl := by
    rw [ha.realized, hs.realized, (htrades.map _).sum_eq]
  have hunrealized : a.account.unrealizedPnl = s.account.unrealizedPnl := by
    rw [ha.unrealized, hs.unrealized, Table.total_eq_of_mem_iff hpositions]
  have hequity : a.account.equity = s.account.equity := by
    rw [ha.equity, hs.equity, hrealized, hunrealized, hsa.startingEquity]
  refine paperState_eq_iff.mpr ⟨?_, hpositions, htrades, order_between hsa hal ho, ?_⟩
  · simp only [encodeAccount, PaperAccount.mk.injEq]
    exact ⟨hsa.accountId, hsa.startingEquity, hsa.cash, hequity, hrealized, hunrealized, trivial,
      trivial⟩
  · exact fun f => ⟨fun h => (hf f).mp (hal.fills f h), fun h => hsa.fills f h⟩

end Between

/-! ## Loading -/

/-- The open rows carry distinct symbols, so a load does not raise. -/
theorem Shows.openRows {db : Database} {b : PaperBroker} (h : db.Shows b) :
    ((db.paperPositions.rows.filter (fun p => decide (p.status = .open))).map
      (·.symbol)).Nodup := by
  have hrows : (db.paperPositions.rows.filter (fun p => decide (p.status = .open))).Nodup :=
    db.paperPositions.nodup.of_map.filter _
  refine hrows.map_on ?_
  intro p hp q hq hsymbol
  have hopen : ∀ r ∈ db.paperPositions.rows.filter (fun p => decide (p.status = .open)),
      r ∈ b.account.openPositions := by
    intro r hr
    obtain ⟨hr, hstatus⟩ := List.mem_filter.mp hr
    exact (h.positions r).mp ⟨hr, of_decide_eq_true hstatus⟩
  exact Table.eq_of_key (hopen p hp) (hopen q hq) hsymbol

/-- A load returns the durable broker up to the order of rows. -/
theorem Shows.loadPaper {db : Database} {b : PaperBroker} (h : db.Shows b) :
    ∃ a o f, db.loadPaper b.account.accountId = .ok (some a, o, f) ∧
      paperState (some a) o f = stateOf b := by
  obtain ⟨row, hrow, hencode⟩ := Option.map_eq_some_iff.mp h.account
  let positions : Table PaperPosition.symbol := ⟨_, h.openRows⟩
  have hopen : Table.ofList? (db.paperPositions.rows.filter
      (fun p => decide (p.status = .open))) = some positions := dif_pos h.openRows
  refine ⟨{ row with openPositions := positions, closedTrades := db.closedTrades.rows },
    db.paperOrders, db.paperFills, ?_, ?_⟩
  · simp only [Database.loadPaper, hrow, hopen]
  · refine paperState_eq_iff.mpr ⟨hencode, ?_, h.trades, h.orders, h.fills⟩
    · intro p
      rw [← h.positions p]
      change p ∈ List.filter _ _ ↔ _
      simp [List.mem_filter, Table.mem_def]

theorem accountId_of_loadPaper {db : Database} {accountId : String} {a : PaperAccount}
    {o : Orders} {f : Fills} (h : db.loadPaper accountId = .ok (some a, o, f)) :
    a.accountId = accountId := by
  unfold loadPaper at h
  cases hrow : db.paperAccounts.get? accountId with
  | none => simp [hrow] at h
  | some row =>
    simp only [hrow] at h
    split at h
    · cases h
    · simp only [Except.ok.injEq, Prod.mk.injEq, Option.some.injEq] at h
      obtain ⟨rfl, -, -⟩ := h
      exact (Table.get?_eq_some.mp hrow).2

/-- What a load returned is what the database shows. -/
theorem shows_of_loadPaper {db : Database} {accountId : String} {a : PaperAccount} {o : Orders}
    {f : Fills} (h : db.loadPaper accountId = .ok (some a, o, f))
    (hclosed : ∀ p ∈ db.paperPositions, p.status = .closed →
      ∃ t ∈ db.closedTrades, t.positionId = p.positionId) :
    db.Shows { account := a, orders := o, fills := f } := by
  unfold loadPaper at h
  cases hrow : db.paperAccounts.get? accountId with
  | none => simp [hrow] at h
  | some row =>
    simp only [hrow] at h
    cases hopen : (Table.ofList? (db.paperPositions.rows.filter
        (fun p => decide (p.status = .open))) : Option (Table PaperPosition.symbol)) with
    | none => simp [hopen] at h
    | some positions =>
      simp only [hopen, Except.ok.injEq, Prod.mk.injEq, Option.some.injEq] at h
      obtain ⟨rfl, rfl, rfl⟩ := h
      obtain rfl : row.accountId = accountId := (Table.get?_eq_some.mp hrow).2
      exact {
        account := by simp only [hrow]; rfl
        orders := fun _ => Iff.rfl
        fills := fun _ => Iff.rfl
        positions := fun p => by
          rw [Table.mem_def (t := positions), Table.rows_of_ofList? hopen]
          simp [List.mem_filter, Table.mem_def]
        trades := List.Perm.refl _
        closed := hclosed }

/-- The broker a load in one piece returns. -/
def durable (db : Database) (accountId : String) : Option PaperBroker :=
  match db.loadPaper accountId with
  | .ok (some account, orders, fills) => some { account := account, orders := orders, fills := fills }
  | _ => none

/-- Every closed position row has a closed trade. -/
def closedRowsTraded (db : Database) : Bool :=
  db.paperPositions.rows.all (fun p => decide (p.status = .open)
    || db.closedTrades.rows.any (fun t => decide (t.positionId = p.positionId)))

theorem shows_of_durable {db : Database} {accountId : String} {b : PaperBroker}
    (h : db.durable accountId = some b) (hclosed : db.closedRowsTraded = true) :
    db.Shows b ∧ b.account.accountId = accountId := by
  have hrows : ∀ p ∈ db.paperPositions, p.status = .closed →
      ∃ t ∈ db.closedTrades, t.positionId = p.positionId := by
    intro p hp hstatus
    have hp' := List.all_eq_true.mp hclosed p hp
    simpa [hstatus, Table.mem_def] using hp'
  unfold durable at h
  cases hl : db.loadPaper accountId with
  | error e => simp [hl] at h
  | ok loaded =>
    obtain ⟨account, orders, fills⟩ := loaded
    cases account with
    | none => simp [hl] at h
    | some account =>
      simp only [hl, Option.some.injEq] at h
      subst h
      exact ⟨shows_of_loadPaper hl hrows, accountId_of_loadPaper hl⟩

/-- `load_paper` outside a transaction: each table is read by a statement of its own,
so other writers may commit between any two of them. -/
def loadPaperReads {σ : Type} (view : σ → Database) (accountId : String) :
    Program σ (Except String (Option PaperAccount × Orders × Fills)) := do
  let row ← .read (fun s => (view s).paperAccounts.get? accountId)
  let orders ← .read (fun s => (view s).paperOrders)
  let fills ← .read (fun s => (view s).paperFills)
  match row with
  | none => pure (.ok (none, orders, fills))
  | some account =>
      let rows ← .read (fun s =>
        (view s).paperPositions.rows.filter (fun p => decide (p.status = .open)))
      match Table.ofList? rows with
      | none => pure (.error "duplicate open paper position")
      | some positions =>
          let trades ← .read (fun s => (view s).closedTrades.rows)
          pure (.ok (some { account with openPositions := positions, closedTrades := trades },
            orders, fills))

/-- A load is composed of what its five statements observed. -/
theorem loadPaperReads_holds {σ : Type} {d : Discipline σ} {view : σ → Database}
    {accountId : String} {A : Option PaperAccount → σ → Prop} {O : Orders → σ → Prop}
    {F : Fills → σ → Prop} {P : List PaperPosition → σ → Prop} {T : List ClosedTrade → σ → Prop}
    (hA : Program.Observes d (fun s => (view s).paperAccounts.get? accountId) A)
    (hO : Program.Observes d (fun s => (view s).paperOrders) O)
    (hF : Program.Observes d (fun s => (view s).paperFills) F)
    (hP : Program.Observes d (fun s =>
      (view s).paperPositions.rows.filter (fun p => decide (p.status = .open))) P)
    (hT : Program.Observes d (fun s => (view s).closedTrades.rows) T) (s : σ) :
    (loadPaperReads view accountId).Holds d (fun loaded s => ∀ account orders fills,
      loaded = .ok (account, orders, fills) →
        O orders s ∧ F fills s ∧
          (∃ row, A row s ∧ account.map encodeAccount = row.map encodeAccount) ∧
          ∀ a, account = some a → P a.openPositions.rows s ∧ T a.closedTrades s) s := by
  refine Program.Holds.read hA (fun row s₁ _ _ hrow => ?_)
  refine Program.Holds.read hO (fun orders s₂ h₂ _ horders => ?_)
  refine Program.Holds.read hF (fun fills s₃ h₃ _ hfills => ?_)
  have hrow₃ := hA.stable _ _ _ (d.rely_trans h₂ h₃) hrow
  have horders₃ := hO.stable _ _ _ h₃ horders
  cases row with
  | none =>
    intro s' hr _ account orders' fills' he
    simp only [Except.ok.injEq, Prod.mk.injEq] at he
    obtain ⟨rfl, rfl, rfl⟩ := he
    exact ⟨hO.stable _ _ _ hr horders₃, hF.stable _ _ _ hr hfills,
      ⟨none, hA.stable _ _ _ hr hrow₃, rfl⟩, by simp⟩
  | some account =>
    refine Program.Holds.read hP (fun rows s₄ h₄ _ hrows => ?_)
    cases hopen : (Table.ofList? rows : Option (Table PaperPosition.symbol)) with
    | none =>
      intro s' _ _ account orders' fills' he
      cases he
    | some positions =>
      refine Program.Holds.read hT (fun trades s₅ h₅ _ htrades => ?_)
      intro s' hr _ account' orders' fills' he
      simp only [Except.ok.injEq, Prod.mk.injEq] at he
      obtain ⟨rfl, rfl, rfl⟩ := he
      have h₃' : d.rely s₃ s' := d.rely_trans (d.rely_trans h₄ h₅) hr
      refine ⟨hO.stable _ _ _ h₃' horders₃, hF.stable _ _ _ h₃' hfills,
        ⟨some account, hA.stable _ _ _ h₃' hrow₃, rfl⟩, ?_⟩
      intro a ha
      obtain rfl := Option.some.inj ha
      refine ⟨?_, hT.stable _ _ _ hr htrades⟩
      change P positions.rows s'
      rw [Table.rows_of_ofList? hopen]
      exact hP.stable _ _ _ (d.rely_trans h₅ hr) hrows

/-- A load returns the account it was asked for. -/
theorem loadPaperReads_accountId {σ : Type} (d : Discipline σ) (view : σ → Database)
    (accountId : String) (s : σ) :
    (loadPaperReads view accountId).Holds d (fun loaded _ => ∀ account orders fills,
      loaded = .ok (some account, orders, fills) → account.accountId = accountId) s := by
  have hrow : Program.Observes d (fun s => (view s).paperAccounts.get? accountId)
      (fun row _ => ∀ r, row = some r → r.accountId = accountId) :=
    ⟨fun _ _ _ hr => (Table.get?_eq_some.mp hr).2, fun _ _ _ _ h => h⟩
  have htrivial : ∀ {β : Type} (f : σ → β), Program.Observes d f (fun _ _ => True) :=
    fun _ => ⟨fun _ _ => trivial, fun _ _ _ _ _ => trivial⟩
  refine (loadPaperReads_holds hrow (htrivial _) (htrivial _) (htrivial _) (htrivial _) s).mono ?_
  intro loaded s' _ h account orders fills he
  obtain ⟨-, -, ⟨row, hid, hencode⟩, -⟩ := h (some account) orders fills he
  obtain ⟨r, rfl, hr⟩ := Option.map_eq_some_iff.mp hencode.symm
  exact (accountId_of_encode hr).symm.trans (hid r rfl)

/-! ## Saving -/

/-- An event of the in-memory journal as a save appends it. -/
def rowOf (e : JournalEvent) : JournalRow :=
  ⟨e.timestamp, some e.runId, some e.symbol, e.entityId, e.eventType, "INFO", e.details⟩

theorem writeEvents_journal (db : Database) (events : List JournalEvent) :
    (db.writeEvents events).journal = db.journal ++ events.map rowOf := by
  induction events generalizing db with
  | nil => simp [writeEvents]
  | cons e events ih =>
    have hstep := ih (db.event e.timestamp (some e.runId) (some e.symbol) e.entityId e.eventType
      "INFO" e.details)
    rw [List.map_cons, List.append_cons]
    exact hstep

@[simp] theorem persist_journal (db : Database) (b : PaperBroker) :
    (db.persist b).journal = db.journal ++ b.journal.map rowOf :=
  writeEvents_journal (db.writePaper b) b.journal

/-- A save rewrites the PAPER tables as `writePaper` does. -/
theorem persist_fields (db : Database) (b : PaperBroker) :
    (db.persist b).paperAccounts = db.paperAccounts.put (encodeAccount b.account) ∧
    (db.persist b).paperOrders = db.paperOrders.putAll b.orders.rows ∧
    (db.persist b).paperFills = db.paperFills.putAll b.fills.rows ∧
    (db.persist b).paperPositions = (db.writePaper b).paperPositions ∧
    (db.persist b).closedTrades = db.closedTrades.putAll b.account.closedTrades := by
  obtain ⟨journal, hj⟩ := writeEvents_eq (db.writePaper b) b.journal
  simp only [persist, hj]
  exact ⟨rfl, rfl, rfl, rfl, rfl⟩

/-- The positions a save leaves: written ones and older ones, closed when a trade
of the saved account names them. -/
theorem mem_persist_positions {db : Database} {b : PaperBroker}
    (hidentity : ∀ p ∈ b.account.openPositions, ∀ q ∈ b.account.openPositions,
      p.positionId = q.positionId → p = q) {p : PaperPosition} :
    p ∈ (db.persist b).paperPositions ↔
      ∃ q, (q ∈ b.account.openPositions ∨ (q ∈ db.paperPositions ∧
          ∀ s ∈ b.account.openPositions, s.positionId ≠ q.positionId)) ∧
        p = if q.positionId ∈ b.account.closedTrades.map (·.positionId) then
          { q with status := .closed } else q := by
  have hn : (b.account.openPositions.rows.map PaperPosition.positionId).Nodup :=
    b.account.openPositions.nodup.of_map.map_on (fun p hp q hq => hidentity p hp q hq)
  rw [(persist_fields db b).2.2.2.1, writePaper, Table.mem_modify]
  constructor
  · rintro ⟨q, hq, rfl⟩
    exact ⟨q, (Table.mem_putAll hn).mp hq, rfl⟩
  · rintro ⟨q, hq, rfl⟩
    exact ⟨q, (Table.mem_putAll hn).mpr hq, rfl⟩

/-- Persisting a sound broker that covers the durable one makes it the durable one. -/
theorem Shows.persist_of_covers {db : Database} {a b : PaperBroker} (h : db.Shows a)
    (hcovers : a.Covers b) (hb : b.Sound) : (db.persist b).Shows b := by
  obtain ⟨haccounts, horders, hfills, -, htrades⟩ := persist_fields db b
  have hmemTrades : ∀ t, t ∈ (db.persist b).closedTrades ↔ t ∈ b.account.closedTrades := by
    intro t
    rw [htrades]
    refine Table.mem_putAll_of_cover hb.trades (fun r hr => ?_)
    exact ⟨r, hcovers.trades r (h.mem_trades.mp hr), rfl⟩
  refine { account := ?_, orders := ?_, fills := ?_, positions := ?_, trades := ?_,
           closed := ?_ }
  · have hkey : (encodeAccount b.account).accountId = b.account.accountId := rfl
    rw [haccounts, ← hkey, Table.get?_put_self]
    rfl
  · intro o
    rw [horders]
    refine Table.mem_putAll_of_cover b.orders.nodup (fun r hr => ?_)
    exact hcovers.orders r ((h.orders r).mp hr)
  · intro f
    rw [hfills]
    refine Table.mem_putAll_of_cover b.fills.nodup (fun r hr => ?_)
    exact hcovers.fills r ((h.fills r).mp hr)
  · intro p
    rw [mem_persist_positions hb.identity]
    constructor
    · rintro ⟨⟨q, hq, hp⟩, hstatus⟩
      split_ifs at hp with hclosed
      · rw [hp] at hstatus
        cases hstatus
      · subst hp
        rcases hq with hq | ⟨hq, hother⟩
        · exact hq
        · -- an older row that is still open and was not written has been closed
          rcases hcovers.positions p ((h.positions p).mp ⟨hq, hstatus⟩) with
            ⟨t, ht, hid⟩ | ⟨s, hs, hid⟩
          · exact absurd (List.mem_map.mpr ⟨t, ht, hid⟩) hclosed
          · exact absurd hid (hother s hs)
    · intro hp
      have hapart : p.positionId ∉ b.account.closedTrades.map (·.positionId) := by
        intro hmem
        obtain ⟨t, ht, hid⟩ := List.mem_map.mp hmem
        exact hb.apart p hp t ht hid
      exact ⟨⟨p, .inl hp, by rw [if_neg hapart]⟩, (hb.position p hp).isOpen⟩
  · exact (List.perm_ext_iff_of_nodup (db.persist b).closedTrades.nodup.of_map
      hb.trades.of_map).mpr hmemTrades
  · intro p hp hstatus
    obtain ⟨q, hq, rfl⟩ := (mem_persist_positions hb.identity).mp hp
    split_ifs at hstatus ⊢ with hclosed
    · obtain ⟨t, ht, hid⟩ := List.mem_map.mp hclosed
      exact ⟨t, (hmemTrades t).mpr ht, hid⟩
    · rcases hq with hq | ⟨hq, -⟩
      · rw [(hb.position q hq).isOpen] at hstatus
        cases hstatus
      · obtain ⟨t, ht, hid⟩ := h.closed q hq hstatus
        exact ⟨t, (hmemTrades t).mpr (hcovers.trades t (h.mem_trades.mp ht)), hid⟩

theorem Shows.persist {db : Database} {a b : PaperBroker} (h : db.Shows a) (hlater : a.Later b)
    (hb : b.Sound) : (db.persist b).Shows b :=
  h.persist_of_covers hlater.covers hb

/-- A compare-and-swap save that commits found the durable state it was computed from. -/
theorem savePaper_true {db db' : Database} {a s b : PaperBroker} {ownerKey : Option String}
    {symbol : String} (h : db.Shows a)
    (hid : b.account.accountId = a.account.accountId)
    (hsave : savePaper b ownerKey symbol (some (stateOf s)) db = .ok (true, db')) :
    db.Shows s ∧ stateOf a = stateOf s ∧ db' = db.persist b := by
  obtain ⟨account, orders, fills, hload, hstate⟩ := h.loadPaper
  unfold savePaper at hsave
  split_ifs at hsave
  simp only [hid, hload] at hsave
  split_ifs at hsave with hne
  · cases hsave
  · simp only [Except.ok.injEq, Prod.mk.injEq, true_and] at hsave
    push Not at hne
    have he : stateOf a = stateOf s := hstate.symm.trans hne
    exact ⟨h.of_stateOf he, he, hsave.symm⟩

/-- A save that reports a stale state has written nothing. -/
theorem savePaper_false {db db' : Database} {b : PaperBroker} {ownerKey : Option String}
    {symbol : String} {expected : Option PaperState}
    (hsave : savePaper b ownerKey symbol expected db = .ok (false, db')) : db' = db := by
  rcases (savePaper_ok hsave).2 with ⟨-, h⟩ | ⟨h, -⟩
  · exact h
  · cases h

end Database

end MarketSystem
