import MarketSystem.Replay.RecordedState
import MarketSystem.Runtime.OneExposure

/-!
# The management of the oracle

`manage_bar` visits the open positions of a recorded state in the recorded order. A bar acts on at
most one of them, the position under its symbol, and does there what the trade manager does.
-/
namespace MarketSystem.RexOracle

open Library
open MarketSystem.Database (encodeAccount)

section Management

variable {pre post : PaperState} {b : PaperBroker} {bar : Bar} {p : PaperPosition}

theorem validOhlc_eq : validOhlc bar = bar.validOhlc := by
  unfold validOhlc Bar.validOhlc
  by_cases hopen : bar.low ≤ bar.open_ ∧ bar.open_ ≤ bar.high
  · simp [hopen]
  · have hnot : ¬(bar.low ≤ bar.open_ ∧ bar.open_ ≤ bar.high ∧ bar.low ≤ bar.close ∧
        bar.close ≤ bar.high) := fun h => hopen ⟨h.1, h.2.1⟩
    simp only [decide_eq_false hnot, decide_eq_false hopen, Bool.and_false, Bool.false_and]

theorem exitOf_eq : exitOf p bar = TradeManager.exitOf p bar := by
  unfold exitOf TradeManager.exitOf
  cases p.side with
  | long => simp
  | short => simp

theorem unrealized_eq : unrealized p = TradeManager.unrealized p := by
  unfold unrealized TradeManager.unrealized gross
  cases p.lastPrice with
  | none => rfl
  | some last =>
    cases hmultiplier : p.contractMultiplier with
    | none => simp [validMultiplier]
    | some multiplier =>
      by_cases hvalid : valid multiplier = true
      · cases p.side with
        | long => simp [validMultiplier, hvalid]
        | short => simp [validMultiplier, hvalid]
      · simp [validMultiplier, hvalid]

/-- The guards of the loop are those of the trade manager. -/
theorem actsOn_iff : TradeManager.actsOn bar p = true ↔
    p.status = .open ∧ bar.symbol = p.symbol ∧ validMultiplier p.contractMultiplier = true ∧
      p.openedAt < bar.timestamp ∧
      p.lastProcessedAt.any (fun processed => decide (bar.timestamp ≤ processed)) = false ∧
      validOhlc bar = true := by
  unfold TradeManager.actsOn
  simp only [Bool.and_eq_true, decide_eq_true_eq, validOhlc_eq, and_assoc]
  cases p.lastProcessedAt with
  | none => simp
  | some last => simp

/-- Where the bar acts on the position, and what it does there, is as in the trade manager. -/
theorem manage_eq (m : Managed) : manage bar m p =
    if TradeManager.actsOn bar p = true then
      match TradeManager.exitOf p bar with
      | none =>
        { m with
          positions := m.positions.put (TradeManager.held p bar)
          openPositions := m.openPositions.put (TradeManager.held p bar) }
      | some (price, reason) =>
        { account := { m.account with
            realizedPnl := m.account.realizedPnl + (newTrade p bar price reason).netPnl }
          positions := m.positions.erase p.positionId
          openPositions := m.openPositions.erase p.symbol
          events := m.events ++
            [if reason = "stop" then "STOP_HIT" else "TARGET_HIT", "POSITION_CLOSED"]
          closed := m.closed ++ [newTrade p bar price reason] }
    else m := by
  unfold manage
  rw [exitOf_eq]
  by_cases hstatus : p.status = .open
  · rw [if_neg (not_not_intro hstatus)]
    by_cases hsymbol : bar.symbol ≠ p.symbol ∨ validMultiplier p.contractMultiplier = false
    · have hnot : ¬TradeManager.actsOn bar p = true := fun hacts => by
        obtain ⟨-, hsame, hvalid, -⟩ := actsOn_iff.mp hacts
        simp [hsame, hvalid] at hsymbol
      rw [if_pos hsymbol, if_neg hnot]
    · rw [if_neg hsymbol]
      by_cases hearly : bar.timestamp ≤ p.openedAt
      · have hnot : ¬TradeManager.actsOn bar p = true := fun hacts =>
          absurd (actsOn_iff.mp hacts).2.2.2.1 (not_lt.mpr hearly)
        rw [if_pos hearly, if_neg hnot]
      · rw [if_neg hearly]
        by_cases hseen : p.lastProcessedAt.any
            (fun processed => decide (bar.timestamp ≤ processed)) = true
        · have hnot : ¬TradeManager.actsOn bar p = true := fun hacts => by
            rw [(actsOn_iff.mp hacts).2.2.2.2.1] at hseen
            cases hseen
          rw [if_pos hseen, if_neg hnot]
        · rw [if_neg hseen]
          by_cases hprices : validOhlc bar = false
          · have hnot : ¬TradeManager.actsOn bar p = true := fun hacts => by
              rw [(actsOn_iff.mp hacts).2.2.2.2.2] at hprices
              cases hprices
            rw [if_pos hprices, if_neg hnot]
          · rw [not_or, not_not, Bool.not_eq_false] at hsymbol
            have hacts : TradeManager.actsOn bar p = true := actsOn_iff.mpr ⟨hstatus, hsymbol.1,
              hsymbol.2, not_le.mp hearly, by simpa using hseen, by simpa using hprices⟩
            rw [if_neg hprices, if_pos hacts]
            rfl
  · have hnot : ¬TradeManager.actsOn bar p = true := fun hacts =>
      hstatus (actsOn_iff.mp hacts).1
    rw [if_pos hstatus, if_neg hnot]

theorem manage_of_other (m : Managed) (h : p.symbol ≠ bar.symbol) : manage bar m p = m := by
  rw [manage_eq, if_neg]
  intro hacts
  exact h (TradeManager.symbol_of_actsOn hacts).symm

theorem foldl_manage_of_other {visited : List PaperPosition}
    (h : ∀ p ∈ visited, p.symbol ≠ bar.symbol) (m : Managed) :
    visited.foldl (manage bar) m = m := by
  induction visited with
  | nil => rfl
  | cons p visited ih =>
    rw [List.foldl_cons, manage_of_other m (h p List.mem_cons_self)]
    exact ih fun q hq => h q (List.mem_cons_of_mem _ hq)

/-- The loop is its round on the position under the symbol of the bar. -/
theorem foldl_manage {visited : List PaperPosition} {t : Table PaperPosition.symbol}
    (hvisited : visited.Perm t.rows) (m : Managed) :
    visited.foldl (manage bar) m =
      match t.get? bar.symbol with
      | some p => manage bar m p
      | none => m := by
  cases hget : t.get? bar.symbol with
  | none =>
    apply foldl_manage_of_other
    intro p hp
    exact Table.get?_eq_none.mp hget p (hvisited.mem_iff.mp hp)
  | some p =>
    obtain ⟨hmem, hsymbol⟩ := Table.get?_eq_some.mp hget
    obtain ⟨before, after, rfl⟩ := List.append_of_mem (hvisited.mem_iff.mpr hmem)
    have hnodup : ((before ++ p :: after).map PaperPosition.symbol).Nodup :=
      (hvisited.map _).nodup_iff.mpr t.nodup
    rw [List.map_append, List.map_cons, List.nodup_append, List.nodup_cons] at hnodup
    obtain ⟨-, ⟨hafter, -⟩, hbefore⟩ := hnodup
    have hfirst : ∀ q ∈ before, q.symbol ≠ bar.symbol := by
      intro q hq heq
      exact hbefore q.symbol (List.mem_map_of_mem hq) p.symbol List.mem_cons_self
        (heq.trans hsymbol.symm)
    have hlast : ∀ q ∈ after, q.symbol ≠ bar.symbol := by
      intro q hq heq
      exact hafter (List.mem_map.mpr ⟨q, hq, heq.trans hsymbol.symm⟩)
    rw [List.foldl_append, foldl_manage_of_other hfirst, List.foldl_cons,
      foldl_manage_of_other hlast]

/-- A list that has every symbol once visits every position once. -/
theorem visited_perm {t : Table PaperPosition.symbol} {order : List String} (horder : order.Nodup)
    (hall : ∀ p ∈ t, p.symbol ∈ order) : (order.filterMap t.get?).Perm t.rows := by
  have hnodup : (order.filterMap t.get?).Nodup := by
    apply horder.filterMap
    intro a a' p hp hp'
    exact (Table.get?_eq_some.mp hp).2.symm.trans (Table.get?_eq_some.mp hp').2
  rw [List.perm_ext_iff_of_nodup hnodup t.nodup.of_map]
  intro p
  rw [List.mem_filterMap]
  constructor
  · rintro ⟨symbol, -, hget⟩
    exact (Table.get?_eq_some.mp hget).1
  · intro hp
    exact ⟨p.symbol, hall p hp, Table.get?_of_mem hp⟩

theorem sum_unrealized {t t' : Table PaperPosition.symbol} {order : List String}
    (horder : order.Nodup) (hall : ∀ p ∈ t, p.symbol ∈ order) (hsame : ∀ p, p ∈ t ↔ p ∈ t') :
    ((order.filterMap t.get?).map unrealized).sum = t'.total TradeManager.unrealized := by
  have hperm : (order.filterMap t.get?).Perm t'.rows :=
    (visited_perm horder hall).trans (Database.rows_perm hsame)
  have heq : (unrealized : PaperPosition → ℚ) = TradeManager.unrealized :=
    funext fun p => unrealized_eq
  rw [heq, Table.total]
  exact (hperm.map _).sum_eq

/-- An expected state with one new trade is met where that trade has some new id. -/
theorem compare_closed {expected : PaperState} (trade : ClosedTrade) (after : String → PaperBroker)
    (h : Records expected b) (haccount : ∀ id, encodeAccount (after id).account =
      encodeAccount b.account)
    (hpositions : ∀ id, (after id).account.openPositions = b.account.openPositions)
    (hclosed : ∀ id, (after id).account.closedTrades =
      b.account.closedTrades ++ [{ trade with tradeId := id }])
    (horders : ∀ id, (after id).orders = b.orders) (hfills : ∀ id, (after id).fills = b.fills) :
    compareStates expected { closed := [trade] } post = [] ↔
      ∃ id, (∀ t ∈ b.account.closedTrades, t.tradeId ≠ id) ∧ Records post (after id) := by
  rw [compareStates_eq_nil, comparePart_nil, comparePart_one, comparePart_nil, comparePart_nil,
    h.account]
  constructor
  · rintro ⟨ha, hp, ⟨id, hfresh, hc⟩, ho, hf⟩
    refine ⟨id, fun t ht => hfresh t ((h.closed t).mpr ht), ?_⟩
    refine ⟨ha.trans (congrArg some (haccount id).symm), fun p => ?_, fun t => ?_, fun o => ?_,
      fun f => ?_⟩
    · rw [hp, h.positions, hpositions]
    · rw [hc, h.closed, hclosed, List.mem_append, List.mem_singleton]
    · rw [ho, h.orders, horders]
    · rw [hf, h.fills, hfills]
  · rintro ⟨id, hfresh, hpost⟩
    refine ⟨hpost.account.trans (congrArg some (haccount id)), fun p => ?_,
      ⟨id, fun t ht => hfresh t ((h.closed t).mp ht), fun t => ?_⟩, fun o => ?_, fun f => ?_⟩
    · rw [hpost.positions, hpositions, h.positions]
    · rw [hpost.closed, hclosed, List.mem_append, List.mem_singleton, h.closed]
    · rw [hpost.orders, horders, h.orders]
    · rw [hpost.fills, hfills, h.fills]

/-- Two open positions have one id where they have one symbol. -/
theorem same_id_iff (h : Records pre b) {q : PaperPosition} (hp : p ∈ b.account.openPositions)
    (hq : q ∈ b.account.openPositions) : q.positionId = p.positionId ↔ q.symbol = p.symbol := by
  constructor
  · intro hid
    rw [Table.eq_of_key ((h.positions q).mpr hq) ((h.positions p).mpr hp) hid]
  · intro hsymbol
    rw [Table.eq_of_key hq hp hsymbol]

/-- The account of the state is marked like the account of the broker. -/
theorem marked_account {account : PaperAccount} {realized total : ℚ} {a : PaperAccount}
    (haccount : account = encodeAccount a) (hrealized : realized = a.realizedPnl)
    (htotal : total = a.openPositions.total TradeManager.unrealized) :
    { account with
      realizedPnl := realized
      unrealizedPnl := total
      equity := account.startingEquity + realized + total } =
      encodeAccount (TradeManager.remark a) := by
  subst haccount hrealized htotal
  rfl

theorem exists_tradeId (b : PaperBroker) :
    ∃ tradeId, ∀ t ∈ b.account.closedTrades, t.tradeId ≠ tradeId :=
  ⟨GuardedWrite.longerThan (b.account.closedTrades.map (·.tradeId)), fun _ ht =>
    GuardedWrite.longerThan_fresh _ _ (List.mem_map_of_mem ht)⟩

theorem reason_of_exit {price : ℚ} {reason : String}
    (h : TradeManager.exitOf p bar = some (price, reason)) :
    reason = "stop" ∨ reason = "target" := by
  unfold TradeManager.exitOf at h
  dsimp only at h
  split_ifs at h with h₁ h₂ h₃ h₄
  · exact .inl (Prod.ext_iff.mp (Option.some.inj h)).2.symm
  · exact .inr (Prod.ext_iff.mp (Option.some.inj h)).2.symm
  · exact .inl (Prod.ext_iff.mp (Option.some.inj h)).2.symm
  · exact .inr (Prod.ext_iff.mp (Option.some.inj h)).2.symm

/-- `process_bar` under some new trade id. -/
def ManagedBy (b : PaperBroker) (bar : Bar) (c : PaperBroker) : Prop :=
  ∃ tradeId, (∀ t ∈ b.account.closedTrades, t.tradeId ≠ tradeId) ∧
    c = (TradeManager.processBar b bar tradeId).1

/-- Where the bar closes nothing the trade id does not matter. -/
theorem foretells_unchanged {applied : Applied} {c : PaperBroker} (hfailures : applied.failures = [])
    (hnew : applied.new = {}) (hevents : applied.events = c.journal.map (·.eventType))
    (hstate : Records applied.state c)
    (hbar : ∀ tradeId, (TradeManager.processBar b bar tradeId).1 = c) :
    Foretells applied (ManagedBy b bar) := by
  refine foretells_one hfailures hnew hevents hstate fun d => ⟨?_, ?_⟩
  · rintro ⟨tradeId, -, rfl⟩
    exact hbar tradeId
  · rintro rfl
    obtain ⟨tradeId, hfresh⟩ := exists_tradeId b
    exact ⟨tradeId, hfresh, (hbar tradeId).symm⟩

/-- The broker after a bar that closes the position. -/
def booked (b : PaperBroker) (bar : Bar) (p : PaperPosition) (price : ℚ) (reason tradeId : String) :
    PaperBroker :=
  let trade := TradeManager.closedTrade tradeId p price bar.timestamp reason
  let c := TradeManager.levelEvent { b with account := TradeManager.settle b.account p trade }
    bar.timestamp p.runId p.symbol tradeId reason
  { c.event (some bar.timestamp) p.runId p.symbol tradeId "POSITION_CLOSED" with
    account := TradeManager.remark (TradeManager.settle b.account p trade) }

theorem processBar_closing {price : ℚ} {reason : String} (hclosed : bar.isClosed = true)
    (hposition : b.account.openPositions.get? bar.symbol = some p)
    (hacts : TradeManager.actsOn bar p = true)
    (hexit : TradeManager.exitOf p bar = some (price, reason)) (tradeId : String) :
    (TradeManager.processBar b bar tradeId).1 = booked b bar p price reason tradeId := by
  rw [TradeManager.processBar_eq hclosed, hposition]
  simp only [TradeManager.processPosition, hacts, hexit, if_true, PaperBroker.event_account,
    TradeManager.levelEvent_account]
  rfl

/-- What `manage_bar` returns after the pass over the positions. -/
def passed (pre : PaperState) (order : List String) (m : Managed) : Applied :=
  let unrealizedPnl := ((order.filterMap m.openPositions.get?).map unrealized).sum
  { state := { pre with
      account := some { m.account with
        unrealizedPnl := unrealizedPnl
        equity := m.account.startingEquity + m.account.realizedPnl + unrealizedPnl }
      positions := m.positions }
    events := m.events
    new := { closed := m.closed } }

/-- The pass meets the position under the symbol of the bar, and no other. -/
theorem manageBar_eq {order : List String} (h : Records pre b) (hclosed : bar.isClosed = true)
    (horder : order.Perm (b.account.openPositions.rows.map PaperPosition.symbol)) :
    ∃ open_, (∀ p, p ∈ open_ ↔ p ∈ b.account.openPositions) ∧
      manageBar pre bar order = .ok (passed pre order
        (match b.account.openPositions.get? bar.symbol with
        | none => ⟨encodeAccount b.account, pre.positions, open_, [], []⟩
        | some p => manage bar ⟨encodeAccount b.account, pre.positions, open_, [], []⟩ p)) := by
  obtain ⟨open_, hopen, hsame⟩ := openBySymbol_of_records h
  have hsymbols : order.Perm (open_.rows.map PaperPosition.symbol) :=
    horder.trans ((Database.rows_perm hsame).symm.map _)
  have hall : ∀ p ∈ open_, p.symbol ∈ order := fun p hp =>
    hsymbols.mem_iff.mpr (List.mem_map_of_mem hp)
  have hvisited := visited_perm (horder.nodup_iff.mpr b.account.openPositions.nodup) hall
  have hget : open_.get? bar.symbol = b.account.openPositions.get? bar.symbol :=
    Table.get?_eq_of_mem_iff hsame _
  refine ⟨open_, hsame, ?_⟩
  unfold manageBar
  rw [if_neg (by simp [hclosed]), hopen, h.account]
  simp only [bind, Except.bind, require, decide_eq_true hsymbols, if_true, pure, Except.pure]
  rw [foldl_manage hvisited, hget]
  cases b.account.openPositions.get? bar.symbol with
  | none => rfl
  | some p => rfl

section Pass

variable {order : List String} {m : Managed} {a : PaperAccount}
  {open_ : Table PaperPosition.symbol} {price : ℚ} {reason : String}

/-- After the pass the state is that of the account the pass has left, marked. -/
theorem records_passed (h : Records pre b) (horder : order.Nodup)
    (hall : ∀ p ∈ a.openPositions, p.symbol ∈ order) (haccount : m.account = encodeAccount a)
    (hopen : ∀ p, p ∈ m.openPositions ↔ p ∈ a.openPositions)
    (hpositions : ∀ p, p ∈ m.positions ↔ p ∈ a.openPositions)
    (htrades : a.closedTrades = b.account.closedTrades) :
    Records (passed pre order m).state { b with account := TradeManager.remark a } := by
  have hsum := sum_unrealized horder (fun p hp => hall p ((hopen p).mp hp)) hopen
  have hrealized : m.account.realizedPnl = a.realizedPnl := by
    rw [haccount]
    rfl
  have htrade : ∀ t, t ∈ pre.closed ↔ t ∈ a.closedTrades := fun t => by
    rw [h.closed, htrades]
  exact ⟨congrArg some (marked_account haccount hrealized hsum), hpositions, htrade, h.orders,
    h.fills⟩

/-- A pass that touches no position. -/
theorem foretells_kept (h : Records pre b) (hjournal : b.journal = [])
    (horder : order.Perm (b.account.openPositions.rows.map PaperPosition.symbol))
    (hsame : ∀ p, p ∈ open_ ↔ p ∈ b.account.openPositions)
    (hbar : ∀ tradeId, (TradeManager.processBar b bar tradeId).1 =
      { b with account := TradeManager.remark b.account }) :
    Foretells (passed pre order ⟨encodeAccount b.account, pre.positions, open_, [], []⟩)
      (ManagedBy b bar) := by
  refine foretells_unchanged rfl rfl ?_ ?_ hbar
  · rw [hjournal]
    rfl
  · exact records_passed h (horder.nodup_iff.mpr b.account.openPositions.nodup)
      (fun p hp => horder.mem_iff.mpr (List.mem_map_of_mem hp)) rfl hsame h.positions rfl

/-- A pass that holds the position. -/
theorem foretells_held (h : Records pre b) (hjournal : b.journal = [])
    (horder : order.Perm (b.account.openPositions.rows.map PaperPosition.symbol))
    (hsame : ∀ p, p ∈ open_ ↔ p ∈ b.account.openPositions) (hclosed : bar.isClosed = true)
    (hposition : b.account.openPositions.get? bar.symbol = some p)
    (hacts : TradeManager.actsOn bar p = true) (hexit : TradeManager.exitOf p bar = none) :
    Foretells (passed pre order ⟨encodeAccount b.account,
        pre.positions.put (TradeManager.held p bar), open_.put (TradeManager.held p bar), [], []⟩)
      (ManagedBy b bar) := by
  obtain ⟨hmem, -⟩ := Table.get?_eq_some.mp hposition
  have hall : ∀ q ∈ b.account.openPositions.put (TradeManager.held p bar), q.symbol ∈ order := by
    intro q hq
    rcases Table.mem_put.mp hq with rfl | ⟨hq, -⟩
    · exact horder.mem_iff.mpr (List.mem_map.mpr ⟨p, hmem, rfl⟩)
    · exact horder.mem_iff.mpr (List.mem_map_of_mem hq)
  refine foretells_unchanged rfl rfl (c := { b with account := TradeManager.remark { b.account with
    openPositions := b.account.openPositions.put (TradeManager.held p bar) } }) ?_ ?_ ?_
  · rw [hjournal]
    rfl
  · refine records_passed h (horder.nodup_iff.mpr b.account.openPositions.nodup) hall rfl
      (fun q => ?_) (fun q => ?_) rfl
    · rw [Table.mem_put, Table.mem_put, hsame]
    · rw [Table.mem_put, Table.mem_put, h.positions]
      refine or_congr_right (and_congr_right fun hq => not_congr ?_)
      have hid : q.positionId = p.positionId ↔ q.symbol = p.symbol := same_id_iff h hmem hq
      exact hid
  · intro tradeId
    rw [TradeManager.processBar_eq hclosed, hposition]
    simp only [TradeManager.processPosition, hacts, hexit, if_true]
    rfl

/-- A pass that closes the position. -/
theorem foretells_closing (h : Records pre b) (hjournal : b.journal = [])
    (horder : order.Perm (b.account.openPositions.rows.map PaperPosition.symbol))
    (hsame : ∀ p, p ∈ open_ ↔ p ∈ b.account.openPositions) (hclosed : bar.isClosed = true)
    (hposition : b.account.openPositions.get? bar.symbol = some p)
    (hacts : TradeManager.actsOn bar p = true)
    (hexit : TradeManager.exitOf p bar = some (price, reason)) :
    Foretells (passed pre order
        { account := { encodeAccount b.account with
            realizedPnl := b.account.realizedPnl + (newTrade p bar price reason).netPnl }
          positions := pre.positions.erase p.positionId
          openPositions := open_.erase p.symbol
          events := [if reason = "stop" then "STOP_HIT" else "TARGET_HIT", "POSITION_CLOSED"]
          closed := [newTrade p bar price reason] })
      (ManagedBy b bar) := by
  obtain ⟨hmem, -⟩ := Table.get?_eq_some.mp hposition
  have hbar := processBar_closing hclosed hposition hacts hexit
  have hall : ∀ q ∈ b.account.openPositions.erase p.symbol, q.symbol ∈ order := fun q hq =>
    horder.mem_iff.mpr (List.mem_map_of_mem (Table.mem_erase.mp hq).1)
  have hrecords := records_passed (m := Managed.mk _ (pre.positions.erase p.positionId)
      (open_.erase p.symbol) [if reason = "stop" then "STOP_HIT" else "TARGET_HIT",
        "POSITION_CLOSED"] [newTrade p bar price reason])
    (a := { b.account with
      realizedPnl := b.account.realizedPnl + (newTrade p bar price reason).netPnl
      openPositions := b.account.openPositions.erase p.symbol })
    h (horder.nodup_iff.mpr b.account.openPositions.nodup) hall rfl
    (fun q => by rw [Table.mem_erase, Table.mem_erase, hsame])
    (fun q => by
      rw [Table.mem_erase, Table.mem_erase, h.positions]
      exact and_congr_right fun hq => not_congr (same_id_iff h hmem hq)) rfl
  refine ⟨fun _ _ => rfl, ?_, fun _ post => ?_⟩
  · rintro c ⟨tradeId, -, rfl⟩
    rw [hbar]
    rcases reason_of_exit hexit with rfl | rfl
    · simp [passed, booked, TradeManager.levelEvent, PaperBroker.event, hjournal]
    · simp [passed, booked, TradeManager.levelEvent, PaperBroker.event, hjournal]
  · refine (compare_closed (newTrade p bar price reason) (booked b bar p price reason) hrecords
      (fun _ => rfl) (fun _ => rfl) (fun _ => rfl)
      (fun _ => TradeManager.levelEvent_orders _ _ _ _ _ _)
      (fun _ => TradeManager.levelEvent_fills _ _ _ _ _ _)).trans ?_
    constructor
    · rintro ⟨tradeId, hfresh, hpost⟩
      exact ⟨_, ⟨tradeId, hfresh, (hbar tradeId).symm⟩, hpost⟩
    · rintro ⟨c, ⟨tradeId, hfresh, rfl⟩, hpost⟩
      exact ⟨tradeId, hfresh, hbar tradeId ▸ hpost⟩

end Pass

/-- `manage_bar` is the trade manager. -/
theorem manageBar_answers {order : List String} (h : Records pre b) (hjournal : b.journal = [])
    (horder : order.Perm (b.account.openPositions.rows.map PaperPosition.symbol)) :
    Answers (manageBar pre bar order) (ManagedBy b bar) := by
  cases hclosed : bar.isClosed with
  | false =>
    rw [manageBar, if_pos hclosed]
    refine foretells_unchanged rfl rfl (c := b) ?_ h ?_
    · rw [hjournal]
      rfl
    · intro tradeId
      simp [TradeManager.processBar, hclosed]
  | true =>
    obtain ⟨open_, hsame, hanswer⟩ := manageBar_eq h hclosed horder
    rw [hanswer]
    cases hposition : b.account.openPositions.get? bar.symbol with
    | none =>
      refine foretells_kept h hjournal horder hsame fun tradeId => ?_
      rw [TradeManager.processBar_eq hclosed, hposition]
    | some p =>
      dsimp only
      rw [manage_eq]
      by_cases hacts : TradeManager.actsOn bar p = true
      · rw [if_pos hacts]
        cases hexit : TradeManager.exitOf p bar with
        | none => exact foretells_held h hjournal horder hsame hclosed hposition hacts hexit
        | some exit => exact foretells_closing h hjournal horder hsame hclosed hposition hacts hexit
      · rw [if_neg hacts]
        refine foretells_kept h hjournal horder hsame fun tradeId => ?_
        rw [TradeManager.processBar_eq hclosed, hposition]
        dsimp only
        rw [TradeManager.processPosition_of_not_actsOn (by simpa using hacts)]

/-- The checked bar leaves distinct ids. -/
theorem ManagedBy.distinct {c : PaperBroker} (hb : b.Sound) (hl : b.Linked)
    (h : ManagedBy b bar c) : Distinct c := by
  obtain ⟨tradeId, hfresh, rfl⟩ := h
  exact .of_sound (OneExposure.processBar_saved hb hl hfresh bar).sound

end Management

end MarketSystem.RexOracle
