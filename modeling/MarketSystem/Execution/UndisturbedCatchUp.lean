import MarketSystem.Execution.PositionCatchUp

/-!
# Catch-up without other writers

A call that has the database for itself loads what it saved, so that no save is refused and no bar
is passed over: every eligible bar is applied, up to the one that closes the position. Nothing is
asked of the other rows of the database than that it can be loaded.
-/
namespace MarketSystem.PositionCatchUp

open Library Database

/-! ### Loading -/

/-- A load in one piece and the statements of a load that nobody disturbs. -/
theorem load_alone (call : Call) (w : World) :
    (load call).alone w = (w.db.loadPaper call.accountId, w) := by
  unfold load loadPaperReads Database.loadPaper
  simp only [Program.read_bind, Program.alone_act, id]
  cases hrow : w.db.paperAccounts.get? call.accountId with
  | none => rfl
  | some account =>
    simp only [Program.alone_act, id]
    cases hopen : (Table.ofList? (w.db.paperPositions.rows.filter
        (fun p => decide (p.status = .open))) : Option (Table PaperPosition.symbol)) with
    | none => rfl
    | some positions => rfl

/-- What a load that succeeds has read. -/
theorem loadPaper_some {db : Database} {accountId : String} {a : PaperAccount} {o : Orders}
    {f : Fills} (h : db.loadPaper accountId = .ok (some a, o, f)) :
    a.openPositions.rows = db.paperPositions.rows.filter (fun p => decide (p.status = .open)) ∧
      a.closedTrades = db.closedTrades.rows := by
  unfold Database.loadPaper at h
  cases hrow : db.paperAccounts.get? accountId with
  | none => simp [hrow] at h
  | some row =>
    simp only [hrow] at h
    cases hopen : (Table.ofList? (db.paperPositions.rows.filter
        (fun p => decide (p.status = .open))) : Option (Table PaperPosition.symbol)) with
    | none => simp [hopen] at h
    | some positions =>
      simp only [hopen, Except.ok.injEq, Prod.mk.injEq, Option.some.injEq] at h
      obtain ⟨rfl, -, -⟩ := h
      exact ⟨Table.rows_of_ofList? hopen, rfl⟩

/-- A load succeeds when there is the account and no two open rows share a symbol. -/
theorem loadPaper_ok {db : Database} {accountId : String} {row : PaperAccount}
    (hrow : db.paperAccounts.get? accountId = some row)
    (hopen : ((db.paperPositions.rows.filter (fun p => decide (p.status = .open))).map
      PaperPosition.symbol).Nodup) :
    ∃ a o f, db.loadPaper accountId = .ok (some a, o, f) := by
  unfold Database.loadPaper
  simp only [hrow, Table.ofList?, dif_pos hopen]
  exact ⟨_, _, _, rfl⟩

/-! ### One bar -/

/-- The call may go on: what it loads has the position, and no closed trade of it. -/
structure Ready (call : Call) (a : PaperAccount) (o : Orders) (f : Fills) (p : PaperPosition)
    (w : World) : Prop where
  loads : w.db.loadPaper call.accountId = .ok (some a, o, f)
  held : a.openPositions.get? call.symbol = some p
  apart : ∀ t ∈ a.closedTrades, t.positionId ≠ p.positionId
  owns : ∀ key, call.ownerKey = some key → w.db.ownsSlot key call.symbol = true

section Bar

variable {call : Call} {a : PaperAccount} {o : Orders} {f : Fills} {p : PaperPosition} {w : World}
  {bar : MarketBar}

theorem Ready.mem (h : Ready call a o f p w) {q : PaperPosition} :
    q ∈ a.openPositions ↔ q ∈ w.db.paperPositions ∧ q.status = .open := by
  rw [Table.mem_def, (loadPaper_some h.loads).1, List.mem_filter, decide_eq_true_eq,
    Table.mem_def]

theorem Ready.identity (h : Ready call a o f p w) :
    ∀ q ∈ a.openPositions, ∀ r ∈ a.openPositions, q.positionId = r.positionId → q = r :=
  fun _ hq _ hr hid => Table.eq_of_key (h.mem.mp hq).1 (h.mem.mp hr).1 hid

/-- The save of a bar that nobody disturbs succeeds. -/
theorem Ready.saveBar_eq (h : Ready call a o f p w) (bar : MarketBar) :
    let broker : PaperBroker := { account := a, orders := o, fills := f }
    let result := TradeManager.processBar broker bar.toBar (call.uuid4.draw w.db)
    saveBar call broker p bar w = (.ok (true, result.2), ⟨w.db.persist result.1, w.history ++
      [.bar ⟨p, bar, call.uuid4.draw w.db, positionOf result.1 call.symbol, result.2⟩]⟩) := by
  intro broker result
  have hid : result.1.account.accountId = call.accountId :=
    (TradeManager.processBar_accountId broker _ rfl).trans (accountId_of_loadPaper h.loads)
  have hstate : paperState (some a) o f = stateOf broker := rfl
  have hsave : savePaper result.1 call.ownerKey call.symbol (some (stateOf broker)) w.db =
      .ok (true, w.db.persist result.1) := by
    unfold savePaper
    cases hkey : call.ownerKey with
    | none => simp [hid, h.loads, hstate]
    | some key => simp [h.owns key hkey, hid, h.loads, hstate]
  simp only [saveBar, commit_ok hsave, result, broker]

/-- What a bar leaves of the account when it does not close the position: a position under every
id that was there, and the same trades. -/
structure Stays (a a' : PaperAccount) (symbol : String) (p p' : PaperPosition) : Prop where
  held : a'.openPositions.get? symbol = some p'
  id : p'.positionId = p.positionId
  status : p'.status = p.status
  trades : a'.closedTrades = a.closedTrades
  others : ∀ q, q ∈ a'.openPositions → q = p' ∨ q ∈ a.openPositions
  kept : ∀ q ∈ a.openPositions, ∃ q' ∈ a'.openPositions, q'.positionId = q.positionId

theorem processBar_stays {b : PaperBroker} (hp : positionOf b bar.symbol = some p)
    (tradeId : String) (hopen : (TradeManager.processBar b bar.toBar tradeId).2 = []) :
    ∃ p', Stays b.account (TradeManager.processBar b bar.toBar tradeId).1.account bar.symbol p p' ∧
      (p'.watermark = p.watermark ∨ p'.watermark = bar.start) := by
  obtain ⟨hmem, hsymbol⟩ := positionOf_mem hp
  rcases TradeManager.processBar_cases b tradeId bar.toBar_isClosed with ⟨-, he⟩ |
    ⟨q, hq, -, -, he⟩ | ⟨q, exitPrice, reason, -, -, -, htrade, -⟩
  · rw [he]
    exact ⟨p, ⟨hp, rfl, rfl, rfl, fun q hq => .inr hq, fun q hq => ⟨q, hq, rfl⟩⟩, .inl rfl⟩
  · obtain rfl : p = q := Option.some.inj (hp.symm.trans hq)
    have hheld : (TradeManager.held p bar.toBar).symbol = bar.symbol := hsymbol
    rw [he]
    refine ⟨TradeManager.held p bar.toBar, ⟨?_, rfl, rfl, rfl, ?_, ?_⟩, .inr rfl⟩
    · exact hheld ▸ Table.get?_put_self
    · intro r hr
      exact (Table.mem_put.mp hr).imp_right And.left
    · intro r hr
      by_cases hsame : r.symbol = (TradeManager.held p bar.toBar).symbol
      · obtain rfl := Table.eq_of_key hr hmem (hsame.trans (hheld.trans hsymbol.symm))
        exact ⟨_, Table.mem_put.mpr (.inl rfl), rfl⟩
      · exact ⟨r, Table.mem_put.mpr (.inr ⟨hr, hsame⟩), rfl⟩
  · rw [htrade] at hopen
    cases hopen

theorem Stays.identity {a' : PaperAccount} {p' : PaperPosition}
    (hidentity : ∀ q ∈ a.openPositions, ∀ r ∈ a.openPositions, q.positionId = r.positionId → q = r)
    (hp : a.openPositions.get? call.symbol = some p) (h : Stays a a' call.symbol p p') :
    ∀ q ∈ a'.openPositions, ∀ r ∈ a'.openPositions, q.positionId = r.positionId → q = r := by
  obtain ⟨hmem, hsymbol⟩ := Table.get?_eq_some.mp hp
  obtain ⟨hmem', hsymbol'⟩ := Table.get?_eq_some.mp h.held
  -- an old row under the id of the position is the position as it was
  have hold : ∀ r ∈ a'.openPositions, r ∈ a.openPositions → r.positionId = p'.positionId → r = p' := by
    intro r hr' hr hid
    obtain rfl := hidentity r hr p hmem (hid.trans h.id)
    exact Table.eq_of_key hr' hmem' (hsymbol.trans hsymbol'.symm)
  intro q hq r hr hid
  cases h.others q hq with
  | inl hq' =>
    cases h.others r hr with
    | inl hr' => rw [hq', hr']
    | inr hr' => rw [hold r hr hr' (hid.symm.trans (hq' ▸ rfl)), hq']
  | inr hq' =>
    cases h.others r hr with
    | inl hr' => rw [hold q hq hq' (hid.trans (hr' ▸ rfl)), hr']
    | inr hr' => exact hidentity q hq' r hr' hid

/-- The open rows after such a bar is saved are positions that were saved. -/
theorem Ready.open_rows (h : Ready call a o f p w) {b : PaperBroker} {p' : PaperPosition}
    (hstays : Stays a b.account call.symbol p p') {q : PaperPosition}
    (hq : q ∈ (w.db.persist b).paperPositions) (hopen : q.status = .open) :
    q ∈ b.account.openPositions := by
  obtain ⟨r, hr, rfl⟩ := (mem_persist_positions (hstays.identity h.identity h.held)).mp hq
  by_cases hclosed : r.positionId ∈ b.account.closedTrades.map (·.positionId)
  · rw [if_pos hclosed] at hopen
    cases hopen
  · rw [if_neg hclosed] at hopen ⊢
    cases hr with
    | inl hsaved => exact hsaved
    | inr hleft =>
      obtain ⟨s, hs, hid⟩ := hstays.kept r (h.mem.mpr ⟨hleft.1, hopen⟩)
      exact absurd hid (hleft.2 s hs)

/-- After such a bar is saved the call may go on. -/
theorem Ready.step (h : Ready call a o f p w) {b : PaperBroker} {p' : PaperPosition}
    (hid : b.account.accountId = call.accountId) (hstays : Stays a b.account call.symbol p p')
    (history : List Commit) :
    ∃ a' o' f', Ready call a' o' f' p' ⟨w.db.persist b, history⟩ := by
  obtain ⟨haccounts, -, -, -, htrades⟩ := persist_fields w.db b
  obtain ⟨hp, -⟩ := Table.get?_eq_some.mp h.held
  obtain ⟨hp', hsymbol'⟩ := Table.get?_eq_some.mp hstays.held
  have htraded : b.account.closedTrades = w.db.closedTrades.rows :=
    hstays.trades.trans (loadPaper_some h.loads).2
  have hrow : (w.db.persist b).paperAccounts.get? call.accountId =
      some (encodeAccount b.account) := by
    rw [haccounts, ← hid]
    exact Table.get?_put_self
  have hnodup : (((w.db.persist b).paperPositions.rows.filter
      (fun p => decide (p.status = .open))).map PaperPosition.symbol).Nodup := by
    refine List.Nodup.map_on ?_ ((w.db.persist b).paperPositions.nodup.of_map.filter _)
    intro q hq r hr hsymbol
    obtain ⟨hq, hqopen⟩ := List.mem_filter.mp hq
    obtain ⟨hr, hropen⟩ := List.mem_filter.mp hr
    exact Table.eq_of_key (h.open_rows hstays hq (of_decide_eq_true hqopen))
      (h.open_rows hstays hr (of_decide_eq_true hropen)) hsymbol
  obtain ⟨a', o', f', hload⟩ := loadPaper_ok hrow hnodup
  obtain ⟨hrows', htrades'⟩ := loadPaper_some hload
  refine ⟨a', o', f', ⟨hload, ?_, ?_, ?_⟩⟩
  · refine Table.get?_eq_some.mpr ⟨?_, hsymbol'⟩
    have hfree : p'.positionId ∉ b.account.closedTrades.map (·.positionId) := by
      intro hmem
      obtain ⟨t, ht, htid⟩ := List.mem_map.mp hmem
      exact h.apart t (hstays.trades ▸ ht) (htid.trans hstays.id)
    have hstored : p' ∈ (w.db.persist b).paperPositions :=
      (mem_persist_positions (hstays.identity h.identity h.held)).mpr
        ⟨p', .inl hp', by rw [if_neg hfree]⟩
    have hopen : p'.status = .open := hstays.status.trans (h.mem.mp hp).2
    rw [Table.mem_def, hrows']
    exact List.mem_filter.mpr ⟨hstored, decide_eq_true hopen⟩
  · intro t ht
    rw [htrades', htrades, ← Table.mem_def, Table.mem_putAll (htraded ▸ w.db.closedTrades.nodup)] at ht
    have hold : t ∈ a.closedTrades := by
      cases ht with
      | inl hsaved => exact hstays.trades ▸ hsaved
      | inr hleft => exact (loadPaper_some h.loads).2 ▸ hleft.1
    exact hstays.id ▸ h.apart t hold
  · intro key hkey
    have hsame : (w.db.persist b).ownsSlot key call.symbol = w.db.ownsSlot key call.symbol := by
      unfold ownsSlot
      rw [persist_runs, persist_symbolLocks]
    exact hsame.trans (h.owns key hkey)

end Bar

/-! ### The call -/

/-- The end of a call leaves the world alone. -/
theorem finish_alone (call : Call) (applied : List Instant) (stale : Bool) (w : World) :
    ((finish call applied stale).alone w).2 = w := by
  unfold finish
  rw [Program.alone_bind, load_alone]
  dsimp only
  cases w.db.loadPaper call.accountId with
  | error e => rfl
  | ok loaded =>
    obtain ⟨account, orders, fills⟩ := loaded
    cases account <;> rfl

/-- The bars a call applied: all it had, or those up to one that closes the position. -/
structure Through (bars : List MarketBar) (handed : List Applied) : Prop where
  inOrder : handed.map (·.bar) <+: bars
  all : handed.map (·.bar) = bars ∨ ∃ last, handed.getLast? = some last ∧ last.closed ≠ []

theorem Through.cons {bar : MarketBar} {bars : List MarketBar} {first : Applied}
    {handed : List Applied} (h : Through bars handed) (hfirst : first.bar = bar) :
    Through (bar :: bars) (first :: handed) where
  inOrder := by
    rw [List.map_cons, hfirst]
    exact List.cons_prefix_cons.mpr ⟨rfl, h.inOrder⟩
  all := by
    cases h.all with
    | inl hall => exact .inl (by rw [List.map_cons, hfirst, hall])
    | inr hstop =>
      obtain ⟨last, hlast, hclosed⟩ := hstop
      exact .inr ⟨last, by rw [List.getLast?_cons, hlast]; rfl, hclosed⟩

/-- The loop, over later bars of the symbol in their order. -/
theorem applyBars_alone (call : Call) (bars : List MarketBar) (applied : List Instant)
    {a : PaperAccount} {o : Orders} {f : Fills} {p : PaperPosition} {w : World}
    (h : Ready call a o f p w) (hsorted : bars.Pairwise (fun x y => x.start < y.start))
    (hlater : ∀ bar ∈ bars, p.watermark < bar.start ∧ bar.symbol = call.symbol) :
    ∃ handed, ((applyBars call bars applied).alone w).2.history = w.history ++ handed.map .bar ∧
      Through bars handed := by
  induction bars generalizing applied a o f p w with
  | nil =>
    refine ⟨[], ?_, ⟨List.prefix_refl _, .inl rfl⟩⟩
    simp only [applyBars, finish_alone, List.map_nil, List.append_nil]
  | cons bar bars ih =>
    obtain ⟨hfirst, hrest⟩ := List.pairwise_cons.mp hsorted
    obtain ⟨hstart, hsymbol⟩ := hlater bar List.mem_cons_self
    unfold applyBars
    rw [Program.alone_bind, load_alone]
    simp only [h.loads, h.held, not_le.mpr hstart, if_false]
    obtain ⟨broker, hbroker⟩ : ∃ b : PaperBroker, b = { account := a, orders := o, fills := f } :=
      ⟨_, rfl⟩
    have hposition : positionOf broker bar.symbol = some p := by
      rw [hbroker, hsymbol]
      exact h.held
    have hsaved : (Program.call (saveBar call { account := a, orders := o, fills := f } p bar)).alone
        w = _ := h.saveBar_eq bar
    rw [Program.alone_bind, hsaved, ← hbroker]
    generalize hresult : TradeManager.processBar broker bar.toBar (call.uuid4.draw w.db) = result
    have hid : result.1.account.accountId = call.accountId := by
      rw [← hresult, TradeManager.processBar_accountId broker _ bar.toBar_isClosed, hbroker]
      exact accountId_of_loadPaper h.loads
    by_cases hclosed : result.2 = []
    · obtain ⟨p', hstays, hwatermark⟩ := processBar_stays hposition _ (hresult ▸ hclosed)
      rw [hresult, hbroker, hsymbol] at hstays
      let first : Applied :=
        ⟨p, bar, call.uuid4.draw w.db, positionOf result.1 call.symbol, []⟩
      obtain ⟨a', o', f', hready⟩ := h.step hid hstays (w.history ++ [.bar first])
      have hlater' : ∀ x ∈ bars, p'.watermark < x.start ∧ x.symbol = call.symbol := by
        intro x hx
        obtain ⟨hstart', hsymbol'⟩ := hlater x (List.mem_cons_of_mem _ hx)
        cases hwatermark with
        | inl hsame => exact ⟨hsame ▸ hstart', hsymbol'⟩
        | inr hbar => exact ⟨hbar ▸ hfirst x hx, hsymbol'⟩
      obtain ⟨handed, hhistory, hthrough⟩ := ih (applied ++ [bar.start]) hready hrest hlater'
      simp only [hclosed, if_true]
      refine ⟨first :: handed, ?_, hthrough.cons rfl⟩
      exact hhistory.trans (List.append_assoc _ _ _)
    · simp only [hclosed, if_false]
      refine ⟨[_], rfl, ⟨?_, .inr ⟨_, rfl, hclosed⟩⟩⟩
      exact List.cons_prefix_cons.mpr ⟨rfl, List.nil_prefix⟩

/-- A call with nobody beside it applies the eligible bars after the watermark it finds. -/
theorem catchUpPosition_alone {call : Call} {a : PaperAccount} {o : Orders} {f : Fills}
    {p : PaperPosition} {w : World} (h : Ready call a o f p w) {bars : List MarketBar}
    (hbars : call.evidence.eligibleBars call.symbol p.watermark call.asOf = .ok bars) :
    ∃ handed, ((catchUpPosition call).alone w).2.history = w.history ++ handed.map .bar ∧
      Through bars handed := by
  obtain ⟨hsorted, hmem⟩ := Evidence.eligibleBars_ok hbars
  unfold catchUpPosition
  rw [Program.alone_bind, load_alone]
  simp only [h.loads, h.held, hbars]
  refine applyBars_alone call bars [] h hsorted (fun bar hbar => ?_)
  obtain ⟨happlicable, hlater, -⟩ := (hmem bar).mp hbar
  exact ⟨hlater, happlicable.2.1⟩

end MarketSystem.PositionCatchUp
