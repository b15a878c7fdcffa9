import MarketSystem.Execution.PendingEvaluation

/-!
# Runs of the pending-order gate

Any number of calls run against one database, each with its own evidence and its own gate;
they may be retried, and they may crash between two statements. Every step of every run
moves PENDING orders only with the bar of a current gate, and the bars an order was not
evaluated with are journaled at most once.
-/
namespace MarketSystem.PendingOrderGate

open Library Database GuardedWrite

/-! ## What a step may do -/

/-- A row that says an order was not evaluated with the bar of a start. -/
def isNotEvaluated (symbol orderId : String) (start : Instant) (row : JournalRow) : Bool :=
  decide (row.eventType = notEvaluatedEvent ∧ row.symbol = some symbol ∧ row.source = orderId
    ∧ row.timestamp = some start)

def notEvaluatedRows (db : Database) (symbol orderId : String) (start : Instant) : ℕ :=
  db.journal.countP (isNotEvaluated symbol orderId start)

/-- The gate of a call passed for its symbol, and no committed closed bar is newer. -/
structure CurrentGate (c : Call) (gate : CurrentCycleGate) : Prop where
  given : c.gate = some gate
  passed : gate.passed = true
  symbol : gate.symbol = c.symbol ∧ gate.bar.symbol = c.symbol
  newest : ∀ bar, c.evidence.Applicable c.symbol bar → bar.end_ ≤ c.asOf →
    bar.start ≤ gate.bar.timestamp

/-- The row is for a PENDING order of the call's symbol and a committed bar after its
submission that is not the bar of a current gate. -/
structure SkippedBy (c : Call) (orders : Orders) (row : JournalRow) (o : PaperOrder)
    (bar : MarketBar) : Prop where
  mem : o ∈ orders
  pending : o.status = .pending
  symbol : o.symbol = c.symbol
  key : row.symbol = some c.symbol ∧ row.source = o.orderId ∧ row.timestamp = some bar.start
  committed : c.evidence.Applicable c.symbol bar ∧ bar.end_ ≤ c.asOf
  submitted : ∃ asOf, o.asOf = some asOf ∧ asOf < bar.start
  current : ∀ gate, CurrentGate c gate → bar.start ≠ gate.bar.timestamp

/-- One step of the calls on the database. -/
structure PendingStep (calls : Call → Prop) (db db' : Database) : Prop where
  /-- An order leaves PENDING by the evaluation of a call, which settles every order due. -/
  leaves : ∀ o ∈ db.paperOrders, o.status = .pending → o ∉ db'.paperOrders →
    ∃ c gate, calls c ∧ CurrentGate c gate ∧ o.symbol = c.symbol ∧ Before o gate.bar ∧
      ∀ r ∈ db.paperOrders, r.status = .pending → r.symbol = c.symbol → Before r gate.bar →
        ∃ r' ∈ db'.paperOrders, SettledBy gate.bar r r'
  pending : ∀ o ∈ db'.paperOrders, o.status = .pending → o ∈ db.paperOrders
  journaled : ∃ rows, db'.journal = db.journal ++ rows ∧
    ∀ row ∈ rows, row.eventType = notEvaluatedEvent →
      ∃ c o bar, calls c ∧ SkippedBy c db.paperOrders row o bar
  once : ∀ symbol orderId start, notEvaluatedRows db' symbol orderId start ≤
    max 1 (notEvaluatedRows db symbol orderId start)

variable {calls : Call → Prop}

theorem PendingStep.refl (db : Database) : PendingStep calls db db where
  leaves := fun _ h _ hn => absurd h hn
  pending := fun _ h _ => h
  journaled := ⟨[], by simp, by simp⟩
  once := fun _ _ _ => le_max_right _ _

/-! ## Journaling -/

/-- Rows are appended, each under a key that had none. -/
structure Appended (Q : JournalRow → Prop) (db db' : Database) : Prop where
  orders : db'.paperOrders = db.paperOrders
  rows : ∃ rows, db'.journal = db.journal ++ rows ∧ ∀ row ∈ rows, Q row
  once : ∀ symbol orderId start, notEvaluatedRows db' symbol orderId start ≤
    max 1 (notEvaluatedRows db symbol orderId start)

theorem Appended.refl (Q : JournalRow → Prop) (db : Database) : Appended Q db db :=
  ⟨rfl, ⟨[], by simp, by simp⟩, fun _ _ _ => le_max_right _ _⟩

theorem Appended.trans {Q : JournalRow → Prop} {db db' db'' : Database} (h : Appended Q db db')
    (h' : Appended Q db' db'') : Appended Q db db'' := by
  obtain ⟨rows, hrows, hq⟩ := h.rows
  obtain ⟨rows', hrows', hq'⟩ := h'.rows
  refine ⟨h'.orders.trans h.orders, ⟨rows ++ rows', ?_, ?_⟩, fun s i t => ?_⟩
  · rw [hrows', hrows, List.append_assoc]
  · exact fun row hrow => (List.mem_append.mp hrow).elim (hq row) (hq' row)
  · have h1 := h.once s i t
    have h2 := h'.once s i t
    omega

/-- A loop of such steps is one. -/
theorem appended_foldl {Q : JournalRow → Prop} {β : Type}
    {step : Database × ℕ → β → Database × ℕ} {l : List β}
    (hstep : ∀ x ∈ l, ∀ state, Appended Q state.1 (step state x).1) (state : Database × ℕ) :
    Appended Q state.1 (l.foldl step state).1 := by
  induction l generalizing state with
  | nil => exact .refl Q state.1
  | cons x l ih =>
    have hx := hstep x List.mem_cons_self state
    exact hx.trans (ih (fun y hy => hstep y (List.mem_cons_of_mem x hy)) _)

/-- One bar of one order: the row is written only when there is none yet. -/
theorem appended_journalBar (c : Call) (order : PaperOrder) (state : Database × ℕ)
    (bar : MarketBar) {Q : JournalRow → Prop}
    (hq : ∀ row : JournalRow, row.eventType = notEvaluatedEvent → row.symbol = some c.symbol →
      row.source = order.orderId → row.timestamp = some bar.start → Q row) :
    Appended Q state.1 (c.journalBar order state bar).1 := by
  obtain ⟨db, written⟩ := state
  unfold Call.journalBar
  dsimp only
  split_ifs with hfound
  · exact .refl Q db
  · refine ⟨rfl, ⟨[_], rfl, fun row hrow => ?_⟩, fun symbol orderId start => ?_⟩
    · obtain rfl := List.mem_singleton.mp hrow
      exact hq _ rfl rfl rfl rfl
    · unfold notEvaluatedRows event
      rw [List.countP_append, List.countP_singleton]
      by_cases hkey : symbol = c.symbol ∧ orderId = order.orderId ∧ start = bar.start
      · obtain ⟨rfl, rfl, rfl⟩ := hkey
        have hnone : db.journal.countP (isNotEvaluated c.symbol order.orderId bar.start) = 0 := by
          rw [List.countP_eq_zero]
          intro row hrow hkey
          exact hfound (List.any_eq_true.mpr ⟨row, hrow, hkey⟩)
        rw [hnone]
        split_ifs <;> omega
      · rw [if_neg (by
          simp only [isNotEvaluated, Option.some.injEq, decide_eq_true_eq, not_and]
          exact fun _ h1 h2 h3 => hkey ⟨h1.symm, h2.symm, h3.symm⟩)]
        omega

theorem loadPaper_orders {db : Database} {accountId : String} {account : Option PaperAccount}
    {orders : Orders} {fills : Fills} (h : db.loadPaper accountId = .ok (account, orders, fills)) :
    orders = db.paperOrders := by
  unfold loadPaper at h
  cases hrow : db.paperAccounts.get? accountId with
  | none =>
    simp only [hrow, Except.ok.injEq, Prod.mk.injEq] at h
    exact h.2.1.symm
  | some row =>
    cases hopen : (Table.ofList? (db.paperPositions.rows.filter
        (fun p => decide (p.status = .open))) : Option (Table PaperPosition.symbol)) with
    | none => simp [hrow, hopen] at h
    | some positions =>
      simp only [hrow, hopen, Except.ok.injEq, Prod.mk.injEq] at h
      exact h.2.1.symm

theorem mem_pending {orders : Orders} {symbol : String} {o : PaperOrder} :
    o ∈ pending orders symbol ↔
      o ∈ orders ∧ o.symbol = symbol ∧ o.status = .pending ∧ ∃ asOf, o.asOf = some asOf := by
  simp only [pending, List.mem_filter, Bool.and_eq_true, decide_eq_true_eq, Option.isSome_iff_exists,
    and_assoc]
  rfl

theorem pending_nodup (orders : Orders) (symbol : String) :
    ((pending orders symbol).map (·.orderId)).Nodup :=
  orders.nodup.sublist (List.filter_sublist.map _)

/-- The bar of a current gate is the one the call takes as current. -/
theorem CurrentGate.currentBarTime {c : Call} {gate : CurrentCycleGate} (h : CurrentGate c gate)
    {bars : List MarketBar} (hbars : ∀ bar ∈ bars, c.evidence.Applicable c.symbol bar ∧
      bar.end_ ≤ c.asOf) : c.currentBarTime bars = some gate.bar.timestamp := by
  have hpass : ¬(gate.passed = false ∨ gate.symbol ≠ c.symbol ∨ gate.bar.symbol ≠ c.symbol) := by
    simp [h.passed, h.symbol.1, h.symbol.2]
  simp only [Call.currentBarTime, h.given, if_neg hpass]
  cases hlast : bars.getLast? with
  | none => rfl
  | some last =>
    obtain ⟨happ, hend⟩ := hbars last (List.mem_of_getLast? hlast)
    simp only [if_neg (not_lt.mpr (h.newest last happ hend))]

/-- The journaling of a call is one step. -/
theorem journalNotEvaluated_step {c : Call} (hc : calls c) {bars : List MarketBar}
    (hbars : ∀ bar ∈ bars, c.evidence.Applicable c.symbol bar ∧ bar.end_ ≤ c.asOf)
    {db db' : Database} {result : List (String × Instant) × ℕ}
    (h : c.journalNotEvaluated bars (c.currentBarTime bars) db = .ok (result, db')) :
    PendingStep calls db db' := by
  unfold Call.journalNotEvaluated at h
  split_ifs at h
  cases hload : db.loadPaper c.writer.accountId with
  | error e => simp [hload] at h
  | ok loaded =>
    obtain ⟨account, orders, fills⟩ := loaded
    obtain rfl := loadPaper_orders hload
    simp only [hload, Except.ok.injEq, Prod.mk.injEq] at h
    obtain ⟨-, rfl⟩ := h
    let Q : JournalRow → Prop := fun row => ∃ c o bar, calls c ∧
      SkippedBy c db.paperOrders row o bar
    have happended : Appended Q db ((pending db.paperOrders c.symbol).foldl (fun state o =>
        (Call.skippedBars bars (c.currentBarTime bars) o).foldl (c.journalBar o) state)
        (db, 0)).1 := by
      refine appended_foldl (fun o ho state => ?_) (db, 0)
      refine appended_foldl (fun bar hbar state => ?_) state
      obtain ⟨hmem, hsymbol, hpending, asOf, hasOf⟩ := mem_pending.mp ho
      obtain ⟨hbar, hskip⟩ := List.mem_filter.mp hbar
      simp only [hasOf, Option.getD_some, ne_eq, decide_eq_true_eq] at hskip
      refine appended_journalBar c o state bar (fun row _ hs hi ht => ⟨c, o, bar, hc, ?_⟩)
      exact ⟨hmem, hpending, hsymbol, ⟨hs, hi, ht⟩, hbars bar hbar, ⟨asOf, hasOf, hskip.1⟩,
        fun gate hgate he => hskip.2 (by rw [hgate.currentBarTime hbars, he])⟩
    obtain ⟨rows, hrows, hq⟩ := happended.rows
    refine ⟨?_, ?_, ⟨rows, hrows, fun row hrow _ => hq row hrow⟩, happended.once⟩
    · intro o ho _ hn
      rw [happended.orders] at hn
      exact absurd ho hn
    · intro o ho _
      rw [happended.orders] at ho
      exact ho

/-! ## The evaluation -/

theorem oldest_le {c : Call} {orders : List PaperOrder} {o : PaperOrder} {asOf : Instant}
    (ho : o ∈ orders) (hasOf : o.asOf = some asOf) : c.oldest orders ≤ asOf := by
  have hmem : asOf ∈ orders.filterMap (·.asOf) := List.mem_filterMap.mpr ⟨o, ho, hasOf⟩
  unfold Call.oldest
  cases htimes : orders.filterMap (·.asOf) with
  | nil =>
    rw [htimes] at hmem
    cases hmem
  | cons first rest =>
    rw [htimes] at hmem
    change rest.foldl min first ≤ asOf
    have hfold : ∀ (l : List Instant) (a : Instant), l.foldl min a ≤ a ∧
        ∀ t ∈ l, l.foldl min a ≤ t := by
      intro l
      induction l with
      | nil => exact fun a => ⟨le_rfl, by simp⟩
      | cons t l ih =>
        intro a
        obtain ⟨h1, h2⟩ := ih (min a t)
        refine ⟨h1.trans (min_le_left a t), fun u hu => ?_⟩
        rcases List.mem_cons.mp hu with rfl | hu
        · exact h1.trans (min_le_right a u)
        · exact h2 u hu
    rcases List.mem_cons.mp hmem with rfl | hmem
    · exact (hfold rest asOf).1
    · exact (hfold rest first).2 asOf hmem

/-- A call that goes on to evaluate an order has a current gate: the bars it read reach back
to the oldest order, and the gate's bar is later than the order. -/
theorem currentGate {c : Call} {gate : CurrentCycleGate} (hgate : c.gate = some gate)
    {first : List PaperOrder} {bars : List MarketBar}
    (hbars : c.evidence.eligibleBars c.symbol (c.oldest first) c.asOf = .ok bars)
    (hcurrent : (c.currentBarTime bars).isSome = true) {o : PaperOrder} (ho : o ∈ first)
    (hbefore : Before o gate.bar) : CurrentGate c gate := by
  obtain ⟨hordered, hmem⟩ := Evidence.eligibleBars_ok hbars
  obtain ⟨asOf, hasOf, hlt⟩ := hbefore
  simp only [Call.currentBarTime, hgate] at hcurrent
  split_ifs at hcurrent with hfail
  · cases hcurrent
  push Not at hfail
  refine ⟨hgate, by simpa using hfail.1, hfail.2, fun bar happ hend => ?_⟩
  by_cases hold : bar.start ≤ c.oldest first
  · exact (hold.trans (oldest_le ho hasOf)).trans hlt.le
  have hbar : bar ∈ bars := (hmem bar).mpr ⟨happ, not_le.mp hold, hend⟩
  obtain ⟨last, hlast⟩ := List.getLast?_isSome.mpr (List.ne_nil_of_mem hbar) |> Option.isSome_iff_exists.mp
  simp only [hlast] at hcurrent
  split_ifs at hcurrent with hnewer
  · cases hcurrent
  refine le_trans ?_ (not_lt.mp hnewer)
  obtain ⟨init, rfl⟩ := List.getLast?_eq_some_iff.mp hlast
  rcases List.mem_append.mp hbar with hbar | hbar
  · exact ((List.pairwise_append.mp hordered).2.2 bar hbar last (by simp)).le
  · rw [List.mem_singleton.mp hbar]

/-- The PENDING orders of a store that the call has already seen. -/
def Covered (c : Call) (first : List PaperOrder) (w : World) : Prop :=
  ∀ o ∈ w.db.paperOrders, o.status = .pending → o.symbol = c.symbol → o.asOf.isSome = true →
    o ∈ first

/-- The save of an evaluation is one step. -/
theorem evaluation_step {c : Call} (hc : calls c) {gate : CurrentCycleGate}
    (hgate : c.gate = some gate) {first : List PaperOrder} {bars : List MarketBar}
    (hbars : c.evidence.eligibleBars c.symbol (c.oldest first) c.asOf = .ok bars)
    (hcurrent : (c.currentBarTime bars).isSome = true) {w : World} (hcovered : Covered c first w)
    {account : PaperAccount} {orders : Orders} {fills : Fills} {changed : PaperBroker}
    (hloop : (pending orders c.symbol).foldlM (c.evaluateOrder gate.bar)
      (c.writer.broker account orders fills) = .ok changed) {db' : Database}
    (hsave : savePaper changed c.writer.ownerKey c.writer.symbol
      (some (stateOf (c.writer.broker account orders fills))) w.db = .ok (true, db')) :
    PendingStep calls w.db db' := by
  obtain ⟨-, hfound, rfl⟩ := savePaper_commits hsave
  have hevaluated : Evaluated gate.bar (pending orders c.symbol)
      (c.writer.broker account orders fills) changed :=
    evaluated (pending_nodup orders c.symbol)
      (fun o ho => ⟨(mem_pending.mp ho).1, (mem_pending.mp ho).2.2.1⟩) hloop
  have hkept : ∀ o ∈ (c.writer.broker account orders fills).orders,
      ∃ o' ∈ changed.orders, o'.orderId = o.orderId := by
    intro o ho
    by_cases hdue : o ∈ pending orders c.symbol ∧ Before o gate.bar
    · obtain ⟨o', ho', -, -, -, -, -, -, -, -, hid, -⟩ := hevaluated.settled o hdue.1 hdue.2
      exact ⟨o', ho', hid⟩
    · exact ⟨o, hevaluated.kept o ho hdue, rfl⟩
  have hmem := hfound.mem_orders hkept
  have hnone : ∀ row ∈ changed.journal.map rowOf, row.eventType ≠ notEvaluatedEvent := by
    intro row hrow
    obtain ⟨e, he, rfl⟩ := List.mem_map.mp hrow
    rcases hevaluated.journal e he with he | he
    · cases he
    · exact he
  refine ⟨?_, ?_, ?_, ?_⟩
  · intro o ho hpending hgone
    have hbroker := (hfound.orders o).mp ho
    have hdue : o ∈ pending orders c.symbol ∧ Before o gate.bar := by
      by_contra hnot
      exact hgone ((hmem o).mpr (hevaluated.kept o hbroker hnot))
    obtain ⟨-, hsymbol, -, asOf, hasOf⟩ := mem_pending.mp hdue.1
    have hfirst : o ∈ first := hcovered o ho hpending hsymbol (by rw [hasOf]; rfl)
    refine ⟨c, gate, hc, currentGate hgate hbars hcurrent hfirst hdue.2, hsymbol, hdue.2, ?_⟩
    intro r hr hrpending hrsymbol hrbefore
    have ⟨rAsOf, hrAsOf, _⟩ := hrbefore
    have hrdue : r ∈ pending orders c.symbol :=
      mem_pending.mpr ⟨(hfound.orders r).mp hr, hrsymbol, hrpending, rAsOf, hrAsOf⟩
    obtain ⟨r', hr', hsettled⟩ := hevaluated.settled r hrdue hrbefore
    exact ⟨r', (hmem r').mpr hr', hsettled⟩
  · intro o ho hpending
    exact (hfound.orders o).mpr (hevaluated.pending o ((hmem o).mp ho) hpending)
  · exact ⟨changed.journal.map rowOf, persist_journal w.db changed,
      fun row hrow he => absurd he (hnone row hrow)⟩
  · intro symbol orderId start
    unfold notEvaluatedRows
    rw [persist_journal, List.countP_append]
    have hzero : (changed.journal.map rowOf).countP (isNotEvaluated symbol orderId start) = 0 := by
      rw [List.countP_eq_zero]
      intro row hrow hkey
      simp only [isNotEvaluated, decide_eq_true_eq] at hkey
      exact hnone row hrow hkey.1
    omega

/-! ## Runs -/

/-- Others are calls too: they let no order enter PENDING. -/
def gateDiscipline (calls : Call → Prop) : Discipline World where
  inv := fun _ => True
  rely := fun w w' => ∀ o ∈ w'.db.paperOrders, o.status = .pending → o ∈ w.db.paperOrders
  guar := fun w w' => PendingStep calls w.db w'.db
  rely_refl := fun _ _ h _ => h
  rely_trans := fun h h' o ho hp => h o (h' o ho hp) hp
  guar_refl := fun w => .refl w.db

theorem Covered.stable {c : Call} {first : List PaperOrder} {w w' : World}
    (hr : (gateDiscipline calls).rely w w') (h : Covered c first w) : Covered c first w' :=
  fun o ho hp => h o (hr o ho hp) hp

theorem evaluate_holds {c : Call} (hc : calls c) {gate : CurrentCycleGate}
    (hgate : c.gate = some gate) {first : List PaperOrder} {bars : List MarketBar}
    (hbars : c.evidence.eligibleBars c.symbol (c.oldest first) c.asOf = .ok bars)
    (hcurrent : (c.currentBarTime bars).isSome = true) (keys : List (String × Instant))
    (written : ℕ) {w : World} (hcovered : Covered c first w) :
    (c.evaluate gate.bar keys written).Holds (gateDiscipline calls) (fun _ _ => True) w := by
  have hstable : ∀ w w' : World, (gateDiscipline calls).rely w w' → Covered c first w →
      Covered c first w' := fun _ _ hr h => h.stable hr
  refine Program.Holds.bind ((load_holds hstable c.writer.accountId hcovered).mono ?_) trivial
  intro loaded w₁ _ hloaded
  obtain ⟨hcovered₁, -⟩ := hloaded
  match loaded with
  | .error _ => exact pure_holds (fun _ _ _ => trivial)
  | .ok (none, _, _) => exact pure_holds (fun _ _ _ => trivial)
  | .ok (some account, orders, fills) =>
    cases hloop : (pending orders c.symbol).foldlM (c.evaluateOrder gate.bar)
        (c.writer.broker account orders fills) with
    | error e =>
      have hbroker : (c.writer.broker account orders fills).orders = orders := rfl
      simp only [hbroker, hloop]
      exact pure_holds (fun _ _ _ => trivial)
    | ok changed =>
      have hbroker : (c.writer.broker account orders fills).orders = orders := rfl
      simp only [hbroker, hloop]
      split_ifs
      · exact pure_holds (fun _ _ _ => trivial)
      refine Program.Holds.bind ?_ trivial
      refine Program.Holds.read_now (fun w₂ hr₂ _ => ?_)
      have hcovered₂ := hcovered₁.stable hr₂
      cases w₂.halted with
      | true => exact pure_holds (fun _ _ _ => pure_holds (fun _ _ _ => trivial))
      | false =>
        refine transact_holds (fun e w₃ _ _ =>
          pure_holds (fun _ _ _ => pure_holds (fun _ _ _ => trivial))) ?_
        intro saved db' w₃ hr₃ _ hsave
        cases saved with
        | false =>
          obtain rfl : db' = w₃.db := savePaper_false hsave
          exact ⟨trivial, .refl w₃.db,
            pure_holds (fun _ _ _ => pure_holds (fun _ _ _ => trivial))⟩
        | true =>
          exact ⟨trivial, evaluation_step hc hgate hbars hcurrent (hcovered₂.stable hr₃) hloop
            hsave, pure_holds (fun _ _ _ => pure_holds (fun _ _ _ => trivial))⟩

theorem journal_holds {c : Call} (hc : calls c) {first : List PaperOrder} {bars : List MarketBar}
    (hbars : ∀ bar ∈ bars, c.evidence.Applicable c.symbol bar ∧ bar.end_ ≤ c.asOf) {w : World}
    (hcovered : Covered c first w) :
    (c.journal bars (c.currentBarTime bars)).Holds (gateDiscipline calls)
      (fun _ w' => Covered c first w') w := by
  refine Program.Holds.read_now (fun w₁ hr₁ _ => ?_)
  have hcovered₁ := hcovered.stable hr₁
  cases w₁.halted with
  | true => exact pure_holds (fun _ hr₂ _ => hcovered₁.stable hr₂)
  | false =>
    refine Program.Holds.call (fun w₂ hr₂ _ => ?_)
    have hcovered₂ := hcovered₁.stable hr₂
    rcases hcommit : commit (c.journalNotEvaluated bars (c.currentBarTime bars)) w₂.db with ⟨r, db'⟩
    rcases commit_cases hcommit with ⟨result, rfl, htx⟩ | ⟨e, rfl, rfl⟩
    · have hstep : PendingStep calls w₂.db db' := journalNotEvaluated_step hc hbars htx
      refine ⟨trivial, hstep, pure_holds (fun _ hr₃ _ => ?_)⟩
      exact fun o ho hp => hcovered₂ o (hstep.pending o (hr₃ o ho hp) hp) hp
    · exact ⟨trivial, .refl w₂.db, pure_holds (fun _ hr₃ _ => hcovered₂.stable hr₃)⟩

theorem admitted_holds {c : Call} (hc : calls c) {first : List PaperOrder} {w : World}
    (hcovered : Covered c first w) :
    (c.admitted first).Holds (gateDiscipline calls) (fun _ _ => True) w := by
  refine Program.Holds.read_now (fun w₁ hr₁ _ => ?_)
  have hcovered₁ := hcovered.stable hr₁
  cases w₁.halted with
  | true => exact pure_holds (fun _ _ _ => trivial)
  | false =>
    simp only [Bool.false_eq_true, if_false]
    cases hbars : c.evidence.eligibleBars c.symbol (c.oldest first) c.asOf with
    | error e => exact pure_holds (fun _ _ _ => trivial)
    | ok bars =>
      have hclosed : ∀ bar ∈ bars, c.evidence.Applicable c.symbol bar ∧ bar.end_ ≤ c.asOf :=
        fun bar hbar => ⟨((Evidence.eligibleBars_ok hbars).2 bar |>.mp hbar).1,
          ((Evidence.eligibleBars_ok hbars).2 bar |>.mp hbar).2.2⟩
      refine Program.Holds.bind ((journal_holds hc hclosed hcovered₁).mono ?_) trivial
      intro r w₂ _ hcovered₂
      match r with
      | .error e => exact pure_holds (fun _ _ _ => trivial)
      | .ok (keys, written) =>
        dsimp only
        split
        case h_1 t gate hcurrent hgate =>
          exact evaluate_holds hc hgate hbars (by rw [hcurrent]; rfl) keys written hcovered₂
        case h_2 => exact pure_holds (fun _ _ _ => trivial)

theorem gatePendingOrders_holds {c : Call} (hc : calls c) (w : World) :
    (gatePendingOrders c).Holds (gateDiscipline calls) (fun _ _ => True) w := by
  have horders : Program.Observes (gateDiscipline calls) (fun w => w.db.paperOrders)
      (fun orders w => ∀ o ∈ w.db.paperOrders, o.status = .pending → o ∈ orders) :=
    ⟨fun _ _ o ho _ => ho, fun _ _ _ hr h o ho hp => h o (hr o ho hp) hp⟩
  have htrivial : ∀ {β : Type} (f : World → β),
      Program.Observes (gateDiscipline calls) f (fun _ _ => True) :=
    fun _ => ⟨fun _ _ => trivial, fun _ _ _ _ _ => trivial⟩
  have hload := loadPaperReads_holds
    (htrivial (fun w => w.db.paperAccounts.get? c.writer.accountId)) horders
    (htrivial _) (htrivial _) (htrivial _) w
  refine Program.Holds.bind (hload.mono ?_) trivial
  intro loaded w₁ _ hloaded
  match loaded with
  | .error _ => exact pure_holds (fun _ _ _ => trivial)
  | .ok (none, _, _) => exact pure_holds (fun _ _ _ => trivial)
  | .ok (some account, orders, fills) =>
    have hseen := (hloaded (some account) orders fills rfl).1
    have hcovered : Covered c (pending orders c.symbol) w₁ := fun o ho hp hsymbol hasOf =>
      mem_pending.mpr ⟨hseen o ho hp, hsymbol, hp, Option.isSome_iff_exists.mp hasOf⟩
    dsimp only
    cases hdue : pending orders c.symbol with
    | nil => exact pure_holds (fun _ _ _ => trivial)
    | cons o rest =>
      rw [hdue] at hcovered
      exact admitted_holds hc hcovered

/-- The calls that run, and what happens beside them: the clock and the halt gate. -/
def Client (calls : Call → Prop) (p : Program World (Except String PendingGateResult)) : Prop :=
  ∃ c, calls c ∧ p = gatePendingOrders c

def Beside (w w' : World) : Prop := w'.db = w.db

/-- Every step of every run is such a step. -/
theorem run_step {w₀ : World} {pool pool' : Pool World (Except String PendingGateResult)}
    (hrun : Relation.ReflTransGen (PoolStep (Client calls) Beside) ⟨w₀, []⟩ pool)
    (hstep : PoolStep (Client calls) Beside pool pool') :
    PendingStep calls pool.store.db pool'.store.db := by
  have hsound := @pool_step_sound _ _ (gateDiscipline calls) (Client calls) Beside
    (fun _ _ => True)
    (fun w w' _ h => ⟨trivial, fun o ho _ => by rw [← h]; exact ho⟩)
    (fun w w' _ h => h.pending)
    (fun p hp w _ => by obtain ⟨c, hc, rfl⟩ := hp; exact gatePendingOrders_holds hc w)
    w₀ pool pool' trivial hrun hstep
  rcases hsound with h | h | h
  · rw [h]
    exact .refl _
  · rw [show pool'.store.db = pool.store.db from h]
    exact .refl _
  · exact h

/-- Over a whole run a key gets at most one row. -/
theorem run_once {w₀ : World} {pool : Pool World (Except String PendingGateResult)}
    (hrun : Relation.ReflTransGen (PoolStep (Client calls) Beside) ⟨w₀, []⟩ pool)
    (symbol orderId : String) (start : Instant) :
    notEvaluatedRows pool.store.db symbol orderId start ≤
      max 1 (notEvaluatedRows w₀.db symbol orderId start) := by
  induction hrun with
  | refl => exact le_max_right _ _
  | tail hrun hstep ih =>
    have h := (run_step hrun hstep).once symbol orderId start
    omega

/-- In every run of calls, orders leave PENDING only with the bar of a current gate that is
later than their submission, all orders due in the same step; the bars they were not evaluated
with are journaled once. And an order that is handed to the broker leaves PENDING in that call
unless its evaluation divides by a planned money risk of zero, when the call raises. -/
theorem orders_move_on_current_bar (calls : Call → Prop) :
    (∀ w₀ (pool : Pool World (Except String PendingGateResult)),
      Relation.ReflTransGen (PoolStep (Client calls) Beside) ⟨w₀, []⟩ pool →
        (∀ symbol orderId start, notEvaluatedRows pool.store.db symbol orderId start ≤
          max 1 (notEvaluatedRows w₀.db symbol orderId start)) ∧
        ∀ pool', PoolStep (Client calls) Beside pool pool' →
          PendingStep calls pool.store.db pool'.store.db) ∧
    ∀ (b : PaperBroker) (order : PaperOrder) (bar : Bar) (fillId positionId : String),
      order.status = .pending →
        ((∃ b' opened, b.processNextBar order bar fillId positionId = .ok (b', opened) ∧
          ∃ settled ∈ b'.orders, settled.orderId = order.orderId ∧ settled.status ≠ .pending) ↔
        ¬b.DividesByZero order bar) := by
  constructor
  · intro w₀ pool hrun
    exact ⟨run_once hrun, fun pool' hstep => run_step hrun hstep⟩
  · intro b order bar fillId positionId hpending
    rw [← PaperBroker.processNextBar_error hpending fillId positionId]
    constructor
    · rintro ⟨b', opened, h, -⟩ ⟨e, he⟩
      rw [h] at he
      cases he
    · intro hnone
      cases h : b.processNextBar order bar fillId positionId with
      | error e => exact absurd ⟨e, h⟩ hnone
      | ok found =>
        obtain ⟨b', opened⟩ := found
        obtain ⟨status, hstatus, horders⟩ := PaperBroker.processNextBar_settles hpending h
        refine ⟨b', opened, rfl, { order with status := status }, ?_, rfl, hstatus⟩
        rw [horders]
        exact Table.mem_put.mpr (.inl rfl)

section Runs

private def orderAt (plannedEntry : ℚ) : PaperOrder :=
  { orderId := "order", runId := "run", symbol := "XAUUSD", side := .long, quantity := 1,
    plannedEntry := plannedEntry, stop := 99, target := 103, contractMultiplier := some 1,
    equityAtSubmission := some 10000, asOf := some 0 }

private def cycleBar : Bar := ⟨"XAUUSD", 300000000, 100, 101, 99, 100, true⟩

private def levelsAtOpen : RrContract.Geometry :=
  ⟨.long, 100, 99, 103, by norm_num, by norm_num, by norm_num, by constructor <;> norm_num⟩

private def fixedCall : Call where
  writer :=
    { accountId := "paper", symbol := "XAUUSD", ownerKey := none, rrPolicy := some .v2F3,
      uuid4 := sampleUuid4 }
  asOf := 600000000
  gate := some ⟨"run", "XAUUSD", cycleBar, true, true, true, true, "PLAN_READY"⟩
  evidence := .committed []

private def paperAccount : PaperAccount := ⟨"paper", 10000, 10000, 10000, 0, 0, Table.empty, []⟩

private def worldWith (order : PaperOrder) : World :=
  { db := { paperAccounts := Table.empty.put paperAccount, paperOrders := Table.empty.put order } }

/-- A call that runs beside nothing else journals no bar twice, and an order whose planned
entry is above its stop is settled by the bar of the gate. -/
theorem orders_move_on_current_bar_settled :
    notEvaluatedRows ((gatePendingOrders fixedCall).runFor 20 (worldWith (orderAt 100))).2.db
      "XAUUSD" "order" 300000000 ≤
        max 1 (notEvaluatedRows (worldWith (orderAt 100)).db "XAUUSD" "order" 300000000) ∧
    ∃ b' opened, (fixedCall.writer.broker paperAccount (Table.empty.put (orderAt 100))
        Table.empty).processNextBar (orderAt 100) cycleBar "fill" "position" = .ok (b', opened) ∧
      ∃ settled ∈ b'.orders, settled.orderId = "order" ∧ settled.status ≠ .pending := by
  obtain ⟨hruns, hsettles⟩ := orders_move_on_current_bar (· = fixedCall)
  constructor
  · have hrun : Relation.ReflTransGen (PoolStep (Client (· = fixedCall)) Beside)
        ⟨worldWith (orderAt 100), []⟩ _ :=
      .head (.start ⟨fixedCall, rfl, rfl⟩) (runs_beside [] [] 20 _ _)
    exact (hruns _ _ hrun).1 "XAUUSD" "order" 300000000
  · refine (hsettles _ (orderAt 100) cycleBar "fill" "position" rfl).mpr (fun h => ?_)
    exact absurd h.planned (by decide +kernel)

/-- An order whose planned entry is its stop: the gate hands it to the broker of fixed 3R with
the current bar, the call raises, and the order is PENDING as before. -/
theorem zero_planned_risk_stays_pending :
    ((gatePendingOrders fixedCall).alone (worldWith (orderAt 99))).1
        = .error "ZeroDivisionError" ∧
      ((gatePendingOrders fixedCall).alone (worldWith (orderAt 99))).2.db.paperOrders
        = (worldWith (orderAt 99)).db.paperOrders ∧
      orderAt 99 ∈ (worldWith (orderAt 99)).db.paperOrders ∧ (orderAt 99).status = .pending ∧
      ¬∃ b' opened, (fixedCall.writer.broker paperAccount (Table.empty.put (orderAt 99))
        Table.empty).processNextBar (orderAt 99) cycleBar "fill" "position" = .ok (b', opened) := by
  refine ⟨by decide +kernel, by decide +kernel, Table.mem_put.mpr (.inl rfl), rfl, ?_⟩
  rintro ⟨b', opened, h⟩
  have hdivides : (fixedCall.writer.broker paperAccount (Table.empty.put (orderAt 99))
      Table.empty).DividesByZero (orderAt 99) cycleBar :=
    { planned := rfl
      quantity := by decide +kernel
      contract := ⟨1, rfl, by norm_num⟩
      asOf := ⟨0, rfl, by decide⟩
      valid := by decide +kernel
      rules := ⟨some riskPolicyV2P5, rfl⟩
      levels := ⟨levelsAtOpen, RrContract.geometry_self levelsAtOpen, by decide +kernel⟩
      equities := by decide +kernel }
  have hraises := (PaperBroker.processNextBar_error rfl "fill" "position").mpr hdivides
  obtain ⟨e, he⟩ := hraises
  rw [h] at he
  cases he

end Runs

end MarketSystem.PendingOrderGate
