import MarketSystem.Execution.OppositeOutcome

/-!
# Close and reverse, at most once

For each run the calls of `execute` come one after another; the runs, the lifecycle
of their slots, restarts and other writers interleave at will. A run then closes at
most once and decides at most once, its order is committed with its decision, and a
close that was left without its decision is never followed by an order.

Between the close and the reverse of one call somebody may end the run and abandon
it. What carries the proof is that abandoning needs a run that has ended: from then
on the worker is fenced, so a run is undecided as long as its worker can still save.
-/
namespace MarketSystem.OppositePolicy

open Library RrContract Database RiskEngine RiskReservation CandidateIdentity
  GuardedWrite
open ConflictPath (candidate sampleReport sampleSha256)
open GuardedWrite (sampleUuid4)

section Runs

variable (sha256 : Json → String) (uuid5 : String → String) (calls : Execute → Prop)

/-- The runs that the policy is called for. -/
def Handled (runId : String) : Prop := ∃ c, calls c ∧ c.runId = runId

/-- A client of a run is one call of the set for it. -/
def Caller (runId : String) (p : Program World (Except String Outcome)) : Prop :=
  ∃ c, calls c ∧ c.runId = runId ∧ p = execute sha256 c

/-- Other writers: the runs are the lifecycle's, the rows of the policy and the orders of
its runs are the policy's. -/
structure OtherWriter (db db' : Database) : Prop where
  runs : db'.runs = db.runs
  journal : ∃ rows, db'.journal = db.journal ++ rows ∧ ∀ row ∈ rows, ∀ runId, Handled calls runId →
    row.runId = some runId → row.eventType ≠ decisionEvent ∧ row.eventType ≠ closeEvent
  kept : ∀ o ∈ db.paperOrders, ∃ o' ∈ db'.paperOrders, o'.orderId = o.orderId ∧ o'.runId = o.runId
  none_new : ∀ o' ∈ db'.paperOrders, Handled calls o'.runId →
    ∃ o ∈ db.paperOrders, o.orderId = o'.orderId ∧ o.runId = o'.runId

/-- What happens around the calls: time passes, the halt gate switches, the slots live on,
a process restarts, somebody else writes. -/
inductive Around : World → World → Prop
  | clock (w : World) (now : Instant) : Around w { w with now := now }
  | halt (w : World) (halted : Bool) : Around w { w with halted := halted }
  | slots (w : World) {call : Slots.Call} (h : Slots.Lifecycle uuid5 call) :
      Around w { w with db := (call.execute uuid5 w.db).2 }
  | restart (w : World) (at_ : Instant) :
      Around w { w with db := (commit (abandonIncomplete at_ none) w.db).2 }
  | other (w : World) {db' : Database} (h : OtherWriter calls w.db db') :
      Around w { w with db := db' }

/-- A transaction that closes: the trade of the open position, booked with its row. -/
inductive Closes (c : Execute) (db db' : Database) : Prop
  | closed {position : PaperPosition} {price : ℚ} {tradeId setupId : String} {outcome : Outcome}
      (hposition : position ∈ db.paperPositions) (hopen : position.status = .open)
      (hsymbol : position.symbol = c.symbol) (hprice : lastClose c.snapshot = .ok price)
      (hid : ∀ t ∈ db.closedTrades, t.tradeId ≠ tradeId)
      (htrades : ∀ t, t ∈ db'.closedTrades ↔ t ∈ db.closedTrades ∨
        t = TradeManager.closedTrade tradeId position price c.at_ c.config.mode.exitReason)
      (hstatus : outcome.status = "CLOSED")
      (hjournal : db'.journal = db.journal ++
        [⟨some c.at_, some c.runId, some c.symbol, tradeId, "POSITION_CLOSED", "INFO",
            .obj [("exit_reason", .str c.config.mode.exitReason)]⟩,
          rowOf (noteEvent c setupId outcome closeEvent [])])

/-- A transaction of a run touches neither its close row nor the trades, or closes. -/
inductive Closing (runId : String) (db db' : Database) : Prop
  | same (hrows : rowsOf closeEvent runId db' = rowsOf closeEvent runId db)
      (htrades : ∀ t, t ∈ db'.closedTrades ↔ t ∈ db.closedTrades)
  | closes {c : Execute} (hcall : calls c) (hrun : c.runId = runId) (h : Closes c db db')

/-- The invariant; the runs of `closed` are known to be shut. -/
structure Inv (closed : String → Prop) (w : World) : Prop where
  runIds : Slots.RunIds uuid5 w.db
  run : ∀ runId, Handled calls runId → RunInv runId w.db
  shut : ∀ runId, Handled calls runId → closed runId → Shut runId w.db

/-- The discipline of a run: others leave it alone but for abandoning it, and it leaves
the other runs alone. -/
def discipline (closed : String → Prop) (runId : String) : Discipline World where
  inv := Inv uuid5 calls closed
  rely := fun w w' => Handled calls runId → Others uuid5 runId w.db w'.db
  guar := fun w w' => (∀ other, Handled calls other → other ≠ runId →
    Others uuid5 other w.db w'.db) ∧ Closing calls runId w.db w'.db
  rely_refl := fun w _ => .refl w.db
  rely_trans := fun h h' hr => (h hr).trans (h' hr)
  guar_refl := fun w => ⟨fun _ _ _ => .refl w.db, .same rfl (fun _ => Iff.rfl)⟩

variable {sha256 uuid5 calls} {closed : String → Prop}

/-- Where every run is at most abandoned, the invariant stays. -/
theorem Inv.step {w w' : World} (h : Inv uuid5 calls closed w)
    (hids : Slots.RunIds uuid5 w'.db)
    (hruns : ∀ runId, Handled calls runId → Abandons runId w.db w'.db) :
    Inv uuid5 calls closed w' where
  runIds := hids
  run := fun runId hr => (h.run runId hr).abandons (hruns runId hr)
  shut := fun runId hr hc => (h.shut runId hr hc).abandons (hruns runId hr)

theorem runIds_of_runs_eq {db db' : Database} (h : Slots.RunIds uuid5 db)
    (hruns : db'.runs = db.runs) : Slots.RunIds uuid5 db' :=
  fun run hrun => h run (hruns ▸ hrun)

/-! ## What happens around the calls -/

theorem OtherWriter.others {db db' : Database} (h : OtherWriter calls db db') {runId : String}
    (hr : Handled calls runId) : Others uuid5 runId db db' := by
  obtain ⟨rows, hrows, hkind⟩ := h.journal
  refine { slots := .of_runs_eq h.runs, closes := ?_, decisions := .inl ?_, kept := h.kept,
           none_new := ?_ }
  · exact rowsOf_append_of_none hrows (fun row hrow he => (hkind row hrow runId hr he).2)
  · exact rowsOf_append_of_none hrows (fun row hrow he => (hkind row hrow runId hr he).1)
  · rintro o' ho' rfl
    exact h.none_new o' ho' hr

/-- Nothing around the calls touches a run but to abandon it. -/
theorem around_step {w w' : World} (hinv : Inv uuid5 calls closed w)
    (h : Around uuid5 calls w w') :
    Inv uuid5 calls closed w' ∧ ∀ runId, Handled calls runId → Others uuid5 runId w.db w'.db := by
  suffices hothers : Slots.RunIds uuid5 w'.db ∧
      ∀ runId, Handled calls runId → Others uuid5 runId w.db w'.db from
    ⟨hinv.step hothers.1 (fun runId hr => (hothers.2 runId hr).abandons), hothers.2⟩
  cases h with
  | clock now => exact ⟨hinv.runIds, fun _ _ => .refl w.db⟩
  | halt halted => exact ⟨hinv.runIds, fun _ _ => .refl w.db⟩
  | @slots call h =>
    have hmoves := h.moves hinv.runIds
    have hevolves := (Slots.execute_preserves uuid5 call w.db).1.2
    exact ⟨hmoves.runIds hinv.runIds, fun runId _ => (quiet_of_moves hmoves hevolves).others runId⟩
  | restart at_ =>
    refine ⟨?_, fun runId _ => abandonIncomplete_others hinv.runIds (by simp)⟩
    obtain ⟨rows, hrows⟩ := abandonIncomplete_eq w.db at_ none
    exact runIds_of_runs_eq hinv.runIds (by rw [hrows])
  | @other db' h => exact ⟨runIds_of_runs_eq hinv.runIds h.runs, fun runId hr => h.others hr⟩

/-! ## One call -/

/-- The slot of the call is known, and its run has neither closed nor decided. -/
structure Fresh (c : Execute) (w : World) : Prop where
  known : Known c.key w.db
  closes : rowsOf closeEvent c.runId w.db = []
  decisions : rowsOf decisionEvent c.runId w.db = []

/-- The slot of the call is known, and its run is undecided unless it has ended. -/
structure Undecided (c : Execute) (w : World) : Prop where
  known : Known c.key w.db
  open_ : rowsOf decisionEvent c.runId w.db = [] ∨ Ended c.key w.db

theorem Fresh.undecided {c : Execute} {w : World} (h : Fresh c w) : Undecided c w :=
  ⟨h.known, .inl h.decisions⟩

section Call

variable {c : Execute} {setupId : String} {w w' : World}

theorem Fresh.stable (h : Fresh c w) (ho : Others uuid5 c.runId w.db w'.db) : Fresh c w' := by
  refine ⟨h.known.evolves ho.slots, ho.closes.trans h.closes, ?_⟩
  rcases ho.decisions with hsame | ⟨hclosed, -⟩
  · exact hsame.trans h.decisions
  · exact absurd h.closes hclosed

theorem Undecided.stable (h : Undecided c w) (hkey : uuid5 c.key = c.runId)
    (ho : Others uuid5 c.runId w.db w'.db) : Undecided c w' :=
  ⟨h.known.evolves ho.slots, ho.undecided hkey h.known h.open_⟩

/-- A worker that still owns its slot finds its run undecided. -/
theorem Undecided.of_owns (h : Undecided c w) {symbol : String}
    (howns : w.db.ownsSlot c.key symbol = true) : rowsOf decisionEvent c.runId w.db = [] := by
  rcases h.open_ with hnone | hended
  · exact hnone
  · rw [not_ownsSlot_of_ended hended] at howns
    cases howns

/-- A transaction of a call that leaves everybody's close rows and the trades alone. -/
theorem step_of_abandons (hinv : Inv uuid5 calls closed w) (hruns : w'.db.runs = w.db.runs)
    (hown : Abandons c.runId w.db w'.db)
    (hothers : ∀ other, other ≠ c.runId → Others uuid5 other w.db w'.db)
    (htrades : ∀ t, t ∈ w'.db.closedTrades ↔ t ∈ w.db.closedTrades) :
    Inv uuid5 calls closed w' ∧ (discipline uuid5 calls closed c.runId).guar w w' := by
  refine ⟨hinv.step (runIds_of_runs_eq hinv.runIds hruns) (fun runId _ => ?_),
    fun other _ hne => hothers other hne, .same hown.closes htrades⟩
  by_cases hrun : runId = c.runId
  · exact hrun ▸ hown
  · exact (hothers runId hrun).abandons

/-- A transaction that journals no row of the policy. -/
theorem step_of_quiet (hinv : Inv uuid5 calls closed w) (h : Quiet w.db w'.db)
    (hruns : w'.db.runs = w.db.runs) (htrades : w'.db.closedTrades = w.db.closedTrades) :
    Inv uuid5 calls closed w' ∧ (discipline uuid5 calls closed c.runId).guar w w' :=
  step_of_abandons hinv hruns (@Quiet.others uuid5 _ _ h c.runId).abandons (fun other _ => h.others other)
    (fun t => by rw [htrades])

/-! ## Its two saves -/

variable {s b' : PaperBroker} {outcome : Outcome} {rows : List JournalEvent}

/-- The save of a decision that submits nothing. -/
theorem skip_step (hinv : Inv uuid5 calls closed w) (hf : Found w.db s)
    (hundecided : rowsOf decisionEvent c.runId w.db = []) (hstatus : outcome.status = "SKIPPED")
    (haccount : b'.account = s.account) (horders : b'.orders = s.orders)
    (hjournal : b'.journal = rows ++ [noteEvent c setupId outcome decisionEvent []])
    (hrows : ∀ e ∈ rows, e.eventType ≠ decisionEvent ∧ e.eventType ≠ closeEvent) :
    Inv uuid5 calls closed { w with db := w.db.persist b' } ∧
      (discipline uuid5 calls closed c.runId).guar w { w with db := w.db.persist b' } := by
  have hsame := same_orders hf horders
  have hcloses := @rowsOf_persist c.runId w.db b' closeEvent _ _ hjournal
    (fun e he => (hrows e he).2) rfl
  have hdecisions := @rowsOf_persist c.runId w.db b' decisionEvent _ _ hjournal
    (fun e he => (hrows e he).1) rfl
  have hown : Abandons c.runId w.db (w.db.persist b') := by
    refine ⟨?_, .inr ⟨hundecided, rowOf (noteEvent c setupId outcome decisionEvent []), ?_, ?_⟩,
      ?_, ?_⟩
    · exact hcloses.trans (List.append_nil _)
    · rw [hdecisions, hundecided]
      rfl
    · simp [Submitted, rowOf, noteEvent, Json.get, hstatus]
    · exact fun o ho => ⟨o, (hsame o).mpr ho, rfl, rfl⟩
    · exact fun o ho hrun => ⟨o, (hsame o).mp ho, rfl, hrun⟩
  refine step_of_abandons hinv (persist_runs w.db b') hown (fun other hne => ?_)
    (same_trades hf haccount)
  refine others_persist (Ne.symm hne) (fun e he => ?_) (fun o ho => (hsame o).mpr ho)
    (fun o ho => .inl ((hsame o).mp ho))
  rw [hjournal] at he
  rcases List.mem_append.mp he with he | he
  · exact .inr (hrows e he)
  · exact .inl (List.mem_singleton.mp he ▸ rfl)

/-- The save of a close. -/
theorem close_step (hinv : Inv uuid5 calls closed w) (hcall : calls c) (hf : Found w.db s)
    (hfresh : Fresh c w) {price : ℚ} {tradeId : String} {b : PaperBroker} {trade : ClosedTrade}
    (hsaved : s.journal = []) (hprice : lastClose c.snapshot = .ok price)
    (hid : ∀ t ∈ s.account.closedTrades, t.tradeId ≠ tradeId)
    (hclose : s.closeMarket c.symbol price c.at_ c.config.mode.exitReason c.runId tradeId =
      .ok (b, trade))
    (hstatus : outcome.status = "CLOSED")
    (haccount : b'.account = b.account) (horders : b'.orders = b.orders)
    (hjournal : b'.journal = b.journal ++ [noteEvent c setupId outcome closeEvent []]) :
    Inv uuid5 calls closed { w with db := w.db.persist b' } ∧
      (discipline uuid5 calls closed c.runId).guar w { w with db := w.db.persist b' } ∧
      Undecided c { w with db := w.db.persist b' } := by
  obtain ⟨hstop, htarget⟩ := c.config.mode.exitReason_ne
  have hbooked := closeMarket_journal hstop htarget hclose
  obtain ⟨p, hp, -, -, rfl, hsettled, horders', -⟩ := PaperBroker.closeMarket_ok hclose
  obtain ⟨hmem, hsymbol⟩ := Table.get?_eq_some.mp hp
  obtain ⟨hrow, hopen⟩ := (hf.positions p).mpr hmem
  have hsame := same_orders hf (horders.trans horders')
  have hadded : b'.account.closedTrades = s.account.closedTrades ++
      [TradeManager.closedTrade tradeId p price c.at_ c.config.mode.exitReason] := by
    rw [haccount, hsettled]
    rfl
  have htrades : ∀ t, t ∈ (w.db.persist b').closedTrades ↔ t ∈ w.db.closedTrades ∨
      t = TradeManager.closedTrade tradeId p price c.at_ c.config.mode.exitReason := by
    intro t
    rw [hf.mem_trades (fun t ht => by simp [hadded, ht]), hadded, List.mem_append,
      List.mem_singleton]
    · exact or_congr_left hf.trades.mem_iff.symm
    · rw [hadded, List.map_append, List.nodup_append]
      refine ⟨hf.trades_nodup, by simp, fun a ha a' ha' => ?_⟩
      obtain ⟨t, ht, rfl⟩ := List.mem_map.mp ha
      rw [List.mem_singleton.mp ha']
      exact hid t ht
  have hevents : ∀ e ∈ b.journal, e.eventType ≠ decisionEvent ∧ e.eventType ≠ closeEvent := by
    intro e he
    rw [hbooked, hsaved, List.nil_append] at he
    rw [List.mem_singleton.mp he]
    exact ⟨(by decide : "POSITION_CLOSED" ≠ decisionEvent),
      (by decide : "POSITION_CLOSED" ≠ closeEvent)⟩
  have hcloses := @rowsOf_persist c.runId w.db b' closeEvent _ _ hjournal
    (fun e he => (hevents e he).2) rfl
  have hdecisions := @rowsOf_persist c.runId w.db b' decisionEvent _ _ hjournal
    (fun e he => (hevents e he).1) rfl
  have hundecided : rowsOf decisionEvent c.runId (w.db.persist b') = [] := by
    rw [hdecisions, hfresh.decisions]
    rfl
  have hothers : ∀ other, other ≠ c.runId → Others uuid5 other w.db (w.db.persist b') := by
    intro other hne
    refine others_persist (Ne.symm hne) (fun e he => ?_) (fun o ho => (hsame o).mpr ho)
      (fun o ho => .inl ((hsame o).mp ho))
    rw [hjournal] at he
    rcases List.mem_append.mp he with he | he
    · exact .inr (hevents e he)
    · exact .inl (List.mem_singleton.mp he ▸ rfl)
  refine ⟨⟨runIds_of_runs_eq hinv.runIds (persist_runs w.db b'), ?_, ?_⟩,
    ⟨fun other _ hne => hothers other hne, .closes hcall rfl ?_⟩, ?_⟩
  · intro runId hr
    by_cases hrun : runId = c.runId
    · subst hrun
      refine (hinv.run c.runId hr).close ?_ (hundecided.trans hfresh.decisions.symm) hsame
      rw [hcloses, hfresh.closes]
      exact le_refl 1
    · exact (hinv.run runId hr).abandons (hothers runId hrun).abandons
  · intro runId hr hc
    by_cases hrun : runId = c.runId
    · subst hrun
      exact absurd hfresh.closes (hinv.shut c.runId hr hc).1
    · exact (hinv.shut runId hr hc).abandons (hothers runId hrun).abandons
  · refine @Closes.closed c _ _ p price tradeId setupId outcome hrow hopen hsymbol hprice ?_
      htrades hstatus ?_
    · exact fun t ht => hid t (hf.trades.mem_iff.mp ht)
    · rw [persist_journal, hjournal, hbooked, hsaved]
      rfl
  · refine ⟨hfresh.known.evolves (.of_runs_eq (persist_runs w.db b')), .inl hundecided⟩

/-- The save of the order, with the decision that names it. -/
theorem submit_step (hinv : Inv uuid5 calls closed w) (hcall : calls c) (hopen : ¬ closed c.runId)
    (hf : Found w.db s) (hundecided : rowsOf decisionEvent c.runId w.db = [])
    {plan : TradePlan} (hplan : c.report.tradePlan = some plan) {orderId : String}
    {prepared : PaperBroker} {order : PaperOrder} {record : RiskRecord}
    (hid : ∀ o ∈ s.orders, o.orderId ≠ orderId)
    (hprepare : prepareReservation (c.request setupId plan orderId) s.portfolio =
      .approved prepared order record)
    (hstatus : outcome.status = "SUBMITTED") (horder : outcome.orderId = some order.orderId)
    (haccount : b'.account = s.account) (horders : b'.orders = prepared.orders)
    (hjournal : b'.journal = rows ++ [noteEvent c setupId outcome decisionEvent []])
    (hrows : ∀ e ∈ rows, e.eventType ≠ decisionEvent ∧ e.eventType ≠ closeEvent) :
    Inv uuid5 calls closed { w with db := w.db.persist b' } ∧
      (discipline uuid5 calls closed c.runId).guar w { w with db := w.db.persist b' } := by
  have hinvrun := hinv.run c.runId ⟨c, hcall, rfl⟩
  have hnone : PaperBroker.runOrder s.orders c.runId = none := by
    rw [runOrder_eq_none]
    exact fun o ho => hinvrun.no_order hundecided o ((hf.orders o).mpr ho)
  obtain ⟨planAsOf, quantity, multiplier, approval, hbuilt, -, -, -, -, -, -, hput⟩ :=
    prepareReservation_approved hplan hnone hprepare
  have horderId : order.orderId = orderId := by rw [hbuilt]; rfl
  have horderRun : order.runId = c.runId := by rw [hbuilt]; rfl
  have hfresh : ∀ o ∈ s.orders, o.orderId ≠ order.orderId := fun o ho => horderId ▸ hid o ho
  have hmem : ∀ o, o ∈ b'.orders ↔ o = order ∨ o ∈ s.orders := by
    intro o
    rw [horders, hput, Table.mem_put]
    exact or_congr_right (and_iff_left_of_imp (hfresh o))
  have hsaved : ∀ o, o ∈ (w.db.persist b').paperOrders ↔ o = order ∨ o ∈ w.db.paperOrders := by
    intro o
    rw [hf.mem_orders (fun o ho => ⟨o, (hmem o).mpr (.inr ho), rfl⟩), hmem, hf.orders]
  have hcloses := @rowsOf_persist c.runId w.db b' closeEvent _ _ hjournal
    (fun e he => (hrows e he).2) rfl
  have hdecisions := @rowsOf_persist c.runId w.db b' decisionEvent _ _ hjournal
    (fun e he => (hrows e he).1) rfl
  have hsame : rowsOf closeEvent c.runId (w.db.persist b') = rowsOf closeEvent c.runId w.db :=
    hcloses.trans (List.append_nil _)
  have hnames : NamesOrder (rowOf (noteEvent c setupId outcome decisionEvent [])) order := by
    simp [NamesOrder, Submitted, rowOf, noteEvent, Json.get, Json.ofOption, hstatus, horder]
  have hothers : ∀ other, other ≠ c.runId → Others uuid5 other w.db (w.db.persist b') := by
    intro other hne
    refine others_persist (Ne.symm hne) (fun e he => ?_) (fun o ho => (hsaved o).mpr (.inr ho))
      (fun o ho => ?_)
    · rw [hjournal] at he
      rcases List.mem_append.mp he with he | he
      · exact .inr (hrows e he)
      · exact .inl (List.mem_singleton.mp he ▸ rfl)
    · rcases (hsaved o).mp ho with rfl | ho
      · exact .inr horderRun
      · exact .inl ho
  refine ⟨⟨runIds_of_runs_eq hinv.runIds (persist_runs w.db b'), ?_, ?_⟩,
    fun other _ hne => hothers other hne, .same hsame (same_trades hf haccount)⟩
  · intro runId hr
    by_cases hrun : runId = c.runId
    · subst hrun
      refine hinvrun.submit hsame hundecided ?_ hnames horderRun hsaved
      rw [hdecisions, hundecided]
      rfl
    · exact (hinv.run runId hr).abandons (hothers runId hrun).abandons
  · intro runId hr hc
    have hrun : runId ≠ c.runId := fun he => hopen (he ▸ hc)
    exact (hinv.shut runId hr hc).abandons (hothers runId hrun).abandons

/-! ## Its guarded writes -/

theorem closeOrBlock_guarded (hcall : calls c) (hkey : uuid5 c.key = c.runId) (setupId : String) :
    Guarded (discipline uuid5 calls closed c.runId) c.writer (c.closeOrBlock setupId) (Fresh c)
      (fun outcome w => outcome.status = "SKIPPED" ∨ Undecided c w) where
  before_stable := fun w w' hr hw => hw.stable (hr ⟨c, hcall, rfl⟩)
  after_stable := fun outcome w w' hr hw =>
    hw.imp_right (fun hu => hu.stable hkey (hr ⟨c, hcall, rfl⟩))
  save := by
    intro w now account orders fills outcome changed db' hinv hfresh _ loaded happly hsave
    obtain ⟨-, hf, rfl⟩ := savePaper_commits hsave
    rcases closeOrBlock_save happly with
      ⟨hstatus, price, b, trade, hprice, hclose, haccount, horders, hjournal⟩ |
      ⟨hstatus, haccount, horders, hjournal⟩
    · obtain ⟨hinv', hguar, hundecided⟩ := close_step hinv hcall hf hfresh rfl hprice
        (c.uuid4.fresh loaded).trade hclose hstatus haccount horders hjournal
      exact ⟨hinv', hguar, .inr hundecided⟩
    · obtain ⟨hinv', hguar⟩ := @skip_step uuid5 calls closed c setupId w loaded changed outcome []
        hinv hf hfresh.decisions hstatus haccount horders hjournal (by simp)
      exact ⟨hinv', hguar, .inl hstatus⟩

theorem reserve_guarded (hcall : calls c) (hkey : uuid5 c.key = c.runId)
    (hopen : ¬ closed c.runId) {plan : TradePlan} (hplan : c.report.tradePlan = some plan)
    (setupId : String) (reversing : Bool) :
    Guarded (discipline uuid5 calls closed c.runId) c.writer (c.reserve setupId plan reversing)
      (Undecided c) (fun _ _ => True) where
  before_stable := fun w w' hr hw => hw.stable hkey (hr ⟨c, hcall, rfl⟩)
  after_stable := fun _ _ _ _ _ => trivial
  save := by
    intro w now account orders fills outcome changed db' hinv hw _ loaded happly hsave
    obtain ⟨howns, hf, rfl⟩ := savePaper_commits hsave
    -- the save is fenced: whoever could have abandoned the run has ended it first
    have hundecided := hw.of_owns (howns c.key rfl)
    rcases reserve_save happly with ⟨hstatus, haccount, horders, rows, hjournal, hrows⟩ |
      ⟨hstatus, prepared, order, record, hprepare, horder, haccount, horders, rows, hjournal, hrows⟩
    · obtain ⟨hinv', hguar⟩ := skip_step hinv hf hundecided hstatus haccount horders hjournal hrows
      exact ⟨hinv', hguar, trivial⟩
    · obtain ⟨hinv', hguar⟩ := submit_step hinv hcall hopen hf hundecided hplan
        (c.uuid4.fresh loaded).order hprepare hstatus horder haccount horders hjournal hrows
      exact ⟨hinv', hguar, trivial⟩

/-! ## The whole call -/

variable {post : Except String Outcome → World → Prop}

theorem openReverse_holds (hcall : calls c) (hkey : uuid5 c.key = c.runId)
    (hopen : ¬ closed c.runId) {plan : TradePlan} (hplan : c.report.tradePlan = some plan)
    {reversing : Bool} (hinv : Inv uuid5 calls closed w) (hw : Undecided c w) :
    (c.openReverse setupId plan reversing).Holds (discipline uuid5 calls closed c.runId)
      (fun _ _ => True) w := by
  have hwrite := (reserve_guarded hcall hkey hopen hplan setupId reversing).holds hinv hw
  refine Program.Holds.bind (hwrite.mono (fun written w₁ _ _ => ?_)) hinv
  match written with
  | .error e => exact pure_holds (fun _ _ _ => trivial)
  | .ok none => exact pure_holds (fun _ _ _ => trivial)
  | .ok (some (_, outcome)) => exact pure_holds (fun _ _ _ => trivial)

theorem closeThenReverse_holds (hcall : calls c) (hkey : uuid5 c.key = c.runId)
    (hopen : ¬ closed c.runId) {plan : TradePlan} (hplan : c.report.tradePlan = some plan)
    (hinv : Inv uuid5 calls closed w) (hw : Fresh c w) :
    (c.closeThenReverse setupId plan).Holds (discipline uuid5 calls closed c.runId)
      (fun _ _ => True) w := by
  have hwrite := (@closeOrBlock_guarded uuid5 calls closed c hcall hkey setupId).holds hinv hw
  refine Program.Holds.bind (hwrite.mono (fun written w₁ hinv₁ hwritten => ?_)) hinv
  match written with
  | .error e => exact pure_holds (fun _ _ _ => trivial)
  | .ok none => exact pure_holds (fun _ _ _ => trivial)
  | .ok (some (_, outcome)) =>
    dsimp only
    split_ifs with hskipped
    · exact pure_holds (fun _ _ _ => trivial)
    · refine openReverse_holds hcall hkey hopen hplan hinv₁ ?_
      rcases hwritten with hafter | ⟨hfresh, -⟩
      · exact hafter.resolve_left hskipped
      · exact hfresh.undecided

/-- The call abandons its own interrupted close. -/
theorem abandon_step (hinv : Inv uuid5 calls closed w) {db' : Database} {u : Unit}
    (h : abandonIncomplete c.at_ (some c.runId) w.db = .ok (u, db')) :
    Inv uuid5 calls closed { w with db := db' } ∧
      (discipline uuid5 calls closed c.runId).guar w { w with db := db' } := by
  have hdb : db' = (commit (abandonIncomplete c.at_ (some c.runId)) w.db).2 := by
    rw [commit_ok h]
  obtain ⟨rows, hrows⟩ := abandonIncomplete_eq w.db c.at_ (some c.runId)
  refine step_of_abandons hinv ?_ ?_ (fun other hne => ?_) (fun t => ?_)
  · rw [hdb, hrows]
  · rw [hdb]
    exact abandonIncomplete_abandons w.db c.at_ (some c.runId)
  · rw [hdb]
    exact abandonIncomplete_others hinv.runIds (fun he => hne (Option.some.inj he).symm)
  · rw [hdb, hrows]

theorem decide_holds (hcall : calls c) (hkey : uuid5 c.key = c.runId) {plan : TradePlan}
    (hplan : c.report.tradePlan = some plan) (hknown : Known c.key w.db) :
    (c.decide_ setupId plan).Holds (discipline uuid5 calls closed c.runId)
      (fun _ _ => True) w := by
  have hhandled : Handled calls c.runId := ⟨c, hcall, rfl⟩
  refine Program.Holds.read_now (fun w₁ hr₁ _ => ?_)
  have hknown₁ := hknown.evolves (hr₁ hhandled).slots
  cases hold : prior decisionEvent (some c.runId) w₁.db with
  | some old => exact pure_holds (fun _ _ _ => trivial)
  | none =>
    have hundecided₁ := prior_eq_none.mp hold
    refine Program.Holds.read_now (fun w₂ hr₂ hinv₂ => ?_)
    have ho := hr₂ hhandled
    cases hclose : prior closeEvent (some c.runId) w₂.db with
    | some row =>
      refine transact_holds (fun _ _ _ _ => pure_holds (fun _ _ _ => trivial)) ?_
      intro u db' w₃ _ hinv₃ hok
      obtain ⟨hinv', hguar⟩ := abandon_step hinv₃ hok
      exact ⟨hinv', hguar, pure_holds (fun _ _ _ => trivial)⟩
    | none =>
      have hcloses := prior_eq_none.mp hclose
      -- nobody decides a run that has not closed, so the first read still holds
      have hdecisions : rowsOf decisionEvent c.runId w₂.db = [] := by
        rcases ho.decisions with hsame | ⟨hclosed, -⟩
        · exact hsame.trans hundecided₁
        · exact absurd (ho.closes.symm.trans hcloses) hclosed
      have hopen : ¬ closed c.runId := fun hc => (hinv₂.shut c.runId hhandled hc).1 hcloses
      exact closeThenReverse_holds hcall hkey hopen hplan hinv₂
        ⟨hknown₁.evolves ho.slots, hcloses, hdecisions⟩

/-- The claim journals no row of the policy. -/
theorem claim_step {fields : CandidateFields} {claim : Claim} {db' : Database}
    (hinv : Inv uuid5 calls closed w)
    (h : claimRun sha256 c.runId c.symbol fields c.at_ c.hasHistory (some c.key) w.db =
      .ok (claim, db')) :
    Inv uuid5 calls closed { w with db := db' } ∧
      (discipline uuid5 calls closed c.runId).guar w { w with db := db' } := by
  rcases claimRun_ok h with ⟨rfl, -⟩ | ⟨-, -, -, rfl⟩
  · exact ⟨hinv, (discipline uuid5 calls closed c.runId).guar_refl w⟩
  · refine step_of_quiet hinv ⟨.of_runs_eq rfl, rfl, _, rfl, fun row hrow => ?_⟩ rfl rfl
    rw [List.mem_singleton.mp hrow]
    exact ⟨(by decide : claimEvent ≠ decisionEvent), (by decide : claimEvent ≠ closeEvent)⟩

theorem claimThenDecide_holds (hcall : calls c) (hkey : uuid5 c.key = c.runId) {plan : TradePlan}
    (hplan : c.report.tradePlan = some plan) {fields : CandidateFields}
    (hinv : Inv uuid5 calls closed w) (hknown : Known c.key w.db) :
    (c.claimThenDecide sha256 setupId plan fields).Holds
      (discipline uuid5 calls closed c.runId) (fun _ _ => True) w := by
  have hhandled : Handled calls c.runId := ⟨c, hcall, rfl⟩
  have hclaim : (c.claim sha256 fields).Holds (discipline uuid5 calls closed c.runId)
      (fun _ w => Known c.key w.db) w := by
    refine Program.Holds.read_now (fun w₁ hr₁ _ => ?_)
    have hknown₁ := hknown.evolves (hr₁ hhandled).slots
    cases w₁.halted with
    | true => exact pure_holds (fun w₂ hr₂ _ => hknown₁.evolves (hr₂ hhandled).slots)
    | false =>
      refine transact_holds (fun _ w₂ hr₂ _ => pure_holds (fun w₃ hr₃ _ => ?_)) ?_
      · exact (hknown₁.evolves (hr₂ hhandled).slots).evolves (hr₃ hhandled).slots
      · intro claim db' w₂ hr₂ hinv₂ hok
        obtain ⟨hinv', hguar⟩ := claim_step hinv₂ hok
        have hknown₂ := hknown₁.evolves (hr₂ hhandled).slots
        have hruns : db'.runs = w₂.db.runs := by
          rcases claimRun_ok hok with ⟨rfl, -⟩ | ⟨-, -, -, rfl⟩ <;> rfl
        refine ⟨hinv', hguar, pure_holds (fun w₃ hr₃ _ => ?_)⟩
        exact (hknown₂.evolves (.of_runs_eq hruns)).evolves (hr₃ hhandled).slots
  refine Program.Holds.bind (hclaim.mono (fun claim w₁ _ hknown₁ => ?_)) hinv
  match claim with
  | .error e => exact pure_holds (fun _ _ _ => trivial)
  | .ok none => exact pure_holds (fun _ _ _ => trivial)
  | .ok (some .mismatch) => exact pure_holds (fun _ _ _ => trivial)
  | .ok (some .unknownHistory) => exact pure_holds (fun _ _ _ => trivial)
  | .ok (some .claimed) => exact decide_holds hcall hkey hplan hknown₁
  | .ok (some .same) => exact decide_holds hcall hkey hplan hknown₁

/-- Every call with a valid candidate keeps the discipline of its run. -/
theorem execute_holds (hcall : calls c) (hkey : uuid5 c.key = c.runId)
    (hvalid : ∃ setupId, candidate c.report = .ok setupId) :
    (execute sha256 c).Holds (discipline uuid5 calls closed c.runId) (fun _ _ => True) w := by
  obtain ⟨setupId, hcandidate⟩ := hvalid
  refine Program.Holds.read_now (fun w₁ _ hinv₁ => ?_)
  cases howns : w₁.db.ownsSlot c.key c.symbol with
  | false => exact pure_holds (fun _ _ _ => trivial)
  | true =>
    simp only [Bool.not_true, Bool.false_eq_true, if_false]
    split_ifs
    · exact pure_holds (fun _ _ _ => trivial)
    · rw [hcandidate]
      cases hplan : c.report.tradePlan with
      | none => exact pure_holds (fun _ _ _ => trivial)
      | some plan =>
        dsimp only
        cases candidateFields c.report c.config.instrument c.config.accountId setupId
            (riskPolicyFor plan.policyVersion) c.config.mode.version with
        | none => exact pure_holds (fun _ _ _ => trivial)
        | some fields =>
          exact claimThenDecide_holds hcall hkey hplan hinv₁ (known_of_ownsSlot howns)

end Call

/-! ## Whole runs -/

variable (uuid5 calls) in
/-- Nothing has happened yet to the runs of the calls. -/
structure Untouched (db : Database) : Prop where
  runIds : Slots.RunIds uuid5 db
  rows : ∀ row ∈ db.journal, ∀ runId, Handled calls runId → row.runId = some runId →
    row.eventType ≠ decisionEvent ∧ row.eventType ≠ closeEvent
  orders : ∀ o ∈ db.paperOrders, ¬ Handled calls o.runId

variable (sha256 uuid5 calls) in
/-- The steps of the system: the calls of each run one after another, and all around. -/
abbrev Step : Sessions String World (Except String Outcome) →
    Sessions String World (Except String Outcome) → Prop :=
  SessionStep (Caller sha256 calls) (Around uuid5 calls)

variable (sha256 uuid5 calls) in
/-- A run closes and decides at most once. Its order stands with the decision that names it.
Its close row comes with the trade, in one transaction, and from nobody else; no transaction
of the run books a trade without it. A close whose call ended without the order stays so. -/
structure OnceOnly (s : Sessions String World (Except String Outcome)) (runId : String) :
    Prop where
  oneClose : (rowsOf closeEvent runId s.store.db).length ≤ 1
  oneDecision : (rowsOf decisionEvent runId s.store.db).length ≤ 1
  ordered : ∀ o ∈ s.store.db.paperOrders, o.runId = runId →
    ∃ row ∈ rowsOf decisionEvent runId s.store.db, NamesOrder row o
  named : ∀ row ∈ rowsOf decisionEvent runId s.store.db, Submitted row →
    ∃ o ∈ s.store.db.paperOrders, o.runId = runId ∧ NamesOrder row o
  closes : ∀ s', Step sha256 uuid5 calls s s' →
    rowsOf closeEvent runId s'.store.db = rowsOf closeEvent runId s.store.db ∨
      ∃ c, calls c ∧ c.runId = runId ∧ Closes c s.store.db s'.store.db
  books : ∀ step next, s.live runId = some (.act step next) →
    Closing calls runId s.store.db (step s.store).db
  never_resumed : s.live runId = none → rowsOf closeEvent runId s.store.db ≠ [] →
    (∀ row ∈ rowsOf decisionEvent runId s.store.db, ¬ Submitted row) →
    ∀ s', Relation.ReflTransGen (Step sha256 uuid5 calls) s s' →
      ∀ o ∈ s'.store.db.paperOrders, o.runId ≠ runId

theorem Untouched.runInv {db : Database} (h : Untouched uuid5 calls db) {runId : String}
    (hr : Handled calls runId) : RunInv runId db := by
  have hnone : ∀ event, event = decisionEvent ∨ event = closeEvent →
      rowsOf event runId db = [] := by
    intro event hevent
    refine List.filter_eq_nil_iff.mpr (fun row hrow => ?_)
    simp only [isRow, decide_eq_true_eq]
    rintro ⟨hkind, hrun, -⟩
    obtain ⟨hdecision, hclose⟩ := h.rows row hrow runId hr hrun
    rcases hevent with rfl | rfl
    · exact hdecision hkind
    · exact hclose hkind
  refine ⟨?_, ?_, ?_, ?_⟩
  · simp [hnone closeEvent (.inr rfl)]
  · simp [hnone decisionEvent (.inl rfl)]
  · rintro o ho rfl
    exact absurd hr (h.orders o ho)
  · simp [hnone decisionEvent (.inl rfl)]

section Sound

variable {s s' : Sessions String World (Except String Outcome)}

variable (uuid5 calls closed) in
abbrev Sound (s : Sessions String World (Except String Outcome)) : Prop :=
  s.Sound (discipline uuid5 calls closed) (Inv uuid5 calls closed) (fun _ _ _ => True)

/-- No run of the system leaves the disciplines. -/
theorem sound_run (hkey : ∀ c, calls c → uuid5 c.key = c.runId)
    (hvalid : ∀ c, calls c → ∃ setupId, candidate c.report = .ok setupId)
    (h : Sound uuid5 calls closed s)
    (hrun : Relation.ReflTransGen (Step sha256 uuid5 calls) s s') :
    Sound uuid5 calls closed s' := by
  have hinv : ∀ i, (discipline uuid5 calls closed i).inv = Inv uuid5 calls closed := fun _ => rfl
  refine h.run hinv (fun w w' hinv haround => ?_) (fun i j hij w w' _ hguar => ?_) ?_ hrun
  · obtain ⟨hinv', hothers⟩ := around_step hinv haround
    exact ⟨hinv', fun runId hr => hothers runId hr⟩
  · exact fun hr => hguar.1 j hr (Ne.symm hij)
  · rintro runId p ⟨c, hcall, rfl, rfl⟩ w _
    exact execute_holds hcall (hkey c hcall) (hvalid c hcall)

/-- A run that no call is working on may be declared shut. -/
theorem Sound.shut {runId : String} (h : Sound uuid5 calls (fun _ => False) s)
    (hr : Handled calls runId) (hidle : s.live runId = none) (hshut : Shut runId s.store.db) :
    Sound uuid5 calls (fun r => r = runId) s where
  inv := ⟨h.inv.runIds, h.inv.run, fun _ _ hc => hc ▸ hshut⟩
  session := by
    intro i p hp
    have hne : runId ≠ i := fun he => by
      rw [← he, hidle] at hp
      cases hp
    refine @Program.Holds.change_inv _ _ (discipline uuid5 calls (fun _ => False) i) _ p _ _ rfl rfl
      (fun w hw => ⟨hw.runIds, hw.run, fun _ _ hc => hc.elim⟩) ?_ (h.session i p hp)
    intro w w' hw hw' hguar
    refine ⟨hw'.runIds, hw'.run, ?_⟩
    rintro _ _ rfl
    exact (hw.shut _ hr rfl).abandons (hguar.1 _ hr hne).abandons

theorem Sound.closes {runId : String} (h : Sound uuid5 calls closed s) (hr : Handled calls runId)
    (hstep : Step sha256 uuid5 calls s s') :
    rowsOf closeEvent runId s'.store.db = rowsOf closeEvent runId s.store.db ∨
      ∃ c, calls c ∧ c.runId = runId ∧ Closes c s.store.db s'.store.db := by
  cases hstep with
  | env haround => exact .inl ((around_step h.inv haround).2 runId hr).closes
  | start hidle hclient => exact .inl rfl
  | @act i step next hlive =>
    obtain ⟨-, hguar, -⟩ := h.session i _ hlive s.store ((discipline uuid5 calls closed i).rely_refl _)
      h.inv
    by_cases hi : runId = i
    · subst hi
      cases hguar.2 with
      | same hrows htrades => exact .inl hrows
      | @closes c hcall hrun hcloses => exact .inr ⟨c, hcall, hrun, hcloses⟩
    · exact .inl (hguar.1 runId hr hi).closes
  | stop hlive => exact .inl rfl

end Sound

/-- Close and reverse happen at most once for each run and are never resumed, in every
interleaving of the calls of any number of runs with crashes, the lifecycle of the slots,
restarts and other writers. -/
theorem close_and_reverse_once (hkey : ∀ c, calls c → uuid5 c.key = c.runId)
    (hvalid : ∀ c, calls c → ∃ setupId, candidate c.report = .ok setupId)
    {w : World} (hstart : Untouched uuid5 calls w.db)
    {s : Sessions String World (Except String Outcome)}
    (hrun : Relation.ReflTransGen (Step sha256 uuid5 calls) ⟨w, fun _ => none⟩ s) :
    ∀ runId, Handled calls runId → OnceOnly sha256 uuid5 calls s runId := by
  have hinit : Sound uuid5 calls (fun _ => False) ⟨w, fun _ => none⟩ :=
    ⟨⟨hstart.runIds, fun runId hr => hstart.runInv hr, by simp⟩, by simp⟩
  have hsound := sound_run hkey hvalid hinit hrun
  intro runId hr
  have hinv := hsound.inv.run runId hr
  refine { oneClose := hinv.oneClose, oneDecision := hinv.oneDecision, ordered := ?_,
           named := hinv.named, closes := fun s' hstep => hsound.closes hr hstep, books := ?_,
           never_resumed := ?_ }
  · intro o ho horder
    obtain ⟨row, hrow, hnames⟩ := hinv.ordered o ho horder
    exact ⟨row, by simp [hrow], hnames⟩
  · intro step next hlive
    have hholds := hsound.session runId _ hlive
    exact (hholds s.store (fun _ => .refl _) hsound.inv).2.1.2
  · intro hidle hclosed hnone s' hrun'
    have hshut : Shut runId s.store.db := by
      refine ⟨hclosed, fun o ho horder => ?_⟩
      obtain ⟨row, hrow, hsubmitted, -⟩ := hinv.ordered o ho horder
      exact hnone row (by simp [hrow]) hsubmitted
    have hlater := sound_run hkey hvalid (hsound.shut hr hidle hshut) hrun'
    exact (hlater.inv.shut runId hr rfl).2

end Runs

/-! ## A run that closes and reverses -/

/-- A bar that closed at 100, long ago. -/
def sampleBar : Bar := ⟨"XAUUSD", -4 * 60 * minute, 100, 101, 99, 100, true⟩

/-- A LONG setup against a SHORT position. -/
def sampleCall : Execute where
  config := ⟨.reverseInProfit, "A", some ⟨"XAUUSD", some (1 / 100), some 1, some 1⟩, none, []⟩
  report := sampleReport
  evidence := ⟨⟨"neutral", none⟩, ⟨"neutral", none⟩⟩
  snapshot := ⟨[("1h", [sampleBar]), ("15m", [sampleBar]), ("5m", [sampleBar])]⟩
  key := "K"
  at_ := 0
  aiAllowed := true
  drawdownBasis := none
  uuid4 := sampleUuid4

/-- The run owns its slot, and a SHORT position from 110 is open. -/
def sampleWorld : World where
  db :=
    { runs := ⟨[⟨"K", "R1", "XAUUSD", 0, 0, none, .running, none, none⟩], by simp⟩
      symbolLocks := ⟨[⟨"XAUUSD", "K"⟩], by simp⟩
      paperAccounts := ⟨[⟨"A", 10000, 10000, 10000, 0, 0, Table.empty, []⟩], by simp⟩
      paperPositions := ⟨[{
        positionId := "P0", originOrderId := "O0", runId := "R0", symbol := "XAUUSD",
        side := .short, quantity := 1, plannedEntry := 110, entryPrice := 110, stop := 120,
        target := 80, openedAt := -1, contractMultiplier := some 1 }], by simp⟩ }

/-- The call up to its end. -/
def sampleDone : Program World (Except String Outcome) × World :=
  (execute sampleSha256 sampleCall).runFor 23 sampleWorld

/-- The state in which the call has returned, with nobody else at work. -/
def sampleState : Sessions String World (Except String Outcome) where
  store := sampleDone.2
  live := Function.update (fun _ => none) "R1" (some sampleDone.1)

/-- The state in which the call starts. -/
def sampleStart : Sessions String World (Except String Outcome) where
  store := sampleWorld
  live := Function.update (fun _ => none) "R1" (some (execute sampleSha256 sampleCall))

theorem sampleState_reached : Relation.ReflTransGen
    (Step sampleSha256 (fun _ => "R1") (fun c => c = sampleCall)) ⟨sampleWorld, fun _ => none⟩
    sampleState := by
  have hcaller : Caller sampleSha256 (fun c => c = sampleCall) "R1"
      (execute sampleSha256 sampleCall) := ⟨sampleCall, rfl, rfl, rfl⟩
  have hstart : Step sampleSha256 (fun _ => "R1") (fun c => c = sampleCall)
      ⟨sampleWorld, fun _ => none⟩ sampleStart := .start rfl hcaller
  have hlive : sampleStart.live "R1" = some (execute sampleSha256 sampleCall) := by
    simp [sampleStart]
  have hruns := @session_runs _ _ _ _ (Caller sampleSha256 (fun c => c = sampleCall))
    (Around (fun _ => "R1") (fun c => c = sampleCall)) sampleStart "R1" 23 _ hlive
  rw [sampleStart, Function.update_idem] at hruns
  exact .head hstart hruns

theorem close_and_reverse_once_sample :
    OnceOnly sampleSha256 (fun _ => "R1") (fun c => c = sampleCall) sampleState "R1" ∧
      (rowsOf closeEvent "R1" sampleState.store.db).length = 1 ∧
      (rowsOf decisionEvent "R1" sampleState.store.db).map
        (fun row => (row.payload.get "status").str?) = [some "SUBMITTED"] := by
  refine ⟨close_and_reverse_once ?_ ?_ ?_ sampleState_reached "R1" ⟨sampleCall, rfl, rfl⟩, ?_, ?_⟩
  · rintro c rfl
    rfl
  · rintro c rfl
    exact ⟨"S1", by decide⟩
  · refine ⟨fun run hrun => ?_, fun row hrow => ?_, fun o ho => ?_⟩
    · rw [List.mem_singleton.mp hrun]
    · cases hrow
    · cases ho
  · decide +kernel
  · decide +kernel

end MarketSystem.OppositePolicy
