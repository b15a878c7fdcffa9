import MarketSystem.Execution.OppositeOutcome
import MarketSystem.Runtime.OneExposure

/-!
# Runs of the PAPER writers

Any number of writers run at the same time, each may end between any two of its
transactions, and anything may happen around them that leaves the PAPER tables
alone. A compare-and-swap save that commits found the durable state its change was
computed from, so every writer keeps the account consistent, and in every state a
symbol carries one exposure at most.
-/
namespace MarketSystem.OneExposure

open Library Database GuardedWrite RiskReservation

/-! ## The invariant -/

/-- The rows of the account are those of a sound broker, and they belong together. -/
structure Consistent (accountId : String) (db : Database) : Prop where
  durable : ∃ b, ConflictPath.Durable accountId db b
  linked : db.Linked

/-- The PAPER tables are the same. -/
structure SamePaper (db db' : Database) : Prop where
  accounts : db'.paperAccounts = db.paperAccounts
  orders : db'.paperOrders = db.paperOrders
  fills : db'.paperFills = db.paperFills
  positions : db'.paperPositions = db.paperPositions
  trades : db'.closedTrades = db.closedTrades

section Consistent

variable {accountId : String} {db db' : Database} {s b : PaperBroker} {ownerKey : Option String}
  {symbol : String}

theorem SamePaper.trans {db'' : Database} (h : SamePaper db db') (h' : SamePaper db' db'') :
    SamePaper db db'' :=
  ⟨h'.accounts.trans h.accounts, h'.orders.trans h.orders, h'.fills.trans h.fills,
    h'.positions.trans h.positions, h'.trades.trans h.trades⟩

/-- An event is journaled. -/
theorem samePaper_event (db : Database) (timestamp : Option Instant)
    (runId symbol : Option String) (source eventType severity : String) (payload : Json) :
    SamePaper db (db.event timestamp runId symbol source eventType severity payload) :=
  ⟨rfl, rfl, rfl, rfl, rfl⟩

theorem Consistent.congr (h : Consistent accountId db) (hsame : SamePaper db db') :
    Consistent accountId db' := by
  obtain ⟨b, hb⟩ := h.durable
  refine ⟨⟨b, ?_, hb.sound, hb.accountId⟩, ?_⟩
  · exact hb.shows_.congr hsame.accounts hsame.orders hsame.fills hsame.positions hsame.trades
  · exact h.linked.congr hsame.orders hsame.positions hsame.trades

/-- A save over a state is a save of the account of that state. -/
theorem savePaper_accountId
    (h : savePaper b ownerKey symbol (some (stateOf s)) db = .ok (true, db')) :
    b.account.accountId = s.account.accountId := by
  unfold savePaper at h
  split_ifs at h
  cases hl : db.loadPaper b.account.accountId with
  | error e => simp [hl] at h
  | ok loaded =>
    obtain ⟨account, orders, fills⟩ := loaded
    simp only [hl] at h
    split_ifs at h with hne
    · cases h
    · push Not at hne
      cases account with
      | none => cases congrArg PaperState.account hne
      | some a =>
        have hencode := (paperState_eq_iff.mp hne).1
        exact (accountId_of_loadPaper hl).symm.trans (accountId_of_encode hencode)

/-- A compare-and-swap save keeps the account consistent when its change is one of the
runtime on every sound account, whatever was loaded. -/
theorem Consistent.save (h : Consistent accountId db) {saved : Bool}
    (hid : s.account.accountId = accountId) (hsaved : db.Shows s → s.Sound → s.Linked → s.Saved b)
    (hsave : savePaper b ownerKey symbol (some (stateOf s)) db = .ok (saved, db')) :
    Consistent accountId db' := by
  cases saved with
  | false => rwa [savePaper_false hsave]
  | true =>
    obtain ⟨a, ha⟩ := h.durable
    have haccount := (savePaper_accountId hsave).trans (hid.trans ha.accountId.symm)
    obtain ⟨hshows, hstate, rfl⟩ := savePaper_true ha.shows_ haccount hsave
    have hchange := hsaved hshows (sound_of_stateOf ha.sound hstate) (h.linked.broker hshows)
    refine ⟨⟨b, ?_, hchange.sound, haccount.trans ha.accountId⟩, h.linked.persist hshows hchange⟩
    exact hshows.persist_of_covers hchange.covers hchange.sound

/-- A transaction commits what it computed, or nothing. -/
theorem Consistent.commit {α : Type} (h : Consistent accountId db) {tx : Tx α}
    (htx : ∀ a db', tx db = .ok (a, db') → Consistent accountId db') :
    Consistent accountId (MarketSystem.commit tx db).2 := by
  rcases hc : MarketSystem.commit tx db with ⟨r, db'⟩
  rcases commit_cases hc with ⟨a, rfl, hok⟩ | ⟨e, rfl, rfl⟩
  · exact htx a db' hok
  · exact h

end Consistent

/-! ## The guarded write -/

abbrev Inv (accountId : String) (w : World) : Prop := Consistent accountId w.db

/-- The change is one of the runtime, on every sound account. -/
def Safe {α : Type} (apply : Apply α) : Prop :=
  ∀ now ids b r b', ids.Fresh b → b.Sound → b.Linked → apply now ids b = .ok (true, r, b') →
    b.Saved b'

section Guarded

variable {accountId : String} {α : Type} {writer : Writer} {apply : Apply α}

theorem transact_keeps {tx : Tx α} (htx : ∀ db a db', Consistent accountId db →
    tx db = .ok (a, db') → Consistent accountId db') : (transact tx).Keeps (Inv accountId) :=
  Program.keeps_call (fun w hw => hw.commit (fun a db' => htx w.db a db' hw))

theorem saveAttempt_keeps {broker changed : PaperBroker} {result : α}
    (hid : broker.account.accountId = accountId)
    (hsaved : broker.Sound → broker.Linked → broker.Saved changed) :
    (saveAttempt writer broker result changed).Keeps (Inv accountId) := by
  refine (Program.keeps_read _).bind (fun halted => ?_)
  cases halted with
  | true => exact Program.keeps_pure _ _
  | false =>
    refine (transact_keeps ?_).bind (fun r => ?_)
    · exact fun db saved db' h hsave => h.save hid (fun _ => hsaved) hsave
    · match r with
      | .error _ => exact Program.keeps_pure _ _
      | .ok false => exact Program.keeps_pure _ _
      | .ok true => exact Program.keeps_pure _ _

theorem writeAttempt_keeps (hid : writer.accountId = accountId) (happly : Safe apply) :
    (writeAttempt writer apply).Keeps (Inv accountId) := by
  refine (Program.keeps_read _).bind (fun halted => ?_)
  cases halted with
  | true => exact Program.keeps_pure _ _
  | false =>
    refine Program.Keeps.bind_of (loadPaperReads_accountId _ _ _) (fun loaded hloaded => ?_)
    match loaded with
    | .error _ => exact Program.keeps_pure _ _
    | .ok (none, _, _) => exact Program.keeps_pure _ _
    | .ok (some account, orders, fills) =>
      refine (Program.keeps_read _).bind (fun now => ?_)
      let broker := writer.broker account orders fills
      have haccount : broker.account.accountId = accountId :=
        (hloaded account orders fills rfl).trans hid
      cases happlied : apply now (writer.uuid4.draw broker) broker with
      | error e => exact Program.keeps_pure _ _
      | ok applied =>
        obtain ⟨save, result, changed⟩ := applied
        cases save with
        | false => exact Program.keeps_pure _ _
        | true =>
          refine saveAttempt_keeps haccount (fun hb hl => ?_)
          exact happly now _ broker result changed (writer.uuid4.fresh broker) hb hl happlied

/-- `_guarded_paper_write` keeps the account consistent. -/
theorem guardedPaperWrite_keeps (hid : writer.accountId = accountId) (happly : Safe apply) :
    (guardedPaperWrite writer apply).Keeps (Inv accountId) := by
  refine (writeAttempt_keeps hid happly).bind (fun r => ?_)
  match r with
  | .error _ => exact Program.keeps_pure _ _
  | .ok (some _) => exact Program.keeps_pure _ _
  | .ok none => exact writeAttempt_keeps hid happly

end Guarded

/-! ## The changes of a cycle -/

section Cycle

variable {calendar : TradeDuration.Calendar} {symbol positionId : String} {slot : Instant}

theorem safe_submit (c : PaperCycle.Submit) : Safe c.apply :=
  fun _ _ _ _ _ hids hb hl h => submit_saved hb hl hids h

theorem safe_progressPending (uuid4 : GuardedWrite.Uuid4) (bar : Bar) :
    Safe (PaperCycle.progressPending uuid4 symbol bar) :=
  fun _ _ _ _ _ _ hb hl h => progressPending_saved hb hl h

theorem safe_managePositions (paperEnabled : Bool) (bar : Bar) :
    Safe (PaperCycle.managePositions paperEnabled bar) :=
  fun _ _ _ _ _ hids hb hl h => managePositions_saved hb hl hids h

theorem safe_durationWrite (boundary : Instant) (bar : MarketBar) :
    Safe (PaperCycle.durationWrite calendar symbol positionId boundary bar) :=
  fun _ _ _ _ _ hids hb hl h => durationWrite_saved hb hl hids h

theorem safe_cancelDueOrders : Safe (PaperCycle.cancelDueOrders calendar symbol slot) :=
  fun _ _ _ _ _ _ hb hl h => cancelDueOrders_saved hb hl h

theorem safe_cancelPaused : Safe (PaperCycle.cancelPaused symbol slot) :=
  fun _ _ _ _ _ _ hb hl h => cancelPaused_saved hb hl h

theorem safe_closePaused (bar : MarketBar) : Safe (PaperCycle.closePaused symbol positionId bar) :=
  fun _ _ _ _ _ hids hb hl h => closePaused_saved hb hl hids h

end Cycle

/-! ## The opposite-setup policy -/

section Opposite

open OppositePolicy CandidateIdentity

variable {accountId : String} {c : Execute} {setupId : String} {plan : TradePlan}

theorem safe_closeOrBlock (c : Execute) (setupId : String) : Safe (c.closeOrBlock setupId) := by
  intro now ids b outcome b' hids hb hl h
  unfold Execute.closeOrBlock at h
  cases hreason : c.closeReason now b with
  | error e => simp [hreason] at h
  | ok reason =>
    cases reason with
    | none => simp [hreason] at h
    | some reason =>
      simp only [hreason] at h
      split_ifs at h
      · cases hprice : lastClose c.snapshot with
        | error e => simp [hprice] at h
        | ok price =>
          simp only [hprice] at h
          cases hclose : b.closeMarket c.symbol price c.at_ c.config.mode.exitReason c.runId
              ids.tradeId with
          | error e => simp [hclose] at h
          | ok closed =>
            obtain ⟨closed, trade⟩ := closed
            simp only [hclose, Except.ok.injEq, Prod.mk.injEq, true_and] at h
            obtain ⟨-, rfl⟩ := h
            exact closeMarket_saved hb hl hids hclose rfl rfl rfl
      · simp only [Except.ok.injEq, Prod.mk.injEq, true_and] at h
        obtain ⟨-, rfl⟩ := h
        exact (PaperBroker.Saved.refl hb hl).congr rfl rfl rfl

/-- The policies of the reverse allow one exposure per symbol. -/
theorem riskPolicyFor_limit (policy : Option RrContract.Policy) :
    (riskPolicyFor policy).maxPositionsOrPendingPerSymbol = 1 := by
  unfold riskPolicyFor
  split_ifs <;> rfl

theorem safe_reserve (hplan : c.report.tradePlan = some plan) (reversing : Bool) :
    Safe (c.reserve setupId plan reversing) := by
  intro now ids b outcome b' hids hb hl h
  unfold Execute.reserve at h
  cases hgate : c.gate now with
  | error e => simp [hgate] at h
  | ok reason =>
    cases reason with
    | some reason =>
      simp only [hgate, Except.ok.injEq, Prod.mk.injEq, true_and] at h
      obtain ⟨-, rfl⟩ := h
      exact (PaperBroker.Saved.refl hb hl).congr rfl rfl rfl
    | none =>
      simp only [hgate] at h
      cases hprepare : prepareReservation (c.request setupId plan ids.orderId) b.portfolio with
      | rejected reason record journalRecord =>
        simp only [hprepare, Except.ok.injEq, Prod.mk.injEq, true_and] at h
        obtain ⟨-, rfl⟩ := h
        exact (PaperBroker.Saved.refl hb hl).congr rfl rfl rfl
      | approved prepared order record =>
        simp only [hprepare, Except.ok.injEq, Prod.mk.injEq, true_and] at h
        have hsaved := prepareReservation_saved hb hl hplan hids.order
          (free_of_approval (riskPolicyFor_limit _)) hprepare
        obtain ⟨haccount, hfills⟩ := prepareReservation_portfolio hplan hprepare
        have hb' : b'.account = b.account ∧ b'.orders = prepared.orders ∧ b'.fills = b.fills := by
          rw [← (Prod.mk.inj h).2]
          cases reversing <;> exact ⟨rfl, rfl, rfl⟩
        exact hsaved.congr (hb'.1.trans haccount.symm) hb'.2.1 (hb'.2.2.trans hfills.symm)

theorem openReverse_keeps (hid : c.config.accountId = accountId)
    (hplan : c.report.tradePlan = some plan) (reversing : Bool) :
    (c.openReverse setupId plan reversing).Keeps (Inv accountId) := by
  refine (guardedPaperWrite_keeps hid (safe_reserve hplan reversing)).bind (fun r => ?_)
  match r with
  | .error _ => exact Program.keeps_pure _ _
  | .ok none => exact Program.keeps_pure _ _
  | .ok (some (_, _)) => exact Program.keeps_pure _ _

theorem closeThenReverse_keeps (hid : c.config.accountId = accountId)
    (hplan : c.report.tradePlan = some plan) :
    (c.closeThenReverse setupId plan).Keeps (Inv accountId) := by
  refine (guardedPaperWrite_keeps hid (safe_closeOrBlock c setupId)).bind (fun r => ?_)
  match r with
  | .error _ => exact Program.keeps_pure _ _
  | .ok none => exact Program.keeps_pure _ _
  | .ok (some (_, outcome)) =>
    by_cases hskipped : outcome.status = "SKIPPED"
    · simp only [hskipped, if_true]
      exact Program.keeps_pure _ _
    · simp only [hskipped, if_false]
      exact openReverse_keeps hid hplan _

theorem decide_keeps (hid : c.config.accountId = accountId)
    (hplan : c.report.tradePlan = some plan) :
    (c.decide_ setupId plan).Keeps (Inv accountId) := by
  refine (Program.keeps_read _).bind (fun decided => ?_)
  cases decided with
  | some old => exact Program.keeps_pure _ _
  | none =>
    refine (Program.keeps_read _).bind (fun closed => ?_)
    cases closed with
    | none => exact closeThenReverse_keeps hid hplan
    | some row =>
      refine (transact_keeps (fun db u db' h habandon => ?_)).bind (fun r => ?_)
      · obtain ⟨rows, he⟩ := abandonIncomplete_eq db c.at_ (some c.runId)
        rw [commit_ok habandon] at he
        dsimp only at he
        rw [he]
        exact h.congr ⟨rfl, rfl, rfl, rfl, rfl⟩
      · match r with
        | .error _ => exact Program.keeps_pure _ _
        | .ok () => exact Program.keeps_pure _ _

/-- A claim journals at most one row. -/
theorem samePaper_claimRun {sha256 : Json → String} {runId symbol : String}
    {fields : CandidateFields} {asOf : Instant} {hasHistory : Database → Except String Bool}
    {ownerKey : Option String} {db db' : Database} {claim : Claim}
    (h : claimRun sha256 runId symbol fields asOf hasHistory ownerKey db =
      .ok (claim, db')) : SamePaper db db' := by
  rcases claimRun_ok h with ⟨rfl, -, -⟩ | ⟨-, -, -, rfl⟩
  · exact ⟨rfl, rfl, rfl, rfl, rfl⟩
  · exact samePaper_event ..

theorem claimThenDecide_keeps (sha256 : Json → String) {fields : CandidateFields}
    (hid : c.config.accountId = accountId) (hplan : c.report.tradePlan = some plan) :
    (c.claimThenDecide sha256 setupId plan fields).Keeps (Inv accountId) := by
  have hclaim : (c.claim sha256 fields).Keeps (Inv accountId) := by
    refine (Program.keeps_read _).bind (fun halted => ?_)
    cases halted with
    | true => exact Program.keeps_pure _ _
    | false =>
      refine (transact_keeps ?_).bind (fun r => ?_)
      · exact fun db claim db' h hok => h.congr (samePaper_claimRun hok)
      · cases r <;> exact Program.keeps_pure _ _
  refine hclaim.bind (fun r => ?_)
  match r with
  | .error _ => exact Program.keeps_pure _ _
  | .ok none => exact Program.keeps_pure _ _
  | .ok (some .mismatch) => exact Program.keeps_pure _ _
  | .ok (some .unknownHistory) => exact Program.keeps_pure _ _
  | .ok (some .claimed) => exact decide_keeps hid hplan
  | .ok (some .same) => exact decide_keeps hid hplan

/-- `execute` keeps the account consistent. -/
theorem execute_keeps (sha256 : Json → String) (c : Execute)
    (hid : c.config.accountId = accountId) : (execute sha256 c).Keeps (Inv accountId) := by
  refine (Program.keeps_read _).bind (fun owns => ?_)
  cases owns with
  | false => exact Program.keeps_pure _ _
  | true =>
    simp only [Bool.not_true, Bool.false_eq_true, if_false]
    split_ifs
    · exact Program.keeps_pure _ _
    · cases hcandidate : ConflictPath.candidate c.report with
      | error invalid =>
        refine (transact_keeps (fun db u db' h hok => ?_)).bind (fun r => ?_)
        · obtain ⟨-, rfl⟩ := Prod.mk.inj (Except.ok.inj hok)
          exact h.congr (samePaper_event ..)
        · match r with
          | .error _ => exact Program.keeps_pure _ _
          | .ok () => exact Program.keeps_pure _ _
      | ok setupId =>
        cases hplan : c.report.tradePlan with
        | none => exact Program.keeps_pure _ _
        | some plan =>
          dsimp only
          split
          · exact Program.keeps_pure _ _
          · exact claimThenDecide_keeps sha256 hid hplan

end Opposite

/-! ## The pending-order gate -/

section Gate

open PendingOrderGate

variable {accountId : String} {c : PendingOrderGate.Call}

theorem evaluate_saved {b b' : PaperBroker} (hb : b.Sound) (hl : b.Linked) {bar : Bar}
    (h : (pending b.orders c.symbol).foldlM (c.evaluateOrder bar) b = .ok b') : b.Saved b' := by
  have hlength : (pending b.orders c.symbol).length ≤ 1 := by
    refine Table.length_filter_le_one (fun o ho o' ho' h h' => ?_)
    simp only [Bool.and_eq_true, decide_eq_true_eq] at h h'
    exact hb.pending o ho o' ho' h.1.2 h'.1.2 (h.1.1.trans h'.1.1.symm)
  rcases foldlM_le_one hlength h with rfl | ⟨o, ho, hstep⟩
  · exact .refl hb hl
  · unfold PendingOrderGate.Call.evaluateOrder at hstep
    cases hasOf : o.asOf with
    | none =>
      simp only [hasOf, Except.ok.injEq] at hstep
      subst hstep
      exact .refl hb hl
    | some asOf =>
      simp only [hasOf] at hstep
      split_ifs at hstep
      · exact nextBar_saved hb hl (c.writer.uuid4.fresh b) (List.mem_of_mem_filter ho) hstep
      · cases hstep
        exact .refl hb hl

theorem samePaper_journalBar (order : PaperOrder) (state : Database × ℕ) (bar : MarketBar) :
    SamePaper state.1 (c.journalBar order state bar).1 := by
  unfold PendingOrderGate.Call.journalBar
  dsimp only
  split_ifs
  · exact ⟨rfl, rfl, rfl, rfl, rfl⟩
  · exact samePaper_event ..

/-- The journaling of the gate leaves the PAPER tables alone. -/
theorem samePaper_journalNotEvaluated {bars : List MarketBar} {current : Option Instant}
    {db db' : Database} {r : List (String × Instant) × ℕ}
    (h : c.journalNotEvaluated bars current db = .ok (r, db')) : SamePaper db db' := by
  have hbars : ∀ (order : PaperOrder) (l : List MarketBar) (state : Database × ℕ),
      SamePaper db state.1 → SamePaper db (l.foldl (c.journalBar order) state).1 := by
    intro order l
    induction l with
    | nil => exact fun _ hstate => hstate
    | cons bar l ih =>
      exact fun state hstate => ih _ (hstate.trans (samePaper_journalBar order state bar))
  have horders : ∀ (l : List PaperOrder) (state : Database × ℕ), SamePaper db state.1 →
      SamePaper db (l.foldl (fun state o =>
        (PendingOrderGate.Call.skippedBars bars current o).foldl (c.journalBar o) state) state).1 := by
    intro l
    induction l with
    | nil => exact fun _ hstate => hstate
    | cons o l ih => exact fun state hstate => ih _ (hbars o _ state hstate)
  unfold PendingOrderGate.Call.journalNotEvaluated at h
  split_ifs at h
  cases hload : db.loadPaper c.writer.accountId with
  | error e => simp [hload] at h
  | ok loaded =>
    obtain ⟨account, orders, fills⟩ := loaded
    simp only [hload, Except.ok.injEq, Prod.mk.injEq] at h
    obtain ⟨-, rfl⟩ := h
    exact horders _ (db, 0) ⟨rfl, rfl, rfl, rfl, rfl⟩

theorem evaluate_keeps (hid : c.writer.accountId = accountId) (bar : Bar)
    (notEvaluated : List (String × Instant)) (journaled : ℕ) :
    (c.evaluate bar notEvaluated journaled).Keeps (Inv accountId) := by
  refine Program.Keeps.bind_of (loadPaperReads_accountId _ _ _) (fun loaded hloaded => ?_)
  match loaded with
  | .error _ => exact Program.keeps_pure _ _
  | .ok (none, _, _) => exact Program.keeps_pure _ _
  | .ok (some account, orders, fills) =>
    let broker := c.writer.broker account orders fills
    have haccount : broker.account.accountId = accountId :=
      (hloaded account orders fills rfl).trans hid
    cases hloop : (pending broker.orders c.symbol).foldlM (c.evaluateOrder bar) broker with
    | error e =>
      simp only [broker] at hloop
      simp only [hloop]
      exact Program.keeps_pure _ _
    | ok changed =>
      have hsave : (saveAttempt c.writer broker () changed).Keeps (Inv accountId) :=
        saveAttempt_keeps haccount (fun hb hl => evaluate_saved hb hl hloop)
      simp only [broker] at hloop
      simp only [hloop]
      split_ifs
      · exact Program.keeps_pure _ _
      · refine hsave.bind (fun r => ?_)
        match r with
        | .error _ => exact Program.keeps_pure _ _
        | .ok none => exact Program.keeps_pure _ _
        | .ok (some _) => exact Program.keeps_pure _ _

theorem admitted_keeps (hid : c.writer.accountId = accountId) (orders : List PaperOrder) :
    (c.admitted orders).Keeps (Inv accountId) := by
  have hjournal : ∀ bars current, (c.journal bars current).Keeps (Inv accountId) := by
    intro bars current
    refine (Program.keeps_read _).bind (fun halted => ?_)
    cases halted with
    | true => exact Program.keeps_pure _ _
    | false => exact transact_keeps (fun db r db' h hok => h.congr (samePaper_journalNotEvaluated hok))
  refine (Program.keeps_read _).bind (fun halted => ?_)
  cases halted with
  | true => exact Program.keeps_pure _ _
  | false =>
    cases hbars : c.evidence.eligibleBars c.symbol (c.oldest orders) c.asOf with
    | error e =>
      simp only [Bool.false_eq_true, if_false]
      exact Program.keeps_pure _ _
    | ok bars =>
      refine (hjournal bars _).bind (fun r => ?_)
      match r with
      | .error _ => exact Program.keeps_pure _ _
      | .ok (keys, written) =>
        dsimp only
        split
        · exact evaluate_keeps hid _ _ _
        · exact Program.keeps_pure _ _

/-- `gate_pending_orders` keeps the account consistent. -/
theorem gatePendingOrders_keeps (c : PendingOrderGate.Call) (hid : c.writer.accountId = accountId) :
    (gatePendingOrders c).Keeps (Inv accountId) := by
  refine Program.Keeps.bind_of (loadPaperReads_accountId _ _ _) (fun loaded hloaded => ?_)
  match loaded with
  | .error _ => exact Program.keeps_pure _ _
  | .ok (none, _, _) => exact Program.keeps_pure _ _
  | .ok (some account, orders, fills) =>
    dsimp only
    split
    · exact Program.keeps_pure _ _
    · exact admitted_keeps hid _

end Gate

/-! ## Catch-up -/

section CatchUp

open PositionCatchUp

variable {accountId : String}

/-- The transaction of one bar. -/
theorem saveBar_keeps (call : PositionCatchUp.Call) {broker : PaperBroker}
    (hid : broker.account.accountId = accountId) (position : PaperPosition) (bar : MarketBar)
    (w : PositionCatchUp.World) (h : Consistent accountId w.db) :
    Consistent accountId (saveBar call broker position bar w).2.db := by
  rcases saveBar_cases call broker position bar w with ⟨e, he⟩ | ⟨closed, he⟩ | ⟨db, hsave, he⟩
  · rwa [he]
  · rwa [he]
  · rw [he]
    refine h.save hid (fun hshows hb hl => ?_) hsave
    exact processBar_saved hb hl
      (fun t ht => call.uuid4.fresh w.db t (hshows.mem_trades.mpr ht)) bar.toBar

theorem finish_keeps (call : PositionCatchUp.Call) (applied : List Instant) (stale : Bool) :
    (finish call applied stale).Keeps (fun w => Consistent accountId w.db) := by
  refine Program.Keeps.bind_of (loadPaperReads_accountId _ _ _) (fun loaded _ => ?_)
  match loaded with
  | .error _ => exact Program.keeps_pure _ _
  | .ok (none, _, _) => exact Program.keeps_pure _ _
  | .ok (some account, orders, fills) => exact Program.keeps_pure _ _

theorem applyBars_keeps (call : PositionCatchUp.Call) (hid : call.accountId = accountId)
    (bars : List MarketBar) (applied : List Instant) :
    (applyBars call bars applied).Keeps (fun w => Consistent accountId w.db) := by
  induction bars generalizing applied with
  | nil => exact finish_keeps call applied false
  | cons bar rest ih =>
    refine Program.Keeps.bind_of (loadPaperReads_accountId _ _ _) (fun loaded hloaded => ?_)
    obtain _ | ⟨_ | account, orders, fills⟩ := loaded
    · exact Program.keeps_pure _ _
    · exact Program.keeps_pure _ _
    · cases hposition : account.openPositions.get? call.symbol with
      | none =>
        simp only [hposition]
        exact finish_keeps call applied false
      | some position =>
        simp only [hposition]
        split_ifs
        · exact finish_keeps call applied false
        · have haccount : account.accountId = accountId :=
            (hloaded account orders fills rfl).trans hid
          refine (Program.keeps_call (fun w hw =>
            saveBar_keeps call haccount position bar w hw)).bind (fun r => ?_)
          obtain _ | ⟨_ | _, closed⟩ := r
          · exact Program.keeps_pure _ _
          · exact finish_keeps call applied true
          · dsimp only
            split_ifs
            · exact ih _
            · exact Program.keeps_pure _ _

theorem catchUpPosition_keeps (call : PositionCatchUp.Call) (hid : call.accountId = accountId) :
    (catchUpPosition call).Keeps (fun w => Consistent accountId w.db) := by
  refine Program.Keeps.bind_of (loadPaperReads_accountId _ _ _) (fun loaded _ => ?_)
  match loaded with
  | .error _ => exact Program.keeps_pure _ _
  | .ok (none, _, _) => exact Program.keeps_pure _ _
  | .ok (some account, orders, fills) =>
    dsimp only
    split
    · exact Program.keeps_pure _ _
    · split
      · exact Program.keeps_pure _ _
      · exact applyBars_keeps call hid _ _

end CatchUp

/-! ## The conflict path -/

section Conflict

open ConflictPath

variable {accountId : String} {sha256 : Json → String} {s : Submission}

theorem commit_keeps {α : Type} {tx : Tx α} (htx : ∀ db a db', Consistent accountId db →
    tx db = .ok (a, db') → Consistent accountId db') :
    (Program.call (commit tx)).Keeps (Consistent accountId) :=
  Program.keeps_call (fun db hdb => hdb.commit (fun a db' => htx db a db' hdb))

theorem reconciled_keeps (attempts : ℕ) :
    (reconciled sha256 s attempts).Keeps (Consistent accountId) := by
  refine Program.Keeps.bind_of (loadPaperReads_accountId _ _ _) (fun loaded _ => ?_)
  match loaded with
  | .error _ => exact Program.keeps_pure _ _
  | .ok (account, orders, fills) =>
    refine (Program.keeps_read _).bind (fun prior => ?_)
    dsimp only
    split_ifs <;> exact Program.keeps_pure _ _

theorem afterDoubleStale_keeps : (afterDoubleStale sha256 s).Keeps (Consistent accountId) := by
  refine (commit_keeps (fun db decided db' h hok => ?_)).bind (fun r => ?_)
  · rcases observeStale_ok hok with rfl | ⟨row, -, rfl⟩
    · exact h
    · exact h.congr ⟨rfl, rfl, rfl, rfl, rfl⟩
  · match r with
    | .error _ => exact Program.keeps_pure _ _
    | .ok true => exact reconciled_keeps 2
    | .ok false => exact Program.keeps_pure _ _

theorem journalDecision_keeps {attempt : ℕ} {expected : PaperState} {rows : List DecisionRow}
    {result : ConflictPathResult} {again : Submitting}
    (hagain : again.Keeps (Consistent accountId)) :
    (journalDecision sha256 s attempt expected rows result again).Keeps (Consistent accountId) := by
  refine (commit_keeps (fun db outcome db' h hok => ?_)).bind (fun r => ?_)
  · rcases commitDecisionRows_ok hok with rfl | ⟨-, -, -, -, rfl⟩
    · exact h
    · obtain ⟨journal, he⟩ := appendRows_eq db s.call.asOf s.call.runId s.call.report.symbol rows
      rw [he]
      exact h.congr ⟨rfl, rfl, rfl, rfl, rfl⟩
  · match r with
    | .error _ => exact Program.keeps_pure _ _
    | .ok .committed => exact Program.keeps_pure _ _
    | .ok .duplicate => exact reconciled_keeps attempt
    | .ok .mismatch => exact reconciled_keeps attempt
    | .ok .stale => exact hagain

/-- An approval was classified on the state that was loaded: no exposure on the symbol. -/
theorem reserved_saved {call : ConflictPath.Call} (hcall : call.submission = .ok s) {attempt : ℕ}
    {account : PaperAccount} {orders : Orders} {fills : Fills} {conflict : ConflictEngine.ConflictDecision}
    {broker : PaperBroker} {order : PaperOrder} {record : Json}
    (hs : PaperBroker.Sound { account := account, orders := orders, fills := fills })
    (hl : PaperBroker.Linked { account := account, orders := orders, fills := fills })
    (h : s.verdict sha256 attempt (some account) orders fills =
      .reserved conflict broker order record) :
    PaperBroker.Saved { account := account, orders := orders, fills := fills } broker := by
  obtain ⟨a, b, r, ha, hallows, hprepare, rfl, -, -⟩ := verdict_reserved h
  obtain rfl := Option.some.inj ha
  obtain ⟨rfl, hcandidate, hplan, -⟩ := submission_eq_ok hcall
  obtain ⟨-, hsymbol, -⟩ := candidate_eq_ok hplan hcandidate
  obtain ⟨-, hposition, hpending⟩ := ConflictEngine.allows_classify.mp hallows
  have hfree : PaperBroker.Free { account := account, orders := orders, fills := fills }
      (s.request orders).plan.symbol := by
    change PaperBroker.Free _ s.plan.symbol
    rw [hsymbol]
    exact ⟨Table.get?_eq_none.mp hposition, hpending⟩
  have hsaved := @prepareReservation_saved (s.request orders)
    { account := account, orders := orders, fills := fills } b order r hs hl hplan
    (s.call.uuid4.fresh orders) (fun _ => hfree) hprepare
  exact hsaved.congr rfl rfl rfl

theorem settle_keeps {call : ConflictPath.Call} (hcall : call.submission = .ok s) {attempt : ℕ}
    {account : Option PaperAccount} {orders : Orders} {fills : Fills} {again : Submitting}
    (hid : ∀ a, account = some a → a.accountId = accountId)
    (hagain : again.Keeps (Consistent accountId)) :
    (settle sha256 s attempt (paperState account orders fills)
      (s.verdict sha256 attempt account orders fills) again).Keeps (Consistent accountId) := by
  cases hverdict : s.verdict sha256 attempt account orders fills with
  | blocked conflict record => exact journalDecision_keeps hagain
  | riskRejected conflict reason riskRecord record => exact journalDecision_keeps hagain
  | reserved conflict broker order record =>
    obtain ⟨a, -, -, rfl, -⟩ := verdict_reserved hverdict
    refine (commit_keeps (fun db saved db' h hok => ?_)).bind (fun r => ?_)
    · exact @Consistent.save accountId db db' { account := a, orders := orders, fills := fills }
        broker _ _ h saved (hid a rfl) (fun _ hs hl => reserved_saved hcall hs hl hverdict) hok
    · match r with
      | .error _ => exact Program.keeps_pure _ _
      | .ok true => exact Program.keeps_pure _ _
      | .ok false => exact hagain

theorem attempts_keeps {call : ConflictPath.Call} (hcall : call.submission = .ok s)
    (hid : s.call.accountId = accountId) (ns : List ℕ) :
    (attempts sha256 s ns).Keeps (Consistent accountId) := by
  induction ns with
  | nil => exact afterDoubleStale_keeps
  | cons attempt rest ih =>
    refine Program.Keeps.bind_of (loadPaperReads_accountId _ _ _) (fun loaded hloaded => ?_)
    match loaded with
    | .error _ => exact Program.keeps_pure _ _
    | .ok (account, orders, fills) =>
      dsimp only
      split_ifs
      · exact reconciled_keeps attempt
      · refine (Program.keeps_read _).bind (fun prior => ?_)
        split_ifs
        · exact reconciled_keeps attempt
        · refine settle_keeps hcall (fun a ha => ?_) ih
          exact (hloaded a orders fills (by rw [ha])).trans hid

/-- `submit_with_conflict_control` keeps the account consistent. -/
theorem submitWithConflictControl_keeps (sha256 : Json → String) (call : ConflictPath.Call)
    (hid : call.accountId = accountId) :
    (submitWithConflictControl sha256 call).Keeps (Consistent accountId) := by
  unfold submitWithConflictControl
  cases hsubmission : call.submission with
  | error reason => exact Program.keeps_pure _ _
  | ok s =>
    obtain ⟨hcall, -⟩ := submission_eq_ok hsubmission
    refine (commit_keeps (fun db claim db' h hok => h.congr (samePaper_claimRun hok))).bind
      (fun r => ?_)
    match r with
    | .error _ => exact Program.keeps_pure _ _
    | .ok .mismatch => exact Program.keeps_pure _ _
    | .ok .unknownHistory => exact Program.keeps_pure _ _
    | .ok .claimed => exact attempts_keeps hsubmission (hcall ▸ hid) _
    | .ok .same => exact attempts_keeps hsubmission (hcall ▸ hid) _

end Conflict

/-! ## Every interleaving -/

/-- A program whose result nobody looks at. -/
def forget {σ α : Type} (p : Program σ α) : Program σ Unit := p >>= fun _ => pure ()

theorem forget_keeps {σ α : Type} {inv : σ → Prop} {p : Program σ α} (h : p.Keeps inv) :
    (forget p).Keeps inv :=
  h.bind (fun _ => Program.keeps_pure _ _)

/-- `submit_with_conflict_control` as a process of the runtime. -/
def conflictProcess (sha256 : Json → String) (call : ConflictPath.Call) : Program World Unit :=
  forget ((ConflictPath.submitWithConflictControl sha256 call).zoom World.db
    (fun db w => { w with db := db }))

/-- `catch_up_position` as a process of the runtime. -/
def catchUpProcess (call : PositionCatchUp.Call) : Program World Unit :=
  forget ((PositionCatchUp.catchUpPosition call).zoom (fun w => ⟨w.db, []⟩)
    (fun t w => { w with db := t.db }))

/-- The PAPER writers of the runtime on one account. -/
inductive PaperWriter (accountId : String) : Program World Unit → Prop
  | submit {writer : Writer} (hid : writer.accountId = accountId) (c : PaperCycle.Submit) :
      PaperWriter accountId (forget (guardedPaperWrite writer c.apply))
  | progressPending {writer : Writer} (hid : writer.accountId = accountId) (bar : Bar) :
      PaperWriter accountId (forget (guardedPaperWrite writer
        (PaperCycle.progressPending writer.uuid4 writer.symbol bar)))
  | managePositions {writer : Writer} (hid : writer.accountId = accountId) (paperEnabled : Bool)
      (bar : Bar) : PaperWriter accountId (forget (guardedPaperWrite writer
        (PaperCycle.managePositions paperEnabled bar)))
  | duration {writer : Writer} (hid : writer.accountId = accountId)
      (calendar : TradeDuration.Calendar) (positionId : String) (boundary : Instant)
      (bar : MarketBar) : PaperWriter accountId (forget (guardedPaperWrite writer
        (PaperCycle.durationWrite calendar writer.symbol positionId boundary bar)))
  | cancelDueOrders {writer : Writer} (hid : writer.accountId = accountId)
      (calendar : TradeDuration.Calendar) (slot : Instant) :
      PaperWriter accountId (forget (guardedPaperWrite writer
        (PaperCycle.cancelDueOrders calendar writer.symbol slot)))
  | cancelPaused {writer : Writer} (hid : writer.accountId = accountId) (slot : Instant) :
      PaperWriter accountId (forget (guardedPaperWrite writer
        (PaperCycle.cancelPaused writer.symbol slot)))
  | closePaused {writer : Writer} (hid : writer.accountId = accountId) (positionId : String)
      (bar : MarketBar) : PaperWriter accountId (forget (guardedPaperWrite writer
        (PaperCycle.closePaused writer.symbol positionId bar)))
  | opposite {c : OppositePolicy.Execute} (hid : c.config.accountId = accountId)
      (sha256 : Json → String) : PaperWriter accountId (forget (OppositePolicy.execute sha256 c))
  | conflict {call : ConflictPath.Call} (hid : call.accountId = accountId)
      (sha256 : Json → String) : PaperWriter accountId (conflictProcess sha256 call)
  | gate {c : PendingOrderGate.Call} (hid : c.writer.accountId = accountId) :
      PaperWriter accountId (forget (PendingOrderGate.gatePendingOrders c))
  | catchUp {call : PositionCatchUp.Call} (hid : call.accountId = accountId) :
      PaperWriter accountId (catchUpProcess call)

/-- What happens around the writers: time passes, the halt gate switches, and the other
tables are written. -/
inductive Around : World → World → Prop
  | clock (w : World) (now : Instant) : Around w { w with now := now }
  | halt (w : World) (halted : Bool) : Around w { w with halted := halted }
  | tables (w : World) {db : Database} (h : SamePaper w.db db) : Around w { w with db := db }

section Runs

variable {accountId : String}

/-- Every writer keeps the account consistent. -/
theorem paperWriter_keeps {p : Program World Unit} (h : PaperWriter accountId p) :
    p.Keeps (Inv accountId) := by
  cases h with
  | submit hid c => exact forget_keeps (guardedPaperWrite_keeps hid (safe_submit c))
  | progressPending hid bar =>
    exact forget_keeps (guardedPaperWrite_keeps hid (safe_progressPending _ bar))
  | managePositions hid paperEnabled bar =>
    exact forget_keeps (guardedPaperWrite_keeps hid (safe_managePositions paperEnabled bar))
  | duration hid calendar positionId boundary bar =>
    exact forget_keeps (guardedPaperWrite_keeps hid (safe_durationWrite boundary bar))
  | cancelDueOrders hid calendar slot =>
    exact forget_keeps (guardedPaperWrite_keeps hid safe_cancelDueOrders)
  | cancelPaused hid slot => exact forget_keeps (guardedPaperWrite_keeps hid safe_cancelPaused)
  | closePaused hid positionId bar =>
    exact forget_keeps (guardedPaperWrite_keeps hid (safe_closePaused bar))
  | opposite hid sha256 => exact forget_keeps (execute_keeps sha256 _ hid)
  | conflict hid sha256 =>
    have hkeeps := submitWithConflictControl_keeps sha256 _ hid
    exact forget_keeps (hkeeps.zoom (fun w h => h) (fun w db _ h => h))
  | gate hid => exact forget_keeps (gatePendingOrders_keeps _ hid)
  | catchUp hid =>
    have hkeeps := catchUpPosition_keeps _ hid
    exact forget_keeps (hkeeps.zoom (fun w h => h) (fun w t _ h => h))

/-- An account that has just been created: no rows beside it, and no result yet. -/
structure NewAccount (accountId : String) (db : Database) : Prop where
  account : ∃ a ∈ db.paperAccounts, a.accountId = accountId ∧ a.equity = a.startingEquity ∧
    a.realizedPnl = 0 ∧ a.unrealizedPnl = 0
  orders : db.paperOrders = Table.empty
  fills : db.paperFills = Table.empty
  positions : db.paperPositions = Table.empty
  trades : db.closedTrades = Table.empty

theorem NewAccount.consistent {db : Database} (h : NewAccount accountId db) :
    Consistent accountId db := by
  obtain ⟨a, ha, hid, hequity, hrealized, hunrealized⟩ := h.account
  let b : PaperBroker := { account := encodeAccount a }
  have hno : ∀ {κ ρ : Type} {key : ρ → κ} (r : ρ), r ∉ (Table.empty : Table key) := by
    intro κ ρ key r hr
    cases hr
  have hshows : db.Shows b := {
    account := by
      have hget : db.paperAccounts.get? b.account.accountId = some a := Table.get?_of_mem ha
      rw [hget]
      rfl
    orders := fun o => by rw [h.orders]
    fills := fun f => by rw [h.fills]
    positions := fun p => by
      rw [h.positions]
      exact ⟨fun hp => absurd hp.1 (hno p), fun hp => absurd hp (hno p)⟩
    trades := by
      rw [h.trades]
      exact List.Perm.refl _
    closed := fun p hp => by
      rw [h.positions] at hp
      exact absurd hp (hno p) }
  have hsound : b.Sound := {
    position := fun p hp => absurd hp (hno p)
    identity := fun p hp => absurd hp (hno p)
    apart := fun p hp => absurd hp (hno p)
    trades := List.nodup_nil
    exposure := fun p hp => absurd hp (hno p)
    pending := fun o ho => absurd ho (hno o)
    realized := hrealized
    unrealized := hunrealized
    equity := by
      change a.equity = a.startingEquity + a.realizedPnl + a.unrealizedPnl
      rw [hequity, hrealized, hunrealized]
      norm_num }
  refine ⟨⟨b, hshows, hsound, hid⟩, ?_⟩
  constructor
  · exact fun p hp => absurd (h.positions ▸ hp) (hno p)
  · exact fun p hp => absurd (h.positions ▸ hp) (hno p)
  · exact fun o ho => absurd (h.orders ▸ ho) (hno o)
  · exact fun t ht => absurd (h.trades ▸ ht) (hno t)

/-- The OPEN position rows and the PENDING order rows of a symbol. -/
def exposures (db : Database) (symbol : String) : ℕ :=
  (db.paperPositions.rows.filter (fun p => decide (p.symbol = symbol ∧ p.status = .open))).length
    + (db.paperOrders.rows.filter
        (fun o => decide (o.symbol = symbol ∧ o.status = .pending))).length

/-- What holds of the PAPER tables in every state. -/
structure AtMostOne (db : Database) : Prop where
  /-- A symbol has an OPEN position, a PENDING order, or neither. -/
  exposure : ∀ symbol, exposures db symbol ≤ 1
  /-- `load_paper` does not raise. -/
  loads : ∀ accountId, ∃ loaded, db.loadPaper accountId = .ok loaded
  /-- A FILLED order has one position, OPEN or closed by one trade. -/
  filled : ∀ o ∈ db.paperOrders, o.status = .filled →
    ∃ p ∈ db.paperPositions, p.originOrderId = o.orderId ∧
      (∀ q ∈ db.paperPositions, q.originOrderId = o.orderId → q = p) ∧
      (p.status = .open ∨ ∃ t ∈ db.closedTrades, t.positionId = p.positionId ∧
        ∀ t' ∈ db.closedTrades, t'.positionId = p.positionId → t' = t)

theorem Consistent.exposure {db : Database} (h : Consistent accountId db) (symbol : String) :
    exposures db symbol ≤ 1 := by
  obtain ⟨b, hb⟩ := h.durable
  have hposition : ∀ p ∈ db.paperPositions.rows.filter
      (fun p => decide (p.symbol = symbol ∧ p.status = .open)),
      p ∈ b.account.openPositions ∧ p.symbol = symbol := by
    intro p hp
    obtain ⟨hmem, hopen⟩ := List.mem_filter.mp hp
    obtain ⟨hsymbol, hstatus⟩ := of_decide_eq_true hopen
    exact ⟨(hb.shows_.positions p).mp ⟨hmem, hstatus⟩, hsymbol⟩
  have horder : ∀ o ∈ db.paperOrders.rows.filter
      (fun o => decide (o.symbol = symbol ∧ o.status = .pending)),
      o ∈ b.orders ∧ o.symbol = symbol ∧ o.status = .pending := by
    intro o ho
    obtain ⟨hmem, hpending⟩ := List.mem_filter.mp ho
    exact ⟨(hb.shows_.orders o).mp hmem, of_decide_eq_true hpending⟩
  have hpositions : (db.paperPositions.rows.filter
      (fun p => decide (p.symbol = symbol ∧ p.status = .open))).length ≤ 1 := by
    refine Table.length_filter_le_one (fun p hp q hq hdp hdq => ?_)
    obtain ⟨hp, hps⟩ := hposition p (List.mem_filter.mpr ⟨hp, hdp⟩)
    obtain ⟨hq, hqs⟩ := hposition q (List.mem_filter.mpr ⟨hq, hdq⟩)
    exact Table.eq_of_key hp hq (hps.trans hqs.symm)
  have horders : (db.paperOrders.rows.filter
      (fun o => decide (o.symbol = symbol ∧ o.status = .pending))).length ≤ 1 := by
    refine Table.length_filter_le_one (fun o ho o' ho' hd hd' => ?_)
    obtain ⟨ho, hs, hp⟩ := horder o (List.mem_filter.mpr ⟨ho, hd⟩)
    obtain ⟨ho', hs', hp'⟩ := horder o' (List.mem_filter.mpr ⟨ho', hd'⟩)
    exact hb.sound.pending o ho o' ho' hp hp' (hs.trans hs'.symm)
  -- an OPEN position excludes a PENDING order of its symbol
  cases hlist : db.paperPositions.rows.filter
      (fun p => decide (p.symbol = symbol ∧ p.status = .open)) with
  | nil =>
    unfold exposures
    rw [hlist]
    simpa using horders
  | cons p rest =>
    obtain ⟨hp, hsymbol⟩ := hposition p (by rw [hlist]; exact List.mem_cons_self)
    have hnone : db.paperOrders.rows.filter
        (fun o => decide (o.symbol = symbol ∧ o.status = .pending)) = [] := by
      refine List.eq_nil_iff_forall_not_mem.mpr (fun o ho => ?_)
      obtain ⟨ho, hs, hpending⟩ := horder o ho
      exact hb.sound.exposure p hp o ho hpending (hs.trans hsymbol.symm)
    unfold exposures
    rw [hnone]
    simpa using hpositions

theorem Consistent.loads {db : Database} (h : Consistent accountId db) (id : String) :
    ∃ loaded, db.loadPaper id = .ok loaded := by
  obtain ⟨b, hb⟩ := h.durable
  have hopen : Table.ofList? (db.paperPositions.rows.filter
      (fun p => decide (p.status = .open))) =
        some (⟨_, hb.shows_.openRows⟩ : Table PaperPosition.symbol) := dif_pos hb.shows_.openRows
  unfold loadPaper
  cases db.paperAccounts.get? id with
  | none => exact ⟨_, rfl⟩
  | some row =>
    simp only [hopen]
    exact ⟨_, rfl⟩

theorem Consistent.atMostOne {db : Database} (h : Consistent accountId db) :
    AtMostOne db where
  exposure := h.exposure
  loads := h.loads
  filled := by
    intro o ho hstatus
    obtain ⟨b, hb⟩ := h.durable
    obtain ⟨p, hp, horigin⟩ := h.linked.opened o ho hstatus
    refine ⟨p, hp, horigin, fun q hq hq' => h.linked.single q hq p hp (hq'.trans horigin.symm), ?_⟩
    cases hclosed : p.status with
    | «open» => exact .inl rfl
    | closed =>
      obtain ⟨t, ht, hid⟩ := hb.shows_.closed p hp hclosed
      exact .inr ⟨t, ht, hid, fun t' ht' hid' => h.linked.traded t' ht' t ht (hid'.trans hid.symm)⟩

/-- In every interleaving of the PAPER writers, with crashes, every committed state carries
at most one exposure per symbol. -/
theorem one_exposure_per_symbol {w : World} (hnew : NewAccount accountId w.db)
    {pool : Pool World Unit}
    (hrun : Relation.ReflTransGen (PoolStep (PaperWriter accountId) Around) ⟨w, []⟩ pool) :
    AtMostOne pool.store.db := by
  have henv : ∀ w w', Inv accountId w → Around w w' → Inv accountId w' := by
    intro w w' hw h
    cases h with
    | clock now => exact hw
    | halt halted => exact hw
    | tables hsame => exact Consistent.congr hw hsame
  have hkept : Inv accountId pool.store :=
    pool_keeps henv (fun p hp => paperWriter_keeps hp) hnew.consistent hrun
  exact hkept.atMostOne

end Runs

/-! ## A run that reserves -/

def sampleStart : World where
  db := ConflictPath.sampleDb

/-- The conflict path up to its save. -/
def sampleRun : Program World Unit × World :=
  (conflictProcess ConflictPath.sampleSha256 ConflictPath.lenient).runFor 8 sampleStart

theorem sampleRun_reached : Relation.ReflTransGen (PoolStep (PaperWriter "A") Around)
    ⟨sampleStart, []⟩ ⟨sampleRun.2, [sampleRun.1]⟩ :=
  .head (.start (@PaperWriter.conflict "A" ConflictPath.lenient rfl _)) (runs_beside [] [] 8 _ _)

theorem one_exposure_per_symbol_sample :
    AtMostOne sampleRun.2.db ∧ exposures sampleRun.2.db "XAUUSD" = 1 := by
  refine ⟨@one_exposure_per_symbol "A" _ ?_ _ sampleRun_reached, by decide +kernel⟩
  refine ⟨⟨ConflictPath.sampleBroker.account, ?_, rfl, rfl, rfl, rfl⟩, rfl, rfl, rfl, rfl⟩
  exact List.mem_singleton.mpr rfl

end MarketSystem.OneExposure
