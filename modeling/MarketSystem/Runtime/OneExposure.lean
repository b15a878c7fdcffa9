import MarketSystem.Execution.ConflictOutcome
import MarketSystem.Execution.OppositePolicy
import MarketSystem.Execution.PaperLinks
import MarketSystem.Execution.PositionCatchUp
import MarketSystem.Runtime.PaperCycle

/-!
# One exposure per symbol

Opening a position does not look for one that is already open. What keeps every
symbol at one exposure is that each writer computes its change from the state it
loaded and saves it only over that state: on a sound account each of the changes
leaves a sound account, so in every interleaving every committed state is sound.
-/
namespace MarketSystem.OneExposure

open Library Database GuardedWrite RiskEngine RiskReservation ConflictPath

/-! ## Loops over the PENDING orders of a symbol -/

theorem length_pendingOf_le_one {b : PaperBroker} (hb : b.Sound) (symbol : String) :
    (PaperCycle.pendingOf b symbol).length ≤ 1 := by
  refine Table.length_filter_le_one (fun o ho o' ho' h h' => ?_)
  simp only [decide_eq_true_eq] at h h'
  exact hb.pending o ho o' ho' h.2 h'.2 (h.1.trans h'.1.symm)

theorem mem_pendingOf {b : PaperBroker} {symbol : String} {o : PaperOrder} :
    o ∈ PaperCycle.pendingOf b symbol ↔ o ∈ b.orders ∧ o.symbol = symbol ∧ o.status = .pending := by
  simp [PaperCycle.pendingOf, List.mem_filter, Table.mem_def]

/-- A fallible loop over at most one row is its body, or nothing. -/
theorem foldlM_le_one {f : PaperBroker → PaperOrder → Except String PaperBroker}
    {l : List PaperOrder} (hl : l.length ≤ 1) {b c : PaperBroker} (h : l.foldlM f b = .ok c) :
    c = b ∨ ∃ o ∈ l, f b o = .ok c := by
  match l with
  | [] =>
    simp only [List.foldlM_nil, pure, Except.pure, Except.ok.injEq] at h
    exact .inl h.symm
  | [o] =>
    refine .inr ⟨o, by simp, ?_⟩
    cases hf : f b o with
    | error e => simp [hf, bind, Except.bind] at h
    | ok c' =>
      simp only [List.foldlM_cons, List.foldlM_nil, hf, bind, Except.bind, pure, Except.pure,
        Except.ok.injEq] at h
      rw [h]
  | _ :: _ :: _ => simp at hl

/-- A loop over at most one row is its body, or nothing. -/
theorem foldl_le_one {α : Type} {f : PaperBroker → α → PaperBroker} {l : List α}
    (hl : l.length ≤ 1) (b : PaperBroker) : l.foldl f b = b ∨ ∃ a ∈ l, l.foldl f b = f b a := by
  match l with
  | [] => exact .inl rfl
  | [a] => exact .inr ⟨a, by simp, rfl⟩
  | _ :: _ :: _ => simp at hl

/-! ## The changes of the runtime -/

section Changes

variable {b b' : PaperBroker} {ids : Ids} {now : Instant} {symbol : String}

theorem nextBar_saved (hb : b.Sound) (hl : b.Linked) (hids : ids.Fresh b) {order : PaperOrder}
    (hmem : order ∈ b.orders) {bar : Bar}
    (h : (b.processNextBar order bar ids.fillId ids.positionId).map (·.1) = .ok b') :
    b.Saved b' := by
  cases hnext : b.processNextBar order bar ids.fillId ids.positionId with
  | error e => simp [hnext, Except.map] at h
  | ok result =>
    obtain ⟨c, opened⟩ := result
    simp only [hnext, Except.map, Except.ok.injEq] at h
    subst h
    exact (PaperBroker.Writes.nextBar hmem hids.fill hids.position hids.closed hnext).saved hb hl

theorem stampFxOrder_eq (order : PaperOrder) (plan : Option TradePlan) :
    ∃ version, PaperCycle.stampFxOrder order plan =
      { order with riskPolicyVersion := version } := by
  unfold PaperCycle.stampFxOrder
  split_ifs
  · exact ⟨_, rfl⟩
  · exact ⟨order.riskPolicyVersion, rfl⟩

/-- A submission puts one fresh PENDING order on a free symbol, or returns the order the run
already has. -/
theorem submit_saved (hb : b.Sound) (hl : b.Linked) (hids : ids.Fresh b) {c : PaperCycle.Submit}
    {r : PaperCycle.SubmitResult} (h : c.apply now ids b = .ok (true, r, b')) : b.Saved b' := by
  unfold PaperCycle.Submit.apply at h
  split_ifs at h with hstale
  · cases h
  · push Not at hstale
    obtain ⟨hpending, hopen, -⟩ := hstale
    have hfree : ∀ o ∈ b.orders, o.status = .pending → o.symbol ≠ c.report.symbol := by
      intro o ho hp hs
      have hmem := mem_pendingOf.mpr ⟨ho, hs, hp⟩
      simp only [Bool.not_eq_true', List.isEmpty_eq_false_iff, ne_eq, Decidable.not_not]
        at hpending
      rw [hpending] at hmem
      cases hmem
    have hposition : b.account.openPositions.get? c.report.symbol = none := by
      simpa using hopen
    cases hsubmit : b.submitPlan c.report c.slot ids.orderId with
    | mk c' answered =>
      cases answered with
      | none => simp [hsubmit] at h
      | some order =>
        simp only [hsubmit, Except.ok.injEq, Prod.mk.injEq, true_and] at h
        obtain ⟨-, rfl⟩ := h
        obtain ⟨version, hstamp⟩ := stampFxOrder_eq order c.report.tradePlan
        rw [hstamp]
        cases hrun : PaperBroker.runOrder b.orders c.report.runId with
        | some existing =>
          have hmem : existing ∈ b.orders := List.mem_of_find?_eq_some hrun
          unfold PaperBroker.submitPlan at hsubmit
          split at hsubmit
          · cases hsubmit
          · simp only [hrun, Prod.mk.injEq, Option.some.injEq] at hsubmit
            obtain ⟨rfl, rfl⟩ := hsubmit
            exact @PaperBroker.Saved.restamp _ _ hb hl existing
              { existing with riskPolicyVersion := version } hmem rfl rfl rfl rfl rfl
              (fun _ => Iff.rfl)
        | none =>
          obtain ⟨plan, decision, planAsOf, quantity, multiplier, -, -, horder, hportfolio⟩ :=
            PaperBroker.submitPlan_eq_some hrun hsubmit
          have haccount : c'.account = b.account := congrArg Portfolio.account hportfolio
          have hfills : c'.fills = b.fills := congrArg Portfolio.fills hportfolio
          have horders : c'.orders = b.orders.put order := congrArg Portfolio.orders hportfolio
          have hid : ∀ o ∈ b.orders, o.orderId ≠ order.orderId := by
            rw [horder]
            exact hids.order
          refine @PaperBroker.Saved.submit _ _ hb hl { order with riskPolicyVersion := version }
            ?_ hid ?_ ?_ haccount hfills (fun o => ?_)
          · rw [horder]
          · rw [horder]
            exact hposition
          · rw [horder]
            exact hfree
          · rw [horders]
            refine (@put_put_mem b.orders order { order with riskPolicyVersion := version } o
              rfl).trans (Table.mem_put.trans ?_)
            exact or_congr_right (and_iff_left_of_imp (hid o))

theorem progressPending_saved (hb : b.Sound) (hl : b.Linked) {uuid4 : GuardedWrite.Uuid4} {bar : Bar} {u : Unit}
    {save : Bool} (h : PaperCycle.progressPending uuid4 symbol bar now ids b = .ok (save, u, b')) :
    b.Saved b' := by
  unfold PaperCycle.progressPending at h
  cases hloop : (PaperCycle.pendingOf b symbol).foldlM (PaperCycle.progressOrder uuid4 bar) b with
  | error e => simp [hloop] at h
  | ok c =>
    simp only [hloop, Except.ok.injEq, Prod.mk.injEq] at h
    obtain ⟨-, -, rfl⟩ := h
    rcases foldlM_le_one (length_pendingOf_le_one hb symbol) hloop with rfl | ⟨o, ho, hstep⟩
    · exact .refl hb hl
    · unfold PaperCycle.progressOrder at hstep
      cases hasOf : o.asOf with
      | none => simp [hasOf] at hstep
      | some asOf =>
        simp only [hasOf] at hstep
        split_ifs at hstep
        · exact nextBar_saved hb hl (uuid4.fresh b) (mem_pendingOf.mp ho).1 hstep
        · cases hstep
          exact .refl hb hl

/-- A bar acts on a position only when it is closed. -/
theorem processBar_saved (hb : b.Sound) (hl : b.Linked) {tradeId : String}
    (hid : ∀ t ∈ b.account.closedTrades, t.tradeId ≠ tradeId) (bar : Bar) :
    b.Saved (TradeManager.processBar b bar tradeId).1 := by
  cases hbar : bar.isClosed with
  | false => simpa [TradeManager.processBar, hbar] using PaperBroker.Saved.refl hb hl
  | true => exact (PaperBroker.Writes.processBar hbar hid).saved hb hl

theorem managePositions_saved (hb : b.Sound) (hl : b.Linked) (hids : ids.Fresh b)
    {paperEnabled : Bool} {bar : Bar} {u : Unit} {save : Bool}
    (h : PaperCycle.managePositions paperEnabled bar now ids b = .ok (save, u, b')) :
    b.Saved b' := by
  simp only [PaperCycle.managePositions, Except.ok.injEq, Prod.mk.injEq] at h
  obtain ⟨-, -, rfl⟩ := h
  cases paperEnabled with
  | false => exact .refl hb hl
  | true => exact processBar_saved hb hl hids.trade bar

/-- A market exit, with one more event. -/
theorem closeMarket_saved (hb : b.Sound) (hl : b.Linked) (hids : ids.Fresh b) {price : ℚ}
    {asOf : Instant} {exitReason decisionRunId : String} {c : PaperBroker} {trade : ClosedTrade}
    (h : b.closeMarket symbol price asOf exitReason decisionRunId ids.tradeId = .ok (c, trade))
    (haccount : b'.account = c.account) (horders : b'.orders = c.orders)
    (hfills : b'.fills = c.fills) : b.Saved b' :=
  ((PaperBroker.Writes.closeMarket hids.trade h).saved hb hl).congr haccount horders hfills

theorem mem_of_currentPosition {positionId : String} {p : PaperPosition}
    (h : PaperCycle.currentPosition b symbol positionId = some p) :
    p ∈ b.account.openPositions := by
  obtain ⟨hget, -⟩ := Option.filter_eq_some_iff.mp h
  exact (Table.get?_eq_some.mp hget).1

theorem durationWrite_saved (hb : b.Sound) (hl : b.Linked) (hids : ids.Fresh b)
    {calendar : TradeDuration.Calendar} {positionId : String} {boundary : Instant}
    {bar : MarketBar} {r : PaperCycle.DurationResult}
    (h : PaperCycle.durationWrite calendar symbol positionId boundary bar now ids b =
      .ok (true, r, b')) : b.Saved b' := by
  unfold PaperCycle.durationWrite at h
  cases hcurrent : PaperCycle.currentPosition b symbol positionId with
  | none => simp [hcurrent] at h
  | some p =>
    simp only [hcurrent] at h
    split_ifs at h
    · cases h
    · unfold PaperCycle.durationDecide at h
      cases hdecision : TradeDuration.boundaryDecision calendar p boundary bar.close with
      | close reason =>
        simp only [hdecision] at h
        cases hclose : b.closeMarket symbol bar.close bar.end_ reason p.runId ids.tradeId with
        | error e => simp [hclose] at h
        | ok closed =>
          obtain ⟨c, trade⟩ := closed
          simp only [hclose, Except.ok.injEq, Prod.mk.injEq, true_and] at h
          obtain ⟨-, rfl⟩ := h
          exact closeMarket_saved hb hl hids hclose rfl rfl rfl
      | breakeven =>
        simp only [hdecision, Except.ok.injEq, Prod.mk.injEq, true_and] at h
        obtain ⟨-, rfl⟩ := h
        have hmoved := PaperBroker.Writes.moveStop (mem_of_currentPosition hcurrent)
          (TradeDuration.durationStage_of_breakeven calendar hdecision) []
        exact (hmoved.saved hb hl).congr rfl rfl rfl

theorem cancelWith_saved (hb : b.Sound) (hl : b.Linked) {order : PaperOrder}
    (hmem : order ∈ b.orders) (hpending : order.status = .pending) (at_ : Instant)
    (details : List (String × Json)) :
    b.Saved (PaperCycle.cancelWith symbol at_ details b order) :=
  @PaperBroker.Saved.leave _ _ hb hl _ hmem hpending .cancelled (by decide) (by decide) rfl rfl rfl

theorem cancelDueOrders_saved (hb : b.Sound) (hl : b.Linked) {calendar : TradeDuration.Calendar}
    {slot : Instant} {r : List String} {save : Bool}
    (h : PaperCycle.cancelDueOrders calendar symbol slot now ids b = .ok (save, r, b')) :
    b.Saved b' := by
  simp only [PaperCycle.cancelDueOrders, Except.ok.injEq, Prod.mk.injEq] at h
  obtain ⟨-, -, rfl⟩ := h
  have hlength : (PaperCycle.dueOrders calendar b symbol slot).length ≤ 1 :=
    (List.length_filterMap_le ..).trans (length_pendingOf_le_one hb symbol)
  rcases foldl_le_one hlength b with he | ⟨d, hd, he⟩
  · rw [he]
    exact .refl hb hl
  · rw [he]
    obtain ⟨o, ho, hdue⟩ := List.mem_filterMap.mp hd
    have hsame : d.1 = o := by
      cases hasOf : o.asOf with
      | none => simp [hasOf] at hdue
      | some asOf =>
        simp only [hasOf] at hdue
        split_ifs at hdue
        cases hdue
        rfl
    obtain ⟨hmem, -, hpending⟩ := mem_pendingOf.mp ho
    exact cancelWith_saved hb hl (hsame ▸ hmem) (hsame ▸ hpending) _ _

theorem cancelPaused_saved (hb : b.Sound) (hl : b.Linked) {slot : Instant} {r : List String}
    {save : Bool} (h : PaperCycle.cancelPaused symbol slot now ids b = .ok (save, r, b')) :
    b.Saved b' := by
  simp only [PaperCycle.cancelPaused, Except.ok.injEq, Prod.mk.injEq] at h
  obtain ⟨-, -, rfl⟩ := h
  rcases foldl_le_one (length_pendingOf_le_one hb symbol) b with he | ⟨o, ho, he⟩
  · rw [he]
    exact .refl hb hl
  · rw [he]
    obtain ⟨hmem, -, hpending⟩ := mem_pendingOf.mp ho
    exact cancelWith_saved hb hl hmem hpending _ _

theorem closePaused_saved (hb : b.Sound) (hl : b.Linked) (hids : ids.Fresh b) {positionId : String}
    {bar : MarketBar} {r : PaperCycle.PausedResult}
    (h : PaperCycle.closePaused symbol positionId bar now ids b = .ok (true, r, b')) :
    b.Saved b' := by
  unfold PaperCycle.closePaused at h
  cases hcurrent : PaperCycle.currentPosition b symbol positionId with
  | none => simp [hcurrent] at h
  | some p =>
    simp only [hcurrent] at h
    split_ifs at h
    · cases h
    · cases hclose : b.closeMarket symbol bar.close bar.end_ PaperCycle.pausedReason p.runId
          ids.tradeId with
      | error e => simp [hclose] at h
      | ok closed =>
        obtain ⟨c, trade⟩ := closed
        simp only [hclose, Except.ok.injEq, Prod.mk.injEq, true_and] at h
        obtain ⟨-, rfl⟩ := h
        exact closeMarket_saved hb hl hids hclose rfl rfl rfl

end Changes

end MarketSystem.OneExposure
