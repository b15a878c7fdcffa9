import MarketSystem.Replay.RecordedState
import MarketSystem.Runtime.OneExposure

/-!
# The submission of the oracle

`submit_plan` of the oracle has the guards of `submit_plan` of the broker, in another order and on the
recorded values. The re-check is the one of the runtime, on the values the runtime noted.
-/
namespace MarketSystem.RexOracle

open Library
open MarketSystem.Database (encodeAccount)

section Submission

variable {state post : PaperState} {b c : PaperBroker} {submit : PaperCycle.Submit}

/-- What the oracle has of a submission. -/
def submissionOf (b : PaperBroker) (report : FloorReport) : Submission where
  runId := report.runId
  symbol := report.symbol
  finalStatus := report.finalStatus
  plan := report.tradePlan
  decision := report.riskDecision
  instrument := b.instrument

/-- What the runtime notes before it submits. -/
def recheckNote (b : PaperBroker) (submit : PaperCycle.Submit) : Recheck where
  pendingOnSymbol := !(PaperCycle.pendingOf b submit.report.symbol).isEmpty
  openOnSymbol := (b.account.openPositions.get? submit.report.symbol).isSome
  equity := b.account.equity
  decisionEquity := submit.decisionEquity
  runOrderIds := (b.orders.rows.filter
    (fun o => decide (o.runId = submit.report.runId))).map PaperOrder.orderId

/-- A saved submission under some id that is new to the state. -/
def SubmittedBy (b : PaperBroker) (submit : PaperCycle.Submit) (c : PaperBroker) : Prop :=
  ∃ now ids r, (∀ o ∈ b.orders, o.orderId ≠ ids.orderId) ∧ submit.apply now ids b = .ok (true, r, c)

theorem submitPlan_eq (b : PaperBroker) (report : FloorReport) (equity : ℚ) (symbolOpen : Bool)
    (runOrderIds : List String) :
    submitPlan (submissionOf b report) equity symbolOpen runOrderIds =
      match PaperBroker.submittable report with
      | none => .none
      | some (_, decision, planAsOf) =>
        match runOrderIds with
        | orderId :: _ => .existing orderId
        | [] => newOrder (submissionOf b report) decision planAsOf equity symbolOpen := by
  unfold submitPlan PaperBroker.submittable submissionOf
  by_cases hready : report.finalStatus = "PLAN_READY"
  · simp only [hready, ne_eq, not_true_eq_false, if_false, if_true]
    cases hplan : report.tradePlan with
    | none => rfl
    | some plan =>
      cases hdecision : report.riskDecision with
      | none => rfl
      | some decision =>
        dsimp only
        by_cases happroved : decision.status = .approved
        · by_cases hsame : plan.runId = some report.runId ∧ decision.symbol = report.symbol ∧
              decision.side = plan.side
          · obtain ⟨hrun, hsymbol, hside⟩ := hsame
            simp only [happroved, hrun, hsymbol, hside, not_true_eq_false, or_self, if_false,
              and_self, if_true]
            cases plan.asOf with
            | none => rfl
            | some planAsOf => rfl
          · have hother : plan.runId ≠ some report.runId ∨ decision.symbol ≠ report.symbol ∨
                decision.side ≠ plan.side := by tauto
            rw [if_neg (not_not.mpr happroved), if_pos hother, if_neg (fun h => hsame h.2)]
        · rw [if_pos happroved, if_neg (fun h => happroved h.1)]
  · simp only [hready, ne_eq, not_false_eq_true, if_true, if_false]

/-- The order that `submit_plan` builds. -/
def builtOrder (b : PaperBroker) (report : FloorReport) (decision : RiskDecision)
    (planAsOf : Instant) (quantity multiplier : ℚ) : PaperOrder where
  orderId := ""
  runId := report.runId
  symbol := report.symbol
  side := decision.side
  quantity := quantity
  plannedEntry := decision.entry
  stop := decision.stop
  target := decision.target
  contractMultiplier := some multiplier
  equityAtSubmission := some b.account.equity
  asOf := some planAsOf

theorem newOrder_eq (b : PaperBroker) (report : FloorReport) (decision : RiskDecision)
    (planAsOf : Instant) :
    newOrder (submissionOf b report) decision planAsOf b.account.equity
        (b.account.openPositions.get? report.symbol).isSome =
      match b.admissible report decision with
      | none => .none
      | some (quantity, multiplier) =>
        .new (builtOrder b report decision planAsOf quantity multiplier) := by
  unfold newOrder PaperBroker.admissible submissionOf
  dsimp only
  cases decision.quantity with
  | none => rfl
  | some quantity =>
    dsimp only
    cases b.instrument with
    | none => simp
    | some instrument =>
      dsimp only
      cases instrument.contractMultiplier with
      | none => simp
      | some multiplier =>
        dsimp only
        by_cases hnumbers : 0 < quantity ∧ 0 < decision.entry ∧ 0 < decision.stop ∧
            0 < decision.target ∧ 0 < multiplier ∧ decision.symbol = instrument.symbol ∧
            0 < b.account.equity
        · obtain ⟨hquantity, hentry, hstop, htarget, hmultiplier, hsymbol, hequity⟩ := hnumbers
          cases hopen : b.account.openPositions.get? report.symbol with
          | none =>
            simp [valid, hquantity, hentry, hstop, htarget, hmultiplier, hsymbol, hequity,
              builtOrder]
          | some p =>
            simp [valid, hquantity, hentry, hstop, htarget, hmultiplier, hsymbol, hequity]
        · have hadmissible : ¬(0 < quantity ∧ 0 < decision.entry ∧ 0 < decision.stop ∧
              0 < decision.target ∧ 0 < multiplier ∧ decision.symbol = instrument.symbol ∧
              0 < b.account.equity ∧ b.account.openPositions.get? report.symbol = none) := by
            tauto
          rw [if_neg hadmissible]
          split_ifs with hvalues hmultiplier hsymbol hequity hopen
          · rfl
          · rfl
          · rfl
          · rfl
          · rfl
          · simp only [valid, Bool.not_eq_true', Bool.and_eq_true, decide_eq_true_eq, and_assoc,
              Bool.not_eq_false, decide_eq_false_iff_not, not_not] at *
            exact absurd ⟨hvalues.1, hvalues.2.1, hvalues.2.2.1, hvalues.2.2.2, hmultiplier,
              hsymbol, hequity⟩ hnumbers

/-- The expected state is met where the order has some new id. -/
theorem compare_ordered {order : PaperOrder} (h : Records state b) :
    compareStates state { orders := [order] } post = [] ↔
      ∃ orderId, (∀ o ∈ b.orders, o.orderId ≠ orderId) ∧
        Records post { b with orders := b.orders.put { order with orderId := orderId } } := by
  have hput : ∀ orderId, (∀ o ∈ b.orders, o.orderId ≠ orderId) → ∀ o,
      o ∈ b.orders.put { order with orderId := orderId } ↔
        o ∈ b.orders ∨ o = orders.withKey orderId order := by
    intro orderId hfresh o
    refine Table.mem_put.trans (or_comm.trans (or_congr_left (and_iff_left_of_imp ?_)))
    exact hfresh o
  rw [compareStates_eq_nil, comparePart_nil, comparePart_nil, comparePart_one, comparePart_nil,
    h.account]
  constructor
  · rintro ⟨ha, hp, hc, ⟨orderId, hnew, ho⟩, hf⟩
    have hfresh : ∀ o ∈ b.orders, o.orderId ≠ orderId := fun o ho =>
      hnew o ((h.orders o).mpr ho)
    refine ⟨orderId, hfresh, ha, fun p => (hp p).trans (h.positions p),
      fun t => (hc t).trans (h.closed t), fun o => ?_, fun f => (hf f).trans (h.fills f)⟩
    rw [hput _ hfresh, ho, h.orders]
  · rintro ⟨orderId, hfresh, hpost⟩
    refine ⟨hpost.account, fun p => (hpost.positions p).trans (h.positions p).symm,
      fun t => (hpost.closed t).trans (h.closed t).symm,
      ⟨orderId, fun o ho => hfresh o ((h.orders o).mp ho), fun o => ?_⟩,
      fun f => (hpost.fills f).trans (h.fills f).symm⟩
    rw [hpost.orders, hput _ hfresh, h.orders]

theorem refused_iff : (recheckNote b submit).refused = true ↔
    !(PaperCycle.pendingOf b submit.report.symbol).isEmpty ∨
      (b.account.openPositions.get? submit.report.symbol).isSome ∨
      b.account.equity ≠ submit.decisionEquity := by
  simp only [Recheck.refused, recheckNote, Bool.or_eq_true, or_assoc]
  exact or_congr_right (or_congr_right decide_eq_true_iff)

/-- What is saved where the re-check passes. -/
theorem submittedBy_iff (hcheck : (recheckNote b submit).refused = false)
    (hplan : submit.report.tradePlan.bind (·.policyVersion) ≠ some .fx) :
    SubmittedBy b submit c ↔ ∃ orderId d order, (∀ o ∈ b.orders, o.orderId ≠ orderId) ∧
      b.submitPlan submit.report submit.slot orderId = (d, some order) ∧
      c = { d with orders := d.orders.put order } := by
  have hready := mt refused_iff.mpr (Bool.eq_false_iff.mp hcheck)
  unfold SubmittedBy PaperCycle.Submit.apply PaperCycle.stampFxOrder
  simp only [if_neg hready, if_neg hplan]
  constructor
  · rintro ⟨now, ids, r, hfresh, h⟩
    cases hsubmit : b.submitPlan submit.report submit.slot ids.orderId with
    | mk d answered =>
      cases answered with
      | none => simp [hsubmit] at h
      | some order =>
        simp only [hsubmit, Except.ok.injEq, Prod.mk.injEq, true_and] at h
        exact ⟨ids.orderId, d, order, hfresh, hsubmit, h.2.symm⟩
  · rintro ⟨orderId, d, order, hfresh, hsubmit, rfl⟩
    refine ⟨0, ⟨orderId, "", "", ""⟩, .answered (some order), hfresh, ?_⟩
    simp only [hsubmit]

/-- Nothing is saved where the re-check fails. -/
theorem not_submittedBy (hcheck : (recheckNote b submit).refused = true) :
    ¬SubmittedBy b submit c := by
  rintro ⟨now, ids, r, -, h⟩
  unfold PaperCycle.Submit.apply at h
  rw [if_pos (refused_iff.mp hcheck)] at h
  simp at h

/-- The orders of the run that the state has are the noted ones. -/
theorem runOrders_perm (h : Records state b) :
    ((state.orders.rows.filter (fun o => decide (o.runId = submit.report.runId))).map
      PaperOrder.orderId).Perm (recheckNote b submit).runOrderIds :=
  ((Database.rows_perm h.orders).filter _).map _

theorem submitPlan_account (b : PaperBroker) (report : FloorReport) (slot : Instant)
    (orderId : String) : (b.submitPlan report slot orderId).1.account = b.account := by
  unfold PaperBroker.submitPlan
  split
  · rfl
  · split
    · rfl
    · split
      · rfl
      · rfl

/-- The checked write leaves distinct ids. -/
theorem SubmittedBy.distinct (hplan : submit.report.tradePlan.bind (·.policyVersion) ≠ some .fx)
    (hb : b.Sound) (h : SubmittedBy b submit c) : Distinct c := by
  cases hcheck : (recheckNote b submit).refused with
  | true => exact absurd h (not_submittedBy hcheck)
  | false =>
    obtain ⟨orderId, d, order, -, hsubmit, rfl⟩ := (submittedBy_iff hcheck hplan).mp h
    have haccount : d.account = b.account := by
      have hsame := submitPlan_account b submit.report submit.slot orderId
      rwa [hsubmit] at hsame
    obtain ⟨hpositions, hclosed⟩ := Distinct.of_sound hb
    rw [← haccount] at hpositions hclosed
    exact ⟨hpositions, hclosed⟩

theorem exists_orderId (b : PaperBroker) : ∃ orderId, ∀ o ∈ b.orders, o.orderId ≠ orderId :=
  ⟨GuardedWrite.longerThan (b.orders.rows.map PaperOrder.orderId), fun _ ho =>
    GuardedWrite.longerThan_fresh _ _ (List.mem_map_of_mem ho)⟩

/-- Putting an order that is there changes nothing. -/
theorem mem_put_of_mem {t : Orders} {o q : PaperOrder} (ho : o ∈ t) : q ∈ t.put o ↔ q ∈ t := by
  rw [Table.mem_put]
  constructor
  · rintro (rfl | ⟨hq, -⟩)
    · exact ho
    · exact hq
  · intro hq
    by_cases hkey : q.orderId = o.orderId
    · exact .inl (Table.eq_of_key hq ho hkey)
    · exact .inr ⟨hq, hkey⟩

/-- The order a run already has is the first of its orders. -/
theorem runOrder_eq (b : PaperBroker) (runId : String) : PaperBroker.runOrder b.orders runId =
    (b.orders.rows.filter (fun o => decide (o.runId = runId))).head? :=
  List.head?_filter.symm

/-- The broker puts the order twice and notes the event. -/
theorem records_placed {order : PaperOrder} (slot : Instant) :
    Records post { { b with orders := b.orders.put order }.event (some slot) order.runId
        order.symbol order.orderId "ORDER_SUBMITTED" with
      orders := (b.orders.put order).put order } ↔
    Records post { b with orders := b.orders.put order } := by
  have hsame : ∀ o, o ∈ (b.orders.put order).put order ↔ o ∈ b.orders.put order :=
    fun _ => RiskReservation.put_put_mem rfl
  constructor
  · intro h
    exact ⟨h.account, h.positions, h.closed, fun o => (h.orders o).trans (hsame o), h.fills⟩
  · intro h
    exact ⟨h.account, h.positions, h.closed, fun o => (h.orders o).trans (hsame o).symm, h.fills⟩

/-- A run that has an order gets that order again. -/
theorem foretells_existing {existing : PaperOrder} (h : Records state b) (hjournal : b.journal = [])
    (hmem : existing ∈ b.orders)
    (hplan : submit.report.tradePlan.bind (·.policyVersion) ≠ some .fx)
    (hcheck : (recheckNote b submit).refused = false)
    (hanswer : ∀ orderId, b.submitPlan submit.report submit.slot orderId = (b, some existing)) :
    Foretells { state := state } (SubmittedBy b submit) := by
  have hsaved := fun c => submittedBy_iff (c := c) hcheck hplan
  refine foretells_one (c := { b with orders := b.orders.put existing }) rfl rfl
    (by rw [hjournal]; rfl) ⟨h.account, h.positions, h.closed, fun o => ?_, h.fills⟩ fun d => ?_
  · rw [h.orders, mem_put_of_mem hmem]
  · rw [hsaved]
    constructor
    · rintro ⟨orderId, d, order, -, hgiven, rfl⟩
      cases (hanswer orderId).symm.trans hgiven
      rfl
    · rintro rfl
      obtain ⟨orderId, hfresh⟩ := exists_orderId b
      exact ⟨orderId, b, existing, hfresh, hanswer orderId, rfl⟩

/-- A run without an order gets a new one. -/
theorem foretells_ordered {order : PaperOrder} (h : Records state b) (hjournal : b.journal = [])
    (hplan : submit.report.tradePlan.bind (·.policyVersion) ≠ some .fx)
    (hcheck : (recheckNote b submit).refused = false)
    (hanswer : ∀ orderId, b.submitPlan submit.report submit.slot orderId =
      ({ b with orders := b.orders.put { order with orderId := orderId } }.event (some submit.slot)
        order.runId order.symbol orderId "ORDER_SUBMITTED",
        some { order with orderId := orderId })) :
    Foretells {
      state := state
      events := ["ORDER_SUBMITTED"]
      new := { orders := [order] } } (SubmittedBy b submit) := by
  have hsaved := fun c => submittedBy_iff (c := c) hcheck hplan
  refine ⟨fun _ _ => rfl, ?_, fun _ post => ?_⟩
  · intro c hc
    obtain ⟨orderId, d, order, -, hgiven, rfl⟩ := (hsaved c).mp hc
    cases (hanswer orderId).symm.trans hgiven
    simp [PaperBroker.event, hjournal]
  · refine (compare_ordered h).trans ?_
    constructor
    · rintro ⟨orderId, hfresh, hpost⟩
      exact ⟨_, (hsaved _).mpr ⟨orderId, _, _, hfresh, hanswer orderId, rfl⟩,
        (records_placed submit.slot).mpr hpost⟩
    · rintro ⟨c, hc, hpost⟩
      obtain ⟨orderId, d, order, hfresh, hgiven, rfl⟩ := (hsaved c).mp hc
      cases (hanswer orderId).symm.trans hgiven
      exact ⟨orderId, hfresh, (records_placed submit.slot).mp hpost⟩

/-- Where the re-check passes `submit_plan` of the oracle is the one of the broker. -/
theorem submitPlan_answers (h : Records state b) (hjournal : b.journal = [])
    (hplan : submit.report.tradePlan.bind (·.policyVersion) ≠ some .fx)
    (hcheck : (recheckNote b submit).refused = false) :
    Answers
      (match submitPlan (submissionOf b submit.report) b.account.equity
          (b.account.openPositions.get? submit.report.symbol).isSome
          (recheckNote b submit).runOrderIds with
        | .none => .error "ST9_SAVE_WITHOUT_ORDER"
        | .existing _ => .ok { state := state }
        | .new order => .ok {
            state := state
            events := ["ORDER_SUBMITTED"]
            new := { orders := [order] } })
      (SubmittedBy b submit) := by
  have hsaved := fun c => submittedBy_iff (c := c) hcheck hplan
  have hhead := runOrder_eq b submit.report.runId
  rw [submitPlan_eq]
  cases hsubmittable : PaperBroker.submittable submit.report with
  | none =>
    rintro c hc
    obtain ⟨orderId, d, order, -, hgiven, -⟩ := (hsaved c).mp hc
    rw [PaperBroker.submitPlan, hsubmittable] at hgiven
    cases hgiven
  | some found =>
    obtain ⟨plan, decision, planAsOf⟩ := found
    unfold recheckNote
    cases hrows : b.orders.rows.filter (fun o => decide (o.runId = submit.report.runId)) with
    | cons existing rest =>
      rw [hrows, List.head?_cons] at hhead
      refine foretells_existing h hjournal (List.mem_of_find?_eq_some hhead) hplan hcheck
        fun orderId => ?_
      simp only [PaperBroker.submitPlan, hsubmittable, hhead]
    | nil =>
      rw [hrows, List.head?_nil] at hhead
      dsimp only [List.map_nil]
      rw [newOrder_eq]
      cases hadmissible : b.admissible submit.report decision with
      | none =>
        rintro c hc
        obtain ⟨orderId, d, order, -, hgiven, -⟩ := (hsaved c).mp hc
        simp only [PaperBroker.submitPlan, hsubmittable, hhead, hadmissible] at hgiven
        cases hgiven
      | some numbers =>
        refine foretells_ordered h hjournal hplan hcheck fun orderId => ?_
        simp only [PaperBroker.submitPlan, hsubmittable, hhead, hadmissible]
        rfl

/-- A write that was saved in spite of the re-check is no result, and it is noted. -/
theorem refused_answers (hcheck : (recheckNote b submit).refused = true) :
    Answers (applySubmit (submissionOf b submit.report) (recheckNote b submit) state)
      (SubmittedBy b submit) := by
  have hnone : ∀ c, ¬SubmittedBy b submit c := fun c => not_submittedBy hcheck
  cases happlied : applySubmit (submissionOf b submit.report) (recheckNote b submit) state with
  | error e => exact hnone
  | ok applied =>
    have hnoted : applied.failures ≠ [] := by
      unfold applySubmit at happlied
      cases haccount : state.account with
      | none => simp [haccount] at happlied
      | some account =>
        simp only [haccount, hcheck, Bool.not_true] at happlied
        obtain ⟨table, -, happlied⟩ := bind_eq_ok.mp happlied
        split at happlied
        · cases happlied
        · cases happlied
          simp [demand]
        · cases happlied
          simp [demand]
    exact ⟨fun c hc => absurd hc (hnone c), fun c hc => absurd hc (hnone c),
      fun hfailures => absurd hfailures hnoted⟩

/-- The checked submission is the one of the runtime. -/
theorem applySubmit_answers (h : Records state b) (hjournal : b.journal = [])
    (hplan : submit.report.tradePlan.bind (·.policyVersion) ≠ some .fx) :
    Answers (applySubmit (submissionOf b submit.report) (recheckNote b submit) state)
      (SubmittedBy b submit) := by
  cases hcheck : (recheckNote b submit).refused with
  | true => exact refused_answers hcheck
  | false =>
    have hanswers := submitPlan_answers h hjournal hplan hcheck
    obtain ⟨table, htable, hsame⟩ := openBySymbol_of_records h
    have hget : table.get? submit.report.symbol =
        b.account.openPositions.get? submit.report.symbol := Table.get?_eq_of_mem_iff hsame _
    have hequity : demand (decide ((encodeAccount b.account).equity =
        (recheckNote b submit).equity)) "ST9_EQUITY_MISMATCH" = [] :=
      demand_eq_nil.mpr (decide_eq_true rfl)
    have horders : demand (decide (((state.orders.rows.filter (fun o => decide (o.runId =
        (submissionOf b submit.report).runId))).map PaperOrder.orderId).Perm
          (recheckNote b submit).runOrderIds)) "ST9_RUN_ORDERS_MISMATCH" = [] :=
      demand_eq_nil.mpr (decide_eq_true (runOrders_perm h))
    have hready : demand (!(recheckNote b submit).refused) "ST9_SAVED_DESPITE_RECHECK" = [] := by
      rw [hcheck]
      rfl
    unfold applySubmit
    rw [h.account]
    dsimp only
    rw [hequity, horders, hready, htable]
    simp only [bind, Except.bind, pure, Except.pure, List.append_nil]
    have hsymbol : (submissionOf b submit.report).symbol = submit.report.symbol := rfl
    have haccount : (encodeAccount b.account).equity = b.account.equity := rfl
    rw [hsymbol, hget, haccount]
    exact hanswers

end Submission

end MarketSystem.RexOracle
