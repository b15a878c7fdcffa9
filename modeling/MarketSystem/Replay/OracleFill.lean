import MarketSystem.Replay.OracleManagement

/-!
# The fill gate of the oracle

`fill_gate` moves a PENDING order as `process_next_bar` does for an order of V1. A symbol has at most
one PENDING order, so each of the two loops over the noted orders is one step.
-/
namespace MarketSystem.RexOracle

open Library
open MarketSystem.Database (encodeAccount)

section FillGate

variable {state post : PaperState} {b c : PaperBroker} {order : PaperOrder} {bar : Bar}
  {multiplier : ℚ}

/-- The clauses of the gate are those of the broker for an order without a stamp. -/
theorem fillReason_eq (hpolicy : b.rrPolicy = none) (hstamp : order.riskPolicyVersion = none) :
    b.fillReason order bar.open_ multiplier =
      .ok (if fillRejected order b.account.equity bar.open_ multiplier = true then
        some "post_fill_risk_or_geometry" else none) := by
  have hrules : b.fillRules order = .rules none none := by
    simp [PaperBroker.fillRules, hpolicy, hstamp]
  unfold PaperBroker.fillReason fillRejected
  rw [hrules]
  cases hsubmitted : order.equityAtSubmission with
  | none => simp [PaperBroker.validEquities, validMultiplier, hsubmitted]
  | some submitted =>
    cases hside : order.side with
    | long =>
      simp only [PaperBroker.validEquities, validMultiplier, hsubmitted, hside,
        PaperBroker.aboveOnePercent, PaperBroker.riskPerUnit, PaperBroker.rewardPerUnit,
        Bool.not_and, Bool.or_assoc, gt_iff_lt]
      split_ifs <;> rfl
    | short =>
      simp only [PaperBroker.validEquities, validMultiplier, hsubmitted, hside,
        PaperBroker.aboveOnePercent, PaperBroker.riskPerUnit, PaperBroker.rewardPerUnit,
        Bool.not_and, Bool.or_assoc, gt_iff_lt]
      split_ifs <;> rfl

/-- The gate moves the order to the status the broker moves it to, or fills it where the broker
does. -/
theorem fillGate_cases (bar : Bar) (haccount : state.account = some (encodeAccount b.account))
    (hpending : order.status = .pending) (hpolicy : b.rrPolicy = none)
    (hstamp : order.riskPolicyVersion = none) :
    (∃ status type at_ details,
      fillGate state order bar =
        .ok { state := state.setStatus order status, events := [type] } ∧
      ∀ fillId positionId, b.processNextBar order bar fillId positionId =
        .ok ((b.setStatus order status).event at_ order.runId order.symbol order.orderId type
          details, none)) ∨
    ∃ multiplier, order.contractMultiplier = some multiplier ∧
      fillGate state order bar = .ok {
        state := state.setStatus order .filled
        events := ["ORDER_FILLED", "POSITION_OPENED"]
        new := { fills := [newFill order bar], positions := [newPosition order bar] } } ∧
      ∀ fillId positionId, b.processNextBar order bar fillId positionId =
        .ok ((b.fillOrder order multiplier bar fillId positionId).1,
          some (b.fillOrder order multiplier bar fillId positionId).2) := by
  unfold fillGate PaperBroker.processNextBar
  rw [if_neg (not_not.mpr hpending)]
  simp only [if_neg (not_not.mpr hpending)]
  cases hmultiplier : order.contractMultiplier with
  | none => exact .inl ⟨.rejected, "ORDER_REJECTED", _, _, rfl, fun _ _ => rfl⟩
  | some multiplier =>
    dsimp only
    by_cases hvalid : valid multiplier = true
    · rw [if_neg (by simp [hvalid])]
      simp only [hvalid, Bool.not_true, Bool.false_eq_true, if_false]
      cases hasOf : order.asOf with
      | none => exact .inl ⟨.cancelled, "ORDER_CANCELLED", _, _, rfl, fun _ _ => rfl⟩
      | some asOf =>
        dsimp only
        rw [validOhlc_eq]
        by_cases hbar : bar.symbol ≠ order.symbol ∨ bar.isClosed = false ∨ bar.validOhlc = false
        · simp only [if_pos hbar]
          exact .inl ⟨.cancelled, "ORDER_CANCELLED", _, _, rfl, fun _ _ => rfl⟩
        simp only [if_neg hbar]
        by_cases hlate : bar.timestamp ≤ asOf
        · simp only [if_pos hlate]
          exact .inl ⟨.cancelled, "ORDER_CANCELLED", _, _, rfl, fun _ _ => rfl⟩
        simp only [if_neg hlate, if_neg (not_not.mpr hstamp), haccount,
          fillReason_eq hpolicy hstamp]
        by_cases hrejected : fillRejected order b.account.equity bar.open_ multiplier = true
        · simp only [if_pos hrejected]
          exact .inl ⟨.rejected, "ORDER_REJECTED", _, _, if_pos hrejected, fun _ _ => rfl⟩
        · simp only [if_neg hrejected]
          exact .inr ⟨multiplier, rfl, if_neg hrejected, fun _ _ => rfl⟩
    · rw [if_pos ((Bool.not_eq_true _).mp hvalid)]
      simp only [hvalid, Bool.not_false, if_true]
      exact .inl ⟨.rejected, "ORDER_REJECTED", _, _, rfl, fun _ _ => rfl⟩

theorem Records.setStatus (h : Records state b) (order : PaperOrder) (status : OrderStatus) :
    Records (state.setStatus order status) (b.setStatus order status) := by
  refine ⟨h.account, h.positions, h.closed, fun o => ?_, h.fills⟩
  unfold PaperState.setStatus PaperBroker.setStatus
  rw [Table.mem_put, Table.mem_put, h.orders]

/-- The filled state is met where the fill and the position have some new ids. -/
theorem compare_filled {expected : PaperState} (h : Records expected (b.setStatus order .filled))
    (hmultiplier : order.contractMultiplier = some multiplier)
    (hfree : ∀ p ∈ b.account.openPositions, p.symbol ≠ order.symbol) :
    compareStates expected { fills := [newFill order bar], positions := [newPosition order bar] }
        post = [] ↔
      ∃ fillId positionId, (∀ f ∈ b.fills, f.fillId ≠ fillId) ∧
        (∀ p ∈ b.account.openPositions, p.positionId ≠ positionId) ∧
        Records post (b.fillOrder order multiplier bar fillId positionId).1 := by
  have hpositions : ∀ fillId positionId p,
      p ∈ (b.fillOrder order multiplier bar fillId positionId).1.account.openPositions ↔
        p ∈ b.account.openPositions ∨ p = positions.withKey positionId (newPosition order bar) := by
    intro fillId positionId p
    have hopened : PaperBroker.openedPosition order multiplier bar positionId =
        positions.withKey positionId (newPosition order bar) := by
      simp [PaperBroker.openedPosition, newPosition, hmultiplier]
    rw [← hopened]
    refine Table.mem_put.trans (or_comm.trans (or_congr_left (and_iff_left_of_imp ?_)))
    exact hfree p
  have hfills : ∀ fillId positionId, (∀ f ∈ b.fills, f.fillId ≠ fillId) → ∀ f,
      f ∈ (b.fillOrder order multiplier bar fillId positionId).1.fills ↔
        f ∈ b.fills ∨ f = fills.withKey fillId (newFill order bar) := by
    intro fillId positionId hfresh f
    refine Table.mem_put.trans (or_comm.trans (or_congr_left (and_iff_left_of_imp ?_)))
    exact hfresh f
  rw [compareStates_eq_nil, comparePart_one, comparePart_nil, comparePart_nil, comparePart_one,
    h.account]
  constructor
  · rintro ⟨ha, ⟨positionId, hnew, hp⟩, hc, ho, ⟨fillId, hfresh, hf⟩⟩
    have hfresh' : ∀ f ∈ b.fills, f.fillId ≠ fillId := fun f hf => hfresh f ((h.fills f).mpr hf)
    refine ⟨fillId, positionId, hfresh', fun p hp => hnew p ((h.positions p).mpr hp), ?_⟩
    refine ⟨ha, fun p => ?_, fun t => (hc t).trans (h.closed t),
      fun o => (ho o).trans (h.orders o), fun f => ?_⟩
    · rw [hpositions, hp, h.positions]
      rfl
    · rw [hfills _ _ hfresh', hf, h.fills]
      rfl
  · rintro ⟨fillId, positionId, hfresh, hnew, hpost⟩
    refine ⟨hpost.account, ⟨positionId, fun p hp => hnew p ((h.positions p).mp hp), fun p => ?_⟩,
      fun t => (hpost.closed t).trans (h.closed t).symm,
      fun o => (hpost.orders o).trans (h.orders o).symm,
      ⟨fillId, fun f hf => hfresh f ((h.fills f).mp hf), fun f => ?_⟩⟩
    · rw [hpost.positions, hpositions, h.positions]
      rfl
    · rw [hpost.fills, hfills _ _ hfresh, h.fills]
      rfl

/-- The loop body of `progress_pending` under ids that are given. -/
def meet (fillId positionId : String) (bar : Bar) (b : PaperBroker) (order : PaperOrder) :
    Except String PaperBroker :=
  match order.asOf with
  | none => .error "TypeError"
  | some asOf =>
    if asOf < bar.timestamp then (b.processNextBar order bar fillId positionId).map (·.1)
    else .ok b

/-- The due orders meet the bar under some ids that are new to the state. -/
def FilledBy (b : PaperBroker) (due : List PaperOrder) (bar : Bar) (c : PaperBroker) : Prop :=
  ∃ fillId positionId, (∀ f ∈ b.fills, f.fillId ≠ fillId) ∧
    (∀ p ∈ b.account.openPositions, p.positionId ≠ positionId) ∧
    due.foldlM (meet fillId positionId bar) b = .ok c

/-- What the runtime notes before the loop. -/
def ordersNote (b : PaperBroker) (symbol : String) : OrdersNote where
  orderIds := (PaperCycle.pendingOf b symbol).map PaperOrder.orderId
  currentEquity := b.account.equity

/-! ## At most one order is due -/

/-- PENDING orders of the account, at most one. -/
inductive Due (b : PaperBroker) : List PaperOrder → Prop
  | none : Due b []
  | one {o : PaperOrder} (ho : o ∈ b.orders) (hpending : o.status = .pending) : Due b [o]

theorem Due.of_length {due : List PaperOrder} (hlength : due.length ≤ 1)
    (hall : ∀ o ∈ due, o ∈ b.orders ∧ o.status = .pending) : Due b due := by
  match due with
  | [] => exact .none
  | [o] =>
    obtain ⟨ho, hpending⟩ := hall o List.mem_cons_self
    exact .one ho hpending
  | _ :: _ :: _ => simp at hlength

theorem due_pendingOf (hb : b.Sound) (symbol : String) : Due b (PaperCycle.pendingOf b symbol) := by
  refine .of_length (OneExposure.length_pendingOf_le_one hb symbol) fun o ho => ?_
  obtain ⟨hmem, -, hpending⟩ := OneExposure.mem_pendingOf.mp ho
  exact ⟨hmem, hpending⟩

theorem pending_eq (symbol : String) : PendingOrderGate.pending b.orders symbol =
    (PaperCycle.pendingOf b symbol).filter (·.asOf.isSome) := by
  rw [PaperCycle.pendingOf, List.filter_filter]
  exact List.filter_congr fun o _ => Bool.and_comm _ _

theorem due_pending (hb : b.Sound) (symbol : String) :
    Due b (PendingOrderGate.pending b.orders symbol) := by
  rw [pending_eq]
  refine .of_length ((List.length_filter_le _ _).trans
    (OneExposure.length_pendingOf_le_one hb symbol)) fun o ho => ?_
  obtain ⟨hmem, -, hpending⟩ := OneExposure.mem_pendingOf.mp (List.mem_of_mem_filter ho)
  exact ⟨hmem, hpending⟩

theorem foldlM_one {fillId positionId : String} :
    [order].foldlM (meet fillId positionId bar) b = meet fillId positionId bar b order := by
  rw [List.foldlM_cons]
  cases meet fillId positionId bar b order with
  | error e => rfl
  | ok c => rfl

/-- The write of the runtime draws such ids. -/
theorem filledBy_of_progressPending (hb : b.Sound) {uuid4 : GuardedWrite.Uuid4} {symbol : String}
    {now : Instant} {ids : GuardedWrite.Ids} {save : Bool}
    (h : PaperCycle.progressPending uuid4 symbol bar now ids b = .ok (save, (), c)) :
    FilledBy b (PaperCycle.pendingOf b symbol) bar c := by
  have hfresh := uuid4.fresh b
  refine ⟨(uuid4.draw b).fillId, (uuid4.draw b).positionId, hfresh.fill, hfresh.position, ?_⟩
  have hdue := due_pendingOf hb symbol
  unfold PaperCycle.progressPending at h
  generalize PaperCycle.pendingOf b symbol = due at hdue h ⊢
  cases hloop : due.foldlM (PaperCycle.progressOrder uuid4 bar) b with
  | error e => simp [hloop] at h
  | ok d =>
    simp only [hloop, Except.ok.injEq, Prod.mk.injEq] at h
    obtain ⟨-, -, rfl⟩ := h
    rw [← hloop]
    cases hdue with
    | none => rfl
    | one ho hpending => rfl

/-- So does the gate of a cycle with committed bars. -/
theorem filledBy_of_evaluate (hb : b.Sound) {call : PendingOrderGate.Call} {symbol : String}
    (h : (PendingOrderGate.pending b.orders symbol).foldlM (call.evaluateOrder bar) b = .ok c) :
    FilledBy b (PendingOrderGate.pending b.orders symbol) bar c := by
  have hfresh := call.writer.uuid4.fresh b
  refine ⟨(call.writer.uuid4.draw b).fillId, (call.writer.uuid4.draw b).positionId, hfresh.fill,
    hfresh.position, ?_⟩
  have hdue := due_pending hb symbol
  have hdated : ∀ o ∈ PendingOrderGate.pending b.orders symbol, o.asOf.isSome = true := by
    intro o ho
    rw [pending_eq] at ho
    exact (List.mem_filter.mp ho).2
  generalize PendingOrderGate.pending b.orders symbol = due at hdue hdated h ⊢
  rw [← h]
  cases hdue with
  | none => rfl
  | @one o ho hpending =>
    obtain ⟨asOf, hasOf⟩ := Option.isSome_iff_exists.mp (hdated o List.mem_cons_self)
    have hstep : meet (call.writer.uuid4.draw b).fillId (call.writer.uuid4.draw b).positionId bar b
        o = call.evaluateOrder bar b o := by
      unfold meet PendingOrderGate.Call.evaluateOrder
      rw [hasOf]
    rw [List.foldlM_cons, List.foldlM_cons, hstep]
    rfl

theorem exists_fillIds (b : PaperBroker) :
    ∃ fillId positionId, (∀ f ∈ b.fills, f.fillId ≠ fillId) ∧
      ∀ p ∈ b.account.openPositions, p.positionId ≠ positionId :=
  ⟨GuardedWrite.longerThan (b.fills.rows.map PaperFill.fillId),
    GuardedWrite.longerThan (b.account.openPositions.rows.map PaperPosition.positionId),
    fun _ hf => GuardedWrite.longerThan_fresh _ _ (List.mem_map_of_mem hf),
    fun _ hp => GuardedWrite.longerThan_fresh _ _ (List.mem_map_of_mem hp)⟩

/-- Where no fill is booked the ids do not matter. -/
theorem filledBy_iff {due : List PaperOrder}
    (hloop : ∀ fillId positionId, due.foldlM (meet fillId positionId bar) b = .ok c)
    (d : PaperBroker) : FilledBy b due bar d ↔ d = c := by
  constructor
  · rintro ⟨fillId, positionId, -, -, h⟩
    exact Except.ok.inj (h.symm.trans (hloop fillId positionId))
  · rintro rfl
    obtain ⟨fillId, positionId, hfill, hposition⟩ := exists_fillIds b
    exact ⟨fillId, positionId, hfill, hposition, hloop fillId positionId⟩

/-- The checked write leaves distinct ids. -/
theorem FilledBy.distinct {due : List PaperOrder} (hb : b.Sound) (hdue : Due b due)
    (h : FilledBy b due bar c) : Distinct c := by
  obtain ⟨fillId, positionId, -, hnew, hloop⟩ := h
  have hsame := Distinct.of_sound hb
  cases hdue with
  | none => exact Except.ok.inj hloop ▸ hsame
  | @one o ho hpending =>
    rw [foldlM_one] at hloop
    unfold meet at hloop
    cases hasOf : o.asOf with
    | none => simp [hasOf] at hloop
    | some asOf =>
      simp only [hasOf] at hloop
      split_ifs at hloop with hlate
      · cases hnext : b.processNextBar o bar fillId positionId with
        | error e => simp [hnext, Except.map] at hloop
        | ok result =>
          obtain ⟨e, opened⟩ := result
          simp only [hnext, Except.map, Except.ok.injEq] at hloop
          subst hloop
          rcases PaperBroker.processNextBar_cases hnext with ⟨-, rfl, -⟩ |
            ⟨-, -, at_, reason, rfl | rfl⟩ | ⟨-, multiplier, -, -, -, -, -, rfl⟩
          · exact hsame
          · exact ⟨hsame.positions, hsame.closed⟩
          · exact ⟨hsame.positions, hsame.closed⟩
          · refine ⟨fun p hp q hq hid => ?_, hsame.closed⟩
            rcases Table.mem_put.mp hp with hp | ⟨hp, -⟩
            · rcases Table.mem_put.mp hq with hq | ⟨hq, -⟩
              · exact hp.trans hq.symm
              · exact absurd (hid.symm.trans (congrArg PaperPosition.positionId hp)) (hnew q hq)
            · rcases Table.mem_put.mp hq with hq | ⟨hq, -⟩
              · exact absurd (hid.trans (congrArg PaperPosition.positionId hq)) (hnew p hp)
              · exact hsame.positions p hp q hq hid
      · exact Except.ok.inj hloop ▸ hsame

/-! ## One order -/

/-- A gate that only moves the order. -/
theorem foretells_moved {type : String} {failures : List Problem} {status : OrderStatus}
    {at_ : Option Instant} {details : Json} (h : Records state b) (hjournal : b.journal = [])
    (hfailures : failures = []) (hloop : ∀ fillId positionId,
      [order].foldlM (meet fillId positionId bar) b =
        .ok ((b.setStatus order status).event at_ order.runId order.symbol order.orderId type
          details)) :
    Foretells { state := state.setStatus order status, events := [type], failures := failures }
      (FilledBy b [order] bar) := by
  have hset := h.setStatus order status
  refine foretells_one hfailures rfl ?_ ?_ (filledBy_iff hloop)
  · simp [PaperBroker.event, PaperBroker.setStatus, hjournal]
  · exact ⟨hset.account, hset.positions, hset.closed, hset.orders, hset.fills⟩

/-- A gate that fills the order. -/
theorem foretells_filled {failures : List Problem} (h : Records state b)
    (hjournal : b.journal = []) (hfailures : failures = [])
    (hmultiplier : order.contractMultiplier = some multiplier)
    (hfree : ∀ p ∈ b.account.openPositions, p.symbol ≠ order.symbol)
    (hloop : ∀ fillId positionId, [order].foldlM (meet fillId positionId bar) b =
      .ok (b.fillOrder order multiplier bar fillId positionId).1) :
    Foretells {
      state := state.setStatus order .filled
      events := ["ORDER_FILLED", "POSITION_OPENED"]
      new := { fills := [newFill order bar], positions := [newPosition order bar] }
      failures := failures } (FilledBy b [order] bar) := by
  refine ⟨fun _ _ => hfailures, ?_, fun _ post => ?_⟩
  · rintro c ⟨fillId, positionId, -, -, hgiven⟩
    obtain rfl := Except.ok.inj ((hloop fillId positionId).symm.trans hgiven)
    simp [PaperBroker.fillOrder, PaperBroker.event, PaperBroker.setStatus, hjournal]
  · refine (compare_filled (h.setStatus order .filled) hmultiplier hfree).trans ?_
    constructor
    · rintro ⟨fillId, positionId, hfresh, hnew, hpost⟩
      exact ⟨_, ⟨fillId, positionId, hfresh, hnew, hloop fillId positionId⟩, hpost⟩
    · rintro ⟨c, ⟨fillId, positionId, hfresh, hnew, hgiven⟩, hpost⟩
      obtain rfl := Except.ok.inj ((hloop fillId positionId).symm.trans hgiven)
      exact ⟨fillId, positionId, hfresh, hnew, hpost⟩

/-- An order without a time meets no bar. -/
theorem not_filledBy (hasOf : order.asOf = none) : ¬FilledBy b [order] bar c := by
  rintro ⟨fillId, positionId, -, -, hgiven⟩
  rw [foldlM_one, meet, hasOf] at hgiven
  cases hgiven

/-- A bar that is not after the order leaves it. -/
theorem foretells_waiting {failures : List Problem} {asOf : Instant} (h : Records state b)
    (hjournal : b.journal = []) (hfailures : failures = []) (hasOf : order.asOf = some asOf)
    (hearly : bar.timestamp ≤ asOf) :
    Foretells { state := state, failures := failures } (FilledBy b [order] bar) := by
  refine foretells_one (c := b) hfailures rfl (by rw [hjournal]; rfl) h
    (filledBy_iff fun fillId positionId => ?_)
  rw [foldlM_one, meet, hasOf]
  exact if_neg (not_lt.mpr hearly)

/-- What the gate makes of a later bar. A position it opens is the only one of its symbol. -/
theorem fillGate_foretells {failures : List Problem} {asOf : Instant} (hb : b.Sound)
    (h : Records state b) (hjournal : b.journal = []) (hpolicy : b.rrPolicy = none)
    (hstamp : order.riskPolicyVersion = none) (hfailures : failures = [])
    (horder : order ∈ b.orders) (hpending : order.status = .pending)
    (hasOf : order.asOf = some asOf) (hlate : asOf < bar.timestamp) :
    ∃ step, fillGate state order bar = .ok step ∧
      Foretells {
        state := step.state
        events := step.events
        new := { positions := step.new.positions, fills := step.new.fills }
        failures := failures } (FilledBy b [order] bar) ∧
      (step.new.positions ≠ [] →
        ∃ table, step.state.openBySymbol = .ok table ∧ table.get? order.symbol = none) := by
  have hnextBar : ∀ fillId positionId, [order].foldlM (meet fillId positionId bar) b =
      (b.processNextBar order bar fillId positionId).map (·.1) := by
    intro fillId positionId
    rw [foldlM_one, meet, hasOf]
    exact if_pos hlate
  rcases fillGate_cases bar h.account hpending hpolicy hstamp with
    ⟨status, type, at_, details, hgate, hnext⟩ | ⟨multiplier, hmultiplier, hgate, hnext⟩
  · have hmoved : ∀ fillId positionId, [order].foldlM (meet fillId positionId bar) b =
        .ok ((b.setStatus order status).event at_ order.runId order.symbol order.orderId type
          details) := by
      intro fillId positionId
      rw [hnextBar, hnext]
      rfl
    exact ⟨_, hgate, foretells_moved h hjournal hfailures hmoved, fun hne => absurd rfl hne⟩
  · have hfree : ∀ p ∈ b.account.openPositions, p.symbol ≠ order.symbol := fun p hp =>
      (hb.exposure p hp order horder hpending).symm
    have hfilled : ∀ fillId positionId, [order].foldlM (meet fillId positionId bar) b =
        .ok (b.fillOrder order multiplier bar fillId positionId).1 := by
      intro fillId positionId
      rw [hnextBar, hnext]
      rfl
    obtain ⟨table, htable, hsame⟩ := openBySymbol_of_records (h.setStatus order .filled)
    have hnone : table.get? order.symbol = none := Table.get?_eq_none.mpr fun p hp =>
      hfree p ((hsame p).mp hp)
    exact ⟨_, hgate, foretells_filled h hjournal hfailures hmultiplier hfree hfilled,
      fun _ => ⟨table, htable, hnone⟩⟩

/-! ## The two loops -/

/-- The step of the PENDING order of the symbol. -/
theorem pendingStep_answers (bar : Bar) {symbol : String} {failures : List Problem}
    (hb : b.Sound) (h : Records state b) (hjournal : b.journal = []) (hpolicy : b.rrPolicy = none)
    (hstamp : order.riskPolicyVersion = none) (hfailures : failures = [])
    (horder : order ∈ b.orders) (hsymbol : order.symbol = symbol)
    (hpending : order.status = .pending) :
    Answers (pendingStep symbol bar { state := state, failures := failures } order.orderId)
      (FilledBy b [order] bar) := by
  have hget : state.orders.get? order.orderId = some order :=
    Table.get?_of_mem ((h.orders order).mpr horder)
  unfold pendingStep
  simp only [hget, if_neg (show ¬(order.symbol ≠ symbol ∨ order.status ≠ .pending) by
    simp [hsymbol, hpending])]
  cases hasOf : order.asOf with
  | none => exact fun c => not_filledBy hasOf
  | some asOf =>
    dsimp only
    by_cases hearly : bar.timestamp ≤ asOf
    · rw [if_pos hearly]
      exact foretells_waiting h hjournal hfailures hasOf hearly
    · rw [if_neg hearly]
      obtain ⟨step, hgate, hforetells, hopen⟩ := fillGate_foretells hb h hjournal hpolicy hstamp
        hfailures horder hpending hasOf (not_le.mp hearly)
      rw [hgate]
      by_cases hopened : step.new.positions = []
      · have hempty : ((Table.empty : Table PaperPosition.symbol).get? order.symbol).isNone = true :=
          rfl
        simp only [bind, Except.bind, if_pos hopened, pure, Except.pure, hempty, require, if_true]
        exact hforetells
      · obtain ⟨table, htable, hnone⟩ := hopen hopened
        simp only [bind, Except.bind, if_neg hopened, htable, hnone, pure, Except.pure, require,
          Option.isNone_none, if_true]
        exact hforetells

/-- The step of a PENDING order that the gate has let in. -/
theorem gatedStep_answers (bar : Bar) (hb : b.Sound) (h : Records state b)
    (hjournal : b.journal = []) (hpolicy : b.rrPolicy = none)
    (hstamp : order.riskPolicyVersion = none) (horder : order ∈ b.orders)
    (hpending : order.status = .pending) :
    Answers (gatedStep bar bar.timestamp { state := state } order.orderId)
      (FilledBy b [order] bar) := by
  have hget : state.orders.get? order.orderId = some order :=
    Table.get?_of_mem ((h.orders order).mpr horder)
  unfold gatedStep
  simp only [hget]
  cases hasOf : order.asOf with
  | none => exact fun c => not_filledBy hasOf
  | some asOf =>
    dsimp only
    by_cases hearly : bar.timestamp ≤ asOf
    · rw [if_pos hearly]
      exact foretells_waiting h hjournal rfl hasOf hearly
    · rw [if_neg hearly]
      obtain ⟨step, hgate, hforetells, -⟩ := fillGate_foretells hb h hjournal hpolicy hstamp rfl
        horder hpending hasOf (not_le.mp hearly)
      rw [hgate]
      exact hforetells

/-- A loop over one order answers as its step. -/
theorem answers_one {f : Applied → String → Except String Applied} {applied : Applied}
    {Result : PaperBroker → Prop} (id : String) (h : Answers (f applied id) Result) :
    Answers ([id].foldlM f applied) Result := by
  rw [List.foldlM_cons]
  cases hstep : f applied id with
  | error e =>
    rw [hstep] at h
    exact h
  | ok next =>
    rw [hstep] at h
    exact h

/-- `fill_gate` over the noted orders is the loop of the runtime. -/
theorem applyPending_answers {symbol : String} (hb : b.Sound) (h : Records state b)
    (hjournal : b.journal = []) (hpolicy : b.rrPolicy = none)
    (hstamps : ∀ o ∈ b.orders, o.riskPolicyVersion = none) :
    Answers (applyPending symbol bar (ordersNote b symbol) state)
      (FilledBy b (PaperCycle.pendingOf b symbol) bar) := by
  have hfailures : demand (decide ((encodeAccount b.account).equity = b.account.equity))
      "ST7_CURRENT_EQUITY" = [] := demand_eq_nil.mpr (decide_eq_true rfl)
  have hdue := due_pendingOf hb symbol
  have hsymbols : ∀ o ∈ PaperCycle.pendingOf b symbol, o.symbol = symbol := fun o ho =>
    (OneExposure.mem_pendingOf.mp ho).2.1
  unfold applyPending ordersNote
  rw [h.account]
  dsimp only
  generalize PaperCycle.pendingOf b symbol = due at hdue hsymbols ⊢
  cases hdue with
  | none =>
    exact foretells_one (c := b) hfailures rfl (by rw [hjournal]; rfl) h
      (filledBy_iff fun _ _ => rfl)
  | one ho hpending =>
    exact answers_one _ (pendingStep_answers bar hb h hjournal hpolicy (hstamps _ ho) hfailures ho
      (hsymbols _ List.mem_cons_self) hpending)

/-- So is the loop of the gated write over the orders it has noted. -/
theorem applyGated_answers {due : List PaperOrder} (hb : b.Sound) (h : Records state b)
    (hjournal : b.journal = []) (hpolicy : b.rrPolicy = none)
    (hstamps : ∀ o ∈ b.orders, o.riskPolicyVersion = none) (hdue : Due b due) :
    Answers (applyGated bar bar.timestamp (due.map PaperOrder.orderId) state)
      (FilledBy b due bar) := by
  cases hdue with
  | none =>
    exact foretells_one (c := b) rfl rfl (by rw [hjournal]; rfl) h (filledBy_iff fun _ _ => rfl)
  | one ho hpending =>
    exact answers_one _ (gatedStep_answers bar hb h hjournal hpolicy (hstamps _ ho) ho hpending)

end FillGate

end MarketSystem.RexOracle
