import MarketSystem.Execution.PendingOrderGate

/-!
# The evaluation of PENDING orders

An order that is handed to the broker with a bar leaves PENDING in that call: it is filled,
rejected or cancelled. The fill gate of fixed 3R divides by the planned money risk, and an
order whose planned entry is its stop has none: the call then raises and the order stays.
-/
namespace MarketSystem

open Library RrContract

namespace PaperBroker

/-- The evaluation that divides by a planned money risk of zero. -/
structure DividesByZero (b : PaperBroker) (order : PaperOrder) (bar : Bar) : Prop where
  planned : order.plannedEntry = order.stop
  quantity : 0 < order.quantity
  contract : ∃ multiplier, order.contractMultiplier = some multiplier ∧ 0 < multiplier
  asOf : ∃ asOf, order.asOf = some asOf ∧ asOf < bar.timestamp
  valid : bar.symbol = order.symbol ∧ bar.isClosed = true ∧ bar.validOhlc = true
  rules : ∃ riskPolicy, b.fillRules order = .rules (some .v2F3) riskPolicy
  levels : ∃ actual, geometry order.side bar.open_ order.stop order.target = .ok actual ∧
    classify actual.rr (fillLimits .v2F3) = .withinPolicy
  equities : validEquities order b.account.equity = true

section Order

variable {b : PaperBroker} {order : PaperOrder} {bar : Bar}

/-- The rules of fixed 3R always name their risk policy. -/
theorem riskPolicy_of_fixed {riskPolicy : Option RiskPolicy}
    (h : b.fillRules order = .rules (some .v2F3) riskPolicy) : ∃ p, riskPolicy = some p := by
  unfold fillRules at h
  cases hs : order.riskPolicyVersion with
  | some stamped =>
    cases hp : registeredRiskPolicy (some stamped) with
    | none => simp only [hs, hp] at h; cases h
    | some p =>
      simp only [hs, hp, FillRules.rules.injEq] at h
      exact ⟨p, h.2.symm⟩
  | none =>
    simp only [hs] at h
    split_ifs at h with hb
    · simp only [FillRules.rules.injEq] at h
      exact ⟨_, h.2.symm⟩
    · simp only [FillRules.rules.injEq] at h
      exact absurd h.1 hb

theorem fillMoneyCheck_eq {actual : Geometry} {riskPolicy : RiskPolicy} {multiplier : ℚ}
    (hcontract : order.contractMultiplier = some multiplier) (hm : 0 < multiplier)
    (hstop : 0 < order.stop) (e : String) :
    fillMoneyCheck order (some actual) riskPolicy = .error e ↔
      e = "ZeroDivisionError" ∧ order.plannedEntry = order.stop ∧ 0 < order.quantity := by
  have hmultiplier : order.contractMultiplier.bind toDecimal = some multiplier := by
    rw [hcontract]
    exact toDecimal_of_pos hm
  unfold fillMoneyCheck
  rw [hmultiplier, toDecimal_of_pos hstop]
  by_cases hentry : 0 < order.plannedEntry
  swap
  · have hnone : toDecimal order.plannedEntry = none := by simp [toDecimal, hentry]
    rw [hnone]
    constructor
    · intro h
      cases h
    · rintro ⟨-, he, -⟩
      exact absurd (he ▸ hstop) hentry
  by_cases hq : 0 < order.quantity
  swap
  · have hnone : toDecimal order.quantity = none := by simp [toDecimal, hq]
    rw [toDecimal_of_pos hentry, hnone]
    constructor
    · intro h
      cases h
    · exact fun h => absurd h.2.2 hq
  rw [toDecimal_of_pos hentry, toDecimal_of_pos hq]
  dsimp only
  by_cases hzero : order.plannedEntry = order.stop
  · rw [if_pos (by rw [hzero]; simp)]
    simp only [Except.error.injEq, hzero, hq, and_true]
    exact eq_comm
  · have hplanned : |order.plannedEntry - order.stop| * order.quantity * multiplier ≠ 0 :=
      mul_ne_zero (mul_ne_zero (abs_ne_zero.mpr (sub_ne_zero.mpr hzero)) hq.ne') hm.ne'
    rw [if_neg hplanned]
    constructor
    · intro h
      split_ifs at h
    · exact fun h => absurd h.2.1 hzero

/-- The fill gate raises only by that division. -/
theorem fillReason_error {multiplier : ℚ} (hcontract : order.contractMultiplier = some multiplier)
    (hm : 0 < multiplier) (fillPrice : ℚ) :
    (∃ e, b.fillReason order fillPrice multiplier = .error e) ↔
      order.plannedEntry = order.stop ∧ 0 < order.quantity ∧
      (∃ riskPolicy, b.fillRules order = .rules (some .v2F3) riskPolicy) ∧
      (∃ actual, geometry order.side fillPrice order.stop order.target = .ok actual ∧
        classify actual.rr (fillLimits .v2F3) = .withinPolicy) ∧
      validEquities order b.account.equity = true := by
  unfold fillReason
  cases hrules : b.fillRules order with
  | unknownPolicy => simp
  | rules policy riskPolicy =>
    cases policy with
    | none =>
      constructor
      · rintro ⟨e, h⟩
        dsimp only at h
        split_ifs at h
      · rintro ⟨-, -, ⟨p, hp⟩, -⟩
        cases hp
    | some policy =>
      cases hg : geometry order.side fillPrice order.stop order.target with
      | error e => simp [fillCheck, hg]
      | ok actual =>
        by_cases hc : classify actual.rr (fillLimits policy) = .withinPolicy
        swap
        · constructor
          · rintro ⟨e, h⟩
            simp [fillCheck, hg, hc] at h
          · rintro ⟨-, -, ⟨p, hp⟩, ⟨actual', ha, hc'⟩, -⟩
            simp only [FillRules.rules.injEq, Option.some.injEq] at hp
            cases ha
            rw [hp.1] at hc
            exact absurd hc' hc
        simp only [fillCheck, hg, hc, ne_eq, not_true_eq_false, if_false]
        cases hv : validEquities order b.account.equity with
        | false => simp
        | true =>
          by_cases hpolicy : policy = .v2F3
          swap
          · simp only [Bool.not_true, Bool.false_eq_true, if_false, if_neg hpolicy]
            constructor
            · rintro ⟨e, h⟩
              split_ifs at h
            · rintro ⟨-, -, ⟨p, hp⟩, -⟩
              simp only [FillRules.rules.injEq, Option.some.injEq] at hp
              exact absurd hp.1 hpolicy
          subst hpolicy
          obtain ⟨p, rfl⟩ := riskPolicy_of_fixed hrules
          have hstop : 0 < order.stop := (geometry_ok hg).2.2.1 ▸ actual.stop_pos
          simp only [Bool.not_true, Bool.false_eq_true, if_false, if_true,
            fillMoneyCheck_eq hcontract hm hstop]
          constructor
          · rintro ⟨e, -, he, hq⟩
            exact ⟨he, hq, ⟨_, rfl⟩, ⟨actual, rfl, hc⟩, trivial⟩
          · rintro ⟨he, hq, -⟩
            exact ⟨_, rfl, he, hq⟩

/-- `process_next_bar` raises on a PENDING order exactly by the division. -/
theorem processNextBar_error (hpending : order.status = .pending) (fillId positionId : String) :
    (∃ e, b.processNextBar order bar fillId positionId = .error e) ↔ b.DividesByZero order bar := by
  unfold processNextBar
  simp only [hpending, ne_eq, not_true_eq_false, if_false]
  cases hm : order.contractMultiplier with
  | none =>
    constructor
    · rintro ⟨e, h⟩
      cases h
    · intro h
      obtain ⟨m, hm', -⟩ := h.contract
      rw [hm] at hm'
      cases hm'
  | some multiplier =>
    by_cases hv : valid multiplier = true
    swap
    · simp only [Bool.not_eq_true] at hv
      simp only [hv, Bool.not_false, if_true]
      constructor
      · rintro ⟨e, h⟩
        cases h
      · intro h
        obtain ⟨m, hm', hpos⟩ := h.contract
        rw [hm] at hm'
        cases hm'
        rw [valid_eq_true.mpr hpos] at hv
        cases hv
    simp only [hv, Bool.not_true, Bool.false_eq_true, if_false]
    cases ha : order.asOf with
    | none =>
      constructor
      · rintro ⟨e, h⟩
        cases h
      · intro h
        obtain ⟨t, ht, -⟩ := h.asOf
        rw [ha] at ht
        cases ht
    | some asOf =>
      dsimp only
      by_cases hbar : bar.symbol = order.symbol ∧ bar.isClosed = true ∧ bar.validOhlc = true
      swap
      · rw [if_pos (by simpa [Classical.or_iff_not_imp_left] using hbar)]
        constructor
        · rintro ⟨e, h⟩
          cases h
        · exact fun h => absurd h.valid hbar
      rw [if_neg (by simp [hbar.1, hbar.2.1, hbar.2.2])]
      by_cases hlater : bar.timestamp ≤ asOf
      · rw [if_pos hlater]
        constructor
        · rintro ⟨e, h⟩
          cases h
        · intro h
          obtain ⟨t, ht, hlt⟩ := h.asOf
          rw [ha] at ht
          cases ht
          exact absurd hlater (not_le.mpr hlt)
      rw [if_neg hlater]
      have herror := fillReason_error (b := b) hm (valid_eq_true.mp hv) bar.open_
      cases hr : b.fillReason order bar.open_ multiplier with
      | error e =>
        obtain ⟨he, hq, hrules, hlevels, hequities⟩ := herror.mp ⟨e, hr⟩
        exact ⟨fun _ => ⟨he, hq, ⟨_, hm, valid_eq_true.mp hv⟩, ⟨asOf, ha, not_le.mp hlater⟩, hbar,
          hrules, hlevels, hequities⟩, fun _ => ⟨e, rfl⟩⟩
      | ok reason =>
        constructor
        · rintro ⟨e, h⟩
          cases reason <;> cases h
        · intro h
          obtain ⟨e, he⟩ := herror.mpr ⟨h.planned, h.quantity, h.rules, h.levels, h.equities⟩
          rw [hr] at he
          cases he

/-- The order as a call that does not raise leaves it: settled, and alone changed. -/
theorem processNextBar_settles (hpending : order.status = .pending) {fillId positionId : String}
    {b' : PaperBroker} {opened : Option PaperPosition}
    (h : b.processNextBar order bar fillId positionId = .ok (b', opened)) :
    ∃ status, status ≠ .pending ∧ b'.orders = b.orders.put { order with status := status } := by
  rcases processNextBar_cases h with ⟨hne, -⟩ | ⟨-, -, at_, reason, rfl | rfl⟩ |
    ⟨-, multiplier, -, -, -, -, -, rfl⟩
  · exact absurd hpending hne
  · exact ⟨.rejected, by decide, rfl⟩
  · exact ⟨.cancelled, by decide, rfl⟩
  · exact ⟨.filled, by decide, rfl⟩

/-- The events of an evaluation are those of an order or of a fill. -/
theorem processNextBar_journal {fillId positionId : String} {b' : PaperBroker}
    {opened : Option PaperPosition}
    (h : b.processNextBar order bar fillId positionId = .ok (b', opened)) :
    ∀ e ∈ b'.journal, e ∈ b.journal ∨ e.eventType ∈
      ["ORDER_REJECTED", "ORDER_CANCELLED", "ORDER_FILLED", "POSITION_OPENED"] := by
  rcases processNextBar_cases h with ⟨-, rfl, -⟩ | ⟨-, -, at_, reason, rfl | rfl⟩ |
    ⟨-, multiplier, -, -, -, -, -, rfl⟩
  · exact fun e he => .inl he
  · intro e he
    rcases List.mem_append.mp he with he | he
    · exact .inl he
    · rw [List.mem_singleton.mp he]
      exact .inr (by simp)
  · intro e he
    rcases List.mem_append.mp he with he | he
    · exact .inl he
    · rw [List.mem_singleton.mp he]
      exact .inr (by simp)
  · intro e he
    rcases List.mem_append.mp he with he | he
    · rcases List.mem_append.mp he with he | he
      · exact .inl he
      · rw [List.mem_singleton.mp he]
        exact .inr (by simp)
    · rw [List.mem_singleton.mp he]
      exact .inr (by simp)

end Order

end PaperBroker

/-! ## The loop of the gate -/

namespace PendingOrderGate

/-- The order was submitted before the bar. -/
def Before (order : PaperOrder) (bar : Bar) : Prop :=
  ∃ asOf, order.asOf = some asOf ∧ asOf < bar.timestamp

/-- The row is what `process_next_bar` made of a PENDING order on a bar. -/
def SettledBy (bar : Bar) (order settled : PaperOrder) : Prop :=
  ∃ (b b' : PaperBroker) (fillId positionId : String) (opened : Option PaperPosition),
    order ∈ b.orders ∧ b.processNextBar order bar fillId positionId = .ok (b', opened) ∧
      settled ∈ b'.orders ∧ settled.orderId = order.orderId ∧ settled.status ≠ .pending

/-- What the loop over the due orders does to a broker: each order that was submitted before
the bar is settled by it, and no other order is touched. -/
structure Evaluated (bar : Bar) (due : List PaperOrder) (b b' : PaperBroker) : Prop where
  settled : ∀ o ∈ due, Before o bar → ∃ o' ∈ b'.orders, SettledBy bar o o'
  kept : ∀ o ∈ b.orders, ¬(o ∈ due ∧ Before o bar) → o ∈ b'.orders
  pending : ∀ o ∈ b'.orders, o.status = .pending → o ∈ b.orders
  journal : ∀ e ∈ b'.journal, e ∈ b.journal ∨ e.eventType ≠ notEvaluatedEvent

/-- An order that was not submitted before the bar is passed over. -/
theorem evaluateOrder_eq (c : Call) (bar : Bar) (b : PaperBroker) (o : PaperOrder) :
    (¬Before o bar ∧ c.evaluateOrder bar b o = .ok b) ∨
    (Before o bar ∧ c.evaluateOrder bar b o =
      (b.processNextBar o bar (c.writer.uuid4.draw b).fillId
        (c.writer.uuid4.draw b).positionId).map (·.1)) := by
  unfold Call.evaluateOrder Before
  cases ha : o.asOf with
  | none => simp
  | some asOf =>
    by_cases hlt : asOf < bar.timestamp
    · simp [hlt]
    · simp [hlt]

theorem evaluated {c : Call} {bar : Bar} {due : List PaperOrder} {b b' : PaperBroker}
    (hids : (due.map (·.orderId)).Nodup) (hdue : ∀ o ∈ due, o ∈ b.orders ∧ o.status = .pending)
    (h : due.foldlM (c.evaluateOrder bar) b = .ok b') : Evaluated bar due b b' := by
  induction due generalizing b with
  | nil =>
    cases h
    exact ⟨by simp, fun o ho _ => ho, fun o ho _ => ho, fun e he => .inl he⟩
  | cons o due ih =>
    rw [List.map_cons, List.nodup_cons] at hids
    obtain ⟨ho, hpending⟩ := hdue o List.mem_cons_self
    have hrest := fun r hr => hdue r (List.mem_cons_of_mem o hr)
    rw [List.foldlM_cons] at h
    rcases evaluateOrder_eq c bar b o with ⟨hnot, heq⟩ | ⟨hbefore, heq⟩
    · rw [heq] at h
      have hnext := ih hids.2 hrest h
      refine ⟨?_, ?_, hnext.pending, hnext.journal⟩
      · intro r hr hb
        rcases List.mem_cons.mp hr with rfl | hr
        · exact absurd hb hnot
        · exact hnext.settled r hr hb
      · exact fun r hr hn => hnext.kept r hr
          (fun hd => hn ⟨List.mem_cons_of_mem o hd.1, hd.2⟩)
    · rw [heq] at h
      generalize hfill : (c.writer.uuid4.draw b).fillId = fillId at h
      generalize hposition : (c.writer.uuid4.draw b).positionId = positionId at h
      cases hp : b.processNextBar o bar fillId positionId with
      | error e =>
        rw [hp] at h
        cases h
      | ok found =>
        obtain ⟨b₁, opened⟩ := found
        rw [hp] at h
        obtain ⟨status, hstatus, horders⟩ := PaperBroker.processNextBar_settles hpending hp
        have hmem : ∀ r, r ∈ b₁.orders ↔
            r = { o with status := status } ∨ (r ∈ b.orders ∧ r.orderId ≠ o.orderId) := by
          intro r
          rw [horders]
          exact Table.mem_put
        have hstay : ∀ r ∈ due, r ∈ b₁.orders ∧ r.status = .pending := by
          intro r hr
          obtain ⟨hrb, hrp⟩ := hrest r hr
          refine ⟨(hmem r).mpr (.inr ⟨hrb, fun he => hids.1 ?_⟩), hrp⟩
          exact List.mem_map.mpr ⟨r, hr, he⟩
        have hnext := ih hids.2 hstay h
        have hnew : { o with status := status } ∈ b₁.orders := (hmem _).mpr (.inl rfl)
        have hnewKept : { o with status := status } ∈ b'.orders :=
          hnext.kept _ hnew (fun hd => hstatus (hstay _ hd.1).2)
        refine ⟨?_, ?_, ?_, ?_⟩
        · intro r hr hb
          rcases List.mem_cons.mp hr with rfl | hr
          · exact ⟨_, hnewKept, b, b₁, _, _, opened, ho, hp, hnew, rfl, hstatus⟩
          · exact hnext.settled r hr hb
        · intro r hr hn
          have hne : r.orderId ≠ o.orderId := fun he => by
            obtain rfl := Table.eq_of_key hr ho he
            exact hn ⟨List.mem_cons_self, hbefore⟩
          exact hnext.kept r ((hmem r).mpr (.inr ⟨hr, hne⟩))
            (fun hd => hn ⟨List.mem_cons_of_mem o hd.1, hd.2⟩)
        · intro r hr hrp
          rcases (hmem r).mp (hnext.pending r hr hrp) with rfl | ⟨hr, -⟩
          · exact absurd hrp hstatus
          · exact hr
        · intro e he
          rcases hnext.journal e he with he | he
          · rcases PaperBroker.processNextBar_journal hp e he with he | he
            · exact .inl he
            · refine .inr (fun hne => ?_)
              rw [hne] at he
              revert he
              decide
          · exact .inr he

end PendingOrderGate

end MarketSystem
