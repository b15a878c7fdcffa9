import MarketSystem.Execution.RiskEngine

/-!
# Risk reservation

The reservation of money risk is the PENDING order itself. Preparing one
evaluates the risk engine on a loaded portfolio and, on approval, builds the
order with the unchanged broker and stamps it with the policy version, which is
what lets any later evaluation prove the worst fill of the order.
-/
namespace MarketSystem

open Library RrContract RiskEngine

/-- What a load of the PAPER tables returns for an existing account. -/
structure Portfolio where
  account : PaperAccount
  orders : Orders := Table.empty
  fills : Fills := Table.empty
  deriving DecidableEq

namespace PaperBroker

/-- The part of a broker that a save persists. -/
def portfolio (b : PaperBroker) : Portfolio := ⟨b.account, b.orders, b.fills⟩

@[simp] theorem portfolio_event (b : PaperBroker) (t : Option Instant) (r s i e : String)
    (d : Json) : (b.event t r s i e d).portfolio = b.portfolio := rfl

end PaperBroker

/-- A broker over a loaded portfolio. -/
def Portfolio.broker (p : Portfolio) (instrument : Option Instrument) (rrPolicy : Option Policy) :
    PaperBroker :=
  { account := p.account
    instrument := instrument
    rrPolicy := rrPolicy
    orders := p.orders
    fills := p.fills }

@[simp] theorem Portfolio.portfolio_broker (p : Portfolio) (i : Option Instrument)
    (r : Option Policy) : (p.broker i r).portfolio = p := rfl

@[simp] theorem Portfolio.broker_account (p : Portfolio) (i : Option Instrument)
    (r : Option Policy) : (p.broker i r).account = p.account := rfl

@[simp] theorem Portfolio.broker_orders (p : Portfolio) (i : Option Instrument)
    (r : Option Policy) : (p.broker i r).orders = p.orders := rfl

@[simp] theorem Portfolio.broker_fills (p : Portfolio) (i : Option Instrument)
    (r : Option Policy) : (p.broker i r).fills = p.fills := rfl

namespace RiskReservation

/-- The parameters of one submission that do not come from the store. -/
structure Request where
  report : FloorReport
  plan : TradePlan
  instrument : Option Instrument
  asOf : Instant
  setupId : Option String
  policy : RiskPolicy
  stampSetupId : Bool
  drawdownBasis : Option DrawdownBasis
  /-- Drawn by `uuid4` when the order is built. -/
  orderId : String

inductive Prepared
  | rejected (reason : String) (record journalRecord : RiskRecord)
  | approved (broker : PaperBroker) (order : PaperOrder) (record : RiskRecord)

/-- The durable identity written into a fresh order. -/
def stampOrder (request : Request) (order : PaperOrder) : PaperOrder :=
  { order with
    riskPolicyVersion := some request.policy.version
    setupId := if request.stampSetupId then request.setupId else order.setupId }

/-- `prepare_reservation`: evaluation and order construction before any write. -/
def prepareReservation (request : Request) (p : Portfolio) : Prepared :=
  let result := evaluate request.plan (some p.account) p.orders request.instrument request.policy
    request.setupId request.drawdownBasis
  if result.decision.status ≠ .approved then
    .rejected result.decision.reason result.record result.record
  else
    let broker := p.broker request.instrument (some request.policy.rrPolicy)
    let report := { request.report with riskDecision := some result.decision }
    match broker.submitPlan report request.asOf request.orderId with
    | (_, none) =>
        .rejected "broker_refused_submission" result.record
          { result.record with
            riskStatus := "REJECTED", riskReason := some "broker_refused_submission" }
    | (broker, some order) =>
        let order := stampOrder request order
        let record := { result.record with orderId := some order.orderId }
        let broker := { broker with orders := broker.orders.put order }
        .approved (broker.event (some request.asOf) order.runId order.symbol order.orderId
          "RISK_V2_DECISION" record.asJson) order record

inductive Outcome
  | notSubmitted (reason : String)
  | duplicateRun (order : PaperOrder)
  | rejected (reason : String)
  | reserved (order : PaperOrder)

/-- One attempt of `reserve_and_submit` on the portfolio it loaded: an existing
order of the run is returned as it is, and an approval is saved in one guarded
write, so it takes effect on exactly this portfolio. -/
def reserveAttempt (request : Request) (p : Portfolio) : Outcome × Portfolio :=
  if !stampsRegisteredSemantics request.policy then (.notSubmitted "RISK_POLICY_NOT_REGISTERED", p)
  else if request.report.tradePlan ≠ some request.plan
      ∨ request.plan.policyVersion ≠ some request.policy.rrPolicy
      ∨ request.report.finalStatus ≠ "PLAN_READY" then
    (.notSubmitted "not_a_fixed_3r_plan_ready_report", p)
  else match PaperBroker.runOrder p.orders request.report.runId with
    | some existing => (.duplicateRun existing, p)
    | none =>
        match prepareReservation request p with
        | .rejected reason _ _ => (.rejected reason, p)
        | .approved broker order _ => (.reserved order, broker.portfolio)

/-! ## What an approval builds -/

/-- The order an approval writes for a run that had none. -/
def reservedOrder (request : Request) (p : Portfolio) (quantity multiplier : ℚ)
    (planAsOf : Instant) : PaperOrder :=
  { orderId := request.orderId
    runId := request.report.runId
    symbol := request.report.symbol
    side := request.plan.side
    quantity := quantity
    plannedEntry := request.plan.entry
    stop := request.plan.stop
    target := request.plan.target
    contractMultiplier := some multiplier
    equityAtSubmission := some p.account.equity
    asOf := some planAsOf
    riskPolicyVersion := some request.policy.version
    setupId := if request.stampSetupId then request.setupId else none }

end RiskReservation

namespace PaperBroker

theorem submittable_eq_some {report : FloorReport} {plan : TradePlan} {decision : RiskDecision}
    {planAsOf : Instant} (h : submittable report = some (plan, decision, planAsOf)) :
    report.tradePlan = some plan ∧ report.riskDecision = some decision ∧
      decision.symbol = report.symbol ∧ decision.side = plan.side ∧
      plan.asOf = some planAsOf := by
  unfold submittable at h
  split_ifs at h with hready
  cases hp : report.tradePlan with
  | none => simp [hp] at h
  | some plan' =>
    cases hd : report.riskDecision with
    | none => simp [hp, hd] at h
    | some decision' =>
      simp only [hp, hd] at h
      split_ifs at h with hguard
      simp only [Option.map_eq_some_iff, Prod.mk.injEq] at h
      obtain ⟨t, ht, rfl, rfl, rfl⟩ := h
      exact ⟨rfl, rfl, hguard.2.2.1, hguard.2.2.2, ht⟩

theorem admissible_eq_some {b : PaperBroker} {report : FloorReport} {decision : RiskDecision}
    {quantity multiplier : ℚ} (h : b.admissible report decision = some (quantity, multiplier)) :
    decision.quantity = some quantity ∧ 0 < quantity ∧ 0 < multiplier ∧
      ∃ i, b.instrument = some i ∧ i.contractMultiplier = some multiplier := by
  unfold admissible at h
  cases hq : decision.quantity with
  | none => simp [hq] at h
  | some q =>
    cases hi : b.instrument with
    | none => simp [hq, hi] at h
    | some i =>
      cases hm : i.contractMultiplier with
      | none => simp [hq, hi, hm] at h
      | some m =>
        simp only [hq, hi, hm] at h
        split_ifs at h with hguard
        simp only [Option.some.injEq, Prod.mk.injEq] at h
        obtain ⟨rfl, rfl⟩ := h
        exact ⟨rfl, hguard.1, hguard.2.2.2.2.1, i, rfl, hm⟩

/-- A submission that returns an order for a run without one has just built it. -/
theorem submitPlan_eq_some {b b' : PaperBroker} {report : FloorReport} {asOf : Instant}
    {orderId : String} {order : PaperOrder} (hrun : runOrder b.orders report.runId = none)
    (h : b.submitPlan report asOf orderId = (b', some order)) :
    ∃ plan decision planAsOf quantity multiplier,
      submittable report = some (plan, decision, planAsOf) ∧
      b.admissible report decision = some (quantity, multiplier) ∧
      order = { orderId := orderId
                runId := report.runId
                symbol := report.symbol
                side := decision.side
                quantity := quantity
                plannedEntry := decision.entry
                stop := decision.stop
                target := decision.target
                contractMultiplier := some multiplier
                equityAtSubmission := some b.account.equity
                asOf := some planAsOf } ∧
      b'.portfolio = ⟨b.account, b.orders.put order, b.fills⟩ := by
  unfold submitPlan at h
  cases hs : submittable report with
  | none => simp [hs] at h
  | some found =>
    obtain ⟨plan, decision, planAsOf⟩ := found
    cases ha : b.admissible report decision with
    | none => simp [hs, hrun, ha] at h
    | some numbers =>
      obtain ⟨quantity, multiplier⟩ := numbers
      simp only [hs, hrun, ha, Prod.mk.injEq, Option.some.injEq] at h
      obtain ⟨rfl, rfl⟩ := h
      exact ⟨plan, decision, planAsOf, quantity, multiplier, rfl, ha, rfl, rfl⟩

end PaperBroker

namespace RiskReservation

/-- Overwriting a row twice keeps the second write: the stamp replaces the order
`submit_plan` had just stored. -/
theorem put_put_mem {t : Orders} {o o' s : PaperOrder} (hk : o.orderId = o'.orderId) :
    s ∈ (t.put o).put o' ↔ s ∈ t.put o' := by
  simp only [Table.mem_put, hk]
  constructor
  · rintro (h | ⟨h | h, hne⟩)
    · exact .inl h
    · exact absurd (h ▸ hk) hne
    · exact .inr h
  · rintro (h | h)
    · exact .inl h
    · exact .inr ⟨.inr h, h.2⟩

/-- The whole effect of an approved preparation on a run without an order. -/
theorem prepareReservation_approved {request : Request} {p : Portfolio} {broker : PaperBroker}
    {order : PaperOrder} {record : RiskRecord}
    (hplan : request.report.tradePlan = some request.plan)
    (hrun : PaperBroker.runOrder p.orders request.report.runId = none)
    (h : prepareReservation request p = .approved broker order record) :
    ∃ planAsOf quantity multiplier, ∃ approval : Approval request.plan p.account p.orders
        request.instrument request.policy
        (evaluate request.plan (some p.account) p.orders request.instrument request.policy
          request.setupId request.drawdownBasis).decision,
      order = reservedOrder request p quantity multiplier planAsOf ∧
      quantity = (sizing request.policy (conservativeEquity p.account) approval.shape
        approval.multiplier approval.increment).quantity ∧
      multiplier = approval.multiplier ∧ 0 < multiplier ∧
      request.report.symbol = request.plan.symbol ∧
      broker.account = p.account ∧ broker.fills = p.fills ∧
      ∀ o, o ∈ broker.orders ↔ o ∈ p.orders.put order := by
  unfold prepareReservation at h
  dsimp only at h
  by_cases hs : (evaluate request.plan (some p.account) p.orders request.instrument request.policy
      request.setupId request.drawdownBasis).decision.status = .approved
  · simp only [hs, ne_eq, not_true_eq_false, if_false] at h
    obtain ⟨a, ha, ⟨approval⟩⟩ := approval_of_approved hs
    cases ha
    generalize hsub : PaperBroker.submitPlan _ _ _ _ = submitted at h
    obtain ⟨b', order'⟩ := submitted
    cases order' with
    | none => cases h
    | some built =>
      simp only [Prepared.approved.injEq] at h
      obtain ⟨rfl, rfl, -⟩ := h
      obtain ⟨plan', decision', planAsOf, quantity, multiplier, hsubm, hadm, rfl, hport⟩ :=
        PaperBroker.submitPlan_eq_some hrun hsub
      obtain ⟨hp, hd, hsym, hside, hasof⟩ := PaperBroker.submittable_eq_some hsubm
      obtain ⟨hq, hqpos, hmpos, i, hi, him⟩ := PaperBroker.admissible_eq_some hadm
      simp only at hp hd hsym
      rw [hplan] at hp
      cases hp
      cases hd
      have hdec := approval.decision_eq
      have hmul : multiplier = approval.multiplier := by
        obtain ⟨i', hi', him', -⟩ := instrumentContract_eq_some approval.contract
        have hii : some i = some i' := hi.symm.trans hi'
        rw [Option.some.inj hii, him'] at him
        exact (Option.some.inj him).symm
      refine ⟨planAsOf, quantity, multiplier, approval, ?_, ?_, hmul, hmpos, ?_, ?_, ?_, ?_⟩
      · simp only [hdec, stampOrder, reservedOrder, Portfolio.broker]
      · rw [hdec] at hq
        simpa using hq.symm
      · rw [← hsym, hdec]
      · exact congrArg Portfolio.account hport
      · exact congrArg Portfolio.fills hport
      · intro o
        have ho : b'.orders = _ := congrArg Portfolio.orders hport
        simp only [PaperBroker.event_orders, ho]
        exact put_put_mem rfl
  · simp [hs] at h

end RiskReservation

end MarketSystem
