import MarketSystem.Execution.ConflictEngine
import MarketSystem.Storage.PaperStore

/-!
# Equal PAPER states decide equally

Conflict classification and risk evaluation read dictionaries whose order is that
of the rows in the database. Approval does not depend on it: two brokers with the
same comparison value are approved or refused together.
-/
namespace MarketSystem

open Library Database RiskEngine RiskReservation

namespace RiskEngine

theorem addPosition_swap {symbol : String} (e : Exposure) (p q : PaperPosition) (c d : Exposure)
    (hc : addPosition symbol e p = some c) (hd : addPosition symbol c q = some d) :
    ∃ c', addPosition symbol e q = some c' ∧ addPosition symbol c' p = some d := by
  unfold addPosition at hc hd ⊢
  cases hp : positionRisk p with
  | none => simp [hp] at hc
  | some x =>
    cases hq : positionRisk q with
    | none => simp [hq] at hd
    | some y =>
      simp only [hp, Option.some.injEq] at hc
      subst hc
      simp only [hq, Option.some.injEq] at hd
      subst hd
      refine ⟨_, rfl, ?_⟩
      simp only [Option.some.injEq, Exposure.mk.injEq]
      refine ⟨by ring, trivial, ?_, ?_, trivial⟩
      · split_ifs <;> ring
      · split_ifs <;> rfl

theorem addOrder_known {symbol : String} (e : Exposure) (o : PaperOrder) (c : Exposure)
    (hc : addOrder symbol e o = some c) (h : c.unknown = []) : e.unknown = [] := by
  unfold addOrder at hc
  by_cases hs : o.status ≠ .pending
  · rw [if_pos hs, Option.some.injEq] at hc
    subst hc
    exact h
  · rw [if_neg hs] at hc
    cases hi : pendingReservation o with
    | none => simp [hi] at hc
    | some item =>
      cases hr : item.reserved with
      | none =>
        simp only [hi, hr, Option.some.injEq] at hc
        subst hc
        simp at h
      | some reserved =>
        simp only [hi, hr, Option.some.injEq] at hc
        subst hc
        exact h

/-- An order of a known policy adds its reservation. -/
theorem addOrder_eq {symbol : String} (e : Exposure) (o : PaperOrder) (c : Exposure)
    (hc : addOrder symbol e o = some c) (h : c.unknown = []) :
    ∃ reserved symbolReserved count, ∀ e', addOrder symbol e' o = some
      ⟨e'.openRisk, e'.pendingReserved + reserved, e'.symbolRisk + symbolReserved,
        e'.symbolCount + count, e'.unknown⟩ := by
  unfold addOrder at hc ⊢
  by_cases hs : o.status ≠ .pending
  · exact ⟨0, 0, 0, fun e' => by simp [hs]⟩
  · rw [if_neg hs] at hc
    simp only [hs, if_false]
    cases hi : pendingReservation o with
    | none => simp [hi] at hc
    | some item =>
      cases hr : item.reserved with
      | none =>
        simp only [hi, hr, Option.some.injEq] at hc
        subst hc
        simp at h
      | some reserved =>
        refine ⟨reserved, if o.symbol = symbol then reserved else 0,
          if o.symbol = symbol then 1 else 0, fun e' => ?_⟩
        simp only [hr]
        split_ifs <;> simp

theorem addOrder_swap {symbol : String} (e : Exposure) (o r : PaperOrder) (c d : Exposure)
    (hc : addOrder symbol e o = some c) (hd : addOrder symbol c r = some d)
    (h : d.unknown = []) :
    ∃ c', addOrder symbol e r = some c' ∧ addOrder symbol c' o = some d := by
  obtain ⟨x, y, n, hr⟩ := addOrder_eq c r d hd h
  obtain ⟨x', y', n', ho⟩ := addOrder_eq e o c hc (addOrder_known c r d hd h)
  refine ⟨_, hr e, ?_⟩
  rw [ho e, Option.some.injEq] at hc
  subst hc
  rw [hr, Option.some.injEq] at hd
  subst hd
  rw [ho]
  simp only [Option.some.injEq, Exposure.mk.injEq]
  exact ⟨trivial, by ring, by ring, by omega, trivial⟩

/-- An exposure without unknown orders does not depend on the order of the rows. -/
theorem exposure_eq_of_rows {symbol : String} {a a' : PaperAccount} {o o' : Orders}
    (hp : ∀ p, p ∈ a.openPositions ↔ p ∈ a'.openPositions) (ho : ∀ r, r ∈ o ↔ r ∈ o')
    {e : RiskEngine.Exposure} (h : exposure symbol a o = some e) (hknown : e.unknown = []) :
    exposure symbol a' o' = some e := by
  unfold exposure at h ⊢
  obtain ⟨c, hc, he⟩ := Option.bind_eq_some_iff.mp h
  have hc' := Table.foldlM_perm (fun _ => True) (fun _ _ _ _ _ => trivial)
    (fun e p q c d hc hd _ => addPosition_swap e p q c d hc hd) (rows_perm hp) hc trivial
  have he' := Table.foldlM_perm (fun e => e.unknown = []) addOrder_known addOrder_swap
    (rows_perm ho) he hknown
  rw [hc', Option.bind_some]
  exact he'

theorem conservativeEquity_congr {a a' : PaperAccount} (ha : encodeAccount a = encodeAccount a') :
    conservativeEquity a = conservativeEquity a' := by
  obtain ⟨-, hstart, -, hequity, hrealized, -, -, -⟩ := PaperAccount.mk.injEq .. ▸ ha
  simp only [conservativeEquity, hstart, hequity, hrealized]

theorem evaluateExposure_congr {plan : TradePlan} {a a' : PaperAccount} {o o' : Orders}
    (policy : RiskPolicy) (multiplier : ℚ) (size : Sizing) (record : RiskRecord)
    (ha : encodeAccount a = encodeAccount a')
    (he : exposure plan.symbol a o = exposure plan.symbol a' o') :
    evaluateExposure plan a o policy multiplier size record =
      evaluateExposure plan a' o' policy multiplier size record := by
  unfold evaluateExposure
  rw [he, conservativeEquity_congr ha]

/-- The evaluation reads the figures of the account and its exposure, nothing else. -/
theorem evaluate_congr {plan : TradePlan} {a a' : PaperAccount} {o o' : Orders}
    {instrument : Option Instrument} {policy : RiskPolicy} {setupId : Option String}
    {basis : Option DrawdownBasis} (ha : encodeAccount a = encodeAccount a')
    (he : exposure plan.symbol a o = exposure plan.symbol a' o') :
    evaluate plan (some a) o instrument policy setupId basis =
      evaluate plan (some a') o' instrument policy setupId basis := by
  obtain ⟨-, hstart, -, hequity, hrealized, -, -, -⟩ := PaperAccount.mk.injEq .. ▸ ha
  have hexposure := fun policy multiplier size record =>
    @evaluateExposure_congr plan _ _ _ _ policy multiplier size record ha he
  have hsizing : ∀ starting shape multiplier increment record,
      evaluateSizing plan a o policy basis starting shape multiplier increment record =
        evaluateSizing plan a' o' policy basis starting shape multiplier increment record := by
    intro starting shape multiplier increment record
    unfold evaluateSizing
    rw [hequity, hrealized, conservativeEquity_congr ha]
    simp only [hexposure]
  unfold evaluate
  simp only [hstart, hsizing]

/-- Approval does not depend on the order of the rows. -/
theorem evaluate_eq_of_rows {plan : TradePlan} {a a' : PaperAccount} {o o' : Orders}
    {instrument : Option Instrument} {policy : RiskPolicy} {setupId : Option String}
    {basis : Option DrawdownBasis} (ha : encodeAccount a = encodeAccount a')
    (hp : ∀ p, p ∈ a.openPositions ↔ p ∈ a'.openPositions) (ho : ∀ r, r ∈ o ↔ r ∈ o')
    (h : (evaluate plan (some a) o instrument policy setupId basis).decision.status = .approved) :
    evaluate plan (some a') o' instrument policy setupId basis =
      evaluate plan (some a) o instrument policy setupId basis := by
  obtain ⟨b, hb, ⟨approval⟩⟩ := approval_of_approved h
  obtain rfl : a = b := Option.some.inj hb
  have he := exposure_eq_of_rows hp ho approval.exposure_eq approval.known
  exact (evaluate_congr ha (approval.exposure_eq.trans he.symm)).symm

/-- Gate 4 lets new risk through. -/
def drawdownPasses (policy : RiskPolicy) (basis : Option DrawdownBasis) (current starting : ℚ) :
    Bool :=
  match drawdownAmounts current starting basis with
  | none => false
  | some amounts => !drawdownLimited policy amounts

theorem evaluateExposure_decision (plan : TradePlan) (account : PaperAccount) (orders : Orders)
    (policy : RiskPolicy) (multiplier : ℚ) (size : Sizing) (record record' : RiskRecord) :
    (evaluateExposure plan account orders policy multiplier size record).decision =
      (evaluateExposure plan account orders policy multiplier size record').decision := by
  unfold evaluateExposure
  cases exposure plan.symbol account orders with
  | none => rfl
  | some e =>
    dsimp only
    split_ifs <;> rfl

theorem evaluateSizing_of_passes {plan : TradePlan} {account : PaperAccount} {orders : Orders}
    {policy : RiskPolicy} {basis basis' : Option DrawdownBasis} {starting : ℚ} {shape : RrContract.Geometry}
    {multiplier increment : ℚ} {record : RiskRecord}
    (hgate : drawdownPasses policy basis = drawdownPasses policy basis')
    (h : (evaluateSizing plan account orders policy basis starting shape multiplier increment
      record).decision.status = .approved) :
    (evaluateSizing plan account orders policy basis' starting shape multiplier increment
      record).decision = (evaluateSizing plan account orders policy basis starting shape multiplier
        increment record).decision := by
  have hpass := congrFun (congrFun hgate account.equity) starting
  unfold drawdownPasses at hpass
  unfold evaluateSizing at h ⊢
  dsimp only at h ⊢
  cases ha : drawdownAmounts account.equity starting basis with
  | none =>
    simp only [ha] at h
    split_ifs at h <;> simp at h
  | some amounts =>
    simp only [ha] at h hpass ⊢
    split_ifs at h with h1 h2 h3 h4
    · simp at h
    · simp at h
    · simp at h
    · simp at h
    · rw [if_neg h1]
      cases ha' : drawdownAmounts account.equity starting basis' with
      | none => simp [ha', h2] at hpass
      | some amounts' =>
        have hlimit : drawdownLimited policy amounts' = false := by
          simpa [ha', h2] using hpass.symm
        simp only [h1, h2, h3, h4, hlimit, Bool.false_eq_true, if_false]
        exact evaluateExposure_decision ..

/-- An approval stands under every basis that passes the same drawdown gate. -/
theorem evaluate_of_passes {plan : TradePlan} {account : Option PaperAccount} {orders : Orders}
    {instrument : Option Instrument} {policy : RiskPolicy} {setupId : Option String}
    {basis basis' : Option DrawdownBasis}
    (hgate : drawdownPasses policy basis = drawdownPasses policy basis')
    (h : (evaluate plan account orders instrument policy setupId basis).decision.status
      = .approved) :
    (evaluate plan account orders instrument policy setupId basis').decision =
      (evaluate plan account orders instrument policy setupId basis).decision := by
  unfold evaluate at h ⊢
  dsimp only at h ⊢
  split_ifs at h ⊢
  · simp at h
  cases account with
  | none => simp at h
  | some a =>
    cases hstart : RrContract.toDecimal a.startingEquity with
    | none => simp [hstart] at h
    | some starting =>
      simp only [hstart] at h ⊢
      cases hshape : planShape plan policy with
      | error why => simp [hshape] at h
      | ok shape =>
        simp only [hshape] at h ⊢
        cases hcontract : instrumentContract plan instrument with
        | none => simp [hcontract] at h
        | some contract =>
          simp only [hcontract] at h ⊢
          exact evaluateSizing_of_passes hgate h

end RiskEngine

namespace RiskReservation

theorem runOrder_eq_none {orders : Orders} {runId : String} :
    PaperBroker.runOrder orders runId = none ↔ ∀ o ∈ orders, o.runId ≠ runId := by
  simp [PaperBroker.runOrder, Table.mem_def]

/-- What a preparation makes of the broker's answer to an approved plan. -/
theorem prepareReservation_submitted {request : Request} {p : Portfolio} {b : PaperBroker}
    {answer : Option PaperOrder}
    (hs : (evaluate request.plan (some p.account) p.orders request.instrument request.policy
      request.setupId request.drawdownBasis).decision.status = .approved)
    (hsub : (p.broker request.instrument (some request.policy.rrPolicy)).submitPlan
      { request.report with riskDecision := some (evaluate request.plan (some p.account) p.orders
        request.instrument request.policy request.setupId request.drawdownBasis).decision }
      request.asOf request.orderId = (b, answer)) :
    (∃ b order record, prepareReservation request p = .approved b order record) ↔
      answer.isSome = true := by
  unfold prepareReservation
  simp only [hs, ne_eq, not_true_eq_false, if_false, hsub]
  cases answer with
  | none => simp
  | some order => simp

/-- A preparation is approved when the evaluation is and the broker accepts the plan. -/
theorem prepareReservation_isApproved {request : Request} {p : Portfolio}
    (hrun : PaperBroker.runOrder p.orders request.report.runId = none) :
    let result := evaluate request.plan (some p.account) p.orders request.instrument
      request.policy request.setupId request.drawdownBasis
    let report := { request.report with riskDecision := some result.decision }
    let broker := p.broker request.instrument (some request.policy.rrPolicy)
    (∃ b order record, prepareReservation request p = .approved b order record) ↔
      result.decision.status = .approved ∧ ∃ found, PaperBroker.submittable report = some found ∧
        (broker.admissible report found.2.1).isSome = true := by
  intro result report broker
  by_cases hs : result.decision.status = .approved
  · have hrun' : PaperBroker.runOrder broker.orders report.runId = none := hrun
    simp only [hs, true_and]
    cases hsub : PaperBroker.submittable report with
    | none =>
      have hsubmit : broker.submitPlan report request.asOf request.orderId = (broker, none) := by
        simp only [PaperBroker.submitPlan, hsub]
      rw [prepareReservation_submitted hs hsubmit]
      simp
    | some found =>
      obtain ⟨plan, decision, planAsOf⟩ := found
      cases hadm : broker.admissible report decision with
      | none =>
        have hsubmit : broker.submitPlan report request.asOf request.orderId = (broker, none) := by
          simp only [PaperBroker.submitPlan, hsub, hrun', hadm]
        rw [prepareReservation_submitted hs hsubmit]
        simp [hadm]
      | some numbers =>
        obtain ⟨b, order, hsubmit⟩ : ∃ b order, broker.submitPlan report request.asOf
            request.orderId = (b, some order) := by
          simp only [PaperBroker.submitPlan, hsub, hrun', hadm]
          exact ⟨_, _, rfl⟩
        rw [prepareReservation_submitted hs hsubmit]
        simp [hadm]
  · have hprepare : prepareReservation request p = .rejected result.decision.reason result.record
        result.record := if_pos hs
    rw [hprepare]
    simp [hs]

theorem admissible_congr {b c : PaperBroker} {report report' : FloorReport}
    {decision : RiskDecision} (hinstrument : b.instrument = c.instrument)
    (hequity : b.account.equity = c.account.equity)
    (hposition : b.account.openPositions.get? report.symbol =
      c.account.openPositions.get? report'.symbol) :
    b.admissible report decision = c.admissible report' decision := by
  unfold PaperBroker.admissible
  rw [hinstrument, hequity, hposition]

/-- Two requests ask the same question when they agree on everything a preparation reads. -/
structure Request.Same (r r' : Request) : Prop where
  plan : r.plan = r'.plan
  instrument : r.instrument = r'.instrument
  setupId : r.setupId = r'.setupId
  policy : r.policy = r'.policy
  drawdown : drawdownPasses r.policy r.drawdownBasis = drawdownPasses r.policy r'.drawdownBasis
  tradePlan : r.report.tradePlan = r'.report.tradePlan
  finalStatus : r.report.finalStatus = r'.report.finalStatus
  runId : r.report.runId = r'.report.runId
  symbol : r.report.symbol = r'.report.symbol

theorem prepareReservation_of_same {r r' : Request} {p p' : Portfolio} (hsame : r.Same r')
    (ha : encodeAccount p.account = encodeAccount p'.account)
    (hp : ∀ q, q ∈ p.account.openPositions ↔ q ∈ p'.account.openPositions)
    (ho : ∀ o, o ∈ p.orders ↔ o ∈ p'.orders)
    (hrun : PaperBroker.runOrder p.orders r.report.runId = none)
    (h : ∃ b order record, prepareReservation r p = .approved b order record) :
    ∃ b order record, prepareReservation r' p' = .approved b order record := by
  have hrun' : PaperBroker.runOrder p'.orders r'.report.runId = none := by
    rw [← hsame.runId]
    exact runOrder_eq_none.mpr (fun o hmem => runOrder_eq_none.mp hrun o ((ho o).mpr hmem))
  obtain ⟨hstatus, found, hsub, hadm⟩ := (prepareReservation_isApproved hrun).mp h
  have he := evaluate_eq_of_rows ha hp ho hstatus
  have hgate := evaluate_of_passes hsame.drawdown (he ▸ hstatus)
  rw [he] at hgate
  rw [hsame.plan, hsame.instrument, hsame.policy, hsame.setupId] at hgate hstatus hsub hadm
  refine (prepareReservation_isApproved hrun').mpr ?_
  obtain ⟨-, -, -, hequity, -⟩ := PaperAccount.mk.injEq .. ▸ ha
  have hposition : ∀ symbol, p.account.openPositions.get? symbol =
      p'.account.openPositions.get? symbol := Table.get?_eq_of_mem_iff hp
  rw [hgate]
  refine ⟨hstatus, found, ?_, ?_⟩
  · rw [← hsub]
    simp only [PaperBroker.submittable, hsame.tradePlan, hsame.finalStatus, hsame.runId,
      hsame.symbol]
  · rw [← hadm]
    refine congrArg Option.isSome (admissible_congr rfl hequity.symm ?_)
    exact hsame.symbol ▸ (hposition r'.report.symbol).symm

end RiskReservation

end MarketSystem
