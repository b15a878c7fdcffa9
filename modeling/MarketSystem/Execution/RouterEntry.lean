import MarketSystem.Execution.EurusdPullback
import MarketSystem.Execution.PaperBroker

/-!
# What the demo router sends

An approved decision becomes one order at the broker. Units are sized on one pair of
prices, those of the plan or of the limit, and the order carries prices moved onto the
quote, unchanged, or those of the limit. A profitable opposite trade is closed first,
and the order is sized again on what the account is worth then.

What the router reads on its way is given: a read that fails is `none`.
-/
namespace MarketSystem.RouterEntry

open Library RrContract EurusdPullback

/-- `RISK_FRACTION_CAP`. -/
def RISK_FRACTION_CAP : ℚ := 1 / 100

/-- `FILL_ANCHOR_MAX_PIPS`. -/
def FILL_ANCHOR_MAX_PIPS : ℚ := 10

/-- `ALLOWED_SYMBOLS`. -/
def ALLOWED_SYMBOLS : List String := ["EURUSD"]

/-- `OrderPlan`: a plan that cannot be built is not sent. -/
structure OrderPlan where
  symbol : String
  side : Side
  quantity : ℚ
  plannedEntry : ℚ
  stop : ℚ
  target : ℚ
  clientId : String
  sourceRunId : String
  positive : 0 < quantity ∧ 0 < plannedEntry ∧ 0 < stop ∧ 0 < target

/-- `RiskApproval`. -/
structure RiskApproval where
  status : RiskStatus
  runId : String
  symbol : String
  side : Side
  quantity : ℚ
  entry : ℚ
  stop : ℚ
  target : ℚ
  positive : 0 < quantity ∧ 0 < entry ∧ 0 < stop ∧ 0 < target

/-- `approval_problem`: the approval is for exactly this plan. -/
def approvalProblem (plan : OrderPlan) (approval : RiskApproval) : Option String :=
  if approval.status ≠ .approved then some "risk_not_approved"
  else if approval.runId = plan.sourceRunId ∧ approval.symbol = plan.symbol
      ∧ approval.side = plan.side ∧ approval.quantity = plan.quantity
      ∧ approval.entry = plan.plannedEntry ∧ approval.stop = plan.stop
      ∧ approval.target = plan.target then none
  else some "risk_approval_mismatch"

/-- `RiskApproval.from_decision`, which raises on a decision without a quantity. -/
def RiskApproval.fromDecision (decision : RiskDecision) (runId : String) :
    Except String RiskApproval :=
  match decision.quantity with
  | none => .error "approval_invalid"
  | some quantity =>
      if h : 0 < quantity ∧ 0 < decision.entry ∧ 0 < decision.stop ∧ 0 < decision.target then
        .ok ⟨decision.status, runId, decision.symbol, decision.side, quantity, decision.entry,
          decision.stop, decision.target, h⟩
      else .error "approval_invalid"

/-! ## Sizing -/

/-- `size_units`: the whole units that a risk pays for. -/
def sizeUnits (riskAmount entry stop : ℚ) : Except String ℤ :=
  if riskAmount ≤ 0 ∨ entry ≤ 0 ∨ stop ≤ 0 then .error "must be a finite positive Decimal"
  else if |entry - stop| = 0 then .error "entry and stop must differ"
  else
    let units := ⌊riskAmount / |entry - stop|⌋
    .ok (if 1 ≤ units then units else 0)

/-- `risk_fraction`: the fraction of the decision, or the cap. -/
def riskFraction (decision : RiskDecision) : ℚ :=
  match decision.riskFraction with
  | some value => if 0 < value ∧ value ≤ RISK_FRACTION_CAP then value else RISK_FRACTION_CAP
  | none => RISK_FRACTION_CAP

/-- `broker_units`. -/
def brokerUnits (equity : ℚ) (decision : RiskDecision) (entry stop : ℚ) (maxUnits : ℤ) :
    Except String ℤ := do
  let units ← sizeUnits (equity * riskFraction decision) entry stop
  pure (min units maxUnits)

/-- What the cycle hands to the router. -/
structure Context where
  symbol : String
  runId : String
  eligible : Bool
  /-- The deterministic report. -/
  deterministic : FloorReport
  /-- The report of the AI review: its status and its decision. -/
  aiStatus : String
  aiApproved : Bool
  /-- `target_decision`: its stop and its structural stop. -/
  targetDecision : Option (Option ℚ × Option ℚ) := none

structure Settings where
  maxUnits : ℤ
  pullback : Bool
  dryRun : Bool
  closingOnly : Bool

/-- One read of the account, and the loss gate on it. -/
structure Balance where
  nav : ℚ
  /-- `_loss_check`: the refusal of an entry that risks so much. -/
  lossRefusal : ℚ → Option String

/-- What the router finds on its way, in this order. -/
structure Readings where
  alreadyRouted : Bool
  fridayOpen : Bool
  entriesBlocked : Bool
  reconciled : Bool
  blockedReason : Option String
  unresolvedSubmission : Bool
  openAllowed : Bool
  /-- A routed row or a broker trade of the instrument is open. -/
  exposed : Bool
  /-- `_reversal_row`: why an open trade is not closed first. -/
  reversalRefusal : Option String
  h1Bars : Option (List (Option ℚ × Option ℚ × Option ℚ))
  balance : Option Balance
  /-- The outcome of closing the opposite trade. -/
  reversalClose : String
  /-- The reconciliation after it found nothing open. -/
  flatAfterClose : Bool
  balanceAfterClose : Option Balance
  /-- The answer to a quote: tradeable, bid and ask. -/
  quote : Option (Bool × Option ℚ × Option ℚ)

/-! ## Routing -/

/-- `_candidate`: an approved plan that both reports agree on. -/
def candidate (c : Context) : Except String (TradePlan × RiskDecision) := do
  require (decide (c.runId ≠ "")) "run_id_missing"
  require (decide (c.symbol ∈ ALLOWED_SYMBOLS)) "symbol_not_supported"
  require c.eligible "not_eligible"
  require (decide (c.deterministic.finalStatus = "PLAN_READY" ∧ c.aiStatus = "PLAN_READY"))
    "not_plan_ready"
  match c.deterministic.tradePlan, c.deterministic.riskDecision with
  | some plan, some decision =>
      require (decide (decision.status = .approved) && c.aiApproved) "risk_not_approved"
      require (decide (plan.entry = decision.entry ∧ plan.stop = decision.stop
        ∧ plan.target = decision.target ∧ plan.symbol = c.symbol ∧ decision.symbol = c.symbol
        ∧ plan.side = decision.side)) "plan_decision_mismatch"
      require (geometryOk decision.side decision.entry decision.stop decision.target)
        "invalid_plan_geometry"
      pure (plan, decision)
  | _, _ => .error "risk_not_approved"

/-- `_structural_stop`: the invalidation that the planner recorded for this stop. -/
def structuralStop (c : Context) (stop : ℚ) : ℚ :=
  match c.targetDecision with
  | some (some recorded, some structural) =>
      if recorded = stop ∧ 0 < structural then structural else stop
  | _ => stop

/-- `_quote`: bid and ask of a tradeable quote. -/
def validQuote (quote : Option (Bool × Option ℚ × Option ℚ)) : Option (ℚ × ℚ) :=
  match quote with
  | some (true, some bid, some ask) => if bid ≤ 0 ∨ ask < bid then none else some (bid, ask)
  | _ => none

/-- `_fill_anchor`: the prices moved onto the quote, unchanged without one, `none` when the
quote is too far. -/
def fillAnchor (side : Side) (entry stop target : ℚ) (quote : Option (Bool × Option ℚ × Option ℚ)) :
    Option (ℚ × ℚ × ℚ) :=
  match validQuote quote with
  | none => some (entry, stop, target)
  | some (bid, ask) =>
      let quoteFill := match side with
        | .long => ask
        | .short => bid
      match marketAnchor entry stop target quoteFill pipSize FILL_ANCHOR_MAX_PIPS with
      | .error _ => some (entry, stop, target)
      | .ok anchored => anchored

/-- `_sized`: units on a fresh read of the account, with the loss gate passed. -/
def sized (s : Settings) (decision : RiskDecision) (entry stop : ℚ) (balance : Option Balance) :
    Except String (ℤ × ℚ) :=
  match balance with
  | none => .error "balance_unavailable"
  | some balance => do
      let units ← (brokerUnits balance.nav decision entry stop s.maxUnits).mapError
        (fun _ => "sizing_invalid")
      require (decide (1 ≤ units)) "SKIPPED_ZERO_UNITS"
      match balance.lossRefusal (units * |entry - stop|) with
      | some reason => .error reason
      | none => pure (units, balance.nav)

/-- What reaches `_send`, with the account value it was sized on. -/
structure Sent where
  plan : OrderPlan
  approval : RiskApproval
  units : ℤ
  nav : ℚ
  /-- The price of a limit order. -/
  limit : Option ℚ

/-- The plan and the approval that are built from the sized prices. -/
def build (c : Context) (decision : RiskDecision) (units : ℤ) (nav entry stop target : ℚ)
    (limit : Option ℚ) : Except String Sent := do
  let approval ← RiskApproval.fromDecision decision c.runId
  if h : 0 < (units : ℚ) ∧ 0 < entry ∧ 0 < stop ∧ 0 < target then
    let plan : OrderPlan := ⟨c.symbol, decision.side, units, entry, stop, target,
      "aif-" ++ c.runId, c.runId, h⟩
    let approval := { approval with
      quantity := units
      entry := entry
      stop := stop
      target := target
      positive := h }
    pure ⟨plan, approval, units, nav, limit⟩
  else .error "approval_invalid"

/-- The plan of the limit, when the router places limits. -/
def preparePullback (s : Settings) (r : Readings) (c : Context) (decision : RiskDecision) :
    Except String (Option PullbackPlan) :=
  if s.pullback then
    (planPullback decision.side decision.entry decision.stop decision.target r.h1Bars
      (structuralStop c decision.stop)).map some
  else .ok none

/-- The gates before an order is sized. -/
def gates (s : Settings) (r : Readings) : Except String Unit := do
  require (!s.closingOnly) "emergency_active"
  require (!r.alreadyRouted) "ALREADY_ROUTED"
  require r.fridayOpen "friday_close_window"
  require (!r.entriesBlocked) "friday_close_window"
  require r.reconciled "broker_read_failed"
  require r.blockedReason.isNone "blocked"
  require (!r.unresolvedSubmission) "unresolved_submission"
  require (s.dryRun || r.openAllowed) "broker_demo_not_allowed"
  if r.exposed then
    match r.reversalRefusal with
    | some reason => .error reason
    | none => pure ()
  else pure ()

/-- Close the opposite trade first, then size again on the account as it is then. -/
def reverse (s : Settings) (r : Readings) (decision : RiskDecision) (entry stop : ℚ)
    (first : ℤ × ℚ) : Except String (ℤ × ℚ) :=
  if r.exposed then do
    require (!s.dryRun) "REVERSAL_DRY_RUN"
    require (decide (r.reversalClose ∈ ["CLOSED", "CLOSED_AT_BROKER"])) "reversal_close"
    require r.flatAfterClose "reversal_not_flat"
    sized s decision entry stop r.balanceAfterClose
  else pure first

/-- `_route`: what reaches `_send`, or why nothing does. -/
def route (s : Settings) (r : Readings) (c : Context) : Except String Sent := do
  let (_, decision) ← candidate c
  gates s r
  let pullback ← preparePullback s r c decision
  let (sizeEntry, sizeStop) := match pullback with
    | some prepared => (prepared.limit, prepared.stop)
    | none => (decision.entry, decision.stop)
  let first ← sized s decision sizeEntry sizeStop r.balance
  let (units, nav) ← reverse s r decision sizeEntry sizeStop first
  match pullback with
  | some prepared =>
      let sent ← build c decision units nav prepared.limit prepared.stop prepared.target
        (some prepared.limit)
      require (!s.dryRun) "DRY_RUN"
      pure sent
  | none =>
      match fillAnchor decision.side decision.entry decision.stop decision.target r.quote with
      | none => .error "fill_gap_too_large"
      | some (entry, stop, target) =>
          let sent ← build c decision units nav entry stop target none
          require (!s.dryRun) "DRY_RUN"
          pure sent

/-! ## What each step passes on -/

theorem sizeUnits_ok {riskAmount entry stop : ℚ} {units : ℤ}
    (h : sizeUnits riskAmount entry stop = .ok units) (hunits : 1 ≤ units) :
    units * |entry - stop| ≤ riskAmount := by
  unfold sizeUnits at h
  split_ifs at h with hvalid hzero
  simp only [Except.ok.injEq] at h
  have hpos : 0 < |entry - stop| := lt_of_le_of_ne (abs_nonneg _) (Ne.symm hzero)
  split_ifs at h with hone
  · rw [← h, ← le_div_iff₀ hpos]
    exact Int.floor_le _
  · omega

/-- Units of a sized order, and the account value they were sized on. -/
theorem sized_ok {s : Settings} {decision : RiskDecision} {entry stop nav : ℚ}
    {balance : Option Balance} {units : ℤ}
    (h : sized s decision entry stop balance = .ok (units, nav)) :
    1 ≤ units ∧ units ≤ s.maxUnits ∧ units * |entry - stop| ≤ nav * riskFraction decision ∧
      balance.map (·.nav) = some nav := by
  unfold sized at h
  cases balance with
  | none => cases h
  | some balance =>
    obtain ⟨units', hunits, h⟩ := bind_eq_ok.mp h
    obtain ⟨_, hone, h⟩ := bind_eq_ok.mp h
    have hone := of_decide_eq_true (require_eq_ok.mp hone)
    cases hloss : balance.lossRefusal (units' * |entry - stop|) with
    | some reason =>
      rw [hloss] at h
      cases h
    | none =>
      rw [hloss] at h
      cases h
      obtain ⟨full, hfull, hcapped⟩ := bind_eq_ok.mp (mapError_eq_ok.mp hunits)
      cases hcapped
      have hfull1 : 1 ≤ full := hone.trans (min_le_left _ _)
      have hle : ((min full s.maxUnits : ℤ) : ℚ) ≤ full := by exact_mod_cast min_le_left _ _
      refine ⟨hone, min_le_right _ _, ?_, rfl⟩
      exact (mul_le_mul_of_nonneg_right hle (abs_nonneg _)).trans (sizeUnits_ok hfull hfull1)

/-- What is built carries the prices and is approved for exactly them. -/
theorem build_ok {c : Context} {decision : RiskDecision} {units : ℤ} {nav entry stop target : ℚ}
    {limit : Option ℚ} {sent : Sent} (happroved : decision.status = .approved)
    (hsymbol : decision.symbol = c.symbol)
    (h : build c decision units nav entry stop target limit = .ok sent) :
    sent.plan.side = decision.side ∧ sent.plan.quantity = units ∧ sent.units = units ∧
      sent.nav = nav ∧ sent.plan.plannedEntry = entry ∧ sent.plan.stop = stop ∧
      sent.plan.target = target ∧ approvalProblem sent.plan sent.approval = none := by
  unfold build at h
  obtain ⟨approval, happroval, h⟩ := bind_eq_ok.mp h
  split_ifs at h with hpositive
  cases h
  refine ⟨rfl, rfl, rfl, rfl, rfl, rfl, rfl, ?_⟩
  unfold RiskApproval.fromDecision at happroval
  split at happroval
  · cases happroval
  · split_ifs at happroval
    cases happroval
    simp [approvalProblem, happroved, hsymbol]

theorem candidate_ok {c : Context} {plan : TradePlan} {decision : RiskDecision}
    (h : candidate c = .ok (plan, decision)) :
    c.deterministic.riskDecision = some decision ∧ decision.status = .approved ∧
      decision.symbol = c.symbol ∧
      geometryOk decision.side decision.entry decision.stop decision.target = true := by
  unfold candidate at h
  obtain ⟨-, -, h⟩ := bind_eq_ok.mp h
  obtain ⟨-, -, h⟩ := bind_eq_ok.mp h
  obtain ⟨-, -, h⟩ := bind_eq_ok.mp h
  obtain ⟨-, -, h⟩ := bind_eq_ok.mp h
  split at h
  · rename_i plan' decision' hplan hdecision
    obtain ⟨_, happroved, h⟩ := bind_eq_ok.mp h
    obtain ⟨_, hmatch, h⟩ := bind_eq_ok.mp h
    obtain ⟨_, hgeometry, h⟩ := bind_eq_ok.mp h
    cases h
    have happroved := require_eq_ok.mp happroved
    have hmatch := of_decide_eq_true (require_eq_ok.mp hmatch)
    simp only [Bool.and_eq_true, decide_eq_true_eq] at happroved
    exact ⟨hdecision, happroved.1, hmatch.2.2.2.2.1, require_eq_ok.mp hgeometry⟩
  · cases h

/-- The account as it was read last before the order was sent. -/
def lastBalance (r : Readings) : Option Balance :=
  if r.exposed then r.balanceAfterClose else r.balance

/-- Whichever sizing counts, it was on the last read of the account. -/
theorem reverse_ok {s : Settings} {r : Readings} {decision : RiskDecision} {entry stop : ℚ}
    {first final : ℤ × ℚ} (hfirst : sized s decision entry stop r.balance = .ok first)
    (h : reverse s r decision entry stop first = .ok final) :
    sized s decision entry stop (lastBalance r) = .ok final := by
  unfold reverse at h
  unfold lastBalance
  cases hexposed : r.exposed with
  | false =>
    simp only [hexposed, Bool.false_eq_true, if_false] at h ⊢
    cases h
    exact hfirst
  | true =>
    simp only [hexposed, if_true] at h ⊢
    obtain ⟨-, -, h⟩ := bind_eq_ok.mp h
    obtain ⟨-, -, h⟩ := bind_eq_ok.mp h
    obtain ⟨-, -, h⟩ := bind_eq_ok.mp h
    exact h

theorem preparePullback_ok {s : Settings} {r : Readings} {c : Context} {decision : RiskDecision}
    {prepared : PullbackPlan} (h : preparePullback s r c decision = .ok (some prepared)) :
    prepared.target - prepared.limit = fxTpRr * (prepared.limit - prepared.stop) ∧
      geometryOk decision.side prepared.limit prepared.stop prepared.target = true := by
  unfold preparePullback at h
  split_ifs at h
  · cases hplan : planPullback decision.side decision.entry decision.stop decision.target r.h1Bars
        (structuralStop c decision.stop) with
    | error e =>
      rw [hplan] at h
      cases h
    | ok plan =>
      rw [hplan] at h
      cases h
      exact planPullback_ok hplan
  · cases h

/-- An approved decision on the price grid, with the target of the FX policy and a risk. -/
structure Policy (decision : RiskDecision) : Prop where
  entry : OnGrid decision.entry
  stop : OnGrid decision.stop
  target : OnGrid decision.target
  reward : |decision.target - decision.entry| = fxTpRr * |decision.entry - decision.stop|
  fraction : ∀ fraction, decision.riskFraction = some fraction → 0 < fraction

theorem fillAnchor_ok {decision : RiskDecision} (hpolicy : Policy decision)
    {quote : Option (Bool × Option ℚ × Option ℚ)} {entry stop target : ℚ}
    (h : fillAnchor decision.side decision.entry decision.stop decision.target quote =
      some (entry, stop, target)) :
    entry - stop = decision.entry - decision.stop ∧
      target - entry = decision.target - decision.entry := by
  unfold fillAnchor at h
  split at h
  · cases h
    exact ⟨rfl, rfl⟩
  · dsimp only at h
    split at h
    · cases h
      exact ⟨rfl, rfl⟩
    · rename_i hanchor
      rw [h] at hanchor
      exact marketAnchor_ok hpolicy.entry hpolicy.stop hpolicy.target hanchor

/-- The fraction of the account that an order may risk. -/
def approvedFraction (decision : RiskDecision) : ℚ :=
  match decision.riskFraction with
  | some fraction => min fraction RISK_FRACTION_CAP
  | none => RISK_FRACTION_CAP

theorem riskFraction_eq {decision : RiskDecision} (hpolicy : Policy decision) :
    riskFraction decision = approvedFraction decision := by
  unfold riskFraction approvedFraction
  cases hfraction : decision.riskFraction with
  | none => rfl
  | some fraction =>
    have hpos := hpolicy.fraction fraction hfraction
    dsimp only
    split_ifs with hvalid
    · exact (min_eq_left hvalid.2).symm
    · have hcap : RISK_FRACTION_CAP ≤ fraction := by
        by_contra hlt
        exact hvalid ⟨hpos, (not_le.mp hlt).le⟩
      exact (min_eq_right hcap).symm

/-! ## What is sent -/

/-- Stop and target on their sides, an approval for exactly this plan, and a risk within the
approved fraction of the account as it was read last. -/
structure WithinRisk (s : Settings) (r : Readings) (decision : RiskDecision) (sent : Sent) :
    Prop where
  ordered : geometryOk sent.plan.side sent.plan.plannedEntry sent.plan.stop sent.plan.target = true
  approved : approvalProblem sent.plan sent.approval = none
  reward : |sent.plan.target - sent.plan.plannedEntry| =
    fxTpRr * |sent.plan.plannedEntry - sent.plan.stop|
  quantity : sent.plan.quantity = sent.units
  units : 1 ≤ sent.units ∧ sent.units ≤ s.maxUnits
  nav : (lastBalance r).map (·.nav) = some sent.nav
  risk : sent.units * |sent.plan.plannedEntry - sent.plan.stop| ≤
    approvedFraction decision * sent.nav

section Sent

variable {s : Settings} {r : Readings} {c : Context} {decision : RiskDecision}

/-- An order is within its risk when its prices keep the distances it was sized on. -/
theorem withinRisk_of_build (hpolicy : Policy decision) (happroved : decision.status = .approved)
    (hsymbol : decision.symbol = c.symbol) {sizeEntry sizeStop nav entry stop target : ℚ}
    {units : ℤ} {limit : Option ℚ} {sent : Sent}
    (hsized : sized s decision sizeEntry sizeStop (lastBalance r) = .ok (units, nav))
    (hdistance : entry - stop = sizeEntry - sizeStop)
    (hordered : geometryOk decision.side entry stop target = true)
    (hreward : |target - entry| = fxTpRr * |entry - stop|)
    (hbuild : build c decision units nav entry stop target limit = .ok sent) :
    WithinRisk s r decision sent := by
  obtain ⟨hone, hmax, hrisk, hnav⟩ := sized_ok hsized
  obtain ⟨hside, hquantity, hunits, hsentNav, hentry, hstop, htarget, happroval⟩ :=
    build_ok happroved hsymbol hbuild
  constructor
  · rw [hside, hentry, hstop, htarget]
    exact hordered
  · exact happroval
  · rw [hentry, hstop, htarget]
    exact hreward
  · rw [hquantity, hunits]
  · rw [hunits]
    exact ⟨hone, hmax⟩
  · rw [hsentNav]
    exact hnav
  · rw [hunits, hentry, hstop, hsentNav, hdistance, ← riskFraction_eq hpolicy, mul_comm _ nav]
    exact hrisk

end Sent

/-! ## A reversal that is sized twice -/

/-- Half a percent on 25 pips, from 1.10000. -/
def sampleDecision : RiskDecision where
  status := .approved
  symbol := "EURUSD"
  side := .long
  quantity := some 1
  capitalAtRisk := none
  entry := 11 / 10
  stop := 10975 / 10000
  target := 1105 / 1000
  reason := "approved"
  riskFraction := some (1 / 200)

def sampleContext : Context where
  symbol := "EURUSD"
  runId := "R1"
  eligible := true
  deterministic :=
    { runId := "R1"
      symbol := "EURUSD"
      finalStatus := "PLAN_READY"
      tradePlan := some ⟨"EURUSD", .long, 11 / 10, 10975 / 10000, 1105 / 1000, 2, some "R1", some 0,
        some .fx⟩
      riskDecision := some sampleDecision
      setupAssessment := none }
  aiStatus := "PLAN_READY"
  aiApproved := true

/-- A profitable short is closed first, and the ask is two pips above the plan. -/
def sampleReadings : Readings where
  alreadyRouted := false
  fridayOpen := true
  entriesBlocked := false
  reconciled := true
  blockedReason := none
  unresolvedSubmission := false
  openAllowed := true
  exposed := true
  reversalRefusal := none
  h1Bars := none
  balance := some ⟨10000, fun _ => none⟩
  reversalClose := "CLOSED"
  flatAfterClose := true
  balanceAfterClose := some ⟨10100, fun _ => none⟩
  quote := some (true, some (11001 / 10000), some (11002 / 10000))

def sampleSettings : Settings := ⟨100000, false, false, false⟩

theorem sampleDecision_policy : Policy sampleDecision where
  entry := ⟨110000, by norm_num [sampleDecision, PRICE_STEPS]⟩
  stop := ⟨109750, by norm_num [sampleDecision, PRICE_STEPS]⟩
  target := ⟨110500, by norm_num [sampleDecision, PRICE_STEPS]⟩
  reward := by decide +kernel
  fraction := by
    intro fraction h
    rw [← Option.some.inj h]
    norm_num

end MarketSystem.RouterEntry
