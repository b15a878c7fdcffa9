import MarketSystem.Ai.Orchestrator

/-!
# The advisory layer fails closed

However the provider behaves, a cycle makes its calls one after another and none of them at
or after the deadline or after a failure that is final. What reaches PAPER is the plan of a
floor run that Risk approved, with five reviews that the provider gave in time, each of
them grounded in the request of its own agent.
-/
namespace MarketSystem.Ai

open Library RrContract
open Scouts (AgentMessage)

section Run

variable {outside : Outside} {deadline : Option ℚ} {c : Cycle}

theorem specialistReview_spec {request : AIRequest} {metadata : List Json → List (String × Json)}
    (h : Orderly deadline c) : (specialistReview outside deadline request metadata).Ensures c
      (Fallible.Returns (Leaves deadline request c) (fun _ c' => Orderly deadline c')) := by
  refine Fallible.Ensures.bind ((callAgent_spec h).mono fun r c' hr => ?_)
  cases r with
  | error e => exact hr
  | ok response =>
    obtain ⟨horderly, calls, hcalls, hreviewed⟩ := hr
    refine Fallible.ensures_pure ⟨horderly, calls, hcalls, hreviewed.request, hreviewed.length, ?_⟩
    intro husable
    obtain ⟨call, given, hcall, haccepted, hgiven⟩ := hreviewed.accepted husable
    exact ⟨call, given, hcall, haccepted, by rw [hgiven]; rfl⟩

/-- The calls of the five reviews of a report. -/
structure FiveReviews (deadline : Option ℚ) (report : DeterministicReport) (ai : AIFloorReport)
    (calls : List Call) : Prop where
  /-- The calls that each agent made, in the order of the agents. -/
  parts : ∃ structure_ liquidity macro_ setup trade : List Call,
    calls = structure_ ++ liquidity ++ macro_ ++ setup ++ trade ∧
    Reviewed deadline (structureRequest report.runId report.asOf report.symbol
      report.structureReports) ai.aiStructure structure_ ∧
    Reviewed deadline (liquidityRequest report.runId report.asOf report.symbol
      report.liquidityReports) ai.aiLiquidity liquidity ∧
    Reviewed deadline (macroRequest report.runId report.asOf report.symbol
      report.macroNewsReport) ai.aiMacro macro_ ∧
    Reviewed deadline (setupReviewRequest report.runId report.asOf report.symbol report.setup
      ai.aiStructure ai.aiLiquidity ai.aiMacro) ai.aiSetupReview setup ∧
    (∀ response, ai.aiTradeReview = some response → ∃ plan, report.tradePlan = some plan ∧
      Reviewed deadline (tradeReviewRequest report.runId report.asOf report.symbol plan
        report.invalidation ai.aiStructure ai.aiLiquidity ai.aiMacro) response trade)
  tradePlan : ai.tradePlan = report.tradePlan
  riskDecision : ai.riskDecision = report.riskDecision
  finalStatus : ai.finalStatus = Ai.finalStatus report ai.aiSetupReview ai.aiTradeReview

theorem tradeReview_spec {report : DeterministicReport}
    {aiStructure aiLiquidity aiMacro : AIResponse} (h : Orderly deadline c) :
    (tradeReview outside deadline report aiStructure aiLiquidity aiMacro).Ensures c
      (Fallible.Returns
        (fun review c' => Orderly deadline c' ∧ ∃ calls, c'.calls = c.calls ++ calls ∧
          ∀ response, review = some response → ∃ plan, report.tradePlan = some plan ∧
            Reviewed deadline (tradeReviewRequest report.runId report.asOf report.symbol plan
              report.invalidation aiStructure aiLiquidity aiMacro) response calls)
        (fun _ c' => Orderly deadline c')) := by
  unfold tradeReview
  cases hplan : report.tradePlan with
  | none =>
    exact Fallible.ensures_pure ⟨h, [], (List.append_nil _).symm, fun _ hno => by simp at hno⟩
  | some plan =>
    refine Fallible.Ensures.bind ((callAgent_spec h).mono fun r c' hr => ?_)
    cases r with
    | error e => exact hr
    | ok response =>
      obtain ⟨horderly, calls, hcalls, hreviewed⟩ := hr
      refine Fallible.ensures_pure ⟨horderly, calls, hcalls, fun response' hsome => ?_⟩
      cases hsome
      exact ⟨plan, rfl, hreviewed⟩

theorem run_spec {report : DeterministicReport} (h : Orderly deadline c) :
    (run outside deadline report).Ensures c
      (Fallible.Returns (fun ai c' => Orderly deadline c' ∧ ∃ calls, c'.calls = c.calls ++ calls ∧
          FiveReviews deadline report ai calls)
        (fun _ c' => Orderly deadline c')) := by
  unfold run
  refine Fallible.Ensures.bind ((specialistReview_spec h).mono fun r c₁ hr => ?_)
  cases r with
  | error e => exact hr
  | ok aiStructure =>
  obtain ⟨h₁, calls₁, hcalls₁, hstructure⟩ := hr
  refine Fallible.Ensures.bind ((specialistReview_spec h₁).mono fun r c₂ hr => ?_)
  cases r with
  | error e => exact hr
  | ok aiLiquidity =>
  obtain ⟨h₂, calls₂, hcalls₂, hliquidity⟩ := hr
  refine Fallible.Ensures.bind ((specialistReview_spec h₂).mono fun r c₃ hr => ?_)
  cases r with
  | error e => exact hr
  | ok aiMacro =>
  obtain ⟨h₃, calls₃, hcalls₃, hmacro⟩ := hr
  refine Fallible.Ensures.bind ((callAgent_spec h₃).mono fun r c₄ hr => ?_)
  cases r with
  | error e => exact hr
  | ok aiSetupReview =>
  obtain ⟨h₄, calls₄, hcalls₄, hsetup⟩ := hr
  refine Fallible.Ensures.bind ((tradeReview_spec h₄).mono fun r c₅ hr => ?_)
  cases r with
  | error e => exact hr
  | ok aiTradeReview =>
  obtain ⟨h₅, calls₅, hcalls₅, htrade⟩ := hr
  refine Fallible.ensures_pure ⟨h₅, calls₁ ++ calls₂ ++ calls₃ ++ calls₄ ++ calls₅, ?_, ?_⟩
  · rw [hcalls₅, hcalls₄, hcalls₃, hcalls₂, hcalls₁]
    simp only [List.append_assoc]
  · exact ⟨⟨calls₁, calls₂, calls₃, calls₄, calls₅, rfl, hstructure, hliquidity, hmacro, hsetup,
      htrade⟩, rfl, rfl, rfl⟩

end Run

/-! ## Eligibility -/

/-- What a plan that is eligible for PAPER rests on. -/
structure Supported (deadline : Option ℚ) (floor report : DeterministicReport) (ai : AIFloorReport)
    (reviews : List Call) : Prop where
  /-- The floor itself had the plan ready, and no review speaks against it. -/
  ready : report.finalStatus = "PLAN_READY"
  advice : ai.aiSetupReview.recommendation ≠ some "DISAGREE" ∧
    ai.aiTradeReview.bind (·.recommendation) ≠ some "REJECT_RECOMMENDATION"
  /-- Risk approved that plan in the floor, and its size has at most been reduced. -/
  approved : ∃ decision quantity reduced, floor.riskDecision = some decision ∧
    decision.status = .approved ∧ decision.quantity = some quantity ∧ 0 < reduced ∧
    reduced ≤ quantity ∧ ∃ capital, ai.riskDecision =
      some { decision with quantity := some reduced, capitalAtRisk := capital }
  /-- The plan is the floor's, and each of the five agents was given an answer that counts. -/
  reviewed : ∃ plan, floor.tradePlan = some plan ∧ ai.tradePlan = some plan ∧
    List.Forall₂ (fun request call => call.request = request ∧
        ∃ response, Accepted deadline call response)
      [structureRequest report.runId report.asOf report.symbol report.structureReports,
        liquidityRequest report.runId report.asOf report.symbol report.liquidityReports,
        macroRequest report.runId report.asOf report.symbol report.macroNewsReport,
        setupReviewRequest report.runId report.asOf report.symbol report.setup ai.aiStructure
          ai.aiLiquidity ai.aiMacro,
        tradeReviewRequest report.runId report.asOf report.symbol plan report.invalidation
          ai.aiStructure ai.aiLiquidity ai.aiMacro]
      reviews

theorem finalStatus_ready {report : DeterministicReport} {aiSetupReview : AIResponse}
    {aiTradeReview : Option AIResponse}
    (h : finalStatus report aiSetupReview aiTradeReview = "PLAN_READY") :
    report.finalStatus = "PLAN_READY" ∧ aiSetupReview.recommendation ≠ some "DISAGREE" ∧
      aiTradeReview.bind (·.recommendation) ≠ some "REJECT_RECOMMENDATION" := by
  unfold finalStatus at h
  by_cases hequity : "equity_invalid" ∈ report.warnings
  · rw [if_pos hequity] at h
    exact absurd h (by decide)
  rw [if_neg hequity] at h
  by_cases hvalid : report.finalStatus ∉ VALID_FLOOR_STATUSES
  · rw [if_pos hvalid] at h
    exact absurd h (by decide)
  rw [if_neg hvalid] at h
  by_cases hready : report.finalStatus = "PLAN_READY"
  · rw [if_pos hready] at h
    by_cases hadvice : aiSetupReview.recommendation = some "DISAGREE"
        ∨ aiTradeReview.bind (·.recommendation) = some "REJECT_RECOMMENDATION"
    · rw [if_pos hadvice] at h
      exact absurd h (by decide)
    · exact ⟨hready, not_or.mp hadvice⟩
  · rw [if_neg hready] at h
    exact absurd h hready

theorem paperPolicy_eq_true {ai : AIFloorReport} :
    paperPolicy ai = true ↔ ai.finalStatus = "PLAN_READY" ∧
      ∃ decision plan review, ai.riskDecision = some decision ∧ ai.tradePlan = some plan ∧
        ai.aiTradeReview = some review ∧ decision.status = .approved ∧ ai.aiStructure.Usable ∧
        ai.aiLiquidity.Usable ∧ ai.aiMacro.Usable ∧ ai.aiSetupReview.Usable ∧ review.Usable := by
  unfold paperPolicy
  by_cases hready : ai.finalStatus = "PLAN_READY"
  · rw [if_neg (not_not.mpr hready)]
    cases hdecision : ai.riskDecision with
    | none => simp
    | some decision =>
      cases hplan : ai.tradePlan with
      | none => simp
      | some plan =>
        cases hreview : ai.aiTradeReview with
        | none => simp
        | some review => simp [hready]
  · rw [if_pos hready]
    simp [hready]

/-- The reduction does not approve: what it leaves approved had a quantity and was approved. -/
theorem approved_before_increment {floor floor' : FloorReport} {instrument : Option Instrument}
    {approved : RiskDecision}
    (h : PaperContracts.applyPaperQuantityIncrement floor instrument = .ok floor')
    (happroved : floor'.riskDecision = some approved) (hstatus : approved.status = .approved) :
    ∃ decision quantity, floor.riskDecision = some decision ∧ decision.status = .approved ∧
      decision.quantity = some quantity := by
  have hfull := h
  unfold PaperContracts.applyPaperQuantityIncrement at h
  cases hdecision : floor.riskDecision with
  | none =>
    rw [hdecision] at h
    cases h
    rw [hdecision] at happroved
    cases happroved
  | some decision =>
    rw [hdecision] at h
    dsimp only at h
    by_cases hdecided : decision.status = .approved
    · rw [if_neg (not_not.mpr hdecided)] at h
      cases hstep : instrument.bind (·.quantityIncrement) with
      | none =>
        rw [hstep] at h
        cases h
      | some step =>
        rw [hstep] at h
        dsimp only at h
        by_cases hpos : step ≤ 0
        · rw [if_pos hpos] at h
          cases h
        · rw [if_neg hpos] at h
          cases hquantity : decision.quantity with
          | none =>
            rw [hquantity] at h
            cases h
          | some quantity => exact ⟨decision, quantity, rfl, hdecided, hquantity⟩
    · rw [if_pos hdecided] at h
      cases h
      rw [hdecision] at happroved
      cases happroved
      exact absurd hstatus hdecided

/-- What an approved report rests on in the floor that it was made of. -/
theorem approved_before {floor report : DeterministicReport} {instrument : Option Instrument}
    {approved : RiskDecision} (h : floor.applyPaperQuantityIncrement instrument = .ok report)
    (happroved : report.riskDecision = some approved) (hstatus : approved.status = .approved) :
    report.tradePlan = floor.tradePlan ∧
    ∃ decision quantity reduced, floor.riskDecision = some decision ∧ decision.status = .approved ∧
      decision.quantity = some quantity ∧ 0 < reduced ∧ reduced ≤ quantity ∧
      approved = { decision with
        quantity := some reduced, capitalAtRisk := approved.capitalAtRisk } := by
  unfold DeterministicReport.applyPaperQuantityIncrement at h
  cases hfloor : PaperContracts.applyPaperQuantityIncrement floor.toFloorReport instrument with
  | error e =>
    rw [hfloor] at h
    cases h
  | ok floor' =>
    rw [hfloor] at h
    cases h
    obtain ⟨decision, quantity, hdecision, hdecided, hquantity⟩ :=
      approved_before_increment hfloor happroved hstatus
    obtain ⟨reduced, hpos, hle, -, hsame, hreport⟩ := PaperContracts.approved_after_increment
      hdecision hdecided hquantity hfloor happroved hstatus
    exact ⟨by rw [hreport], decision, quantity, reduced, hdecision, hdecided, hquantity, hpos, hle,
      hsame⟩

theorem FiveReviews.supported {deadline : Option ℚ} {floor report : DeterministicReport}
    {instrument : Option Instrument} {ai : AIFloorReport} {calls : List Call}
    (h : FiveReviews deadline report ai calls)
    (hfloor : floor.applyPaperQuantityIncrement instrument = .ok report)
    (heligible : paperPolicy ai = true) : Supported deadline floor report ai calls := by
  obtain ⟨hready, decision, plan, review, hdecision, hplan, hreview, hstatus, hs, hl, hm, hr, ht⟩ :=
    paperPolicy_eq_true.mp heligible
  rw [h.finalStatus] at hready
  obtain ⟨hfloorReady, hadvice⟩ := finalStatus_ready hready
  obtain ⟨hsame, original, quantity, reduced, horiginal, hdecided, hquantity, hpos, hle,
    hreduced⟩ := approved_before hfloor (h.riskDecision ▸ hdecision) hstatus
  obtain ⟨structure_, liquidity, macro_, setup, trade, rfl, h1, h2, h3, h4, h5⟩ := h.parts
  obtain ⟨plan', hplan', h5⟩ := h5 review hreview
  obtain rfl : plan = plan' := Option.some.inj ((hplan.symm.trans h.tradePlan).trans hplan')
  -- Each review counts, so each of the five made exactly one call, and it was accepted.
  have hone : ∀ {request : AIRequest} {response : AIResponse} {calls : List Call},
      Reviewed deadline request response calls → response.Usable →
      ∃ call, calls = [call] ∧ call.request = request ∧
        ∃ given, Accepted deadline call given := by
    intro request response calls hreviewed husable
    obtain ⟨call, given, rfl, haccepted, -⟩ := hreviewed.accepted husable
    exact ⟨call, rfl, hreviewed.request call List.mem_cons_self, given, haccepted⟩
  obtain ⟨c1, rfl, hc1⟩ := hone h1 hs
  obtain ⟨c2, rfl, hc2⟩ := hone h2 hl
  obtain ⟨c3, rfl, hc3⟩ := hone h3 hm
  obtain ⟨c4, rfl, hc4⟩ := hone h4 hr
  obtain ⟨c5, rfl, hc5⟩ := hone h5 ht
  refine ⟨hfloorReady, hadvice, ?_, plan, hsame ▸ hplan', hplan, ?_⟩
  · exact ⟨original, quantity, reduced, horiginal, hdecided, hquantity, hpos, hle,
      decision.capitalAtRisk, by rw [hdecision, ← hreduced]⟩
  · exact .cons hc1 (.cons hc2 (.cons hc3 (.cons hc4 (.cons hc5 .nil))))

/-! ## A cycle -/

/-- What a cycle hands on, and the calls it made: those of a first run that was done again,
and the reviews of the report that it goes on with. -/
structure Handed (deadline : Option ℚ) (instrument : Option Instrument)
    (first rerun : Except String DeterministicReport) (c : Cycle)
    (result : DeterministicReport × AIFloorReport) : Prop where
  reviews : ∃ floor earlier calls, (first = .ok floor ∨ rerun = .ok floor) ∧
    floor.applyPaperQuantityIncrement instrument = .ok result.1 ∧
    c.calls = earlier ++ calls ∧ FiveReviews deadline result.1 result.2 calls

section Cycle

variable {outside : Outside} {deadline : Option ℚ} {instrument : Option Instrument}
  {first rerun : Except String DeterministicReport} {pending : Bool}

theorem macroReviewMatters_spec {ai : AIFloorReport} {report : DeterministicReport} {c : Cycle} :
    (macroReviewMatters pending ai report).Ensures c (fun _ c' => c' = c) := by
  unfold macroReviewMatters
  by_cases hmacro : ai.aiMacro.status ≠ "NO_DATA"
  · rw [if_pos hmacro]
    exact Fallible.ensures_pure rfl
  rw [if_neg hmacro]
  by_cases hready : report.finalStatus = "PLAN_READY"
  · rw [if_pos hready]
    exact Fallible.ensures_pure rfl
  · rw [if_neg hready]
    exact Fallible.ensures_access rfl rfl

theorem retryMacroReview_spec {report : DeterministicReport} {ai : AIFloorReport} {c : Cycle}
    (h : Orderly deadline c) (hhanded : Handed deadline instrument first rerun c (report, ai)) :
    (retryMacroReview outside deadline instrument rerun report ai).Ensures c
      (Fallible.Returns (fun r c' => Orderly deadline c' ∧
          Handed deadline instrument first rerun c' (r.1, r.2.1))
        (fun _ c' => Orderly deadline c')) := by
  unfold retryMacroReview
  refine Fallible.ensures_ofExcept_bind (fun floor hfloor => ?_) (fun _ _ => h)
  refine Fallible.ensures_ofExcept_bind (fun retried hretried => ?_) (fun _ _ => h)
  by_cases husable : macroUsable retried.macroNewsReport = true
  · rw [if_pos husable]
    have hcleared : Orderly deadline { c with audit := [] } := h.congr rfl rfl le_rfl
    refine Fallible.ensures_modify_bind (Fallible.Ensures.bind ?_)
    refine (run_spec hcleared).mono fun r c' hr => ?_
    cases r with
    | error e => exact hr
    | ok retriedAi =>
      obtain ⟨horderly, calls, hcalls, hfive⟩ := hr
      exact Fallible.ensures_pure
        ⟨horderly, floor, c.calls, calls, Or.inr hfloor, hretried, hcalls, hfive⟩
  · rw [if_neg husable]
    exact Fallible.ensures_pure ⟨h, hhanded⟩

/-- One cycle, from its start. -/
theorem aiCycle_spec (now : ℚ) :
    (aiCycle outside deadline instrument first rerun pending).Ensures { now := now }
      (Fallible.Returns
        (fun r c => Orderly deadline c ∧ Handed deadline instrument first rerun c r)
        (fun _ c => Orderly deadline c)) := by
  have hstart := orderly_start deadline now
  unfold aiCycle
  refine Fallible.ensures_ofExcept_bind (fun floor hfloor => ?_) (fun _ _ => hstart)
  refine Fallible.ensures_ofExcept_bind (fun report hreport => ?_) (fun _ _ => hstart)
  refine Fallible.Ensures.bind ((run_spec hstart).mono fun r c hr => ?_)
  cases r with
  | error e => exact hr
  | ok ai =>
  obtain ⟨horderly, calls, hcalls, hfive⟩ := hr
  have hhanded : Handed deadline instrument first rerun c (report, ai) :=
    ⟨floor, [], calls, Or.inl hfloor, hreport, hcalls, hfive⟩
  refine Fallible.Ensures.bind (macroReviewMatters_spec.mono fun r c' hc => ?_)
  subst hc
  cases r with
  | error e => exact horderly
  | ok matters =>
  cases matters with
  | false => exact Fallible.ensures_pure ⟨horderly, hhanded⟩
  | true =>
    refine Fallible.Ensures.bind ((retryMacroReview_spec horderly hhanded).mono fun r c hr => ?_)
    cases r with
    | error e => exact hr
    | ok result => exact Fallible.ensures_pure hr

/-- Whatever the provider does and however long it takes, the calls of a cycle follow one
another, and none starts at or after the deadline or after a final failure. A review of the
report that the cycle goes on with counts only as the answer, given in time and grounded in
the request of its own agent, to the one call made for it. An eligible plan is one that the
floor had ready and Risk approved, with all five reviews. -/
theorem ai_layer_fails_closed (outside : Outside) (deadline : Option ℚ)
    (instrument : Option Instrument) (first rerun : Except String DeterministicReport)
    (pending : Bool) (now : ℚ) (fails : ℕ → Bool) :
    let (result, _, c) := (aiCycle outside deadline instrument first rerun pending).run fails
      (0, { now := now })
    Orderly deadline c ∧
    ∀ report ai, result = .ok (report, ai) →
      ∃ floor earlier reviews, (first = .ok floor ∨ rerun = .ok floor) ∧
        floor.applyPaperQuantityIncrement instrument = .ok report ∧
        c.calls = earlier ++ reviews ∧ FiveReviews deadline report ai reviews ∧
        (paperPolicy ai = true → Supported deadline floor report ai reviews) := by
  have hspec := @aiCycle_spec outside deadline instrument first rerun pending now fails 0
  change Fallible.Returns _ _
    ((aiCycle outside deadline instrument first rerun pending).run fails (0, { now := now })).1
    ((aiCycle outside deadline instrument first rerun pending).run fails (0, { now := now })).2.2
    at hspec
  revert hspec
  generalize (aiCycle outside deadline instrument first rerun pending).run fails
    (0, { now := now }) = out
  obtain ⟨result, n, c⟩ := out
  intro hspec
  cases result with
  | error e => exact ⟨hspec, fun _ _ hno => by simp at hno⟩
  | ok r =>
    obtain ⟨horderly, floor, earlier, reviews, hfloor, hreport, hcalls, hfive⟩ := hspec
    refine ⟨horderly, fun report ai hresult => ?_⟩
    obtain rfl : r = (report, ai) := Except.ok.inj hresult
    exact ⟨floor, earlier, reviews, hfloor, hreport, hcalls, hfive, hfive.supported hreport⟩

/-! ### A cycle that ends with an eligible plan -/

/-- A provider that agrees with everything within two seconds. -/
def agreeable : Outside where
  waits := fun _ _ => 1
  takes := fun _ _ => 2
  answers := fun _ request => .response
    { schemaVersion := AI_SCHEMA_VERSION, runId := request.runId, asOf := request.asOf
      symbol := request.symbol, agentName := request.agentName, status := "OK"
      supportingEvidence := evidenceIds request.deterministicEvidence }

def samplePlan : TradePlan where
  symbol := "EURUSD"
  side := .long
  entry := 100
  stop := 99
  target := 103
  riskReward := 3
  runId := some "run"
  asOf := some 600
  policyVersion := none

def sampleDecision : RiskDecision where
  status := .approved
  symbol := "EURUSD"
  side := .long
  quantity := some (5 / 2)
  capitalAtRisk := some (5 / 2)
  entry := 100
  stop := 99
  target := 103
  reason := "approved"

def sampleMessage {π : Type} (payload : π) : AgentMessage π where
  runId := "run"
  timestamp := 600
  symbol := "EURUSD"
  timeframe := "5m"
  status := .ok
  evidence := some payload

def sampleFloor : DeterministicReport where
  runId := "run"
  symbol := "EURUSD"
  finalStatus := "PLAN_READY"
  tradePlan := some samplePlan
  riskDecision := some sampleDecision
  setupAssessment := none
  asOf := 600
  structureReports := [("5m", sampleMessage ⟨some "bullish", .null, true, false⟩)]
  liquidityReports := [("5m", sampleMessage ⟨1, 0, 2, 0⟩)]
  macroNewsReport := some (sampleMessage ⟨[.obj [("title", .str "CPI")]], []⟩)
  setup := some ⟨"VALID_SETUP", some .long⟩
  invalidation := .num 99
  warnings := []

/-- With two seconds for each answer and a second before it, the five reviews end in time. -/
example : ((aiCycle agreeable (some 120) (some ⟨"EURUSD", some 1, some 1, some 1⟩)
    (.ok sampleFloor) (.error "unused") false).run (fun _ => false) (0, { now := 0 })).1.toOption.map
      (fun result => paperPolicy result.2) = some true := by decide +kernel

end Cycle

end MarketSystem.Ai
