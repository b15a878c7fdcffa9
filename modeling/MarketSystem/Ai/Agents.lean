import MarketSystem.Agents.Scouts
import MarketSystem.Ai.Runtime
import MarketSystem.Execution.PaperBroker
import Mathlib.Data.List.Dedup

/-!
# The advisory agents

Three specialists interpret what the scouts found, and two reviewers read the assessment and
the plan. A specialist adds to a response's metadata and changes nothing else of it.
-/
namespace MarketSystem.Ai

open Library RrContract
open Scouts (AgentMessage AgentStatus)

def TIMEFRAMES : List String := ["1h", "15m", "5m"]

/-- What the structure specialist reads of a payload; a field read for its truth is a `Bool`. -/
structure StructurePayload where
  bias : Option String
  structureState : Json
  bos : Bool
  retracement : Bool

/-- The numbers of entries that the liquidity specialist counts. -/
structure LiquidityPayload where
  sweeps : ℕ
  liquidityAbove : ℕ
  liquidityBelow : ℕ
  orderBlocks : ℕ

/-- The macro events and the news items, each an object. -/
structure MacroPayload where
  macroEvents : List Json
  newsItems : List Json

/-- `_payload`. -/
def payloadOf {π : Type} (message : Option (AgentMessage π)) : Option π :=
  message.bind (fun message =>
    if message.status = .ok ∨ message.status = .partialData then message.evidence else none)

/-- The evidence of the timeframes that have a payload. -/
def timeframeEvidence {π : Type} (entry : String → π → Json)
    (reports : List (String × AgentMessage π)) : List Json :=
  TIMEFRAMES.filterMap (fun timeframe =>
    (payloadOf (reports.lookup timeframe)).map (entry timeframe))

section Request

variable (runId : String) (asOf : Instant) (symbol : String)

/-- `AIRequest`, as each of the agents fills it in. -/
def agentRequest (agentName role : String) (marketContext : Json) (evidence : List Json)
    (allowedActions constraints : List String) : AIRequest where
  schemaVersion := AI_SCHEMA_VERSION
  runId := runId
  asOf := asOf
  symbol := symbol
  agentName := agentName
  role := role
  marketContext := marketContext
  deterministicEvidence := evidence
  allowedActions := allowedActions
  constraints := constraints
  promptVersion := "1.0"

/-! ## Structure -/

/-- `BIAS_MAP`. -/
def biasOf (bias : Option String) : String :=
  if bias = some "bullish" then "BULLISH"
  else if bias = some "bearish" then "BEARISH"
  else if bias = some "neutral" then "NEUTRAL"
  else "UNKNOWN"

def structureEntry (timeframe : String) (payload : StructurePayload) : Json :=
  .obj [("evidence_id", .str ("structure_" ++ timeframe)), ("timeframe", .str timeframe),
    ("bias", .str (biasOf payload.bias)), ("structure_state", payload.structureState),
    ("bos", .bool payload.bos), ("retracement", .bool payload.retracement)]

def timeframesContext : Json := .obj [("timeframes", .arr (TIMEFRAMES.map .str))]

/-- `structure_ai.build_request`. -/
def structureRequest (reports : List (String × AgentMessage StructurePayload)) : AIRequest :=
  agentRequest runId asOf symbol "structure_ai" "structure_specialist" timeframesContext
    (timeframeEvidence structureEntry reports) ["interpret_structure"] ["no_new_price_evidence"]

/-- The alignment of the timeframes and the quality of the structure. -/
def structureQuality (evidence : List Json) : String × String :=
  let biases := (evidence.filterMap (fun item => (item.get "bias").str?)).filter
    (fun bias => bias = "BULLISH" ∨ bias = "BEARISH")
  if evidence.isEmpty then ("unknown", "none")
  else if biases.length = evidence.length ∧ biases.dedup.length = 1 then
    ("aligned", if evidence.length = TIMEFRAMES.length then "high" else "partial")
  else ("mixed", "partial")

/-! ## Liquidity -/

def liquidityEntry (timeframe : String) (payload : LiquidityPayload) : Json :=
  .obj [("evidence_id", .str ("liquidity_" ++ timeframe)), ("timeframe", .str timeframe),
    ("sweeps", .num payload.sweeps), ("liquidity_above", .num payload.liquidityAbove),
    ("liquidity_below", .num payload.liquidityBelow), ("order_blocks", .num payload.orderBlocks)]

/-- `liquidity_ai.build_request`. -/
def liquidityRequest (reports : List (String × AgentMessage LiquidityPayload)) : AIRequest :=
  agentRequest runId asOf symbol "liquidity_ai" "liquidity_specialist" timeframesContext
    (timeframeEvidence liquidityEntry reports) ["interpret_liquidity"] ["no_new_order_blocks"]

/-- A count that is there and is not zero. -/
def counted : Json → Bool
  | .num count => decide (count ≠ 0)
  | _ => false

def liquidityQuality (evidence : List Json) : String :=
  if evidence.any (fun item => counted (item.get "sweeps") || counted (item.get "liquidity_above")
    || counted (item.get "liquidity_below")) then "signal_present"
  else if evidence.isEmpty then "none"
  else "evidence_only"

/-! ## Macro and news -/

def isText (item : Json) (key text : String) : Bool := decide ((item.get key).str? = some text)

def macroEntry (index : ℕ) (event : Json) : Json :=
  .obj [("evidence_id", .str ("macro_event_" ++ toString index)), ("kind", .str "macro_event"),
    ("title", event.get "title"), ("category", event.get "category"),
    ("currency", event.get "currency"), ("impact", event.get "impact"),
    ("window", event.get "window"),
    ("high_impact_active_window",
      .bool (isText event "impact" "HIGH" && isText event "window" "ACTIVE_WINDOW"))]

def newsEntry (index : ℕ) (item : Json) : Json :=
  .obj [("evidence_id", .str ("news_item_" ++ toString index)), ("kind", .str "news_item"),
    ("headline", item.get "headline"), ("category", item.get "category"),
    ("window", item.get "window")]

/-- `macro_ai.build_request`. -/
def macroRequest (report : Option (AgentMessage MacroPayload)) : AIRequest :=
  let evidence := match payloadOf report with
    | none => []
    | some payload => payload.macroEvents.mapIdx macroEntry ++ payload.newsItems.mapIdx newsEntry
  agentRequest runId asOf symbol "macro_ai" "macro_specialist" (.obj [("scope", .str "macro_news")])
    evidence ["interpret_macro_context"] ["no_new_events", "no_invented_impact"]

def elevatedRisk : String := "elevated_risk_environment"

/-- The fact that a piece of the macro evidence states. -/
def factOf (item : Json) : Json :=
  .obj [("evidence_id", item.get "evidence_id"), ("category", item.get "category"),
    ("impact", item.get "impact")]

def isTrue : Json → Bool
  | .bool b => b
  | _ => false

def macroMetadata (evidence : List Json) : List (String × Json) :=
  let active := evidence.any (fun item => isTrue (item.get "high_impact_active_window"))
  [("facts", .arr (evidence.map factOf)),
    ("interpretation", .str (if active then elevatedRisk else "no_elevated_risk_flagged"))]

/-! ## The reviewers -/

/-- The bias entry of a specialist that responded, with one more field. -/
def biasEntry (name : String) (response : AIResponse) (field : String × Json) : Json :=
  .obj [("evidence_id", .str ("ai_" ++ name ++ "_bias")), ("bias", .str response.bias), field]

def sideText : Side → String
  | .long => "LONG"
  | .short => "SHORT"

/-- What the setup reviewer reads of the assessment. -/
structure SetupView where
  status : String
  side : Option Side

/-- `setup_reviewer_ai.build_request`. -/
def setupReviewRequest (setup : Option SetupView)
    (aiStructure aiLiquidity aiMacro : AIResponse) : AIRequest :=
  let status : String × AIResponse → Json := fun (name, response) =>
    biasEntry name response ("status", .str response.status)
  agentRequest runId asOf symbol "setup_reviewer_ai" "setup_reviewer"
    (.obj [("stage", .str "setup_review")])
    (.obj [("evidence_id", .str "setup_status"),
        ("status", .ofOption (setup.map SetupView.status)),
        ("side", .ofOption ((setup.bind SetupView.side).map sideText))] ::
      [("structure", aiStructure), ("liquidity", aiLiquidity), ("macro", aiMacro)].map status)
    ["agree", "caution", "disagree", "insufficient_data"] ["cannot_change_setup_status"]

/-- `trade_reviewer_ai.build_request`, for a plan with the text of its invalidation. -/
def tradeReviewRequest (plan : TradePlan) (invalidation : Json)
    (aiStructure aiLiquidity aiMacro : AIResponse) : AIRequest :=
  let window : String × AIResponse → Json := fun (name, response) =>
    biasEntry name response ("high_impact_active_window",
      .bool (isText response.modelMetadata "interpretation" elevatedRisk))
  agentRequest runId asOf symbol "trade_reviewer_ai" "trade_reviewer"
    (.obj [("stage", .str "trade_review")])
    (.obj ([("evidence_id", .str "trade_plan"), ("side", .str (sideText plan.side)),
        ("risk_reward", .num plan.riskReward)]
        ++ (plan.policyVersion.map (fun policy => ("rr_policy", Json.str policy.name))).toList
        ++ [("invalidation", invalidation)]) ::
      [("structure", aiStructure), ("liquidity", aiLiquidity), ("macro", aiMacro)].map window)
    ["accept", "caution", "reject_recommendation"]
    ["cannot_change_entry", "cannot_change_stop", "cannot_change_target", "cannot_change_quantity",
      "cannot_change_contract_multiplier", "cannot_change_equity", "cannot_change_risk_fraction"]

end Request

/-! ## Reviews -/

/-- A response with more metadata. -/
def AIResponse.annotate (response : AIResponse) (fields : List (String × Json)) : AIResponse :=
  { response with modelMetadata := response.modelMetadata.merge fields }

section Review

variable (outside : Outside) (deadline : Option ℚ)

/-- `review` of a specialist: the response, with what the evidence itself says. -/
def specialistReview (request : AIRequest) (metadata : List Json → List (String × Json)) :
    Fallible Cycle AIResponse := do
  let response ← callAgent outside deadline request
  pure (response.annotate (metadata request.deterministicEvidence))

/-- `structure_ai.review`. -/
def structureReview (request : AIRequest) : Fallible Cycle AIResponse :=
  specialistReview outside deadline request (fun evidence =>
    let (alignment, quality) := structureQuality evidence
    [("timeframe_alignment", .str alignment), ("structure_quality", .str quality)])

/-- `liquidity_ai.review`. -/
def liquidityReview (request : AIRequest) : Fallible Cycle AIResponse :=
  specialistReview outside deadline request (fun evidence =>
    [("liquidity_quality", .str (liquidityQuality evidence))])

/-- `macro_ai.review`. -/
def macroReview (request : AIRequest) : Fallible Cycle AIResponse :=
  specialistReview outside deadline request macroMetadata

end Review

end MarketSystem.Ai
