import MarketSystem.Library.Json
import MarketSystem.Library.Refusal
import MarketSystem.Execution.Contracts

/-!
# Contracts of the advisory reviews

What an agent asks and what a provider may answer. An answer counts only when it names the
request it is for and cites nothing but the evidence that the request carries.
-/
namespace MarketSystem.Ai

open Library

def AI_SCHEMA_VERSION : String := "1.0"

def VALID_AI_STATUSES : List String := ["OK", "PARTIAL", "NO_DATA", "ERROR"]

def VALID_BIAS : List String := ["BULLISH", "BEARISH", "NEUTRAL", "UNKNOWN"]

def VALID_RECOMMENDATIONS : List String :=
  ["AGREE", "CAUTION", "DISAGREE", "INSUFFICIENT_DATA", "ACCEPT", "REJECT_RECOMMENDATION"]

def VALID_FLOOR_STATUSES : List String :=
  ["NO_DATA", "NO_SETUP", "WATCH", "AI_CAUTION", "RISK_REJECTED", "PLAN_READY", "ERROR"]

structure AIRequest where
  schemaVersion : String
  runId : String
  asOf : Instant
  symbol : String
  agentName : String
  role : String
  marketContext : Json
  deterministicEvidence : List Json
  allowedActions : List String
  /-- The names of the constraints, all of which are set. -/
  constraints : List String
  promptVersion : String

structure AIResponse where
  schemaVersion : String
  runId : String
  asOf : Instant
  symbol : String
  agentName : String
  status : String
  bias : String := "UNKNOWN"
  /-- `none` for whatever is no finite number. -/
  confidence : Option ℚ := some 0
  recommendation : Option String := none
  supportingEvidence : List String := []
  conflictingEvidence : List String := []
  warnings : List String := []
  modelMetadata : Json := .obj []

/-- A review that counts as given. -/
def AIResponse.Usable (response : AIResponse) : Prop :=
  response.status = "OK" ∨ response.status = "PARTIAL"

instance (response : AIResponse) : Decidable response.Usable :=
  inferInstanceAs (Decidable (response.status = "OK" ∨ response.status = "PARTIAL"))

/-- `evidence_ids`; an id that is no text is none that a response can cite. -/
def evidenceIds (deterministicEvidence : List Json) : List String :=
  deterministicEvidence.filterMap (fun item => (item.get "evidence_id").str?)

/-- The confidence is a number between zero and one. -/
def confidenceValid : Option ℚ → Bool
  | some confidence => decide (0 ≤ confidence ∧ confidence ≤ 1)
  | none => false

/-- `validate_ai_response`; an `error` is the reason of a rejection. -/
def validateAiResponse (response : AIResponse) (request : AIRequest) : Except String Unit := do
  let allowed := evidenceIds request.deterministicEvidence
  require (response.schemaVersion = AI_SCHEMA_VERSION) "invalid_schema_version"
  require (response.runId = request.runId) "run_id_mismatch"
  require (response.symbol = request.symbol) "symbol_mismatch"
  require (response.agentName = request.agentName) "agent_mismatch"
  require (response.asOf = request.asOf) "as_of_mismatch"
  require (response.status ∈ VALID_AI_STATUSES) "invalid_status"
  require (response.bias ∈ VALID_BIAS) "invalid_bias"
  require (response.recommendation.all (fun r => r ∈ VALID_RECOMMENDATIONS))
    "invalid_recommendation"
  require (confidenceValid response.confidence) "invalid_confidence"
  require (response.supportingEvidence.all (fun id => id ∈ allowed))
    "ungrounded_supporting_evidence"
  require (response.conflictingEvidence.all (fun id => id ∈ allowed))
    "ungrounded_conflicting_evidence"

/-- The response is about the request and rests on nothing else. -/
structure Grounded (response : AIResponse) (request : AIRequest) : Prop where
  schemaVersion : response.schemaVersion = AI_SCHEMA_VERSION
  runId : response.runId = request.runId
  symbol : response.symbol = request.symbol
  agentName : response.agentName = request.agentName
  asOf : response.asOf = request.asOf
  status : response.status ∈ VALID_AI_STATUSES
  bias : response.bias ∈ VALID_BIAS
  recommendation : ∀ r ∈ response.recommendation, r ∈ VALID_RECOMMENDATIONS
  confidence : ∃ c, response.confidence = some c ∧ 0 ≤ c ∧ c ≤ 1
  supportingEvidence : ∀ id ∈ response.supportingEvidence,
    id ∈ evidenceIds request.deterministicEvidence
  conflictingEvidence : ∀ id ∈ response.conflictingEvidence,
    id ∈ evidenceIds request.deterministicEvidence

theorem confidenceValid_iff {confidence : Option ℚ} :
    confidenceValid confidence = true ↔ ∃ c, confidence = some c ∧ 0 ≤ c ∧ c ≤ 1 := by
  cases confidence with
  | none => simp [confidenceValid]
  | some c => simp [confidenceValid]

/-- The validation accepts exactly the grounded responses. -/
theorem validateAiResponse_ok_iff {response : AIResponse} {request : AIRequest} :
    validateAiResponse response request = .ok () ↔ Grounded response request := by
  unfold validateAiResponse
  simp only [bind_eq_ok, require_eq_ok, decide_eq_true_eq, confidenceValid_iff, List.all_eq_true,
    exists_and_left, exists_const]
  have hrecommendation : response.recommendation.all (fun r => decide (r ∈ VALID_RECOMMENDATIONS))
      = true ↔ ∀ r ∈ response.recommendation, r ∈ VALID_RECOMMENDATIONS := by
    cases response.recommendation with
    | none => simp
    | some r => simp
  rw [hrecommendation]
  constructor
  · rintro ⟨h1, h2, h3, h4, h5, h6, h7, h8, h9, h10, h11⟩
    exact ⟨h1, h2, h3, h4, h5, h6, h7, h8, h9, h10, h11⟩
  · rintro ⟨h1, h2, h3, h4, h5, h6, h7, h8, h9, h10, h11⟩
    exact ⟨h1, h2, h3, h4, h5, h6, h7, h8, h9, h10, h11⟩

end MarketSystem.Ai
