import MarketSystem.Ai.Contracts
import MarketSystem.Library.Fallible
import Mathlib.Data.NNRat.Defs

/-!
# Calls of the advisory agents

Every agent goes through `callAgent`: a provider failure, a late answer and an answer that
is not grounded all come back as an ERROR response. The guard of a cycle keeps a budget of
time and trips on a failure that another call cannot repair.

What the provider does is `Outside`: its answers, and the time that each of them takes,
depend in any way on what was asked before.
-/
namespace MarketSystem.Ai

open Library

inductive Outcome
  | ok
  | noData
  | authError
  | rateLimited
  | quotaExhausted
  | modelUnavailable
  | timeout
  | connectionError
  | invalidResponse
  | invalidSchema
  | ungroundedResponse
  | providerFailure
  | unknownProviderError
  | modelReportedError
  | notConfigured
  | aiTimeBudgetExhausted
  | shortCircuited
  deriving DecidableEq, Repr

def Outcome.text : Outcome → String
  | .ok => "OK"
  | .noData => "NO_DATA"
  | .authError => "AUTH_ERROR"
  | .rateLimited => "RATE_LIMITED"
  | .quotaExhausted => "QUOTA_EXHAUSTED"
  | .modelUnavailable => "MODEL_UNAVAILABLE"
  | .timeout => "TIMEOUT"
  | .connectionError => "CONNECTION_ERROR"
  | .invalidResponse => "INVALID_RESPONSE"
  | .invalidSchema => "INVALID_SCHEMA"
  | .ungroundedResponse => "UNGROUNDED_RESPONSE"
  | .providerFailure => "PROVIDER_FAILURE"
  | .unknownProviderError => "UNKNOWN_PROVIDER_ERROR"
  | .modelReportedError => "MODEL_REPORTED_ERROR"
  | .notConfigured => "NOT_CONFIGURED"
  | .aiTimeBudgetExhausted => "AI_TIME_BUDGET_EXHAUSTED"
  | .shortCircuited => "SHORT_CIRCUITED"

/-- `NON_TRANSIENT`: another call in the same cycle cannot succeed. -/
def Outcome.NonTransient (o : Outcome) : Prop :=
  o = .authError ∨ o = .quotaExhausted ∨ o = .modelUnavailable ∨ o = .notConfigured

instance (o : Outcome) : Decidable o.NonTransient :=
  inferInstanceAs (Decidable (_ ∨ _ ∨ _ ∨ _))

def OUTCOME_WARNING_PREFIX : String := "ai_outcome:"

/-- The warning that carries a typed outcome. -/
def Outcome.warning (o : Outcome) : String := OUTCOME_WARNING_PREFIX ++ o.text

/-- What a failing provider raised, as far as it is read. -/
structure ProviderError where
  typeName : String
  kind : Option String := none
  timedOut : Bool := false
  deriving DecidableEq

/-- `_PROVIDER_KINDS`. -/
def PROVIDER_KINDS : List (String × Outcome) :=
  [("AUTH_ERROR", .authError), ("RATE_LIMITED", .rateLimited),
    ("QUOTA_EXHAUSTED", .quotaExhausted), ("MODEL_UNAVAILABLE", .modelUnavailable),
    ("INCOMPLETE_RESPONSE", .invalidResponse), ("INVALID_STRUCTURED_RESPONSE", .invalidResponse),
    ("PROVIDER_ERROR", .providerFailure), ("NOT_CONFIGURED", .notConfigured),
    ("AI_TIME_BUDGET_EXHAUSTED", .aiTimeBudgetExhausted), ("SHORT_CIRCUITED", .shortCircuited)]

/-- `classify_exception`. -/
def classifyException (error : ProviderError) : Outcome :=
  match error.kind with
  | none => .unknownProviderError
  | some kind =>
      if kind = "CONNECTION_ERROR" then if error.timedOut then .timeout else .connectionError
      else (PROVIDER_KINDS.lookup kind).getD .unknownProviderError

/-- `classify_validation`. -/
def classifyValidation (reason : String) : Outcome :=
  if reason.startsWith "ungrounded_" then .ungroundedResponse else .invalidSchema

/-- What a call of the provider comes back with. -/
inductive Answer
  | raised (error : ProviderError)
  | response (response : AIResponse)
  /-- Something that is no `AIResponse`. -/
  | other
  /-- An `AIResponse` with a field of a wrong type, on which its validation raises. -/
  | unreadable

/-- A call that reached the provider, with the readings of the clock around it. -/
structure Call where
  request : AIRequest
  sentAt : ℚ
  answer : Answer
  returnedAt : ℚ

/-- An entry of `AuditLog`. -/
structure AuditEntry where
  runId : String
  agentName : String
  promptVersion : String
  evidenceIds : List Json
  response : AIResponse
  validation : String
  outcome : Outcome
  called : Bool

/-- One cycle: the clock, what tripped the guard, the calls made and the audit. -/
structure Cycle where
  now : ℚ
  tripped : Option Outcome := none
  calls : List Call := []
  audit : List AuditEntry := []

/-- Everything that the program does not decide. -/
structure Outside where
  /-- The time that passes before the agent is asked. -/
  waits : List Call → AIRequest → ℚ≥0
  answers : List Call → AIRequest → Answer
  takes : List Call → AIRequest → ℚ≥0

section Runtime

variable (outside : Outside) (deadline : Option ℚ)

/-- The provider is asked now. -/
def Outside.ask (c : Cycle) (request : AIRequest) : Call where
  request := request
  sentAt := c.now
  answer := outside.answers c.calls request
  returnedAt := c.now + outside.takes c.calls request

def Cycle.returned (c : Cycle) (call : Call) : Cycle :=
  { c with calls := c.calls ++ [call], now := call.returnedAt }

/-- `AIGuardError`. -/
def guardError (kind : Outcome) : Answer :=
  .raised { typeName := "AIGuardError", kind := some kind.text }

/-- `GuardedProvider.generate` where the cycle has a deadline, else the provider's own. -/
def generate (request : AIRequest) (c : Cycle) : Answer × Cycle :=
  let c := { c with now := c.now + outside.waits c.calls request }
  let call := outside.ask c request
  match deadline with
  | none => (call.answer, c.returned call)
  | some deadline =>
      if c.tripped ≠ none then (guardError .shortCircuited, c)
      else if deadline ≤ c.now then (guardError .aiTimeBudgetExhausted, c)
      else
        let c := c.returned call
        match call.answer with
        | .raised error =>
            let outcome := classifyException error
            (.raised error, if outcome.NonTransient then { c with tripped := some outcome } else c)
        | answer =>
            if deadline ≤ call.returnedAt then (guardError .aiTimeBudgetExhausted, c)
            else (answer, c)

/-- `has_usable_evidence`. -/
def hasUsableEvidence (request : AIRequest) : Bool :=
  request.deterministicEvidence.any Json.isObj

/-- `_error_response`. -/
def errorResponse (request : AIRequest) (warnings : List String) : AIResponse where
  schemaVersion := AI_SCHEMA_VERSION
  runId := request.runId
  asOf := request.asOf
  symbol := request.symbol
  agentName := request.agentName
  status := "ERROR"
  warnings := warnings

/-- `_no_data_response`. -/
def noDataResponse (request : AIRequest) : AIResponse where
  schemaVersion := AI_SCHEMA_VERSION
  runId := request.runId
  asOf := request.asOf
  symbol := request.symbol
  agentName := request.agentName
  status := "NO_DATA"

/-- What `call_agent` makes of an answer: the response, the reason of its validation and the
outcome. An `error` is an exception that leaves `call_agent`. -/
def judge (request : AIRequest) : Answer → Except String (AIResponse × String × Outcome)
  | .raised error =>
      let outcome := classifyException error
      .ok (errorResponse request ["provider_exception:" ++ error.typeName, outcome.warning],
        "provider_exception", outcome)
  | .other =>
      let outcome := classifyValidation "invalid_response_type"
      .ok (errorResponse request ["invalid_response_type", outcome.warning],
        "invalid_response_type", outcome)
  | .unreadable => .error "TypeError"
  | .response response =>
      match validateAiResponse response request with
      | .error reason =>
          let outcome := classifyValidation reason
          .ok (errorResponse request [reason, outcome.warning], reason, outcome)
      | .ok () =>
          if response.status = "ERROR" then
            .ok ({ response with
              warnings := response.warnings ++ [Outcome.modelReportedError.warning] },
              "ok", .modelReportedError)
          else .ok (response, "ok", if response.status = "NO_DATA" then .noData else .ok)

/-- `AuditLog.record`. -/
def Cycle.record (c : Cycle) (request : AIRequest) (response : AIResponse) (validation : String)
    (outcome : Outcome) (called : Bool) : Cycle :=
  let entry : AuditEntry :=
    { runId := request.runId
      agentName := request.agentName
      promptVersion := request.promptVersion
      evidenceIds := (request.deterministicEvidence.filter Json.isObj).map (·.get "evidence_id")
      response := response
      validation := validation
      outcome := outcome
      called := called }
  { c with audit := c.audit ++ [entry] }

/-- `call_agent`. -/
def callAgent (request : AIRequest) : Fallible Cycle AIResponse := do
  if hasUsableEvidence request = false then
    let response := noDataResponse request
    Fallible.modify (·.record request response "skipped_no_data" .noData false)
    pure response
  else
    let answer ← Fallible.act (generate outside deadline request)
    let (response, validation, outcome) ← Fallible.ofExcept (judge request answer)
    Fallible.modify (·.record request response validation outcome true)
    pure response

end Runtime

/-! ## What one call establishes -/

/-- The provider failed in a way that trips the guard. -/
def Call.Trips (call : Call) : Prop :=
  ∃ error, call.answer = .raised error ∧ (classifyException error).NonTransient

/-- The answer of the call is a review that counts. -/
structure Accepted (deadline : Option ℚ) (call : Call) (response : AIResponse) : Prop where
  answer : call.answer = .response response
  grounded : Grounded response call.request
  usable : response.Usable
  inTime : ∀ d ∈ deadline, call.returnedAt < d

/-- The calls of a cycle follow one another. Under a guard none starts at or after the
deadline, and none follows a call that tripped the guard. -/
structure Orderly (deadline : Option ℚ) (c : Cycle) : Prop where
  sequential : c.calls.Pairwise (fun a b => a.returnedAt ≤ b.sentAt)
  lasts : ∀ call ∈ c.calls, call.sentAt ≤ call.returnedAt
  past : ∀ call ∈ c.calls, call.returnedAt ≤ c.now
  inTime : ∀ d ∈ deadline, ∀ call ∈ c.calls, call.sentAt < d
  trippedLast : deadline.isSome → c.calls.Pairwise (fun a _ => ¬ a.Trips)
  untripped : deadline.isSome → c.tripped = none → ∀ call ∈ c.calls, ¬ call.Trips

theorem orderly_start (deadline : Option ℚ) (now : ℚ) : Orderly deadline { now := now } where
  sequential := List.Pairwise.nil
  lasts := fun _ h => absurd h List.not_mem_nil
  past := fun _ h => absurd h List.not_mem_nil
  inTime := fun _ _ _ h => absurd h List.not_mem_nil
  trippedLast := fun _ => List.Pairwise.nil
  untripped := fun _ _ _ h => absurd h List.not_mem_nil

section Call

variable {outside : Outside} {deadline : Option ℚ} {request : AIRequest} {c c' : Cycle}

theorem Orderly.congr (h : Orderly deadline c) (hcalls : c'.calls = c.calls)
    (htripped : c'.tripped = c.tripped) (hnow : c.now ≤ c'.now) : Orderly deadline c' where
  sequential := hcalls ▸ h.sequential
  lasts := hcalls ▸ h.lasts
  past := fun call hcall => (h.past call (hcalls ▸ hcall)).trans hnow
  inTime := hcalls ▸ h.inTime
  trippedLast := hcalls ▸ h.trippedLast
  untripped := by rw [hcalls, htripped]; exact h.untripped

/-- The provider is asked when the guard lets it. -/
theorem Orderly.asked (h : Orderly deadline c) (hguard : ∀ d ∈ deadline, c.now < d)
    (htripped : deadline.isSome → c.tripped = none) {tripped : Option Outcome}
    (hkept : deadline.isSome → tripped = none → ¬ (outside.ask c request).Trips) :
    Orderly deadline { c.returned (outside.ask c request) with tripped := tripped } := by
  have hnow : c.now ≤ (outside.ask c request).returnedAt :=
    le_add_of_nonneg_right (outside.takes c.calls request).coe_nonneg
  have hmem : ∀ {P : Call → Prop}, (∀ call ∈ c.calls, P call) → P (outside.ask c request) →
      ∀ call ∈ c.calls ++ [outside.ask c request], P call := by
    intro P hold hnew call hcall
    rcases List.mem_append.mp hcall with hcall | hcall
    · exact hold call hcall
    · rw [List.mem_singleton.mp hcall]
      exact hnew
  constructor
  · refine List.pairwise_append.mpr ⟨h.sequential, List.pairwise_singleton _ _, ?_⟩
    intro a ha b hb
    rw [List.mem_singleton.mp hb]
    exact h.past a ha
  · exact hmem h.lasts hnow
  · exact hmem (fun call hcall => (h.past call hcall).trans hnow) le_rfl
  · exact fun d hd => hmem (h.inTime d hd) (hguard d hd)
  · intro hd
    refine List.pairwise_append.mpr ⟨h.trippedLast hd, List.pairwise_singleton _ _, ?_⟩
    exact fun a ha _ _ => h.untripped hd (htripped hd) a ha
  · exact fun hd hnone => hmem (h.untripped hd (htripped hd)) (hkept hd hnone)

/-- What asking the provider for one agent does: at most one call, which is for this request,
and an answer of the provider is one that came in time. -/
structure Generated (deadline : Option ℚ) (request : AIRequest) (c c' : Cycle) (answer : Answer) :
    Prop where
  orderly : Orderly deadline c'
  audit : c'.audit = c.audit
  cases : (c'.calls = c.calls ∧ ∀ response, answer ≠ .response response) ∨
    ∃ call, c'.calls = c.calls ++ [call] ∧ call.request = request ∧
      ∀ response, answer = .response response →
        call.answer = answer ∧ ∀ d ∈ deadline, call.returnedAt < d

theorem raised_ne_response (error : ProviderError) (response : AIResponse) :
    Answer.raised error ≠ .response response := by simp

/-- An answer that is no failure counts when the clock is still before the deadline. -/
theorem Orderly.answered {d : ℚ} {answer : Answer} (h : Orderly (some d) c) (hguard : c.now < d)
    (htripped : c.tripped = none) (hanswer : (outside.ask c request).answer = answer)
    (hno : ∀ error, answer ≠ .raised error) :
    let (given, c') := if d ≤ (outside.ask c request).returnedAt
      then (guardError .aiTimeBudgetExhausted, c.returned (outside.ask c request))
      else (answer, c.returned (outside.ask c request))
    Generated (some d) request c c' given := by
  have hkept : ¬ (outside.ask c request).Trips := by
    rintro ⟨error, herror, -⟩
    exact hno error (hanswer ▸ herror)
  have horderly : Orderly (some d) (c.returned (outside.ask c request)) :=
    h.asked (fun d' hd' => by rwa [← Option.mem_some.mp hd']) (fun _ => htripped)
      (fun _ _ => hkept)
  by_cases hlate : d ≤ (outside.ask c request).returnedAt
  · rw [if_pos hlate]
    exact ⟨horderly, rfl, Or.inr ⟨outside.ask c request, rfl, rfl,
      fun r hr => absurd hr (raised_ne_response _ r)⟩⟩
  · rw [if_neg hlate]
    refine ⟨horderly, rfl, Or.inr ⟨outside.ask c request, rfl, rfl, fun r _ => ⟨hanswer, ?_⟩⟩⟩
    intro d' hd'
    rw [← Option.mem_some.mp hd']
    exact not_le.mp hlate

/-- A failure trips the guard exactly when it is not transient. -/
theorem Orderly.failed {d : ℚ} {error : ProviderError} (h : Orderly (some d) c)
    (hguard : c.now < d) (htripped : c.tripped = none)
    (hanswer : (outside.ask c request).answer = .raised error) :
    Generated (some d) request c
      (if (classifyException error).NonTransient then
        { c.returned (outside.ask c request) with tripped := some (classifyException error) }
      else c.returned (outside.ask c request)) (.raised error) := by
  have hguard' : ∀ d' ∈ some d, c.now < d' := fun d' hd' => by rwa [← Option.mem_some.mp hd']
  by_cases hfatal : (classifyException error).NonTransient
  · rw [if_pos hfatal]
    exact ⟨h.asked hguard' (fun _ => htripped) (fun _ hnone => by simp at hnone), rfl,
      Or.inr ⟨outside.ask c request, rfl, rfl, fun r hr => absurd hr (raised_ne_response _ r)⟩⟩
  · rw [if_neg hfatal]
    have hkept : ¬ (outside.ask c request).Trips := by
      rintro ⟨error', herror, hnon⟩
      rw [hanswer] at herror
      cases herror
      exact hfatal hnon
    have horderly : Orderly (some d) (c.returned (outside.ask c request)) :=
      h.asked hguard' (fun _ => htripped) (fun _ _ => hkept)
    exact ⟨horderly, rfl,
      Or.inr ⟨outside.ask c request, rfl, rfl, fun r hr => absurd hr (raised_ne_response _ r)⟩⟩

theorem Generated.congr {before : Cycle} {answer : Answer}
    (h : Generated deadline request before c' answer) (hcalls : before.calls = c.calls)
    (haudit : before.audit = c.audit) : Generated deadline request c c' answer :=
  ⟨h.orderly, h.audit.trans haudit, hcalls ▸ h.cases⟩

theorem generate_spec (h : Orderly deadline c) :
    Generated deadline request c (generate outside deadline request c).2
      (generate outside deadline request c).1 := by
  have hwait : c.now ≤ c.now + outside.waits c.calls request :=
    le_add_of_nonneg_right (outside.waits c.calls request).coe_nonneg
  let later : Cycle := { c with now := c.now + outside.waits c.calls request }
  have hlater : Orderly deadline later := h.congr rfl rfl hwait
  cases deadline with
  | none =>
    refine ⟨?_, rfl, Or.inr ⟨outside.ask later request, rfl, rfl, fun r hr => ⟨rfl, ?_⟩⟩⟩
    · exact hlater.asked (fun _ hd => by simp at hd) (fun hd => by simp at hd)
        (fun hd => by simp at hd)
    · exact fun _ hd => by simp at hd
  | some d =>
    unfold generate
    dsimp only
    by_cases htripped : c.tripped = none
    · rw [if_neg (not_not.mpr htripped)]
      by_cases hover : d ≤ c.now + outside.waits c.calls request
      · rw [if_pos hover]
        exact ⟨hlater, rfl, Or.inl ⟨rfl, raised_ne_response _⟩⟩
      · rw [if_neg hover]
        cases hanswer : (outside.ask later request).answer with
        | raised error =>
          exact (hlater.failed (not_le.mp hover) htripped hanswer).congr rfl rfl
        | response response =>
          exact (hlater.answered (not_le.mp hover) htripped hanswer (by simp)).congr rfl rfl
        | other =>
          exact (hlater.answered (not_le.mp hover) htripped hanswer (by simp)).congr rfl rfl
        | unreadable =>
          exact (hlater.answered (not_le.mp hover) htripped hanswer (by simp)).congr rfl rfl
    · rw [if_pos htripped]
      exact ⟨hlater, rfl, Or.inl ⟨rfl, raised_ne_response _⟩⟩

/-- A response that counts is the provider's own, grounded in the request. -/
theorem usable_of_judge {answer : Answer} {response : AIResponse} {validation : String}
    {outcome : Outcome} (h : judge request answer = .ok (response, validation, outcome))
    (husable : response.Usable) : answer = .response response ∧ Grounded response request := by
  have herror : ∀ warnings, ¬ (errorResponse request warnings).Usable := by
    intro warnings
    simp [AIResponse.Usable, errorResponse]
  cases answer with
  | raised error =>
    cases h
    exact absurd husable (herror _)
  | other =>
    cases h
    exact absurd husable (herror _)
  | unreadable => cases h
  | response given =>
    unfold judge at h
    dsimp only at h
    cases hvalid : validateAiResponse given request with
    | error reason =>
      rw [hvalid] at h
      cases h
      exact absurd husable (herror _)
    | ok u =>
      rw [hvalid] at h
      dsimp only at h
      by_cases hstatus : given.status = "ERROR"
      · rw [if_pos hstatus] at h
        cases h
        rcases husable with husable | husable
        · exact absurd (hstatus.symm.trans husable) (by decide)
        · exact absurd (hstatus.symm.trans husable) (by decide)
      · rw [if_neg hstatus] at h
        cases h
        exact ⟨rfl, validateAiResponse_ok_iff.mp hvalid⟩

/-- The calls that one review made: none or one, for its own request, and an accepted one when
the review counts. Annotating the response afterwards only touches its metadata. -/
structure Reviewed (deadline : Option ℚ) (request : AIRequest) (response : AIResponse)
    (calls : List Call) : Prop where
  request : ∀ call ∈ calls, call.request = request
  length : calls.length ≤ 1
  accepted : response.Usable → ∃ call given, calls = [call] ∧ Accepted deadline call given ∧
    response = { given with modelMetadata := response.modelMetadata }

/-- What a review leaves behind. -/
def Leaves (deadline : Option ℚ) (request : AIRequest) (c : Cycle) (response : AIResponse)
    (c' : Cycle) : Prop :=
  Orderly deadline c' ∧ ∃ calls, c'.calls = c.calls ++ calls ∧
    Reviewed deadline request response calls

theorem callAgent_spec (h : Orderly deadline c) :
    (callAgent outside deadline request).Ensures c
      (Fallible.Returns (Leaves deadline request c) (fun _ c' => Orderly deadline c')) := by
  unfold callAgent
  by_cases hevidence : hasUsableEvidence request = false
  · rw [if_pos hevidence]
    refine Fallible.ensures_modify_bind (Fallible.ensures_pure ⟨h.congr rfl rfl le_rfl, [], ?_⟩)
    refine ⟨(List.append_nil _).symm, fun _ hcall => absurd hcall List.not_mem_nil,
      Nat.zero_le 1, fun husable => ?_⟩
    simp [AIResponse.Usable, noDataResponse] at husable
  · rw [if_neg hevidence]
    have hspec := @generate_spec outside deadline request c h
    refine Fallible.ensures_act_bind (Fallible.ensures_ofExcept_bind ?_ (fun _ _ => hspec.orderly))
    rintro ⟨response, validation, outcome⟩ hjudge
    refine Fallible.ensures_modify_bind (Fallible.ensures_pure ?_)
    refine ⟨hspec.orderly.congr rfl rfl le_rfl, ?_⟩
    rcases hspec.cases with ⟨hcalls, hno⟩ | ⟨call, hcalls, hrequest, hcall⟩
    · refine ⟨[], hcalls.trans (List.append_nil _).symm,
        fun _ hcall => absurd hcall List.not_mem_nil, Nat.zero_le 1, fun husable => ?_⟩
      exact absurd (usable_of_judge hjudge husable).1 (hno response)
    · refine ⟨[call], hcalls, by simpa using hrequest, le_rfl, fun husable => ?_⟩
      obtain ⟨hanswer, hgrounded⟩ := usable_of_judge hjudge husable
      obtain ⟨hsame, htime⟩ := hcall response hanswer
      exact ⟨call, response, rfl,
        ⟨hsame.trans hanswer, hrequest ▸ hgrounded, husable, htime⟩, rfl⟩

end Call

end MarketSystem.Ai
