import MarketSystem.Execution.CandidateIdentity
import MarketSystem.Execution.PaperWriters
import MarketSystem.Execution.RiskDeterminism

/-!
# The conflict path

`submit_with_conflict_control` binds a run to one candidate and then decides it
once: BLOCKED, RISK_REJECTED or RESERVED. A negative decision is journaled in a
transaction that finds the PAPER state unchanged and the run undecided. An
approval is saved together with its order under the compare-and-swap alone.

That save does not look at the journal again, so it relies on every caller of the
run deciding alike on equal PAPER states.
-/
namespace MarketSystem.ConflictPath

open Library RrContract Database RiskEngine RiskReservation ConflictEngine CandidateIdentity

/-- `EVENT`. -/
def decisionEvent : String := "CONFLICT_DECISION"

/-- `STALE_EVENT`: an observation, never read as an outcome. -/
def staleEvent : String := "CONFLICT_ATTEMPT_STALE"

/-- `SOURCE`. -/
def source : String := "conflict_engine"

/-- `DECISIVE`. -/
def decisive : List String := ["BLOCKED", "RISK_REJECTED", "RESERVED"]

/-- `uuid4`: an id that no order of the portfolio it is drawn for carries. -/
structure Uuid4 where
  draw : Orders → String
  fresh : ∀ orders, ∀ o ∈ orders, o.orderId ≠ draw orders

/-- The arguments of one call. -/
structure Call where
  report : FloorReport
  instrument : Option Instrument
  accountId : String
  asOf : Instant
  ownerKey : Option String
  policy : RiskPolicy
  /-- What `drawdown_basis_scope` holds where the call is made. -/
  drawdownBasis : Option DrawdownBasis
  uuid4 : Uuid4

def Call.runId (call : Call) : String := call.report.runId

/-! ## Before any read -/

def fixedRrPolicy (policy : Option Policy) : Bool :=
  match policy with
  | some policy => fixedRr policy
  | none => false

/-- `candidate`: the setup id of a valid candidate, else the reason. -/
def candidate (report : FloorReport) : Except String String :=
  match report.tradePlan, report.setupAssessment with
  | some plan, some setup =>
      if report.finalStatus ≠ "PLAN_READY" then .error "not_a_plan_ready_report"
      else if fixedRrPolicy plan.policyVersion = false then .error "not_a_fixed_3r_plan"
      else if setup.status ≠ "VALID_SETUP" ∨ setup.symbol ≠ plan.symbol
          ∨ setup.symbol ≠ report.symbol ∨ setup.side ≠ plan.side
          ∨ plan.runId ≠ some report.runId then
        .error "candidate_lineage_invalid"
      else match setup.setupIdentity with
        | none => .error "setup_identity_unavailable"
        | some setupId =>
            if setup.explainedSetupId ≠ none ∧ setup.explainedSetupId ≠ some setupId then
              .error "setup_identity_unavailable"
            else .ok setupId
  | _, _ => .error "not_a_plan_ready_report"

/-- A call that passed every check on its arguments. -/
structure Submission where
  call : Call
  plan : TradePlan
  setupId : String
  fields : CandidateFields

/-- The checks of `submit_with_conflict_control` before the claim. -/
def Call.submission (call : Call) : Except String Submission :=
  if !stampsRegisteredSemantics call.policy then .error "RISK_POLICY_NOT_REGISTERED"
  else match candidate call.report with
    | .error invalid => .error invalid
    | .ok setupId =>
        match call.report.tradePlan, candidateFields call.report call.instrument call.accountId
            setupId call.policy with
        | some plan, some fields => .ok ⟨call, plan, setupId, fields⟩
        | _, _ => .error "candidate_identity_invalid"

/-! ## Reading the outcome of a run -/

def decisionOf (payload : Json) : String := ((payload.get "decision").str?).getD ""

/-- The decisive payloads of a run among journal rows, in their order. -/
def decisiveRows (journal : List JournalRow) (runId : String) : List Json :=
  journal.filterMap (fun row =>
    if row.eventType = decisionEvent ∧ row.runId = some runId ∧ decisionOf row.payload ∈ decisive
    then some row.payload else none)

def decisions (db : Database) (runId : String) : List Json := decisiveRows db.journal runId

/-- `prior_decision`. -/
def priorDecision (db : Database) (runId : String) : Option Json := (decisions db runId).head?

/-- `has_history`: an order of the run, or a decisive row for it. -/
def hasHistory (accountId runId : String) (db : Database) : Except String Bool :=
  match db.loadPaper accountId with
  | .error e => .error e
  | .ok (_, orders, _) =>
      .ok ((PaperBroker.runOrder orders runId).isSome || (priorDecision db runId).isSome)

/-! ## Deciding on a loaded state -/

/-- `_decimal_sum`. -/
def decimalSum (a b : Option ℚ) : Option ℚ :=
  match a, b with
  | some a, some b => some (a + b)
  | _, _ => none

/-- `_risk_summary`. -/
def riskSummary (record : RiskRecord) (policy : RiskPolicy) : List (String × Json) :=
  [("risk_policy_version", .str policy.version), ("risk_status", .str record.riskStatus),
    ("risk_reason", .ofOption record.riskReason),
    ("portfolio_risk_before",
      RiskRecord.number (decimalSum record.existingOpenRisk record.existingPendingRisk)),
    ("proposed_reservation", RiskRecord.number record.reservedFillRisk),
    ("portfolio_risk_after", RiskRecord.number record.postTradePortfolioRisk),
    ("portfolio_risk_limit", RiskRecord.number record.portfolioRiskLimit)]

/-- What a call decides on the state it loaded, with the rows it would write. -/
inductive Verdict
  | blocked (conflict : ConflictDecision) (record : Json)
  | riskRejected (conflict : ConflictDecision) (reason : String) (riskRecord record : Json)
  | reserved (conflict : ConflictDecision) (broker : PaperBroker) (order : PaperOrder)
      (record : Json)

namespace Submission

/-- The candidate `classify` looks at. -/
def candidate (s : Submission) : Candidate :=
  ⟨s.call.report.symbol, s.plan.side, s.setupId, s.plan.entry, s.plan.stop, s.plan.target⟩

/-- The request `prepare_reservation` answers; the id is drawn for the loaded orders. -/
def request (s : Submission) (orders : Orders) : Request where
  report := s.call.report
  plan := s.plan
  instrument := s.call.instrument
  asOf := s.call.asOf
  setupId := some s.setupId
  policy := s.call.policy
  stampSetupId := true
  drawdownBasis := s.call.drawdownBasis
  orderId := s.call.uuid4.draw orders

/-- `prepare_reservation` on a loaded state, which may lack the account. -/
def prepare (s : Submission) (account : Option PaperAccount) (orders : Orders) (fills : Fills) :
    Prepared :=
  match account with
  | some account => prepareReservation (s.request orders) ⟨account, orders, fills⟩
  | none =>
      let result := evaluate s.plan none orders s.call.instrument s.call.policy (some s.setupId)
        s.call.drawdownBasis
      .rejected result.decision.reason result.record result.record

section Record

variable (sha256 : Json → String) (s : Submission)

/-- The fields every decision row starts from. -/
def baseRecord (attempt : ℕ) (conflict : ConflictDecision) : Json :=
  .obj ([("run_id", .str s.call.runId), ("setup_id", .str s.setupId),
    ("candidate_fingerprint", .str (fingerprint sha256 s.fields)), ("attempt", .num attempt)]
    ++ conflict.asRecord ++ [("risk_policy_version", .null), ("risk_status", .str "NOT_EVALUATED"),
      ("risk_reason", .null), ("portfolio_risk_before", .null), ("proposed_reservation", .null),
      ("portfolio_risk_after", .null), ("portfolio_risk_limit", .null), ("order_id", .null)])

/-- A decision row: later fields take precedence. -/
def decisionRecord (attempt : ℕ) (conflict : ConflictDecision) (risk : List (String × Json))
    (decision executionStatus : String) (orderId : Option String) : Json :=
  (s.baseRecord sha256 attempt conflict).merge ([("decision", .str decision),
    ("execution_status", .str executionStatus), ("order_id", .ofOption orderId)] ++ risk)

/-- Steps 4 and 5 of an attempt, up to the write. -/
def verdict (attempt : ℕ) (account : Option PaperAccount) (orders : Orders) (fills : Fills) :
    Verdict :=
  let conflict := classify s.candidate account orders
  if conflict.allows = false then
    .blocked conflict (s.decisionRecord sha256 attempt conflict [] "BLOCKED" "NOT_SUBMITTED" none)
  else match s.prepare account orders fills with
    | .rejected reason record journalRecord =>
        .riskRejected conflict reason journalRecord.asJson (s.decisionRecord sha256 attempt conflict
          (riskSummary record s.call.policy) "RISK_REJECTED" "NOT_SUBMITTED" none)
    | .approved broker order record =>
        let record := s.decisionRecord sha256 attempt conflict (riskSummary record s.call.policy)
          "RESERVED" "SUBMITTED" (some order.orderId)
        .reserved conflict (broker.event (some s.call.asOf) s.call.runId s.call.report.symbol
          order.orderId decisionEvent record) order record

end Record

end Submission

/-! ## Transactions -/

inductive CommitOutcome
  | committed
  | stale
  | duplicate
  | mismatch
  deriving DecidableEq, Repr

/-- One row to journal: its source, its event type and its payload. -/
abbrev DecisionRow := String × String × Json

def appendRows (db : Database) (asOf : Instant) (runId symbol : String)
    (rows : List DecisionRow) : Database :=
  rows.foldl (fun db row =>
    db.event (some asOf) (some runId) (some symbol) row.1 row.2.1 "INFO" row.2.2) db

/-- `commit_decision_rows`: journal the rows only if the claim is ours, the run is
undecided and the whole PAPER state is still the expected one. -/
def commitDecisionRows (s : Submission) (print : String) (expectedState : PaperState)
    (rows : List DecisionRow) : Tx CommitOutcome := fun db =>
  let runId := s.call.runId
  if slotLost s.call.ownerKey s.call.report.symbol db then
    .error "conflict journal without slot ownership"
  else if claimedFingerprint db runId ≠ some print then .ok (.mismatch, db)
  else match db.loadPaper s.call.accountId with
    | .error e => .error e
    | .ok (account, orders, fills) =>
        if (priorDecision db runId).isSome ∨ (PaperBroker.runOrder orders runId).isSome then
          .ok (.duplicate, db)
        else if paperState account orders fills ≠ expectedState then .ok (.stale, db)
        else .ok (.committed, appendRows db s.call.asOf runId s.call.report.symbol rows)

/-- The transaction of `_after_double_stale`: whether the run is decided, and otherwise at
most one observation per run. -/
def observeStale (s : Submission) (print : String) : Tx Bool := fun db =>
  let runId := s.call.runId
  let observation : Json := .obj [("run_id", .str runId), ("setup_id", .str s.setupId),
    ("symbol", .str s.call.report.symbol), ("observation", .str "STALE_STATE"),
    ("attempts", .num 2), ("economic_action", .str "NONE"), ("decisive", .bool false),
    ("candidate_fingerprint", .str print), ("conflict_policy_version", .str conflictPolicyVersion)]
  if slotLost s.call.ownerKey s.call.report.symbol db then
    .error "conflict journal without slot ownership"
  else match hasHistory s.call.accountId runId db with
    | .error e => .error e
    | .ok true => .ok (true, db)
    | .ok false =>
        if db.journal.any (fun row => decide (row.eventType = staleEvent ∧ row.runId = some runId))
        then .ok (false, db)
        else .ok (false, db.event (some s.call.asOf) (some runId) (some s.call.report.symbol) source
          staleEvent "WARNING" observation)

/-! ## The call -/

inductive PathStatus
  | reserved
  | blocked
  | riskRejected
  | duplicateRun
  | stale
  | notSubmitted
  deriving DecidableEq, Repr

structure ConflictPathResult where
  status : PathStatus
  reason : String
  conflict : Option ConflictDecision := none
  order : Option PaperOrder := none
  record : Option Json := none
  attempts : ℕ

abbrev Submitting := Program Database (Except String ConflictPathResult)

def notSubmitted (reason : String) (attempts : ℕ) : Submitting :=
  pure (.ok { status := .notSubmitted, reason := reason, attempts := attempts })

/-- `_order_matches`. -/
def orderMatches (order : PaperOrder) (fields : CandidateFields) : Bool :=
  match toDecimal order.plannedEntry, toDecimal order.stop, toDecimal order.target with
  | some entry, some stop, some target =>
      decide ((order.symbol, order.side, order.setupId, entry, stop, target) =
        (fields.symbol, fields.side, some fields.setupId, fields.entry, fields.stop, fields.target))
  | _, _, _ => false

section Call

variable (sha256 : Json → String) (s : Submission)

def load : Program Database (Except String (Option PaperAccount × Orders × Fills)) :=
  loadPaperReads id s.call.accountId

/-- `_reconciled`: the durable outcome of the run; writes nothing. -/
def reconciled (attempts : ℕ) : Submitting := do
  match ← load s with
  | .error e => pure (.error e)
  | .ok (_, orders, _) =>
      let prior ← .read (fun db => priorDecision db s.call.runId)
      let order := PaperBroker.runOrder orders s.call.runId
      let foreignOrder := match order with
        | some order => !orderMatches order s.fields
        | none => false
      let foreignRow := match prior with
        | some row => decide ((row.get "candidate_fingerprint").str? ≠
            some (fingerprint sha256 s.fields))
        | none => false
      if foreignOrder || foreignRow then notSubmitted "RUN_ID_CANDIDATE_MISMATCH" attempts
      else pure (.ok {
        status := .duplicateRun
        reason := if order.isSome then "run_id_already_submitted" else "run_id_already_decided"
        order := order
        record := prior
        attempts := attempts })

/-- `_after_double_stale`. -/
def afterDoubleStale : Submitting := do
  match ← .call (commit (observeStale s (fingerprint sha256 s.fields))) with
  | .error e => pure (.error e)
  | .ok true => reconciled sha256 s 2
  | .ok false => pure (.ok { status := .stale, reason := "STALE_STATE", attempts := 2 })

/-- Journal a negative decision; `again` is the next attempt. -/
def journalDecision (attempt : ℕ) (expectedState : PaperState) (rows : List DecisionRow)
    (result : ConflictPathResult) (again : Submitting) : Submitting := do
  match ← .call (commit (commitDecisionRows s (fingerprint sha256 s.fields) expectedState rows)) with
  | .error e => pure (.error e)
  | .ok .committed => pure (.ok result)
  | .ok .duplicate => reconciled sha256 s attempt
  | .ok .mismatch => reconciled sha256 s attempt
  | .ok .stale => again

/-- The write a verdict asks for. -/
def settle (attempt : ℕ) (expectedState : PaperState) (verdict : Verdict) (again : Submitting) :
    Submitting :=
  match verdict with
  | .blocked conflict record =>
      journalDecision sha256 s attempt expectedState [(source, decisionEvent, record)]
        { status := .blocked, reason := conflict.reasonCode, conflict := some conflict
          record := some record, attempts := attempt } again
  | .riskRejected conflict reason riskRecord record =>
      journalDecision sha256 s attempt expectedState
        [("risk_engine_v2", "RISK_V2_DECISION", riskRecord), (source, decisionEvent, record)]
        { status := .riskRejected, reason := reason, conflict := some conflict
          record := some record, attempts := attempt } again
  | .reserved conflict broker order record => do
      match ← .call (commit (savePaper broker s.call.ownerKey s.call.report.symbol
          (some expectedState))) with
      | .error e => pure (.error e)
      | .ok true => pure (.ok {
          status := .reserved, reason := "approved", conflict := some conflict
          order := some order, record := some record, attempts := attempt })
      | .ok false => again

/-- The loop over the attempts: each loads, decides and writes afresh. -/
def attempts : List ℕ → Submitting
  | [] => afterDoubleStale sha256 s
  | attempt :: rest => do
      match ← load s with
      | .error e => pure (.error e)
      | .ok (account, orders, fills) =>
          if (PaperBroker.runOrder orders s.call.runId).isSome then reconciled sha256 s attempt
          else do
            let prior ← .read (fun db => priorDecision db s.call.runId)
            if prior.isSome then reconciled sha256 s attempt
            else
              let verdict := s.verdict sha256 attempt account orders fills
              settle sha256 s attempt (paperState account orders fills) verdict (attempts rest)

/-- `submit_with_conflict_control`. -/
def submitWithConflictControl (call : Call) : Submitting :=
  match call.submission with
  | .error reason => notSubmitted reason 0
  | .ok s => do
      match ← .call (commit (claimRun sha256 call.runId call.report.symbol s.fields call.asOf
          (hasHistory call.accountId call.runId) call.ownerKey)) with
      | .error e => pure (.error e)
      | .ok .mismatch => notSubmitted "RUN_ID_CANDIDATE_MISMATCH" 0
      | .ok .unknownHistory => notSubmitted "RUN_ID_IDENTITY_UNKNOWN" 0
      | .ok .claimed => attempts sha256 s [1, 2]
      | .ok .same => attempts sha256 s [1, 2]

end Call

end MarketSystem.ConflictPath
