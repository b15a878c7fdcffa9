import MarketSystem.Execution.RiskReservation
import Mathlib.Data.String.Basic

/-!
# The conflict engine

A candidate is classified against the exposure its symbol already carries: the
open position first, then the PENDING orders by id. Any exposure blocks; only a
candidate without conflict continues to the risk engine.
-/
namespace MarketSystem.ConflictEngine

open Library

inductive ExposureKind
  | position
  | pendingOrder
  deriving DecidableEq, Repr

def ExposureKind.name : ExposureKind → String
  | position => "POSITION"
  | pendingOrder => "PENDING_ORDER"

structure Exposure where
  kind : ExposureKind
  entityId : String
  runId : String
  direction : Side
  setupId : Option String
  entry : ℚ
  stop : ℚ
  target : ℚ
  quantity : ℚ

def sideName : Side → String
  | .long => "LONG"
  | .short => "SHORT"

theorem sideName_injective : Function.Injective sideName := by
  intro a b h
  cases a <;> cases b <;> first | rfl | simp [sideName] at h

def Exposure.asRecord (e : Exposure) : Json :=
  .obj [("kind", .str e.kind.name), ("entity_id", .str e.entityId), ("run_id", .str e.runId),
    ("direction", .str (sideName e.direction)), ("setup_id", .str (e.setupId.getD "UNKNOWN")),
    ("entry", .num e.entry), ("stop", .num e.stop), ("target", .num e.target),
    ("quantity", .num e.quantity)]

inductive Classification
  | noConflict
  | duplicateSetup
  | sameDirectionNewSetup
  | oppositeSetup
  | unknownSetupId
  | invalidCandidate
  deriving DecidableEq, Repr

def Classification.name : Classification → String
  | noConflict => "NO_CONFLICT"
  | duplicateSetup => "DUPLICATE_SETUP"
  | sameDirectionNewSetup => "SAME_DIRECTION_NEW_SETUP"
  | oppositeSetup => "OPPOSITE_SETUP"
  | unknownSetupId => "UNKNOWN_SETUP_ID"
  | invalidCandidate => "INVALID_CANDIDATE"

/-- `CONFLICT_POLICY_VERSION`. -/
def conflictPolicyVersion : String := "V2_P6_CONFLICT_1"

structure ConflictDecision where
  classification : Classification
  conflictKind : Option String
  reasonCode : String
  symbol : String
  newSetupId : String
  newDirection : Side
  newEntry : ℚ
  newStop : ℚ
  newTarget : ℚ
  exposures : List Exposure
  blocking : Option Exposure

namespace ConflictDecision

/-- The status is ALLOW for NO_CONFLICT only. -/
def allows (d : ConflictDecision) : Bool := decide (d.classification = .noConflict)

def first (d : ConflictDecision) (kind : ExposureKind) : Option Exposure :=
  d.exposures.find? (fun e => decide (e.kind = kind))

/-- `as_record`: the fields of the decision in the journal row. -/
def asRecord (d : ConflictDecision) : List (String × Json) :=
  let position := d.first .position
  let order := d.first .pendingOrder
  let field (e : Option Exposure) (f : Exposure → String) : Json := .ofOption (e.map f)
  [("conflict_policy_version", .str conflictPolicyVersion),
    ("conflict_status", .str (if d.allows then "ALLOW" else "BLOCK")),
    ("classification", .str d.classification.name),
    ("conflict_kind", .ofOption d.conflictKind), ("reason_code", .str d.reasonCode),
    ("economic_action", .str (if d.allows then "CONTINUE_TO_RISK" else "BLOCK_NEW_EXPOSURE")),
    ("requires_risk_evaluation", .bool d.allows), ("symbol", .str d.symbol),
    ("new_setup_id", .str d.newSetupId), ("new_direction", .str (sideName d.newDirection)),
    ("new_entry", .num d.newEntry), ("new_stop", .num d.newStop), ("new_target", .num d.newTarget),
    ("existing_position_id", field position (·.entityId)),
    ("existing_position_setup_id", field position (fun e => e.setupId.getD "UNKNOWN")),
    ("existing_position_direction", field position (fun e => sideName e.direction)),
    ("existing_order_id", field order (·.entityId)),
    ("existing_order_setup_id", field order (fun e => e.setupId.getD "UNKNOWN")),
    ("existing_order_direction", field order (fun e => sideName e.direction)),
    ("exposures", .arr (d.exposures.map Exposure.asRecord)),
    ("blocking_entity_type", field d.blocking (fun e => e.kind.name)),
    ("blocking_entity_id", field d.blocking (·.entityId))]

end ConflictDecision

def positionExposure (p : PaperPosition) : Exposure where
  kind := .position
  entityId := p.positionId
  runId := p.runId
  direction := p.side
  setupId := p.setupId
  entry := p.entryPrice
  stop := p.stop
  target := p.target
  quantity := p.quantity

def orderExposure (o : PaperOrder) : Exposure where
  kind := .pendingOrder
  entityId := o.orderId
  runId := o.runId
  direction := o.side
  setupId := o.setupId
  entry := o.plannedEntry
  stop := o.stop
  target := o.target
  quantity := o.quantity

/-- `exposures_for`: the position of the symbol, then its PENDING orders by id. -/
def exposuresFor (symbol : String) (account : Option PaperAccount) (orders : Orders) :
    List Exposure :=
  let position := match account with
    | some account => account.openPositions.get? symbol
    | none => none
  let sorted := orders.rows.mergeSort (fun a b => decide (a.orderId ≤ b.orderId))
  let pending := sorted.filter (fun o => decide (o.symbol = symbol ∧ o.status = .pending))
  position.toList.map positionExposure ++ pending.map orderExposure

/-- The new exposure a candidate asks for. -/
structure Candidate where
  symbol : String
  direction : Side
  setupId : String
  entry : ℚ
  stop : ℚ
  target : ℚ

/-- `decide` inside `classify`. -/
def ConflictDecision.of (c : Candidate) (exposures : List Exposure)
    (classification : Classification) (reason : String) (kind : Option String := none)
    (blocking : Option Exposure := none) : ConflictDecision where
  classification := classification
  conflictKind := kind
  reasonCode := reason
  symbol := c.symbol
  newSetupId := c.setupId
  newDirection := c.direction
  newEntry := c.entry
  newStop := c.stop
  newTarget := c.target
  exposures := exposures
  blocking := blocking

/-- `classify`: the first exposure decides. -/
def classify (c : Candidate) (account : Option PaperAccount) (orders : Orders) :
    ConflictDecision :=
  let exposures := exposuresFor c.symbol account orders
  if c.setupId = "" then .of c exposures .invalidCandidate "MISSING_NEW_SETUP_ID"
  else match exposures with
    | [] => .of c exposures .noConflict "NO_CONFLICT"
    | blocking :: _ =>
        let isPosition := decide (blocking.kind = .position)
        let kind := if isPosition then "EXISTING_POSITION_CONFLICT"
          else "EXISTING_PENDING_CONFLICT"
        if blocking.setupId = none then
          .of c exposures .unknownSetupId "UNKNOWN_EXISTING_SETUP_ID" kind blocking
        else if blocking.setupId = some c.setupId then
          .of c exposures .duplicateSetup "DUPLICATE_SETUP" kind blocking
        else if blocking.direction = c.direction then
          .of c exposures .sameDirectionNewSetup (if isPosition then
            "SAME_DIRECTION_POSITION_CONFLICT" else "SAME_DIRECTION_PENDING_CONFLICT") kind blocking
        else .of c exposures .oppositeSetup (if isPosition then "OPPOSITE_POSITION_CONFLICT"
          else "OPPOSITE_PENDING_CONFLICT") kind blocking

theorem exposuresFor_eq_nil {symbol : String} {account : PaperAccount} {orders : Orders} :
    exposuresFor symbol (some account) orders = [] ↔
      account.openPositions.get? symbol = none ∧
        ∀ o ∈ orders, o.status = .pending → o.symbol ≠ symbol := by
  simp only [exposuresFor, List.append_eq_nil_iff, List.map_eq_nil_iff, Option.toList_eq_nil_iff,
    List.filter_eq_nil_iff, List.mem_mergeSort, decide_eq_true_eq, not_and]
  refine and_congr_right (fun _ => ?_)
  constructor
  · exact fun h o ho hpending hsymbol => h o ho hsymbol hpending
  · exact fun h o ho hsymbol hpending => h o ho hpending hsymbol

/-- A candidate is allowed exactly when its symbol carries no exposure. -/
theorem allows_classify {c : Candidate} {account : PaperAccount} {orders : Orders} :
    (classify c (some account) orders).allows = true ↔
      c.setupId ≠ "" ∧ account.openPositions.get? c.symbol = none ∧
        ∀ o ∈ orders, o.status = .pending → o.symbol ≠ c.symbol := by
  rw [← exposuresFor_eq_nil]
  unfold classify
  by_cases hid : c.setupId = ""
  · simp [hid, ConflictDecision.allows, ConflictDecision.of]
  · cases he : exposuresFor c.symbol (some account) orders with
    | nil => simp [hid, ConflictDecision.allows, ConflictDecision.of]
    | cons blocking rest =>
      simp only [hid, if_false]
      split_ifs <;> simp [ConflictDecision.allows, ConflictDecision.of]

end MarketSystem.ConflictEngine
