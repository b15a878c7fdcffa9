import Mathlib.Data.Prod.Lex
import Mathlib.Data.String.Basic
import MarketSystem.Agents.SetupValidator
import MarketSystem.Core.FxPolicy
import MarketSystem.Execution.PaperBroker

/-!
# The target planners

Entry and stop come first: the last visible close and the invalidation of the setup, both
put on the grid of the instrument against the trade. Policy D then takes the first
structural level beyond the entry, and the fixed policies a multiple of the risk; a plan
stands only when its recomputed ratio is within the policy.
-/
namespace MarketSystem.TargetPlanner

open Library RrContract Scouts
open StructureAgent (StructureReport Swing)
open LiquidityAgent (LiquidityReport)
open SetupValidator (Assessment)
open EurusdPullback (SlClamp)

def CANDIDATE_TIMEFRAMES : List String := ["15m", "1h"]

inductive PlanStatus
  | planReady
  | noValidTarget
  | invalidGeometry
  | insufficientTargetEvidence
  | unsupportedPrecision
  | notAValidSetup
  | rrBelowFloor
  | outOfPolicyExtendedTarget
  deriving DecidableEq, Repr

/-- The text of the status in lower case, as the warnings carry it. -/
def PlanStatus.warning : PlanStatus → String
  | .planReady => "plan_ready"
  | .noValidTarget => "no_valid_target"
  | .invalidGeometry => "invalid_geometry"
  | .insufficientTargetEvidence => "insufficient_target_evidence"
  | .unsupportedPrecision => "unsupported_precision"
  | .notAValidSetup => "not_a_valid_setup"
  | .rrBelowFloor => "rr_below_floor"
  | .outOfPolicyExtendedTarget => "out_of_policy_extended_target"

/-- A level that was considered, eligible or not. -/
structure Candidate where
  source : String
  timeframe : String
  priceRaw : Option ℚ
  targetPrice : Option ℚ := none
  confirmedAt : Option Instant := none
  pivotAt : Option Instant := none
  eligible : Bool := false
  reason : String
  deriving DecidableEq

/-- What a planner decided, with what it decided it on. -/
structure TargetDecision where
  policyVersion : Policy
  status : PlanStatus
  reason : String
  runId : String
  symbol : String
  side : Option Side
  entryRaw : Option ℚ := none
  stopRaw : Option ℚ := none
  entry : Option ℚ := none
  stop : Option ℚ := none
  slClamp : Option (SlClamp × ℚ) := none
  target : Option ℚ := none
  risk : Option ℚ := none
  reward : Option ℚ := none
  rr : Option ℚ := none
  candidates : List Candidate := []
  selected : Option Candidate := none
  sources : List String := []
  deriving DecidableEq

/-- `_entry`: the last visible close, when it is a price. -/
def entry (frame : Option Frame) (asOf : Instant) : Option ℚ :=
  match frame with
  | none => none
  | some frame =>
      if frame.rows = [] then none
      else
        match (frame.closedRows asOf).getLast? with
        | none => none
        | some row => if "Close" ∉ frame.columns then none else row.close.bind toDecimal

/-- Rounding against the trade, of the entry and of the levels that it is measured by. -/
def entryRounding : Side → Rounding
  | .long => .ceiling
  | .short => .floor

def levelRounding : Side → Rounding
  | .long => .floor
  | .short => .ceiling

/-- The target stands beyond the entry in the direction of the trade. -/
def Beyond (side : Side) (entry target : ℚ) : Prop :=
  match side with
  | .long => entry < target
  | .short => target < entry

instance (side : Side) (entry target : ℚ) : Decidable (Beyond side entry target) := by
  cases side <;> exact inferInstanceAs (Decidable (_ < _))

def swingName : Side → String
  | .long => "swing_high_"
  | .short => "swing_low_"

/-- The record of one swing. -/
def swingRecord (side : Side) (entry increment : ℚ) (asOf : Instant) (timeframe : String)
    (lineageOk refOk : Bool) (swing : Swing) : Candidate :=
  let target := normalize swing.price increment (levelRounding side)
  let record : Candidate :=
    { source := swingName side ++ timeframe
      timeframe := timeframe
      priceRaw := toDecimal swing.price
      targetPrice := target
      confirmedAt := some swing.timestamp
      pivotAt := some swing.pivotTimestamp
      reason := "" }
  if lineageOk = false then { record with reason := "lineage_mismatch" }
  else if refOk = false then { record with reason := "evidence_ref_not_valid" }
  else
    match target with
    | none => { record with reason := "invalid_price" }
    | some target =>
        if asOf < swing.timestamp then { record with reason := "future_evidence" }
        else if ¬Beyond side entry target then { record with reason := "not_beyond_entry" }
        else { record with eligible := true, reason := "eligible" }

/-- The record of one equal level, which is context only. -/
def levelRecord (timeframe : String) (price : ℚ) : Candidate where
  source := "equal_level_" ++ timeframe
  timeframe := timeframe
  priceRaw := some price
  reason := "heuristic_not_target_authority"

/-- `_candidates`: every level, and whether there was evidence to trust. -/
def candidates (setup : Assessment) (side : Side) (entry increment : ℚ) (asOf : Instant) :
    List Candidate × Bool :=
  let structure_ := (setup.evidence.map SetupValidator.Evidence.structure_).getD []
  let liquidity := (setup.evidence.map SetupValidator.Evidence.liquidity).getD []
  let lineageOk := fun (timeframe : String) (payload : StructureReport) =>
    decide (payload.symbol = setup.symbol ∧ payload.timeframe = timeframe)
  let refOk := fun timeframe => decide (timeframe ∈ setup.validRefs)
  let records := CANDIDATE_TIMEFRAMES.flatMap (fun timeframe =>
    match structure_.lookup timeframe with
    | none => []
    | some payload =>
        (match side with | .long => payload.highs | .short => payload.lows).map
          (swingRecord side entry increment asOf timeframe (lineageOk timeframe payload)
            (refOk timeframe)))
  let context := CANDIDATE_TIMEFRAMES.flatMap (fun timeframe =>
    match liquidity.lookup timeframe with
    | none => []
    | some payload =>
        ((match side with | .long => payload.liquidityAbove | .short => payload.liquidityBelow).filter
          (fun price => decide (0 < price ∧ Beyond side entry price))).map (levelRecord timeframe))
  let trustworthy := CANDIDATE_TIMEFRAMES.any (fun timeframe =>
    match structure_.lookup timeframe with
    | none => false
    | some payload => lineageOk timeframe payload && refOk timeframe)
  (records ++ context, trustworthy)

/-- What both planners have when entry and stop are fixed. -/
structure Levels where
  side : Side
  increment : ℚ
  entry : ℚ
  stop : ℚ

section Plan

variable (setup : Assessment) (frame : Option Frame) (symbol runId : String) (asOf : Instant)
  (instrument : Option Instrument)

/-- A decision before anything is known. -/
def undecided (policy : Policy) : TargetDecision where
  policyVersion := policy
  status := .notAValidSetup
  reason := "setup_not_valid_for_symbol"
  runId := runId
  symbol := symbol
  side := setup.side

/-- The common beginning of the planners: entry and stop, or the decision that ends the plan. -/
def levels (policy : Policy) : Except TargetDecision (TargetDecision × Levels) :=
  let decision := undecided setup symbol runId policy
  if setup.status ≠ .validSetup ∨ setup.symbol ≠ symbol then .error decision
  else
    match instrument with
    | none =>
        .error { decision with
          status := .unsupportedPrecision, reason := "instrument_precision_unavailable" }
    | some instrument =>
        match instrument.priceIncrement.bind toDecimal with
        | none =>
            .error { decision with
              status := .unsupportedPrecision, reason := "instrument_precision_unavailable" }
        | some increment =>
            if instrument.symbol ≠ symbol then
              .error { decision with
                status := .unsupportedPrecision, reason := "instrument_precision_unavailable" }
            else
              let entryRaw := entry frame asOf
              let stopRaw := setup.invalidation.bind toDecimal
              let decision := { decision with entryRaw := entryRaw, stopRaw := stopRaw }
              match entryRaw, stopRaw, setup.side with
              | some entryRaw, some stopRaw, some side =>
                  let entry := normalize entryRaw increment (entryRounding side)
                  let stop := normalize stopRaw increment (levelRounding side)
                  let decision := { decision with entry := entry, stop := stop }
                  match entry, stop with
                  | some entry, some stop =>
                      if Beyond side stop entry then .ok (decision, ⟨side, increment, entry, stop⟩)
                      else
                        .error { decision with
                          status := .invalidGeometry, reason := "invalid_entry_stop_geometry" }
                  | _, _ =>
                      .error { decision with
                        status := .invalidGeometry, reason := "invalid_entry_stop_geometry" }
              | _, _, _ =>
                  .error { decision with
                    status := .invalidGeometry, reason := "entry_or_invalidation_unavailable" }

/-- The plan on levels whose geometry holds. -/
def planOf (policy : Policy) (shape : Geometry) : TradePlan where
  symbol := symbol
  side := shape.side
  entry := shape.entry
  stop := shape.stop
  target := shape.target
  riskReward := shape.rr
  runId := some runId
  asOf := some asOf
  policyVersion := some policy

/-- Distance from the entry, and the name where two levels are equally far. -/
def nearness (entry : ℚ) (c : Candidate) : ℚ ×ₗ String :=
  toLex (|c.targetPrice.getD 0 - entry|, c.source)

/-- `plan_policy_d`: the first structural level beyond the entry, and 2R to 5R to it. -/
def planPolicyD : Option TradePlan × TargetDecision :=
  match levels setup frame symbol runId asOf instrument .v2D with
  | .error decision => (none, decision)
  | .ok (decision, l) =>
      let (records, trustworthy) := candidates setup l.side l.entry l.increment asOf
      let decision := { decision with candidates := records }
      if trustworthy = false then
        (none, { decision with
          status := .insufficientTargetEvidence, reason := "no_trustworthy_structural_evidence" })
      else
        let eligible := records.filter Candidate.eligible
        match eligible.argmin (nearness l.entry) with
        | none =>
            (none, { decision with
              status := .noValidTarget, reason := "no_structural_target_beyond_entry" })
        | some first =>
            let sources := ((eligible.filter
              (fun c => decide (c.targetPrice = first.targetPrice))).map
                Candidate.source).insertionSort (· ≤ ·)
            match geometry l.side l.entry l.stop (first.targetPrice.getD 0) with
            | .error why =>
                (none, { decision with status := .invalidGeometry, reason := why.reason })
            | .ok shape =>
                let decision :=
                  { decision with
                    selected := some first, sources := sources, target := some shape.target
                    rr := some shape.rr, risk := some shape.risk, reward := some shape.reward }
                match classify shape.rr (limits .v2D) with
                | .rrBelowFloor =>
                    (none, { decision with
                      status := .rrBelowFloor, reason := "first_structural_target_below_2r" })
                | .outOfPolicyExtendedTarget =>
                    (none, { decision with
                      status := .outOfPolicyExtendedTarget
                      reason := "first_structural_target_above_5r_observational_only" })
                | .withinPolicy =>
                    (some (planOf symbol runId asOf .v2D shape), { decision with
                      status := .planReady, reason := "first_structural_target_within_2r_5r" })

/-- A clamp of the stop: its own stop, what it did and the structural pips. -/
abbrev Clamp := String → Side → ℚ → ℚ → Except String (ℚ × SlClamp × ℚ)

/-- The stop that the plan is made with, or the decision that ends the plan. -/
def clampedStop (clamp : Option Clamp) (decision : TargetDecision) (l : Levels) :
    Except String (Except TargetDecision (TargetDecision × ℚ)) :=
  match clamp with
  | none => .ok (.ok (decision, l.stop))
  | some clamp => do
      let (stop, action, pips) ← clamp symbol l.side l.entry l.stop
      let stop := normalize stop l.increment (levelRounding l.side)
      let decision := { decision with slClamp := some (action, pips), stop := stop }
      let refused :=
        { decision with status := .invalidGeometry, reason := "invalid_clamped_stop_geometry" }
      match stop with
      | none => .ok (.error refused)
      | some stop =>
          .ok (if Beyond l.side stop l.entry then .ok (decision, stop) else .error refused)

/-- The plan whose target is a multiple of the risk, when it stands on the grid. -/
def fixedTarget (policy : Policy) (multiple : ℚ) (notExact ready : String)
    (decision : TargetDecision) (l : Levels) (stop : ℚ) : Option TradePlan × TargetDecision :=
  let risk := |l.entry - stop|
  let target := match l.side with
    | .long => l.entry + multiple * risk
    | .short => l.entry - multiple * risk
  if normalize target l.increment .floor ≠ some target then
    (none, { decision with status := .invalidGeometry, reason := "target_not_on_price_grid" })
  else
    match geometry l.side l.entry stop target with
    | .error why => (none, { decision with status := .invalidGeometry, reason := why.reason })
    | .ok shape =>
        if classify shape.rr (limits policy) ≠ .withinPolicy then
          (none, { decision with status := .invalidGeometry, reason := notExact })
        else
          (some (planOf symbol runId asOf policy shape), { decision with
            status := .planReady
            reason := ready
            candidates := ((candidates setup l.side l.entry l.increment asOf).1).filter
              Candidate.eligible
            target := some target
            risk := some shape.risk
            reward := some shape.reward
            rr := some shape.rr })

/-- `_plan_fixed_rr`; an `error` is an exception of the clamp. -/
def planFixedRr (policy : Policy) (multiple : ℚ) (notExact ready : String)
    (clamp : Option Clamp) : Except String (Option TradePlan × TargetDecision) :=
  match levels setup frame symbol runId asOf instrument policy with
  | .error decision => .ok (none, decision)
  | .ok (decision, l) => do
      match ← clampedStop symbol clamp decision l with
      | .error decision => .ok (none, decision)
      | .ok (decision, stop) =>
          .ok (fixedTarget setup symbol runId asOf policy multiple notExact ready decision l stop)

/-- `plan_fixed_3r`. -/
def planFixed3r : Except String (Option TradePlan × TargetDecision) :=
  planFixedRr setup frame symbol runId asOf instrument .v2F3 3 "planned_rr_not_exactly_3"
    "fixed_3r_from_structural_invalidation" none

/-- `plan_fx_fixed_rr`. -/
def planFxFixedRr : Except String (Option TradePlan × TargetDecision) :=
  if FxPolicy.isFx symbol = false then .error "not an FX symbol"
  else
    planFixedRr setup frame symbol runId asOf instrument .fx fxTpRr
      "planned_rr_not_exactly_fx_tp_rr" "fx_fixed_rr_from_clamped_structural_invalidation"
      (some FxPolicy.clampStop)

end Plan

/-- The entry sees no more of a frame than the scouts do. -/
theorem entry_eq {asOf : Instant} {frame frame' : Frame} (h : Agree asOf frame frame') :
    entry (some frame) asOf = entry (some frame') asOf := by
  have hlast : ∀ frame : Frame, entry (some frame) asOf =
      ((frame.closedRows asOf).getLast?).bind (fun row =>
        if "Close" ∉ frame.columns then none else row.close.bind toDecimal) := by
    intro frame
    unfold entry
    by_cases hrows : frame.rows = []
    · simp [hrows, closedRows_nil hrows]
    · dsimp only
      rw [if_neg hrows]
      cases (frame.closedRows asOf).getLast? <;> rfl
  rw [hlast, hlast, ← h.closedRows_eq]
  by_cases hrows : frame.closedRows asOf = []
  · simp [hrows]
  · rw [h.columns_eq hrows]

end MarketSystem.TargetPlanner
