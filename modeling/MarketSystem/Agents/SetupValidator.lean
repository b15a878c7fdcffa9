import MarketSystem.Agents.LiquidityAgent
import MarketSystem.Agents.MacroNewsAgent
import MarketSystem.Core.RrContract

/-!
# The setup validator

One decision on the reports of three scouts. The checks come in a fixed order and the
first that does not pass decides; a high-impact release in its active window holds every
setup back.
-/
namespace MarketSystem.SetupValidator

open Scouts MacroNewsAgent
open StructureAgent (StructureReport)
open LiquidityAgent (LiquidityReport)

/-- The reports of a scout by timeframe. -/
abbrev Reports (π : Type) := List (String × AgentMessage π)

def TIMEFRAMES : List String := ["1h", "15m", "5m"]

inductive SetupStatus
  | noSetup
  | watch
  | validSetup
  deriving DecidableEq, Repr

/-- The payloads that a valid setup rests on. -/
structure Evidence where
  structure_ : List (String × StructureReport)
  liquidity : List (String × LiquidityReport)
  deriving DecidableEq

structure Assessment where
  runId : String
  timestamp : Instant
  symbol : String
  status : SetupStatus
  side : Option Side := none
  evidence : Option Evidence := none
  invalidation : Option ℚ := none
  warnings : List String := []
  /-- The timeframes whose structure reference is `VALID` in the explanation. -/
  validRefs : List String := []
  deriving DecidableEq

/-- `_report_valid`. -/
def reportValid {π : Type} (message : Option (AgentMessage π)) (runId symbol timeframe : String)
    (asOf : Instant) : Bool :=
  match message with
  | some message =>
      decide (message.runId = runId ∧ message.symbol = symbol ∧ message.timeframe = timeframe
        ∧ message.timestamp ≤ asOf)
  | none => false

/-- The report is `ERROR` or `NO_DATA`. -/
def unavailable {π : Type} (message : AgentMessage π) : Bool :=
  decide (message.status = .error ∨ message.status = .noData)

/-- A HIGH event in its active window. -/
def blocking (item : MacroItem) : Bool :=
  decide (item.impact = some "HIGH" ∧ item.window = .activeWindow)

/-- `_payload` of the three timeframes. -/
def payloads {π : Type} (reports : Reports π) : Option (π × π × π) := do
  let h1 ← (← reports.lookup "1h").evidence
  let m15 ← (← reports.lookup "15m").evidence
  let m5 ← (← reports.lookup "5m").evidence
  pure (h1, m15, m5)

section Decision

variable (structureReports : Reports StructureReport) (liquidityReports : Reports LiquidityReport)
  (macroReport : Option (AgentMessage MacroReport)) (symbol runId : String) (asOf : Instant)

def assessed (status : SetupStatus) (warning : String) (side : Option Side := none) : Assessment :=
  { runId := runId, timestamp := asOf, symbol := symbol, status := status, side := side
    warnings := [warning] }

/-- The side on which the three timeframes agree. -/
def alignedSide (h1 m15 m5 : StructureReport) : Option Side :=
  match h1.bias, m15.structureState, m5.structureState with
  | .bullish, .bullish, .bullish => some .long
  | .bearish, .bearish, .bearish => some .short
  | _, _, _ => none

/-- The checks on the payloads. -/
def evaluarPayloads : Assessment :=
  match payloads structureReports, payloads liquidityReports with
  | some (h1, m15, m5), some (l1, l15, l5) =>
      match alignedSide h1 m15 m5 with
      | none => assessed symbol runId asOf .watch "timeframe_incompatibility"
      | some side =>
          if m15.bos = none ∧ m15.retracement = none then
            assessed symbol runId asOf .watch "structure_confirmation_missing" (some side)
          else if l5.sweeps = [] ∧ l5.liquidityAbove = [] ∧ l5.liquidityBelow = [] then
            assessed symbol runId asOf .watch "liquidity_confirmation_missing" (some side)
          else
            match (match side with | .long => m15.support | .short => m15.resistance) with
            | none => assessed symbol runId asOf .noSetup "invalidation_missing"
            | some level =>
                { runId := runId, timestamp := asOf, symbol := symbol, status := .validSetup
                  side := some side, invalidation := some level
                  evidence := some
                    { structure_ := [("1h", h1), ("15m", m15), ("5m", m5)]
                      liquidity := [("1h", l1), ("15m", l15), ("5m", l5)] } }
  | _, _ => assessed symbol runId asOf .noSetup "missing_evidence"

/-- The checks on the macro report that come before the payloads; `none` lets them go on. -/
def macroGate : Option Assessment :=
  match macroReport with
  | none => none
  | some report =>
      if report.status = .error then some (assessed symbol runId asOf .noSetup "macro_error")
      else if ((report.evidence.map MacroReport.macroEvents).getD []).any blocking then
        some (assessed symbol runId asOf .watch "high_impact_active_window")
      else none

/-- The lineage of the macro report. -/
def macroLineage : Option Assessment :=
  match macroReport with
  | none => none
  | some report =>
      if report.runId ≠ runId ∨ report.symbol ≠ symbol then
        some (assessed symbol runId asOf .noSetup "macro_lineage_invalid")
      else if asOf < report.timestamp then
        some (assessed symbol runId asOf .noSetup "macro_future_timestamp")
      else none

/-- `_evaluar_setup_v1`. -/
def evaluarSetupV1 : Assessment :=
  if structureReports.length < 3 ∨ liquidityReports.length < 3 then
    assessed symbol runId asOf .noSetup "missing_timeframe"
  else if ∃ tf ∈ TIMEFRAMES, reportValid (structureReports.lookup tf) runId symbol tf asOf = false
      ∨ reportValid (liquidityReports.lookup tf) runId symbol tf asOf = false then
    assessed symbol runId asOf .noSetup "scout_lineage_invalid"
  else
    match macroLineage macroReport symbol runId asOf with
    | some assessment => assessment
    | none =>
        if (∃ report ∈ structureReports, unavailable report.2 = true)
            ∨ ∃ report ∈ liquidityReports, unavailable report.2 = true then
          assessed symbol runId asOf .noSetup "scout_unavailable"
        else
          match macroGate macroReport symbol runId asOf with
          | some assessment => assessment
          | none => evaluarPayloads structureReports liquidityReports symbol runId asOf

/-- `DURATIONS`. -/
def duration (timeframe : String) : ℤ :=
  if timeframe = "1h" then HOUR else if timeframe = "15m" then HOUR / 4 else HOUR / 12

/-- `_bar_ref` of a structure report is `VALID`: the lineage holds and its last bar is on the
grid of the timeframe and over by then. -/
def barRefValid (timeframe : String) : Bool :=
  let message := structureReports.lookup timeframe
  reportValid message runId symbol timeframe asOf &&
    match message.bind AgentMessage.evidence with
    | some payload =>
        decide (payload.lastBar % duration timeframe = 0
          ∧ payload.lastBar + duration timeframe ≤ asOf)
    | none => false

/-- `evaluar_setup`: the decision of V1 with the references of its explanation. -/
def evaluarSetup : Assessment :=
  { evaluarSetupV1 structureReports liquidityReports macroReport symbol runId asOf with
    validRefs := TIMEFRAMES.filter (barRefValid structureReports symbol runId asOf) }

end Decision

/-! ## The macro gate -/

/-- The scouts delivered: a report of the run for every timeframe, and none of them failed. -/
structure Available {π : Type} (reports : Reports π) (runId symbol : String) (asOf : Instant) :
    Prop where
  three : 3 ≤ reports.length
  valid : ∀ tf ∈ TIMEFRAMES, reportValid (reports.lookup tf) runId symbol tf asOf = true
  usable : ∀ report ∈ reports, unavailable report.2 = false

/-- A HIGH release in its active window holds every setup back. -/
theorem evaluarSetup_watch {structureReports : Reports StructureReport}
    {liquidityReports : Reports LiquidityReport} {report : AgentMessage MacroReport}
    {symbol runId : String} {asOf : Instant} {payload : MacroReport} {item : MacroItem}
    (hstructure : Available structureReports runId symbol asOf)
    (hliquidity : Available liquidityReports runId symbol asOf) (hrun : report.runId = runId)
    (hsymbol : report.symbol = symbol) (htime : report.timestamp ≤ asOf)
    (hstatus : report.status ≠ .error) (hevidence : report.evidence = some payload)
    (hitem : item ∈ payload.macroEvents) (hblocking : blocking item = true) :
    (evaluarSetup structureReports liquidityReports (some report) symbol runId asOf).status
      = .watch := by
  have hlineage : macroLineage (some report) symbol runId asOf = none := by
    simp [macroLineage, hrun, hsymbol, not_lt.mpr htime]
  have hgate : macroGate (some report) symbol runId asOf
      = some (assessed symbol runId asOf .watch "high_impact_active_window") := by
    have hany : payload.macroEvents.any blocking = true :=
      List.any_eq_true.mpr ⟨item, hitem, hblocking⟩
    simp [macroGate, hstatus, hevidence, hany]
  show (evaluarSetupV1 structureReports liquidityReports (some report) symbol runId asOf).status
    = .watch
  unfold evaluarSetupV1
  rw [if_neg, if_neg, hlineage]
  · dsimp only
    rw [if_neg, hgate]
    · rfl
    · rintro (⟨r, hr, h⟩ | ⟨r, hr, h⟩)
      · rw [hstructure.usable r hr] at h
        cases h
      · rw [hliquidity.usable r hr] at h
        cases h
  · rintro ⟨tf, htf, h | h⟩
    · rw [hstructure.valid tf htf] at h
      cases h
    · rw [hliquidity.valid tf htf] at h
      cases h
  · rintro (h | h)
    · exact absurd hstructure.three (by omega)
    · exact absurd hliquidity.three (by omega)

end MarketSystem.SetupValidator
