import MarketSystem.Agents.StructureHistory
import MarketSystem.Floor.Orchestrator

/-!
# No look-ahead

Two snapshots that agree on the bars closed by the time of a run give the same run. Every
part of the floor filters the raw frames itself, so the statement goes through each of
them.
-/
namespace MarketSystem.Orchestrator

open Scouts SetupValidator Riesgo
open StructureAgent (StructureReport Extends Follows)

/-- Both snapshots have a frame and the frames agree, or both have the same nothing. -/
def AgreeAt (asOf : Instant) : Option (Option Frame) → Option (Option Frame) → Prop
  | some (some frame), some (some frame') => Agree asOf frame frame'
  | entry, entry' => entry = entry'

/-- The snapshots agree on every timeframe. -/
def Snapshot.Agree (asOf : Instant) (snapshot other : Snapshot) : Prop :=
  ∀ timeframe ∈ TIMEFRAMES, AgreeAt asOf (snapshot timeframe) (other timeframe)

variable {asOf : Instant} {snapshot other : Snapshot}

/-- What reads a frame through the cut-off only reads the same from both snapshots. -/
theorem AgreeAt.map_eq {π : Type} {scout : Option Frame → π} {entry entry' : Option (Option Frame)}
    (h : AgreeAt asOf entry entry')
    (hscout : ∀ frame frame', Agree asOf frame frame' → scout (some frame) = scout (some frame')) :
    entry.map scout = entry'.map scout := by
  unfold AgreeAt at h
  split at h
  · exact congrArg some (hscout _ _ h)
  · rw [h]

theorem analizarEstructura_eq {frame frame' : Frame} (h : Agree asOf frame frame')
    (symbol timeframe runId : String) :
    StructureAgent.analizarEstructura (some frame) symbol timeframe runId asOf
      = StructureAgent.analizarEstructura (some frame') symbol timeframe runId asOf := by
  unfold StructureAgent.analizarEstructura
  rw [h.closedFrame_eq]

theorem analizarLiquidez_eq {frame frame' : Frame} (h : Agree asOf frame frame')
    (symbol timeframe runId : String) :
    LiquidityAgent.analizarLiquidez (some frame) symbol timeframe runId asOf
      = LiquidityAgent.analizarLiquidez (some frame') symbol timeframe runId asOf := by
  unfold LiquidityAgent.analizarLiquidez
  rw [h.closedFrame_eq]

/-- A scout that cannot tell agreeing frames apart reports the same on both snapshots. -/
theorem reports_eq {π : Type} (scout : Option Frame → String → AgentMessage π)
    (h : Snapshot.Agree asOf snapshot other)
    (hscout : ∀ frame frame' timeframe, Agree asOf frame frame' →
      scout (some frame) timeframe = scout (some frame') timeframe) :
    reports scout snapshot = reports scout other := by
  unfold reports
  refine List.filterMap_congr fun timeframe htimeframe => ?_
  refine (h timeframe htimeframe).map_eq fun frame frame' hagree => ?_
  rw [hscout frame frame' timeframe hagree]

/-- The entry of a plan is the same on both snapshots. -/
theorem entry_eq (h : Snapshot.Agree asOf snapshot other) :
    TargetPlanner.entry ((snapshot "5m").bind id) asOf
      = TargetPlanner.entry ((other "5m").bind id) asOf := by
  have h5m := h "5m" (by decide)
  unfold AgreeAt at h5m
  split at h5m
  · next frame frame' hframe hframe' =>
    rw [hframe, hframe']
    exact TargetPlanner.entry_eq h5m
  · rw [h5m]

theorem levels_eq (h : Snapshot.Agree asOf snapshot other) (setup : Assessment)
    (symbol runId : String) (instrument : Option Instrument) (policy : RrContract.Policy) :
    TargetPlanner.levels setup ((snapshot "5m").bind id) symbol runId asOf instrument policy
      = TargetPlanner.levels setup ((other "5m").bind id) symbol runId asOf instrument policy := by
  unfold TargetPlanner.levels
  rw [entry_eq h]

/-- Every planner plans the same on both snapshots. -/
theorem planFor_eq (h : Snapshot.Agree asOf snapshot other) (symbol : String)
    (instrumento : Option Instrument) (runId : String) (plannerPolicy : PlannerPolicy)
    (setup : Assessment) :
    planFor snapshot asOf symbol instrumento runId plannerPolicy setup
      = planFor other asOf symbol instrumento runId plannerPolicy setup := by
  unfold planFor TargetPlanner.planFxFixedRr TargetPlanner.planFixed3r TargetPlanner.planFixedRr
    TargetPlanner.planPolicyD TradePlanner.crearTradePlan
  simp only [levels_eq h, entry_eq h]

/-- A run depends on the bars closed by its time and on nothing else of the snapshot; and
bars that are appended to a closed history neither move nor remove a confirmed swing, nor
move the break of structure back, which follows the confirmation of its swing. -/
theorem no_look_ahead :
    (∀ (snapshot snapshot' : Snapshot) (asOf : Instant) (symbol : String) (provider : Provider)
      (instrumento : Option Instrument) (configuracion : Option Configuracion) (equity : Amount)
      (runId : String) (plannerPolicy : PlannerPolicy), Snapshot.Agree asOf snapshot snapshot' →
      run snapshot asOf symbol provider instrumento configuracion equity runId plannerPolicy
        = run snapshot' asOf symbol provider instrumento configuracion equity runId plannerPolicy) ∧
    ∀ (frame frame' : Frame) (asOf asOf' : Instant) (symbol timeframe runId : String)
      (r r' : StructureReport), Extends frame asOf frame' asOf' →
      (StructureAgent.analizarEstructura (some frame) symbol timeframe runId asOf).evidence
        = some r →
      (StructureAgent.analizarEstructura (some frame') symbol timeframe runId asOf').evidence
        = some r' →
      r.highs <+: r'.highs ∧ r.lows <+: r'.lows ∧ ∀ b, r.bos = some b →
        Follows (r.highs ++ r.lows) b ∧
          ∃ b', r'.bos = some b' ∧ b.breakTimestamp ≤ b'.breakTimestamp := by
  constructor
  · intro snapshot snapshot' asOf symbol provider instrumento configuracion equity runId
      plannerPolicy h
    have hstructure := reports_eq (fun frame timeframe =>
      StructureAgent.analizarEstructura frame symbol timeframe runId asOf) h
      fun frame frame' timeframe hagree => analizarEstructura_eq hagree symbol timeframe runId
    have hliquidity := reports_eq (fun frame timeframe =>
      LiquidityAgent.analizarLiquidez frame symbol timeframe runId asOf) h
      fun frame frame' timeframe hagree => analizarLiquidez_eq hagree symbol timeframe runId
    unfold run
    rw [hstructure, hliquidity]
    simp only [planFor_eq h]
  · intro frame frame' asOf asOf' symbol timeframe runId r r' hextends hr hr'
    exact StructureAgent.report_extends hextends hr hr'

/-- A closed bar that closes at its high. -/
def risingRow (timestamp : Instant) (high : ℚ) : Row where
  timestamp := timestamp
  «open» := some (high - 1)
  high := some high
  low := some (high - 1)
  close := some high
  isClosed := true

/-- Four bars, of which the second one is a swing that the fourth one breaks. -/
def brokenRows : List Row := [risingRow 0 1, risingRow 1 3, risingRow 2 2, risingRow 3 4]

def frameOf (rows : List Row) : Frame :=
  ⟨["Open", "High", "Low", "Close", "is_closed"], rows⟩

/-- The bars that the scout makes of rising rows. -/
def risingBars (rows : List (Instant × ℚ)) : List StructureAgent.Bar :=
  rows.map (fun row => ⟨row.1, row.2 - 1, row.2, row.2 - 1, row.2⟩)

/-- The report on the four bars, and the one on them and a fifth. -/
def brokenReport : StructureReport :=
  StructureAgent.report "EURUSD" "5m" (risingBars [(0, 1), (1, 3), (2, 2), (3, 4)]) ⟨3, 3, 4, 3, 4⟩

def laterReport : StructureReport :=
  StructureAgent.report "EURUSD" "5m" (risingBars [(0, 1), (1, 3), (2, 2), (3, 4), (4, 5)])
    ⟨4, 4, 5, 4, 5⟩

/-- A run at the third time is the same with and without the fourth bar, and the break of
the four bars is still the last one when a fifth has come. -/
theorem no_look_ahead_rising :
    run (fun _ => some (some (frameOf brokenRows))) 2 "EURUSD" ⟨fun _ => .ok [], "READY"⟩ none none
        (.finite 1) "run" .v1
      = run (fun _ => some (some (frameOf (brokenRows.take 3)))) 2 "EURUSD"
        ⟨fun _ => .ok [], "READY"⟩ none none (.finite 1) "run" .v1 ∧
    brokenReport.highs <+: laterReport.highs ∧ brokenReport.lows <+: laterReport.lows ∧
      ∀ b, brokenReport.bos = some b → Follows (brokenReport.highs ++ brokenReport.lows) b ∧
        ∃ b', laterReport.bos = some b' ∧ b.breakTimestamp ≤ b'.breakTimestamp := by
  constructor
  · refine no_look_ahead.1 _ _ 2 "EURUSD" _ none none (.finite 1) "run" .v1 fun _ _ => ?_
    refine
      { carries := by decide
        carries' := by decide
        unique := by decide +kernel
        unique' := by decide +kernel
        bars := ?_
        columns := fun _ _ _ _ => rfl }
    intro row htime _
    constructor
    · intro hrow
      obtain hrow | hlast := List.mem_append.mp
        (show row ∈ brokenRows.take 3 ++ [risingRow 3 4] from hrow)
      · exact hrow
      · rw [List.mem_singleton.mp hlast] at htime
        exact absurd htime (by decide)
    · exact List.mem_of_mem_take
  · exact no_look_ahead.2 (frameOf brokenRows) (frameOf (brokenRows ++ [risingRow 4 5])) 3 4
      "EURUSD" "5m" "run" brokenReport laterReport ⟨[risingRow 4 5], by decide +kernel⟩
      (by decide +kernel) (by decide +kernel)

end MarketSystem.Orchestrator
