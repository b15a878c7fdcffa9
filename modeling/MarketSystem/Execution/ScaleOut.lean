import MarketSystem.Execution.EurusdPullback
import MarketSystem.Library.Runs

/-!
# Scaling out of a filled limit

On every tick the router asks for the steps that are due and sends them one by one
until one fails; the row remembers what was accepted. The stop becomes due with the
+1R partial, and after the row has taken that partial it is due only while the price is
still there.
-/
namespace MarketSystem.ScaleOut

open Library EurusdPullback

/-- The columns of a routed trade that the scale-out reads and writes. -/
structure Row where
  side : Side
  limitPrice : Option ℚ
  entry : ℚ
  riskDistance : Option ℚ
  initialStop : Option ℚ
  stop : ℚ
  units : ℤ
  scaleStage : Stage
  unitsRemaining : Option ℤ
  /-- `status == OPEN`. -/
  isOpen : Bool
  /-- `action_status == UNKNOWN`. -/
  unresolved : Bool

/-- `x or y`: zero is no price. -/
def orElse (x : Option ℚ) (y : ℚ) : ℚ :=
  match x with
  | some x => if x = 0 then y else x
  | none => y

namespace Row

def anchor (row : Row) : ℚ := orElse row.limitPrice row.entry

def risk (row : Row) : ℚ :=
  match row.riskDistance with
  | some risk => risk
  | none => |row.anchor - orElse row.initialStop row.stop|

/-- `management_steps` for the row. -/
def steps (row : Row) (price : ℚ) : List ManageStep :=
  managementSteps row.side row.anchor row.risk row.units row.scaleStage row.unitsRemaining price
    (some row.stop)

end Row

/-- What the broker makes of a step that is sent. -/
inductive Result
  | accepted
  | rejected
  /-- Rejected because the trade is gone. -/
  | noOpenPosition
  /-- A definite failure: nothing was processed. -/
  | failed
  /-- A timeout, or an answer that says nothing. -/
  | unknown
  deriving DecidableEq

/-- `_apply_pullback_step`: the row after the step, and whether the next step follows. -/
def applyStep (row : Row) (step : ManageStep) (result : Result) : Row × Bool :=
  match step.kind with
  | .mark => ({ row with scaleStage := step.stage }, true)
  | .partialClose =>
      match result with
      | .accepted =>
          ({ row with
              unitsRemaining := step.remaining
              scaleStage := step.stage
              unresolved := false }, true)
      | .noOpenPosition => ({ row with isOpen := false, unresolved := false }, false)
      | .rejected | .failed => (row, false)
      | .unknown => ({ row with unresolved := true }, false)
  | .stop =>
      match result with
      | .accepted =>
          -- `round_price` raises on what is no price, and nothing is written then
          match step.stop.bind roundPrice with
          | none => (row, false)
          | some rounded =>
              ({ row with
                  scaleStage := step.stage
                  stop := rounded
                  initialStop := some (row.initialStop.getD row.stop)
                  unresolved := false }, true)
      | .rejected | .noOpenPosition | .failed => (row, false)
      | .unknown => ({ row with unresolved := true }, false)

/-- The steps in order, until one does not succeed or the process dies. -/
def applySteps (row : Row) : List ManageStep → List Result → Row
  | step :: steps, result :: results =>
      let (row, goesOn) := applyStep row step result
      if goesOn then applySteps row steps results else row
  | _, _ => row

/-- What happens to the row. -/
inductive Event
  /-- `_manage_pullback` at a price; a short list of results is a process that died. -/
  | tick (price : ℚ) (results : List Result)
  /-- `clear_unresolved`. -/
  | clearUnresolved

/-- An unresolved row is left alone. -/
def handle (row : Row) : Event → Row
  | .tick price results =>
      if row.isOpen ∧ row.unresolved = false then applySteps row (row.steps price) results else row
  | .clearUnresolved => { row with unresolved := false }

/-! ## Sides -/

/-- `x` is at or beyond `y` on the profitable side. -/
def AtOrBeyond (side : Side) (x y : ℚ) : Prop :=
  match side with
  | .long => y ≤ x
  | .short => x ≤ y

instance (side : Side) (x y : ℚ) : Decidable (AtOrBeyond side x y) := by
  cases side
  · exact inferInstanceAs (Decidable (y ≤ x))
  · exact inferInstanceAs (Decidable (x ≤ y))

theorem reached_eq_true {side : Side} {x y : ℚ} : reached side x y = true ↔ AtOrBeyond side x y := by
  cases side <;> simp [reached, AtOrBeyond]

theorem tighter_eq_true {side : Side} {x y : ℚ} :
    tighter side x (some y) = true ↔ ¬ AtOrBeyond side y x := by
  cases side <;> simp [tighter, AtOrBeyond]

theorem AtOrBeyond.refl (side : Side) (x : ℚ) : AtOrBeyond side x x := by
  cases side <;> exact le_rfl

theorem AtOrBeyond.trans {side : Side} {x y z : ℚ} (hxy : AtOrBeyond side x y)
    (hyz : AtOrBeyond side y z) : AtOrBeyond side x z := by
  cases side
  · exact le_trans (α := ℚ) hyz hxy
  · exact le_trans (α := ℚ) hxy hyz

theorem AtOrBeyond.total (side : Side) (x y : ℚ) : AtOrBeyond side x y ∨ AtOrBeyond side y x := by
  cases side
  · exact le_total y x
  · exact le_total x y

theorem trailStop_beyond (side : Side) (anchor risk price : ℚ) :
    AtOrBeyond side (trailStop side anchor risk price) anchor := by
  cases side
  · exact le_max_right _ _
  · exact min_le_right _ _

/-- Rounding does not take a price across a grid point. -/
theorem round_beyond {side : Side} {x y rounded : ℚ} (hy : OnGrid y) (h : AtOrBeyond side x y)
    (hrounded : roundPrice x = some rounded) : AtOrBeyond side rounded y := by
  unfold roundPrice at hrounded
  split_ifs at hrounded
  cases hrounded
  cases side
  · exact Grid.le_roundHalfUp (by decide) hy h
  · exact Grid.roundHalfUp_le (by decide) hy h

/-! ## What the steps of one call are -/

/-- The stop of the step is a tighter one, at or beyond the anchor. -/
def Tightens (side : Side) (anchor stop : ℚ) (step : ManageStep) : Prop :=
  ∃ newStop, step.stop = some newStop ∧ ¬ AtOrBeyond side stop newStop ∧
    AtOrBeyond side newStop anchor

/-- Partials that stay out of the trail, then at most one step into it, which moves the stop or
finds it where it should be. -/
def Due (side : Side) (anchor stop : ℚ) : List ManageStep → Prop
  | [] => True
  | step :: rest =>
      (step.kind = .partialClose ∧ step.stage ≠ .trail ∧ step.stop = none ∧
        Due side anchor stop rest) ∨
      (rest = [] ∧ step.kind = .stop ∧ Tightens side anchor stop step) ∨
      (rest = [] ∧ step.kind = .mark ∧ step.stop = none ∧ AtOrBeyond side stop anchor)

section Steps

variable {side : Side} {anchor risk : ℚ} {units : ℤ} {stage : Stage} {remaining : Option ℤ}
  {price stop : ℚ}

/-- Partials, none of which enters the trail. -/
def Partials (steps : List ManageStep) : Prop :=
  ∀ step ∈ steps, step.kind = .partialClose ∧ step.stage ≠ .trail ∧ step.stop = none

theorem partials_takePartial (side : Side) (units : ℤ) (price : ℚ) {s : Progress}
    (h : Partials s.steps) (at_ : ℚ) (source : Stage) {target : Stage} (htarget : target ≠ .trail)
    (label : String) :
    Partials (s.takePartial side units price at_ source target label).steps := by
  unfold Progress.takePartial
  split_ifs
  · intro step hstep
    rcases List.mem_append.mp hstep with hstep | hstep
    · exact h step hstep
    · rw [List.mem_singleton.mp hstep]
      exact ⟨rfl, htarget, rfl⟩
  · exact h

theorem due_of_partials {steps : List ManageStep} (h : Partials steps) {last : List ManageStep}
    (hlast : Due side anchor stop last) : Due side anchor stop (steps ++ last) := by
  induction steps with
  | nil => exact hlast
  | cons step steps ih =>
    obtain ⟨hkind, hstage, hstop⟩ := h step (by simp)
    exact .inl ⟨hkind, hstage, hstop, ih (fun step hstep => h step (by simp [hstep]))⟩

theorem tightens_trailStop {step : ManageStep}
    (hstop : step.stop = some (trailStop side anchor risk price))
    (htighter : tighter side (trailStop side anchor risk price) (some stop) = true) :
    Tightens side anchor stop step :=
  ⟨_, hstop, tighter_eq_true.mp htighter, trailStop_beyond ..⟩

theorem due_breakevenStep (left : ℤ) :
    Due side anchor stop [breakevenStep side anchor risk price (some stop) left] := by
  cases htighter : tighter side (trailStop side anchor risk price) (some stop) with
  | true =>
    refine .inr (.inl ⟨rfl, ?_, tightens_trailStop ?_ htighter⟩)
    · simp [breakevenStep, htighter]
    · simp [breakevenStep, htighter]
  | false =>
    have hreached : AtOrBeyond side stop (trailStop side anchor risk price) := by
      by_contra hnot
      rw [tighter_eq_true.mpr hnot] at htighter
      cases htighter
    refine .inr (.inr ⟨rfl, ?_, ?_, hreached.trans (trailStop_beyond ..)⟩)
    · simp [breakevenStep, htighter]
    · simp [breakevenStep, htighter]

theorem due_managementSteps :
    Due side anchor stop (managementSteps side anchor risk units stage remaining price (some stop)) := by
  unfold managementSteps
  by_cases hinvalid : risk ≤ 0 ∨ units < 1
  · rw [if_pos hinvalid]
    trivial
  rw [if_neg hinvalid]
  by_cases htrail : stage = .trail
  · rw [if_pos htrail]
    dsimp only
    split_ifs with htighter
    · exact .inr (.inl ⟨rfl, rfl, tightens_trailStop rfl htighter⟩)
    · trivial
  rw [if_neg htrail]
  dsimp only
  have hhalf := partials_takePartial side units price
    (s := ⟨remaining.getD units, stage, []⟩) (fun step hstep => by cases hstep)
    (level side anchor risk (1 / 2)) .none (show Stage.half ≠ .trail by decide) "0.5R"
  have hone := partials_takePartial side units price hhalf
    (level side anchor risk 1) .half (show Stage.one ≠ .trail by decide) "1R"
  split_ifs
  · exact due_of_partials hone (due_breakevenStep _)
  · have hlast : Due side anchor stop [] := trivial
    have := due_of_partials hone hlast
    rwa [List.append_nil] at this

/-- At stage ONE the stop is the only step, and it is due while the price is at +1R. -/
theorem managementSteps_one (hrisk : 0 < risk) (hunits : 1 ≤ units) (stop : Option ℚ) :
    managementSteps side anchor risk units .one remaining price stop =
      if reached side price (level side anchor risk 1) then
        [breakevenStep side anchor risk price stop (remaining.getD units)]
      else [] := by
  have hvalid : ¬ (risk ≤ 0 ∨ units < 1) := by
    push Not
    exact ⟨hrisk, by omega⟩
  unfold managementSteps
  rw [if_neg hvalid, if_neg (by decide)]
  simp [Progress.takePartial, Progress.ready]

end Steps

/-- Every stop among the steps is a tighter one. -/
theorem tightens_of_due {side : Side} {anchor stop : ℚ} {steps : List ManageStep}
    (h : Due side anchor stop steps) {step : ManageStep} (hstep : step ∈ steps) {newStop : ℚ}
    (hstop : step.stop = some newStop) : Tightens side anchor stop step := by
  induction steps with
  | nil => cases hstep
  | cons first rest ih =>
    rcases h with ⟨-, -, hnone, hrest⟩ | ⟨rfl, -, htightens⟩ | ⟨rfl, -, hnone, -⟩
    · rcases List.mem_cons.mp hstep with rfl | hstep
      · rw [hnone] at hstop
        cases hstop
      · exact ih hrest hstep
    · rw [List.mem_singleton.mp hstep]
      exact htightens
    · rw [List.mem_singleton.mp hstep, hnone] at hstop
      cases hstop

/-! ## Runs -/

/-- What the row keeps of the row it started as, and what its stage promises. -/
structure Tracks (origin row : Row) : Prop where
  side : row.side = origin.side
  limitPrice : row.limitPrice = origin.limitPrice
  entry : row.entry = origin.entry
  units : row.units = origin.units
  riskDistance : row.riskDistance = origin.riskDistance
  grid : OnGrid row.stop
  trail : row.scaleStage = .trail → AtOrBeyond row.side row.stop row.anchor
  ratchet : AtOrBeyond row.side row.stop origin.stop

section Runs

variable {origin row : Row}

theorem Tracks.anchor (h : Tracks origin row) : row.anchor = origin.anchor := by
  unfold Row.anchor
  rw [h.limitPrice, h.entry]

theorem Tracks.step (h : Tracks origin row) (hgrid : OnGrid origin.anchor) {step : ManageStep}
    {rest : List ManageStep} (hdue : Due row.side row.anchor row.stop (step :: rest))
    (result : Result) :
    Tracks origin (applyStep row step result).1 ∧
      Due row.side row.anchor (applyStep row step result).1.stop rest := by
  rcases hdue with ⟨hkind, hstage, -, hrest⟩ | ⟨rfl, hkind, newStop, hstop, htighter, hbeyond⟩ |
    ⟨rfl, hkind, -, hbeyond⟩
  · unfold applyStep
    rw [hkind]
    cases result with
    | accepted => exact ⟨{ h with trail := fun htrail => absurd htrail hstage }, hrest⟩
    | noOpenPosition => exact ⟨{ h with }, hrest⟩
    | unknown => exact ⟨{ h with }, hrest⟩
    | rejected => exact ⟨h, hrest⟩
    | failed => exact ⟨h, hrest⟩
  · refine ⟨?_, trivial⟩
    unfold applyStep
    rw [hkind]
    cases result with
    | accepted =>
      cases hrounded : step.stop.bind roundPrice with
      | none => exact h
      | some rounded =>
        rw [hstop] at hrounded
        have hround : roundPrice newStop = some rounded := hrounded
        have hanchor : OnGrid row.anchor := h.anchor ▸ hgrid
        have hahead := (AtOrBeyond.total row.side newStop row.stop).resolve_right htighter
        exact { h with
          grid := by
            unfold roundPrice at hround
            split_ifs at hround
            cases hround
            exact Grid.onGrid_roundHalfUp ..
          trail := fun _ => round_beyond hanchor hbeyond hround
          ratchet := (round_beyond h.grid hahead hround).trans h.ratchet }
    | unknown => exact { h with }
    | noOpenPosition => exact h
    | rejected => exact h
    | failed => exact h
  · refine ⟨?_, trivial⟩
    unfold applyStep
    rw [hkind]
    exact { h with trail := fun _ => hbeyond }

theorem Tracks.applySteps (h : Tracks origin row) (hgrid : OnGrid origin.anchor)
    {steps : List ManageStep} (hdue : Due row.side row.anchor row.stop steps)
    (results : List Result) : Tracks origin (applySteps row steps results) := by
  induction steps generalizing row results with
  | nil => exact h
  | cons step steps ih =>
    cases results with
    | nil => exact h
    | cons result results =>
      obtain ⟨hnext, hrest⟩ := h.step hgrid hdue result
      have hside : (applyStep row step result).1.side = row.side := hnext.side.trans h.side.symm
      have hanchor : (applyStep row step result).1.anchor = row.anchor :=
        hnext.anchor.trans h.anchor.symm
      unfold ScaleOut.applySteps
      dsimp only
      split_ifs
      · exact ih hnext (by rwa [hside, hanchor]) results
      · exact hnext

theorem Tracks.handle (h : Tracks origin row) (hgrid : OnGrid origin.anchor) (event : Event) :
    Tracks origin (handle row event) := by
  cases event with
  | clearUnresolved => exact { h with }
  | tick price results =>
    unfold ScaleOut.handle
    dsimp only
    split_ifs
    · exact h.applySteps hgrid due_managementSteps results
    · exact h

theorem Tracks.run (h : Tracks origin row) (hgrid : OnGrid origin.anchor) (events : List Event) :
    Tracks origin (run ScaleOut.handle events row) := by
  induction events generalizing row with
  | nil => exact h
  | cons event events ih => exact ih (h.handle hgrid event)

/-- The row of a limit as it is sent: prices on the grid, a risk, and thirds to close. -/
structure Sent (row : Row) : Prop where
  stage : row.scaleStage = .none
  anchor : OnGrid row.anchor
  stop : OnGrid row.stop
  risk : ∃ risk, row.riskDistance = some risk ∧ 0 < risk
  units : 3 ≤ row.units

theorem Sent.tracks (h : Sent row) : Tracks row row where
  side := rfl
  limitPrice := rfl
  entry := rfl
  units := rfl
  riskDistance := rfl
  grid := h.stop
  trail := fun htrail => by
    rw [h.stage] at htrail
    cases htrail
  ratchet := .refl ..

/-- Seen from a row on the way, the later rows keep what they promise. -/
theorem Tracks.restart (h : Tracks origin row) : Tracks row row :=
  { h with
    side := rfl
    limitPrice := rfl
    entry := rfl
    units := rfl
    riskDistance := rfl
    ratchet := .refl .. }

/-- A step that moves the stop to breakeven or better. -/
def ToBreakeven (row : Row) (step : ManageStep) : Prop :=
  step.kind = .stop ∧ ∃ newStop, step.stop = some newStop ∧ AtOrBeyond row.side newStop row.anchor

/-- At stage ONE, with a stop that is still worse than the anchor, the stop is due exactly
while the price is at +1R. -/
theorem toBreakeven_iff (hstage : row.scaleStage = .one) (hrisk : 0 < row.risk)
    (hunits : 1 ≤ row.units) (hworse : ¬ AtOrBeyond row.side row.stop row.anchor) (price : ℚ) :
    (∃ step ∈ row.steps price, ToBreakeven row step) ↔
      AtOrBeyond row.side price (level row.side row.anchor row.risk 1) := by
  have hsteps : row.steps price =
      if reached row.side price (level row.side row.anchor row.risk 1) then
        [breakevenStep row.side row.anchor row.risk price (some row.stop)
          (row.unitsRemaining.getD row.units)]
      else [] := by
    unfold Row.steps
    rw [hstage]
    exact managementSteps_one hrisk hunits _
  rw [hsteps, ← reached_eq_true]
  cases hreached : reached row.side price (level row.side row.anchor row.risk 1) with
  | false => simp
  | true =>
    -- the trailing stop is beyond the anchor, and the recorded one is not
    have htighter : tighter row.side (trailStop row.side row.anchor row.risk price)
        (some row.stop) = true :=
      tighter_eq_true.mpr (fun h => hworse (h.trans (trailStop_beyond ..)))
    simp only [if_true, List.mem_singleton, exists_eq_left, iff_true]
    refine ⟨?_, trailStop row.side row.anchor row.risk price, ?_, trailStop_beyond ..⟩
    · simp [breakevenStep, htighter]
    · simp [breakevenStep, htighter]

/-- In every run of a row that was sent: at stage ONE with a stop worse than the anchor the stop
is due exactly while the price is at +1R; and from stage TRAIL on the stop is at or beyond the
anchor, never loosens, and every stop returned is tighter than the one recorded. -/
theorem breakeven_due_at_one_r (h : Sent origin) (events : List Event) :
    let row := run handle events origin
    (row.scaleStage = .one → ¬ AtOrBeyond row.side row.stop row.anchor → ∀ price,
      ((∃ step ∈ row.steps price, ToBreakeven row step) ↔
        AtOrBeyond row.side price (level row.side row.anchor row.risk 1))) ∧
    (row.scaleStage = .trail → AtOrBeyond row.side row.stop row.anchor ∧
      ∀ more : List Event, let later := run handle more row
        AtOrBeyond row.side later.stop row.stop ∧
        ∀ price, ∀ step ∈ later.steps price, ∀ newStop, step.stop = some newStop →
          Tightens row.side row.anchor later.stop step) := by
  intro row
  have htracks : Tracks origin row := h.tracks.run h.anchor events
  have hrisk : 0 < row.risk := by
    obtain ⟨risk, hrisk, hpos⟩ := h.risk
    unfold Row.risk
    rw [htracks.riskDistance, hrisk]
    exact hpos
  have hunits : 1 ≤ row.units := by
    have := h.units
    rw [htracks.units]
    omega
  refine ⟨fun hstage hworse price => toBreakeven_iff hstage hrisk hunits hworse price,
    fun htrail => ⟨htracks.trail htrail, fun more => ?_⟩⟩
  intro later
  have hlater : Tracks row later := htracks.restart.run (htracks.anchor ▸ h.anchor) more
  refine ⟨hlater.side ▸ hlater.ratchet, fun price step hstep newStop hstop => ?_⟩
  have htightens := tightens_of_due due_managementSteps hstep hstop
  rwa [hlater.side, hlater.anchor] at htightens

end Runs

/-! ## A stop that fails, and a price that comes back -/

/-- Three units bought at 1.10000 with 25 pips at risk. -/
def sampleRow : Row where
  side := .long
  limitPrice := some (11 / 10)
  entry := 11 / 10
  riskDistance := some (25 / 10000)
  initialStop := none
  stop := 10975 / 10000
  units := 3
  scaleStage := .none
  unitsRemaining := some 3
  isOpen := true
  unresolved := false

/-- The partials go through at +1R, and the stop does not. -/
def sampleTick : Event := .tick (11026 / 10000) [.accepted, .accepted, .failed]

theorem sampleRow_sent : Sent sampleRow where
  stage := rfl
  anchor := ⟨110000, by norm_num [Row.anchor, orElse, sampleRow, PRICE_STEPS]⟩
  stop := ⟨109750, by norm_num [sampleRow, PRICE_STEPS]⟩
  risk := ⟨25 / 10000, rfl, by norm_num⟩
  units := by decide

/-- The next tick at the same price moves the stop. -/
theorem breakeven_due_at_one_r_sample :
    ∃ step ∈ (run handle [sampleTick] sampleRow).steps (11026 / 10000),
      ToBreakeven (run handle [sampleTick] sampleRow) step :=
  ((breakeven_due_at_one_r sampleRow_sent [sampleTick]).1 (by decide +kernel)
    (by decide +kernel) _).mpr (by decide +kernel)

/-- At 1.10100, ten pips beyond the anchor, the stop stays where it was. -/
theorem price_comes_back :
    ¬ ∀ (origin : Row) (events : List Event), Sent origin →
      (run handle events origin).scaleStage = .one →
      ∀ price, ¬ AtOrBeyond origin.side origin.anchor price →
        ¬ AtOrBeyond origin.side (run handle events origin).stop origin.anchor →
        ∃ step ∈ (run handle events origin).steps price,
          ToBreakeven (run handle events origin) step := by
  intro h
  obtain ⟨step, hstep, -⟩ := h sampleRow [sampleTick] sampleRow_sent (by decide +kernel)
    (1101 / 1000) (by decide +kernel) (by decide +kernel)
  have hnone : (run handle [sampleTick] sampleRow).steps (1101 / 1000) = [] := by decide +kernel
  rw [hnone] at hstep
  cases hstep

end MarketSystem.ScaleOut
