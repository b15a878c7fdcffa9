import MarketSystem.Execution.ScaleOut

/-!
# The units of a scaled-out trade

The row counts the units that are left; the broker has units open. A partial close takes
the same number from both, unless the broker processed it and the row never learned:
the answer said nothing, or the process died before it wrote. What is missing between the
two counts is exactly what was closed so.
-/
namespace MarketSystem.ScaleOutUnits

open Library EurusdPullback ScaleOut

/-! ## Requests and their answers -/

/-- What becomes of a request to the broker. -/
inductive Reply
  | accepted
  | rejected
  | noOpenPosition
  | failed
  /-- An exception, a timeout, or an answer that says nothing. -/
  | unknown (processed : Bool)
  /-- The process ends before it writes the row. -/
  | died (processed : Bool)
  deriving DecidableEq

namespace Reply

/-- The broker did what was asked. -/
def processed : Reply → Bool
  | accepted => true
  | unknown processed => processed
  | died processed => processed
  | _ => false

/-- What the router makes of the answer, when it gets to it. -/
def result : Reply → Option Result
  | accepted => some .accepted
  | rejected => some .rejected
  | noOpenPosition => some .noOpenPosition
  | failed => some .failed
  | unknown _ => some .unknown
  | died _ => none

/-- The broker refuses to close more than is open. -/
def within (fits : Bool) (reply : Reply) : Reply :=
  if fits then reply
  else match reply with
    | accepted => rejected
    | unknown _ => unknown false
    | died _ => died false
    | other => other

end Reply

/-! ## The row and the broker -/

structure State where
  row : Row
  /-- The units of the trade that are open at the broker: none once it is closed. -/
  openUnits : ℤ
  /-- The stages of the partial closes that the row recorded, the last one first. -/
  recorded : List Stage
  /-- The units of the partial closes that were processed and never recorded. -/
  unrecorded : List ℤ

/-- A partial close at the broker, and what the row records of it. -/
def sendPartial (s : State) (step : ManageStep) (units : ℤ) (reply : Reply) : State × Bool :=
  let reply := reply.within (decide (units ≤ s.openUnits))
  let openUnits := if reply.processed then s.openUnits - units else s.openUnits
  match reply.result with
  | none =>
      ({ s with
          openUnits := openUnits
          unrecorded := if reply.processed then units :: s.unrecorded else s.unrecorded }, false)
  | some result =>
      let (row, goesOn) := applyStep s.row step result
      ({ row := row
         openUnits := openUnits
         recorded := if result = .accepted then step.stage :: s.recorded else s.recorded
         unrecorded := if reply.processed ∧ result ≠ .accepted then units :: s.unrecorded
           else s.unrecorded }, goesOn)

/-- `_apply_pullback_step`, with the broker. Only a partial close changes what is open. -/
def sendStep (s : State) (step : ManageStep) (reply : Reply) : State × Bool :=
  match step.kind, step.units with
  | .partialClose, some units => sendPartial s step units reply
  | _, _ =>
      match reply.result with
      | none => (s, false)
      | some result =>
          let (row, goesOn) := applyStep s.row step result
          ({ s with row := row }, goesOn)

/-- The steps of a tick, until one does not succeed or the process ends. -/
def sendSteps (s : State) : List ManageStep → List Reply → State
  | step :: steps, reply :: replies =>
      let (s, goesOn) := sendStep s step reply
      if goesOn then sendSteps s steps replies else s
  | _, _ => s

/-- `_close`: the whole trade. -/
def closeAll (s : State) (reply : Reply) : State :=
  let reply := reply.within (decide (0 < s.openUnits))
  let openUnits := if reply.processed then 0 else s.openUnits
  match reply.result with
  | some .accepted | some .noOpenPosition =>
      { s with row := { s.row with isOpen := false, unresolved := false }, openUnits := openUnits }
  | some .unknown => { s with row := { s.row with unresolved := true }, openUnits := openUnits }
  | _ => { s with openUnits := openUnits }

inductive Event
  /-- `_manage_pullback` at a price; a short list of replies is a process that ended. -/
  | tick (price : ℚ) (replies : List Reply)
  /-- A close by the duration rule, a flatten, a reversal or the operator. -/
  | close (reply : Reply)
  /-- `_reconcile_row`: a row whose trade is no longer open. -/
  | reconcile
  /-- The trade reaches its stop or target, or is closed by hand. -/
  | closedAtBroker
  /-- `clear_unresolved`. -/
  | clearUnresolved

/-- An unresolved row is left alone. A restart changes nothing here. -/
def handle (s : State) : Event → State
  | .tick price replies =>
      if s.row.isOpen ∧ s.row.unresolved = false then sendSteps s (s.row.steps price) replies else s
  | .close reply => if s.row.isOpen ∧ s.row.unresolved = false then closeAll s reply else s
  | .reconcile =>
      if s.row.isOpen ∧ s.openUnits ≤ 0 then
        { s with row := { s.row with isOpen := false, unresolved := false } }
      else s
  | .closedAtBroker => { s with openUnits := 0 }
  | .clearUnresolved =>
      if s.row.isOpen then { s with row := { s.row with unresolved := false } } else s

/-! ## The steps of one call -/

/-- Partials from one stage to the next, each of a third of the units, and then at most one
step that closes nothing. -/
def Chain (units : ℤ) (stage : Stage) (left : ℤ) : List ManageStep → Prop
  | [] => True
  | step :: rest =>
      (step.kind = .partialClose ∧ step.units = some (units / 3) ∧ 1 ≤ units / 3 ∧
        1 ≤ left - units / 3 ∧ step.remaining = some (left - units / 3) ∧
        (stage = .none ∧ step.stage = .half ∨ stage = .half ∧ step.stage = .one) ∧
        Chain units step.stage (left - units / 3) rest) ∨
      (step.kind ≠ .partialClose ∧ step.stage = .trail ∧ rest = [])

/-- The steps so far lead from a stage to the one that is reached. -/
def Leads (units : ℤ) (stage : Stage) (left : ℤ) (s : Progress) : Prop :=
  ∀ rest, Chain units s.stage s.left rest → Chain units stage left (s.steps ++ rest)

theorem Leads.takePartial {units left : ℤ} {stage : Stage} {s : Progress}
    (h : Leads units stage left s) (side : Side) (price at_ : ℚ) {source target : Stage}
    (hnext : source = .none ∧ target = .half ∨ source = .half ∧ target = .one) (label : String) :
    Leads units stage left (s.takePartial side units price at_ source target label) := by
  unfold Progress.takePartial
  split_ifs with hdue
  · obtain ⟨hstage, -, hcan⟩ := hdue
    obtain ⟨hthird, hleft⟩ := of_decide_eq_true hcan
    intro rest hrest
    rw [List.append_assoc]
    exact h _ (.inl ⟨rfl, rfl, hthird, hleft, rfl, hstage ▸ hnext, hrest⟩)
  · exact h

theorem chain_managementSteps (side : Side) (anchor risk : ℚ) (units : ℤ) (stage : Stage)
    (remaining : Option ℤ) (price : ℚ) (stop : Option ℚ) :
    Chain units stage (remaining.getD units)
      (managementSteps side anchor risk units stage remaining price stop) := by
  unfold managementSteps
  split_ifs with hinvalid htrail
  · trivial
  · dsimp only
    split_ifs
    · exact .inr ⟨by simp, rfl, rfl⟩
    · trivial
  · dsimp only
    have hstart : Leads units stage (remaining.getD units) ⟨remaining.getD units, stage, []⟩ :=
      fun _ hrest => hrest
    have hone := (hstart.takePartial side price (level side anchor risk (1 / 2))
      (.inl ⟨rfl, rfl⟩) "0.5R").takePartial side price (level side anchor risk 1)
      (.inr ⟨rfl, rfl⟩) "1R"
    split_ifs
    · refine hone _ (.inr ⟨?_, rfl, rfl⟩)
      unfold breakevenStep
      dsimp only
      split_ifs <;> simp
    · have hend := hone [] trivial
      rwa [List.append_nil] at hend

/-! ## What every event keeps -/

def rank : Stage → ℕ
  | .none => 0
  | .half => 1
  | .one => 2
  | .trail => 3

/-- The units that are left after the recorded partial closes of a third each. -/
def left (units : ℤ) (recorded : List Stage) : ℤ := units - recorded.length * (units / 3)

theorem left_cons (units : ℤ) (stage : Stage) (recorded : List Stage) :
    left units (stage :: recorded) = left units recorded - units / 3 := by
  unfold left
  rw [List.length_cons]
  push_cast
  ring

structure Inv (units : ℤ) (s : State) : Prop where
  size : s.row.units = units
  remaining : s.row.unitsRemaining = some (left units s.recorded)
  atLeastOne : 1 ≤ left units s.recorded
  stages : s.recorded = [] ∨ s.recorded = [.half] ∨ s.recorded = [.one, .half]
  none : s.row.scaleStage = .none → s.recorded = []
  half : s.row.scaleStage = .half → s.recorded = [.half]
  one : s.row.scaleStage = .one → s.recorded = [.one, .half]
  nonneg : 0 ≤ s.openUnits
  /-- Where the two counts differ. -/
  balance : 0 < s.openUnits → s.openUnits + s.unrecorded.sum = left units s.recorded

/-- The counts and the stage of the row stay, and the trade stays as it is or is closed. -/
theorem Inv.same {units : ℤ} {s s' : State} (h : Inv units s) (hunits : s'.row.units = s.row.units)
    (hremaining : s'.row.unitsRemaining = s.row.unitsRemaining)
    (hstage : s'.row.scaleStage = s.row.scaleStage ∨ s'.row.scaleStage = .trail)
    (hrecorded : s'.recorded = s.recorded) (hunrecorded : s'.unrecorded = s.unrecorded)
    (hopen : s'.openUnits = s.openUnits ∨ s'.openUnits = 0) : Inv units s' := by
  obtain ⟨row, openUnits, recorded, unrecorded⟩ := s'
  subst hrecorded hunrecorded
  refine ⟨hunits.trans h.size, hremaining.trans h.remaining, h.atLeastOne, h.stages, ?_, ?_, ?_,
    ?_, ?_⟩
  · intro hnone
    rcases hstage with hs | hs
    · exact h.none (hs.symm.trans hnone)
    · exact nomatch hs.symm.trans hnone
  · intro hhalf
    rcases hstage with hs | hs
    · exact h.half (hs.symm.trans hhalf)
    · exact nomatch hs.symm.trans hhalf
  · intro hone
    rcases hstage with hs | hs
    · exact h.one (hs.symm.trans hone)
    · exact nomatch hs.symm.trans hone
  · have := h.nonneg
    rcases hopen with ho | ho <;> simp only at ho ⊢ <;> omega
  · intro hpos
    rcases hopen with ho | ho
    · simp only at ho
      rw [ho] at hpos ⊢
      exact h.balance hpos
    · simp only at ho
      simp only at hpos
      omega

/-- A partial close that the broker processed and the row did not record. -/
theorem Inv.lost {units k : ℤ} {s : State} (h : Inv units s) (hk : k ≤ s.openUnits) (hpos : 1 ≤ k)
    {row : Row} (hunits : row.units = s.row.units)
    (hremaining : row.unitsRemaining = s.row.unitsRemaining)
    (hstage : row.scaleStage = s.row.scaleStage) :
    Inv units ⟨row, s.openUnits - k, s.recorded, k :: s.unrecorded⟩ where
  size := hunits.trans h.size
  remaining := hremaining.trans h.remaining
  atLeastOne := h.atLeastOne
  stages := h.stages
  none := fun hnone => h.none (hstage.symm.trans hnone)
  half := fun hhalf => h.half (hstage.symm.trans hhalf)
  one := fun hone => h.one (hstage.symm.trans hone)
  nonneg := by simp only; omega
  balance := by
    intro _
    have := h.balance (by omega)
    rw [List.sum_cons]
    simp only
    omega

/-- A partial close that was accepted. -/
theorem Inv.accepted {units : ℤ} {s : State} (h : Inv units s) (hk : units / 3 ≤ s.openUnits)
    (hpos : 1 ≤ units / 3) (hleft : 1 ≤ left units s.recorded - units / 3) {target : Stage}
    (hnext : s.row.scaleStage = .none ∧ target = .half ∨
      s.row.scaleStage = .half ∧ target = .one) :
    Inv units ⟨{ s.row with
        unitsRemaining := some (left units s.recorded - units / 3)
        scaleStage := target
        unresolved := false }, s.openUnits - units / 3, target :: s.recorded, s.unrecorded⟩ where
  size := h.size
  remaining := congrArg some (left_cons ..).symm
  atLeastOne := (left_cons units target s.recorded).symm ▸ hleft
  stages := by
    rcases hnext with ⟨hstage, rfl⟩ | ⟨hstage, rfl⟩
    · exact .inr (.inl (by rw [h.none hstage]))
    · exact .inr (.inr (by rw [h.half hstage]))
  none := by
    rcases hnext with ⟨-, rfl⟩ | ⟨-, rfl⟩
    · exact fun hnone => nomatch hnone
    · exact fun hnone => nomatch hnone
  half := by
    rcases hnext with ⟨hstage, rfl⟩ | ⟨-, rfl⟩
    · exact fun _ => by simp only [h.none hstage]
    · exact fun hhalf => nomatch hhalf
  one := by
    rcases hnext with ⟨-, rfl⟩ | ⟨hstage, rfl⟩
    · exact fun hone => nomatch hone
    · exact fun _ => by simp only [h.half hstage]
  nonneg := by simp only; omega
  balance := by
    intro _
    have := h.balance (by omega)
    rw [left_cons]
    simp only
    omega

theorem processed_within {fits : Bool} {reply : Reply}
    (h : (reply.within fits).processed = true) : fits = true := by
  cases fits with
  | true => rfl
  | false => cases reply <;> cases h

/-- The invariant holds after, the stage has not gone back, and what follows starts where this
ends. -/
structure Kept (units : ℤ) (rest : List ManageStep) (s : State) (out : State × Bool) : Prop where
  inv : Inv units out.1
  rank : rank s.row.scaleStage ≤ rank out.1.row.scaleStage
  chain : out.2 = true → Chain units out.1.row.scaleStage (left units out.1.recorded) rest

theorem sendPartial_kept {units : ℤ} {s : State} (h : Inv units s) {step : ManageStep}
    {rest : List ManageStep} (hkind : step.kind = .partialClose) (hpos : 1 ≤ units / 3)
    (hleft : 1 ≤ left units s.recorded - units / 3)
    (hremaining : step.remaining = some (left units s.recorded - units / 3))
    (hnext : s.row.scaleStage = .none ∧ step.stage = .half ∨
      s.row.scaleStage = .half ∧ step.stage = .one)
    (hrest : Chain units step.stage (left units s.recorded - units / 3) rest) (reply : Reply) :
    Kept units rest s (sendPartial s step (units / 3) reply) := by
  have hforward : rank s.row.scaleStage ≤ rank step.stage := by
    rcases hnext with ⟨hs, ht⟩ | ⟨hs, ht⟩ <;> rw [hs, ht] <;> decide
  have hfits : (reply.within (decide (units / 3 ≤ s.openUnits))).processed = true →
      units / 3 ≤ s.openUnits := fun hp => of_decide_eq_true (processed_within hp)
  unfold sendPartial
  generalize reply.within (decide (units / 3 ≤ s.openUnits)) = answer at hfits ⊢
  have hquiet : ∀ row : Row, row.units = s.row.units → row.unitsRemaining = s.row.unitsRemaining →
      row.scaleStage = s.row.scaleStage →
      Kept units rest s (⟨row, s.openUnits, s.recorded, s.unrecorded⟩, false) :=
    fun row hu hr hs => ⟨h.same hu hr (.inl hs) rfl rfl (.inl rfl), (congrArg rank hs).ge,
      fun hgo => nomatch hgo⟩
  have hlost : units / 3 ≤ s.openUnits → ∀ row : Row, row.units = s.row.units →
      row.unitsRemaining = s.row.unitsRemaining → row.scaleStage = s.row.scaleStage →
      Kept units rest s
        (⟨row, s.openUnits - units / 3, s.recorded, units / 3 :: s.unrecorded⟩, false) :=
    fun hk row hu hr hs => ⟨h.lost hk hpos hu hr hs, (congrArg rank hs).ge, fun hgo => nomatch hgo⟩
  cases answer with
  | accepted =>
    have hafter := h.accepted (hfits rfl) hpos hleft hnext
    simp only [Reply.result, Reply.processed, applyStep, hkind, hremaining, if_true, ne_eq,
      not_true_eq_false, and_false, if_false]
    exact ⟨hafter, hforward, fun _ => (left_cons units step.stage s.recorded).symm ▸ hrest⟩
  | rejected =>
    simp only [Reply.result, Reply.processed, applyStep, hkind]
    exact hquiet s.row rfl rfl rfl
  | failed =>
    simp only [Reply.result, Reply.processed, applyStep, hkind]
    exact hquiet s.row rfl rfl rfl
  | noOpenPosition =>
    simp only [Reply.result, Reply.processed, applyStep, hkind]
    exact hquiet _ rfl rfl rfl
  | unknown processed =>
    simp only [Reply.result, Reply.processed, applyStep, hkind]
    cases processed with
    | false => exact hquiet _ rfl rfl rfl
    | true => exact hlost (hfits rfl) _ rfl rfl rfl
  | died processed =>
    simp only [Reply.result, Reply.processed]
    cases processed with
    | false => exact hquiet s.row rfl rfl rfl
    | true => exact hlost (hfits rfl) s.row rfl rfl rfl

/-- A step that closes nothing leaves the counts, and the stage of the row or the last one. -/
theorem applyStep_counts {row : Row} {step : ManageStep} (hkind : step.kind ≠ .partialClose)
    (hstage : step.stage = .trail) (result : Result) :
    (applyStep row step result).1.units = row.units ∧
      (applyStep row step result).1.unitsRemaining = row.unitsRemaining ∧
      ((applyStep row step result).1.scaleStage = row.scaleStage ∨
        (applyStep row step result).1.scaleStage = .trail) := by
  unfold applyStep
  cases hk : step.kind with
  | partialClose => exact absurd hk hkind
  | mark => exact ⟨rfl, rfl, .inr hstage⟩
  | stop =>
    cases result with
    | accepted =>
      cases hrounded : step.stop.bind roundPrice with
      | none => exact ⟨rfl, rfl, .inl rfl⟩
      | some rounded => exact ⟨rfl, rfl, .inr hstage⟩
    | rejected => exact ⟨rfl, rfl, .inl rfl⟩
    | noOpenPosition => exact ⟨rfl, rfl, .inl rfl⟩
    | failed => exact ⟨rfl, rfl, .inl rfl⟩
    | unknown => exact ⟨rfl, rfl, .inl rfl⟩

theorem rank_le_trail (stage : Stage) : rank stage ≤ rank .trail := by
  cases stage <;> decide

/-- The step lemma of a tick. -/
theorem sendStep_kept {units : ℤ} {s : State} (h : Inv units s) {step : ManageStep}
    {rest : List ManageStep}
    (hchain : Chain units s.row.scaleStage (left units s.recorded) (step :: rest))
    (reply : Reply) : Kept units rest s (sendStep s step reply) := by
  unfold sendStep
  rcases hchain with ⟨hkind, hunits, hpos, hleft, hremaining, hnext, hrest⟩ | ⟨hkind, hstage, rfl⟩
  · rw [hkind, hunits]
    exact sendPartial_kept h hkind hpos hleft hremaining hnext hrest reply
  · split
    · rename_i hpartial _
      exact absurd hpartial hkind
    · cases hresult : reply.result with
      | none => exact ⟨h, le_rfl, fun hgo => nomatch hgo⟩
      | some result =>
        obtain ⟨hu, hr, hs⟩ := @applyStep_counts s.row step hkind hstage result
        refine ⟨h.same hu hr hs rfl rfl (.inl rfl), ?_, fun _ => trivial⟩
        rcases hs with hs | hs
        · exact (congrArg rank hs).ge
        · exact (rank_le_trail _).trans (congrArg rank hs).ge

theorem sendSteps_kept {units : ℤ} {s : State} (h : Inv units s) {steps : List ManageStep}
    (hchain : Chain units s.row.scaleStage (left units s.recorded) steps) (replies : List Reply) :
    Inv units (sendSteps s steps replies) ∧
      rank s.row.scaleStage ≤ rank (sendSteps s steps replies).row.scaleStage := by
  induction steps generalizing s replies with
  | nil => exact ⟨h, le_rfl⟩
  | cons step steps ih =>
    cases replies with
    | nil => exact ⟨h, le_rfl⟩
    | cons reply replies =>
      have hkept := sendStep_kept h hchain reply
      unfold sendSteps
      dsimp only
      split_ifs with hgo
      · obtain ⟨hinv, hrank⟩ := ih hkept.inv (hkept.chain hgo) replies
        exact ⟨hinv, hkept.rank.trans hrank⟩
      · exact ⟨hkept.inv, hkept.rank⟩

theorem closeAll_kept {units : ℤ} {s : State} (h : Inv units s) (reply : Reply) :
    Inv units (closeAll s reply) ∧
      rank s.row.scaleStage ≤ rank (closeAll s reply).row.scaleStage := by
  unfold closeAll
  generalize reply.within (decide (0 < s.openUnits)) = answer
  cases answer with
  | accepted => exact ⟨h.same rfl rfl (.inl rfl) rfl rfl (.inr rfl), le_rfl⟩
  | noOpenPosition => exact ⟨h.same rfl rfl (.inl rfl) rfl rfl (.inl rfl), le_rfl⟩
  | rejected => exact ⟨h.same rfl rfl (.inl rfl) rfl rfl (.inl rfl), le_rfl⟩
  | failed => exact ⟨h.same rfl rfl (.inl rfl) rfl rfl (.inl rfl), le_rfl⟩
  | unknown processed =>
    cases processed with
    | false => exact ⟨h.same rfl rfl (.inl rfl) rfl rfl (.inl rfl), le_rfl⟩
    | true => exact ⟨h.same rfl rfl (.inl rfl) rfl rfl (.inr rfl), le_rfl⟩
  | died processed =>
    cases processed with
    | false => exact ⟨h.same rfl rfl (.inl rfl) rfl rfl (.inl rfl), le_rfl⟩
    | true => exact ⟨h.same rfl rfl (.inl rfl) rfl rfl (.inr rfl), le_rfl⟩

/-- The step lemma. -/
theorem handle_kept {units : ℤ} {s : State} (h : Inv units s) (event : Event) :
    Inv units (handle s event) ∧ rank s.row.scaleStage ≤ rank (handle s event).row.scaleStage := by
  unfold handle
  cases event with
  | tick price replies =>
    dsimp only
    split_ifs
    · refine sendSteps_kept h ?_ replies
      have hchain := chain_managementSteps s.row.side s.row.anchor s.row.risk s.row.units
        s.row.scaleStage s.row.unitsRemaining price (some s.row.stop)
      rw [h.size, h.remaining, Option.getD_some] at hchain
      unfold Row.steps
      rw [h.size, h.remaining]
      exact hchain
    · exact ⟨h, le_rfl⟩
  | close reply =>
    dsimp only
    split_ifs
    · exact closeAll_kept h reply
    · exact ⟨h, le_rfl⟩
  | reconcile =>
    dsimp only
    split_ifs
    · exact ⟨h.same rfl rfl (.inl rfl) rfl rfl (.inl rfl), le_rfl⟩
    · exact ⟨h, le_rfl⟩
  | closedAtBroker => exact ⟨h.same rfl rfl (.inl rfl) rfl rfl (.inr rfl), le_rfl⟩
  | clearUnresolved =>
    dsimp only
    split_ifs
    · exact ⟨h.same rfl rfl (.inl rfl) rfl rfl (.inl rfl), le_rfl⟩
    · exact ⟨h, le_rfl⟩

/-! ## Runs -/

/-- A limit that has just filled with all its units. -/
structure Filled (s : State) : Prop where
  units : 1 ≤ s.row.units
  remaining : s.row.unitsRemaining = some s.row.units
  stage : s.row.scaleStage = .none
  openUnits : s.openUnits = s.row.units
  recorded : s.recorded = []
  unrecorded : s.unrecorded = []

theorem Filled.inv {s : State} (h : Filled s) : Inv s.row.units s where
  size := rfl
  remaining := by simp [h.remaining, h.recorded, left]
  atLeastOne := by simp [h.recorded, left, h.units]
  stages := .inl h.recorded
  none := fun _ => h.recorded
  half := fun hhalf => nomatch h.stage.symm.trans hhalf
  one := fun hone => nomatch h.stage.symm.trans hone
  nonneg := by
    have := h.units
    have := h.openUnits
    omega
  balance := by simp [h.openUnits, h.recorded, h.unrecorded, left]

/-- The run lemma. -/
theorem run_kept {units : ℤ} {s : State} (h : Inv units s) (events : List Event) :
    Inv units (run handle events s) ∧
      rank s.row.scaleStage ≤ rank (run handle events s).row.scaleStage := by
  induction events generalizing s with
  | nil => exact ⟨h, le_rfl⟩
  | cons event events ih =>
    obtain ⟨hinv, hrank⟩ := handle_kept h event
    obtain ⟨hlast, hforward⟩ := ih hinv
    exact ⟨hlast, hrank.trans hforward⟩

/-- No partial close of the event is processed without the router learning of it. -/
def Learned : Event → Prop
  | .tick _ replies => ∀ reply ∈ replies, reply.processed = true → reply = .accepted
  | _ => True

theorem within_learned {reply : Reply} (h : reply.processed = true → reply = .accepted)
    (fits : Bool) :
    (reply.within fits).processed = true → reply.within fits = .accepted := by
  cases fits with
  | true => exact h
  | false => cases reply <;> exact fun hp => nomatch hp

theorem sendStep_unrecorded {s : State} {reply : Reply}
    (h : reply.processed = true → reply = .accepted) (step : ManageStep) :
    (sendStep s step reply).1.unrecorded = s.unrecorded := by
  unfold sendStep
  split
  · rename_i units _ _
    have hlearned := within_learned h (decide (units ≤ s.openUnits))
    unfold sendPartial
    generalize reply.within (decide (units ≤ s.openUnits)) = answer at hlearned ⊢
    cases hprocessed : answer.processed with
    | false => cases hresult : answer.result <;> simp [hprocessed, hresult]
    | true =>
      obtain rfl := hlearned hprocessed
      simp [Reply.result]
  · cases hresult : reply.result <;> rfl

theorem sendSteps_unrecorded {s : State} {replies : List Reply}
    (h : ∀ reply ∈ replies, reply.processed = true → reply = .accepted)
    (steps : List ManageStep) : (sendSteps s steps replies).unrecorded = s.unrecorded := by
  induction steps generalizing s replies with
  | nil => rfl
  | cons step steps ih =>
    cases replies with
    | nil => rfl
    | cons reply replies =>
      have hstep := sendStep_unrecorded (s := s) (h reply (by simp)) step
      unfold sendSteps
      dsimp only
      split_ifs
      · rw [ih (fun r hr => h r (by simp [hr])), hstep]
      · exact hstep

theorem handle_unrecorded {s : State} {event : Event} (h : Learned event) :
    (handle s event).unrecorded = s.unrecorded := by
  unfold handle
  cases event with
  | tick price replies =>
    dsimp only
    split_ifs
    · exact sendSteps_unrecorded h _
    · rfl
  | close reply =>
    dsimp only
    split_ifs
    · unfold closeAll
      dsimp only
      split <;> rfl
    · rfl
  | reconcile =>
    dsimp only
    split_ifs <;> rfl
  | closedAtBroker => rfl
  | clearUnresolved =>
    dsimp only
    split_ifs <;> rfl

def sampleState : State where
  row := sampleRow
  openUnits := 3
  recorded := []
  unrecorded := []

theorem sampleState_filled : Filled sampleState where
  units := by decide
  remaining := rfl
  stage := rfl
  openUnits := rfl
  recorded := rfl
  unrecorded := rfl

/-- The partial close at +0.5R times out, was processed, and is released by the operator. -/
def sampleEvents : List Event :=
  [.tick (11013 / 10000) [.unknown true], .clearUnresolved]

end MarketSystem.ScaleOutUnits
