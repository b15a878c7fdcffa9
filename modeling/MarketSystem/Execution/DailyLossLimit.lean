import Mathlib.Algebra.Order.Ring.Rat
import Mathlib.Data.Int.ConditionallyCompleteOrder
import Mathlib.Order.Monotone.Basic
import Mathlib.Tactic.NormNum
import MarketSystem.Execution.Contracts
import MarketSystem.Library.Fallible

/-!
# Daily loss limit and drawdown halt

The tracker keeps its state in flags of the broker state file and, for halts, in a
latch of the process as well. Every read and every write of a flag may fail.

A flag holds text. What the tracker writes there is a rendering that it reads
back exactly, so a value is kept here as what was rendered. `trace` records what
the statements about transfers speak of; no function reads it.
-/
namespace MarketSystem.DailyLossLimit

open Library

/-! ## Limits -/

def LIMIT_FRACTION : ℚ := 2 / 100
def DRAWDOWN_FRACTION : ℚ := 5 / 100

def DRAWDOWN_HALT : String := "drawdown_halt"
def DAILY_LOSS_HALT : String := "daily_loss_halt"
def DAILY_LOSS_BUDGET : String := "daily_loss_budget"
def NAV_INVALID : String := "nav_invalid"
def STATE_UNREADABLE : String := "state_unreadable"
def UNAVAILABLE : String := "daily_loss_unavailable"
def INVALID_INPUT : String := "invalid_input"

/-- `_positive`. -/
def positive (value : Option ℚ) : Option ℚ := value.filter (fun v => decide (0 < v))

theorem positive_eq_some {value : Option ℚ} {v : ℚ} :
    positive value = some v ↔ value = some v ∧ 0 < v := by
  simp [positive]

structure DailyLossStatus where
  pnl : Option ℚ
  limitAmount : Option ℚ
  floor : Option ℚ
  remainingBudget : Option ℚ
  breached : Bool
  entryAllowed : Bool
  reason : Option String
  deriving DecidableEq, Repr

/-- `daily_loss_status`. A planned risk that was given may be unusable. -/
def dailyLossStatus (e0 nav transfers : Option ℚ) (plannedRisk : Option (Option ℚ))
    (fraction : ℚ) : DailyLossStatus :=
  match positive e0, positive nav, transfers, positive (some fraction) with
  | some e0, some nav, some transfers, some fraction =>
      if 1 ≤ fraction ∨ plannedRisk = some none then
        ⟨none, none, none, none, false, false, some INVALID_INPUT⟩
      else
        let pnl := nav - e0 - transfers
        let limitAmount := fraction * e0
        let remaining := limitAmount + pnl
        let floor := e0 * (1 - fraction)
        if pnl ≤ -limitAmount then
          ⟨pnl, limitAmount, floor, remaining, true, false, some DAILY_LOSS_HALT⟩
        else
          match plannedRisk with
          | some (some risk) =>
              if 0 < risk ∧ risk ≤ remaining then
                ⟨pnl, limitAmount, floor, remaining, false, true, none⟩
              else ⟨pnl, limitAmount, floor, remaining, false, false, some DAILY_LOSS_BUDGET⟩
          | _ => ⟨pnl, limitAmount, floor, remaining, false, true, none⟩
  | _, _, _, _ => ⟨none, none, none, none, false, false, some INVALID_INPUT⟩

structure DrawdownStatus where
  valid : Bool
  breached : Bool
  drawdown : Option ℚ
  floor : Option ℚ
  deriving DecidableEq, Repr

/-- `drawdown_status`. -/
def drawdownStatus (startEquity nav : Option ℚ) : DrawdownStatus :=
  match positive startEquity, positive nav with
  | some start, some nav =>
      let floor := start * (1 - DRAWDOWN_FRACTION)
      ⟨true, decide (nav ≤ floor), start - nav, floor⟩
  | _, _ => ⟨false, false, none, none⟩

structure LossDecision where
  entryAllowed : Bool
  flattenRequired : Bool
  reason : Option String
  halted : Bool
  ddHalted : Bool
  daily : Option DailyLossStatus
  newlyHalted : Bool
  deriving DecidableEq, Repr

/-- `refused`: entries are refused and open trades left alone. -/
def refused (reason : String) : LossDecision :=
  ⟨false, false, some reason, false, false, none, false⟩

/-- The settings of a tracker, as its constructor leaves them. -/
structure Limit where
  fraction : ℚ
  flatten : Bool
  startEquityOverride : Option ℚ
  fraction_pos : 0 < fraction
  fraction_le : fraction ≤ LIMIT_FRACTION
  override_pos : ∀ v, startEquityOverride = some v → 0 < v

/-- `DailyLossLimit.__init__`: a fraction can only be stricter. -/
def Limit.make (fraction : Option ℚ) (flatten : Bool) (startEquityOverride : Option ℚ) : Limit where
  fraction := ((positive fraction).filter (fun f => decide (f ≤ LIMIT_FRACTION))).getD
    LIMIT_FRACTION
  flatten := flatten
  startEquityOverride := positive startEquityOverride
  fraction_pos := by
    cases h : (positive fraction).filter (fun f => decide (f ≤ LIMIT_FRACTION)) with
    | none => norm_num [LIMIT_FRACTION]
    | some f =>
      obtain ⟨hf, -⟩ := Option.filter_eq_some_iff.mp h
      exact (positive_eq_some.mp hf).2
  fraction_le := by
    cases h : (positive fraction).filter (fun f => decide (f ≤ LIMIT_FRACTION)) with
    | none => exact le_refl _
    | some f =>
      obtain ⟨-, hf⟩ := Option.filter_eq_some_iff.mp h
      exact of_decide_eq_true hf
  override_pos v h := (positive_eq_some.mp h).2

/-! ## Days -/

def HOUR : Instant := 3600000000
def RESET_HOUR : Instant := 17 * HOUR
def LAST_NAV_MAX_AGE : Instant := 7 * 24 * HOUR

/-- `day_key`: the date whose 17:00 in New York was the last to pass. `offset` is the zone's
difference to UTC; the wall clocks of one zone are compared as they read. -/
def dayKey (offset : Instant → Instant) (now : Instant) : ℤ :=
  (now + offset now - RESET_HOUR) / (24 * HOUR)

/-- Eastern standard time. -/
def newYorkWinter (_ : Instant) : Instant := -5 * HOUR

theorem dayKey_newYorkWinter : Monotone (dayKey newYorkWinter) := by
  intro a b hab
  unfold dayKey newYorkWinter
  apply Int.ediv_le_ediv
  · norm_num [HOUR]
  · exact Int.sub_le_sub_right (Int.add_le_add_right hab _) _

/-! ## Flags -/

inductive Flag
  | dlDay
  | dlE0
  | dlTransfers
  | dlHalt
  | ddStart
  | ddHalt
  | ddTransfers
  | dlLastNav
  | dlLastAt
  | dlTxId
  deriving DecidableEq, Repr

/-- The text in a flag, as what it renders; `other` is any text the tracker did not write. -/
inductive Value
  | decimal (value : ℚ)
  | day (date : ℤ)
  | time (at_ : Instant)
  | txId (id : ℕ)
  | other (text : String)
  deriving DecidableEq, Repr

abbrev Flags := Flag → Option Value

def emptyStore : Flags := fun _ => none

/-- `_dec` on a flag. -/
def dec : Option Value → Option ℚ
  | some (.decimal v) => some v
  | some (.txId n) => some n
  | _ => none

/-- `_parse_at`. -/
def parseAt : Option Value → Option Instant
  | some (.time t) => some t
  | _ => none

/-- What the tracker reports: the events it raises and the warnings it logs.
`drawdownReleasing` is neither; it marks that a clear has written its first flag. -/
inductive Event
  | dailyLossResumed (day : Option Value) (newDay : ℤ) (e0 : ℚ)
  | dailyLossHalt (day : ℤ) (pnl floor e0 : Option ℚ) (nav : ℚ)
  | drawdownHalt (nav : ℚ) (start floor drawdown : Option ℚ) (day : Option ℤ)
  | transferRecorded (day : ℤ) (amount : ℚ) (actor reason : String) (total : Option ℚ)
      (appliedTo : Option String) (txId : Option ℕ)
  | dailyHaltCleared (day : Option Value) (actor reason : String)
  | drawdownHaltCleared (actor reason : String)
  | haltWriteFailed (kind : String)
  | stateUnreadable
  | drawdownReleasing
  deriving DecidableEq, Repr

/-- `_HALT_LATCHES` for the tracker's path. -/
structure Latch where
  daily : Option ℤ
  dd : Bool
  deriving DecidableEq, Repr

/-- A NAV together with the transaction cursor it was looked at under. -/
structure Observation where
  nav : ℚ
  cursor : Option ℕ
  deriving DecidableEq, Repr

/-- A committed `apply_transfer` that moved the cursor. -/
structure Applied where
  after : ℕ
  upto : ℕ
  net : ℚ
  deriving DecidableEq, Repr

/-- Which observations `dl_last_nav`, `dl_e0` and `dd_start` came from, what was added to
`dl_transfers` since `dl_last_nav` was last written, and what the cursor went through. -/
structure Trace where
  last : Option Observation := none
  e0 : Option Observation := none
  dd : Option Observation := none
  unremembered : ℚ := 0
  firstCursor : Option ℕ := none
  applied : List Applied := []
  deriving DecidableEq

structure World where
  store : Flags
  latch : Latch
  events : List Event
  trace : Trace

/-- A new process over some file. -/
def start (store : Flags) : World := ⟨store, ⟨none, false⟩, [], {}⟩

namespace World

def write (w : World) (f : Flag) (value : Option Value) : World :=
  { w with store := Function.update w.store f value }

def relatch (w : World) (latch : Latch) : World := { w with latch := latch }

def report (w : World) (e : Event) : World := { w with events := w.events ++ [e] }

def retrace (w : World) (trace : Trace) : World := { w with trace := trace }

variable (w : World) (f : Flag) (value : Option Value) (e : Event)

@[simp] theorem write_store : (w.write f value).store = Function.update w.store f value := rfl
@[simp] theorem write_latch : (w.write f value).latch = w.latch := rfl
@[simp] theorem write_events : (w.write f value).events = w.events := rfl
@[simp] theorem write_trace : (w.write f value).trace = w.trace := rfl
@[simp] theorem relatch_store (l : Latch) : (w.relatch l).store = w.store := rfl
@[simp] theorem relatch_latch (l : Latch) : (w.relatch l).latch = l := rfl
@[simp] theorem relatch_events (l : Latch) : (w.relatch l).events = w.events := rfl
@[simp] theorem relatch_trace (l : Latch) : (w.relatch l).trace = w.trace := rfl
@[simp] theorem report_store : (w.report e).store = w.store := rfl
@[simp] theorem report_latch : (w.report e).latch = w.latch := rfl
@[simp] theorem report_events : (w.report e).events = w.events ++ [e] := rfl
@[simp] theorem report_trace : (w.report e).trace = w.trace := rfl
@[simp] theorem retrace_store (t : Trace) : (w.retrace t).store = w.store := rfl
@[simp] theorem retrace_latch (t : Trace) : (w.retrace t).latch = w.latch := rfl
@[simp] theorem retrace_events (t : Trace) : (w.retrace t).events = w.events := rfl
@[simp] theorem retrace_trace (t : Trace) : (w.retrace t).trace = t := rfl

end World

abbrev M := Fallible World

def flag (f : Flag) : M (Option Value) := .access "OperationalError" (fun w => (w.store f, w))

def setFlag (f : Flag) (value : Option Value) : M Unit :=
  .access "OperationalError" (fun w => ((), w.write f value))

def notify (e : Event) : M Unit := .modify (fun w => w.report e)

def record (f : World → Trace) : M Unit := .modify (fun w => w.retrace (f w))

def cursorOf (store : Flags) : Option ℕ :=
  match store .dlTxId with
  | some (.txId n) => some n
  | _ => none

/-! ## The tracker -/

/-- One read for each flag. -/
def readFlags : List Flag → M Flags
  | [] => pure (fun _ => none)
  | f :: rest => do
      let value ← flag f
      let state ← readFlags rest
      pure (Function.update state f value)

def stateFlags : List Flag :=
  [.dlDay, .dlE0, .dlTransfers, .dlHalt, .ddStart, .ddHalt, .ddTransfers, .dlLastNav, .dlLastAt]

/-- The checks `_state` makes on what it read. -/
def checkState (state : Flags) : Except String Flags :=
  if (state .dlE0).isSome ∧ positive (dec (state .dlE0)) = none then .error "corrupt dl_e0"
  else if (state .ddStart).isSome ∧ positive (dec (state .ddStart)) = none then
    .error "corrupt dd_start"
  else if (state .dlTransfers).isSome ∧ dec (state .dlTransfers) = none then
    .error "corrupt dl_transfers"
  else if (state .ddTransfers).isSome ∧ dec (state .ddTransfers) = none then
    .error "corrupt dd_transfers"
  else if (state .dlDay).isSome ∧ (state .dlE0 = none ∨ state .dlTransfers = none) then
    .error "incomplete day state"
  else .ok state

/-- `_state`. -/
def readState : M Flags := do
  let state ← readFlags stateFlags
  .ofExcept (checkState state)

/-- `_baseline`: the last valid NAV, unless it is too old or from the future. -/
def baseline (state : Flags) (now : Instant) : Option ℚ :=
  match positive (dec (state .dlLastNav)), parseAt (state .dlLastAt) with
  | some last, some at_ =>
      if 0 ≤ now - at_ ∧ now - at_ ≤ LAST_NAV_MAX_AGE then some last else none
  | _, _ => none

/-- `_dd_start`. -/
def Limit.ddStart (l : Limit) (state : Flags) : Option ℚ :=
  match l.startEquityOverride.or (positive (dec (state .ddStart))) with
  | none => none
  | some base => some (base + (dec (state .ddTransfers)).getD 0)

/-- The observation an E0 comes from: the remembered one, or the NAV at hand. -/
def e0Observation (base : Option ℚ) (nav : ℚ) (w : World) : Option Observation :=
  match base with
  | some _ => w.trace.last
  | none => some ⟨nav, cursorOf w.store⟩

/-- `_roll`: the day is written last, so a roll that fails half-way is made again. -/
def roll (state : Flags) (key : ℤ) (nav : ℚ) (now : Instant) : M Flags := do
  let e0 := (baseline state now).getD nav
  let w ← .get
  let wasHalted := (state .dlHalt).isSome || decide (w.latch.daily ≠ none ∧ w.latch.daily ≠ some key)
  setFlag .dlE0 (some (.decimal e0))
  setFlag .dlTransfers (some (.decimal 0))
  setFlag .dlHalt none
  setFlag .dlDay (some (.day key))
  record (fun w => { w.trace with e0 := e0Observation (baseline state now) nav w })
  .modify (fun w => w.relatch { w.latch with
    daily := if w.latch.daily ≠ some key then none else w.latch.daily })
  if wasHalted then notify (.dailyLossResumed (state .dlDay) key e0)
  pure (Function.update (Function.update (Function.update (Function.update state
    .dlDay (some (.day key))) .dlE0 (some (.decimal e0))) .dlTransfers (some (.decimal 0)))
    .dlHalt none)

/-- The two halts, with what their flag holds. -/
inductive Halt
  | drawdown (now : Instant)
  | daily (key : ℤ)
  deriving DecidableEq, Repr

def Halt.flag : Halt → Flag
  | drawdown _ => .ddHalt
  | daily _ => .dlHalt

def Halt.value : Halt → Value
  | drawdown now => .time now
  | daily key => .day key

def Halt.kind : Halt → String
  | drawdown _ => "DRAWDOWN_HALT"
  | daily _ => "DAILY_LOSS_HALT"

def Halt.latch (h : Halt) (l : Latch) : Latch :=
  match h with
  | drawdown _ => { l with dd := true }
  | daily key => { l with daily := some key }

/-- `_persist`: a failed write is logged and retried by a later evaluation. -/
def persist (h : Halt) : M Unit := do
  let written ← .attempt (setFlag h.flag (some h.value))
  match written with
  | .ok _ => pure ()
  | .error _ => notify (.haltWriteFailed h.kind)

/-- `_halt`: the latch first. -/
def halt (h : Halt) (e : Event) : M Unit := do
  .modify (fun w => w.relatch (h.latch w.latch))
  persist h
  notify e

/-- `_remember`. -/
def remember (nav : ℚ) (now : Instant) : M Unit := do
  let _ ← .attempt (do
    setFlag .dlLastNav (some (.decimal nav))
    record (fun w => { w.trace with last := some ⟨nav, cursorOf w.store⟩, unremembered := 0 })
    setFlag .dlLastAt (some (.time now)))

/-- The second half of `halt_state`: the drawdown halt, after the daily one was read. -/
def drawdownSeen (daily dd : Bool) : M (Bool × Bool) := do
  let read ← .attempt (if dd then pure true else do
    let value ← flag .ddHalt
    pure value.isSome)
  match read with
  | .error _ => do
      notify .stateUnreadable
      pure (daily, dd)
  | .ok dd => pure (daily, dd)

/-- `halt_state`: the latches, and the flags as far as they can be read. -/
def haltState (key : ℤ) : M (Bool × Bool) := do
  let w ← .get
  let daily := decide (w.latch.daily = some key)
  let dd := w.latch.dd
  let read ← .attempt (if daily then pure true else do
    let value ← flag .dlHalt
    pure (decide (value = some (.day key))))
  match read with
  | .error _ => do
      notify .stateUnreadable
      pure (daily, dd)
  | .ok daily => drawdownSeen daily dd

/-- `_non_positive`. -/
def nonPositive (nav : ℚ) (key : ℤ) (now : Instant) : M LossDecision := do
  let (daily, ddHalted) ← haltState key
  if ddHalted then pure ⟨false, true, some DRAWDOWN_HALT, daily, true, none, false⟩
  else do
    halt (.drawdown now) (.drawdownHalt nav none none none (some key))
    pure ⟨false, true, some DRAWDOWN_HALT, daily, true, none, true⟩

/-- The drawdown baseline: the NAV at hand, unless one is configured or set already. -/
def initBase (l : Limit) (state : Flags) (nav : ℚ) : M Flags :=
  if l.startEquityOverride = none ∧ state .ddStart = none then do
    if (state .ddTransfers).isSome then setFlag .ddTransfers none
    setFlag .ddStart (some (.decimal nav))
    record (fun w => { w.trace with dd := some ⟨nav, cursorOf w.store⟩ })
    pure (Function.update (Function.update state .ddStart (some (.decimal nav)))
      .ddTransfers none)
  else pure state

/-- The `try` block of `evaluate`: the state of the day and of the drawdown baseline. -/
def prepare (l : Limit) (nav : ℚ) (key : ℤ) (now : Instant) : M Flags := do
  let state ← readState
  let state ← if state .dlDay ≠ some (.day key) then roll state key nav now else pure state
  initBase l state nav

/-- What `evaluate` does with a readable state. -/
def judge (l : Limit) (state : Flags) (nav : ℚ) (plannedRisk : Option (Option ℚ)) (key : ℤ)
    (now : Instant) : M LossDecision := do
  let start := l.ddStart state
  let e0 := positive (dec (state .dlE0))
  let daily := dailyLossStatus e0 (some nav) (dec (state .dlTransfers)) plannedRisk l.fraction
  let drawdown := drawdownStatus start (some nav)
  let w ← .get
  let ddHalted := (state .ddHalt).isSome || w.latch.dd
  let halted := decide (state .dlHalt = some (.day key)) || decide (w.latch.daily = some key)
  if w.latch.dd ∧ state .ddHalt = none then persist (.drawdown now)
  if w.latch.daily = some key ∧ state .dlHalt ≠ some (.day key) then persist (.daily key)
  let newDd := drawdown.breached && !ddHalted
  if newDd then
    halt (.drawdown now) (.drawdownHalt nav start drawdown.floor drawdown.drawdown none)
  let newDaily := daily.breached && !halted
  if newDaily then halt (.daily key) (.dailyLossHalt key daily.pnl daily.floor e0 nav)
  remember nav now
  let ddHalted := ddHalted || newDd
  let halted := halted || newDaily
  let reason := if ddHalted then some DRAWDOWN_HALT
    else if halted then some DAILY_LOSS_HALT
    else if !drawdown.valid then some STATE_UNREADABLE
    else daily.reason
  pure ⟨reason.isNone, ddHalted || (halted && l.flatten), reason, halted, ddHalted, some daily,
    newDd || newDaily⟩

/-- `evaluate`. `none` is a NAV that is no finite number. -/
def evaluate (offset : Instant → Instant) (l : Limit) (nav : Option ℚ)
    (plannedRisk : Option (Option ℚ)) (now : Instant) : M LossDecision :=
  match nav with
  | none => pure (refused NAV_INVALID)
  | some nav =>
      let key := dayKey offset now
      if nav ≤ 0 then nonPositive nav key now
      else do
        let prepared ← .attempt (prepare l nav key now)
        match prepared with
        | .error _ => pure (refused STATE_UNREADABLE)
        | .ok state => judge l state nav plannedRisk key now

/-- The writes of one `apply_transfer`: a transfer belongs to the day that has its E0, else to
the pending baseline. -/
def transferFlags (l : Limit) (state : Flags) (net : ℚ) (key : ℤ) (now : Instant) :
    List (Flag × Value) :=
  (if l.startEquityOverride.isSome ∨ (state .ddStart).isSome then
    [(.ddTransfers, .decimal ((dec (state .ddTransfers)).getD 0 + net))] else []) ++
  (if state .dlDay = some (.day key) then
    [(.dlTransfers, .decimal ((dec (state .dlTransfers)).getD 0 + net))]
  else match baseline state now with
    | some b => [(.dlLastNav, .decimal (b + net))]
    | none => [])

/-- Set several flags. -/
def setFlags (store : Flags) (flags : List (Flag × Value)) : Flags :=
  flags.foldl (fun s f => Function.update s f.1 (some f.2)) store

/-- What a committed `apply_transfer` means to the trace. -/
def Trace.apply (t : Trace) (stored txId : Option ℕ) (net : ℚ) (inDay : Bool) : Trace :=
  { t with
    unremembered := if inDay then t.unremembered + net else t.unremembered
    firstCursor := match t.firstCursor, stored, txId with
      | none, none, some c => some c
      | c, _, _ => c
    applied := match stored, txId with
      | some a, some b => t.applied ++ [⟨a, b, net⟩]
      | _, _ => t.applied }

def cursorFlag (txId : Option ℕ) : List (Flag × Value) :=
  (txId.map (fun c => (Flag.dlTxId, Value.txId c))).toList

/-- `DemoStateStore.apply`: all flags and the cursor in one transaction. -/
def commitTransfer (flags : List (Flag × Value)) (txId : Option ℕ) (net : ℚ) (inDay : Bool) :
    M Unit :=
  .access "OperationalError" (fun w => ((),
    { w with store := setFlags w.store (cursorFlag txId ++ flags)
             trace := w.trace.apply (cursorOf w.store) txId net inDay }))

/-- `apply_transfer`. -/
def applyTransfer (offset : Instant → Instant) (l : Limit) (net : Option ℚ) (txId : Option ℕ)
    (actor reason : String) (now : Instant) : M (Option ℚ) :=
  match net with
  | none => .raise "net must be a number (non-zero without a transaction id)"
  | some net =>
      if net = 0 ∧ txId = none then
        .raise "net must be a number (non-zero without a transaction id)"
      else if actor = "" then .raise "actor required"
      else if net = 0 then do
        commitTransfer [] txId 0 false
        pure none
      else do
        let key := dayKey offset now
        let state ← readState
        let inDay := decide (state .dlDay = some (.day key))
        let total := if inDay then some ((dec (state .dlTransfers)).getD 0 + net) else none
        let appliedTo := if inDay then none
          else some (if (baseline state now).isSome then "next_e0" else "none")
        commitTransfer (transferFlags l state net key now) txId net inDay
        notify (.transferRecorded key net actor reason total appliedTo txId)
        pure total

/-- `transaction_id`. -/
def transactionId : M (Option ℕ) := do
  let value ← flag .dlTxId
  match value with
  | none => pure none
  | some (.txId n) => pure (some n)
  | some _ => .raise "corrupt dl_tx_id"

/-- `clear_drawdown_halt`: the latch is released after the flags were written. -/
def clearDrawdownHalt (actor reason : String) : M Unit :=
  if actor = "" then .raise "actor required"
  else do
    setFlag .ddHalt none
    notify .drawdownReleasing
    setFlag .ddStart none
    setFlag .ddTransfers none
    .modify (fun w => w.relatch { w.latch with dd := false })
    notify (.drawdownHaltCleared actor reason)

/-- `clear_daily_halt`. -/
def clearDailyHalt (actor reason : String) : M Unit :=
  if actor = "" then .raise "actor required"
  else do
    let day ← flag .dlDay
    setFlag .dlHalt none
    .modify (fun w => w.relatch { w.latch with daily := none })
    notify (.dailyHaltCleared day actor reason)

end MarketSystem.DailyLossLimit
