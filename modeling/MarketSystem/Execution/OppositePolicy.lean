import MarketSystem.Execution.ConflictPath
import MarketSystem.Runtime.GuardedWrite

/-!
# The opposite-setup policy

`execute` closes a position against an opposite setup and reverses it. Close and
reverse are two guarded writes of one worker; the close commits with its
DEC14_CLOSE row, the reverse with the DEC14_DECISION row of the run. A close
whose reverse never came is abandoned: `abandon_incomplete` writes the decision
instead, and no later call takes the reverse up again.

The clock is read once in each computation.
-/
namespace MarketSystem.OppositePolicy

open Library RrContract Database RiskEngine RiskReservation ConflictEngine ConflictPath
  CandidateIdentity GuardedWrite

/-! ## The market evidence -/

/-- The frames of one cycle by timeframe, oldest row first. -/
structure Snapshot where
  frames : List (String × List Bar)

def Snapshot.frame (snapshot : Snapshot) (timeframe : String) : Option (List Bar) :=
  (snapshot.frames.find? (fun f => decide (f.1 = timeframe))).map (·.2)

/-- The age limit of each timeframe, in the order they are checked. -/
abbrev Limits := List (String × Instant)

def minute : Instant := 60000000

def positivePrices (bar : Bar) : Bool :=
  valid bar.open_ && valid bar.high && valid bar.low && valid bar.close

/-- The loop body of `fresh_snapshot`: why a frame is not fresh, if so. -/
def staleFrame (symbol : String) (asOf : Instant) (timeframe : String) (maxAge : Instant) :
    Option (List Bar) → Option String
  | none => some "NO_DATA"
  | some [] => some "NO_DATA"
  | some (bar :: bars) =>
      let rows := bar :: bars
      if ¬ (rows.map (·.timestamp)).Nodup ∨ rows.any (fun r => decide (r.symbol ≠ symbol))
          ∨ rows.any (fun r => decide (asOf < r.timestamp)) ∨ rows.any (fun r => !r.isClosed) then
        some "NO_DATA"
      else
        let latest := bars.foldl (fun a r => if a.timestamp < r.timestamp then r else a) bar
        let age := asOf - latest.timestamp
        if age < 0 ∨ maxAge < age then some "STALE_DATA"
        else if timeframe = "5m" ∧ positivePrices latest = false then some "NO_DATA"
        else none

/-- `fresh_snapshot`: `none` when every frame is current. -/
def staleSnapshot (snapshot : Snapshot) (symbol : String) (asOf : Instant) (limits : Limits) :
    Option String :=
  limits.findSome? (fun l => staleFrame symbol asOf l.1 l.2 (snapshot.frame l.1))

/-- A break of structure, as the structure agent reports it. -/
structure Bos where
  direction : String
  breakTimestamp : Instant
  breakClose : ℚ
  deriving DecidableEq

structure StructureSignal where
  structureState : String
  bos : Option Bos
  deriving DecidableEq

/-- The structure evidence of the setup: the 15m and the 1h signal. -/
structure StructureEvidence where
  m15 : StructureSignal
  h1 : StructureSignal

/-- `STRUCTURE_CHANGE` and `REVERSE_IN_PROFIT`. -/
inductive Mode
  | structureChange
  | reverseInProfit
  deriving DecidableEq, Repr

/-- `VERSIONS`. -/
def Mode.version : Mode → String
  | structureChange => "DEC14_STRUCTURE_CHANGE_1"
  | reverseInProfit => "DEC_REVERSAL_1"

/-- `EXIT_REASONS`. -/
def Mode.exitReason : Mode → String
  | structureChange => "EXIT_STRUCTURE_CHANGE"
  | reverseInProfit => "EXIT_REVERSAL_IN_PROFIT"

/-- What a call finds in its runtime. -/
structure Config where
  mode : Mode
  accountId : String
  instrument : Option Instrument
  rrPolicy : Option Policy
  limits : Limits

/-- The arguments of one call of `execute`. -/
structure Execute where
  config : Config
  report : FloorReport
  evidence : StructureEvidence
  snapshot : Snapshot
  key : String
  at_ : Instant
  aiAllowed : Bool
  drawdownBasis : Option DrawdownBasis
  uuid4 : GuardedWrite.Uuid4

structure Outcome where
  status : String
  reason : String
  orderId : Option String := none
  deriving DecidableEq

/-! ## The journal of a run -/

/-- `DECISION`. -/
def decisionEvent : String := "DEC14_DECISION"

/-- `CLOSE`. -/
def closeEvent : String := "DEC14_CLOSE"

/-- `event_type=? AND run_id=?`: an absent run id matches nothing. -/
def isRow (event : String) (runId : Option String) (row : JournalRow) : Bool :=
  decide (row.eventType = event ∧ row.runId = runId ∧ runId ≠ none)

/-- `prior`: the first row of the event for the run. -/
def prior (event : String) (runId : Option String) (db : Database) : Option Json :=
  (db.journal.find? (isRow event runId)).map (·.payload)

/-- `SELECT 1 FROM runs WHERE run_id=? AND status='RUNNING'`. -/
def runIsRunning (runId : Option String) (db : Database) : Bool :=
  db.runs.rows.any (fun r => decide (some r.runId = runId ∧ r.status = .running))

/-- The loop body of `abandon_incomplete` for one DEC14_CLOSE row. -/
def abandonRow (at_ : Instant) (interrupted : Option String) (db : Database) (row : JournalRow) :
    Database :=
  if prior decisionEvent row.runId db = none
      ∧ (runIsRunning row.runId db = false ∨ row.runId = interrupted) then
    db.event (some at_) row.runId row.symbol "opposite_policy" decisionEvent "WARNING"
      (row.payload.merge [("status", .str "SKIPPED"),
        ("reason", .str "REVERSE_ABANDONED_AFTER_RESTART")])
  else db

/-- `abandon_incomplete`: every close without a decision whose run has ended is decided. -/
def abandonIncomplete (at_ : Instant) (interrupted : Option String) : Tx Unit := fun db =>
  let rows := db.journal.filter (fun row => decide (row.eventType = closeEvent))
  .ok ((), rows.foldl (abandonRow at_ interrupted) db)

/-! ## Classification -/

/-- `_confirmed_bos`: a closed bar of the frame breaks the structure beyond the stop. -/
def confirmedBos (signal : StructureSignal) (frame : List Bar) (duration : Instant) (side : Side)
    (position : PaperPosition) (at_ maxAge : Instant) : Bool :=
  match signal.bos with
  | none => false
  | some bos =>
      let stamp := bos.breakTimestamp
      if bos.direction ≠ (match side with | .short => "bearish" | .long => "bullish") then false
      else match frame.find? (fun r => decide (r.timestamp = stamp)) with
        | none => false
        | some row =>
            if stamp % duration ≠ 0 ∨ stamp ≤ position.openedAt ∨ at_ < stamp + duration
                ∨ maxAge < at_ - stamp then false
            else if row.isClosed = false ∨ row.close ≠ bos.breakClose then false
            else match side with
              | .short => decide (row.close < position.stop)
              | .long => decide (row.close > position.stop)

/-- The profit of a position at a price, before costs. -/
def profitAt (position : PaperPosition) (price : ℚ) : Except String ℚ :=
  match position.contractMultiplier with
  | none => .error "TypeError"
  | some multiplier =>
      .ok ((match position.side with
        | .long => price - position.entryPrice
        | .short => position.entryPrice - price) * position.quantity * multiplier)

/-- `snapshot["5m"].iloc[-1]["Close"]`. -/
def lastClose (snapshot : Snapshot) : Except String ℚ :=
  match snapshot.frame "5m" with
  | none => .error "KeyError"
  | some rows =>
      match rows.getLast? with
      | none => .error "IndexError"
      | some bar => .ok bar.close

/-- The 1h structure has turned against the position. -/
def hourBroken (hour : StructureSignal) (position : PaperPosition) : Bool :=
  let against := match position.side with | .long => "bearish" | .short => "bullish"
  decide (hour.structureState = against)
    || (match hour.bos with
        | some bos => decide (bos.direction = against ∧ position.openedAt < bos.breakTimestamp)
        | none => false)

/-- The price has not reached the stop. -/
def rightSide (position : PaperPosition) (price : ℚ) : Bool :=
  match position.side with
  | .long => decide (position.stop < price)
  | .short => decide (price < position.stop)

/-- A loss is kept while the price is on the right side of the stop and 1h is intact. -/
def assessLoss (hour : StructureSignal) (position : PaperPosition) (price : ℚ) : String :=
  if hour.structureState ∉ ["bullish", "bearish", "neutral"] then "NO_DATA"
  else if rightSide position price = true ∧ hourBroken hour position = false then
    "OPPOSITE_DISCARDED_STRUCTURE_INTACT"
  else "WOULD_CLOSE_LOSS"

/-- A setup in the direction of the position never closes it. -/
def assessSameSide (plan : TradePlan) (position : PaperPosition) (originalStop : Option ℚ) :
    String :=
  match originalStop with
  | none => "NO_DATA"
  | some stop =>
      if |plan.entry - position.entryPrice| ≤ 1 / 4 * |position.entryPrice - stop| then
        "SAME_SETUP_IGNORED"
      else "SAME_DIRECTION"

/-- `assess`: what the setup means for the open position. -/
def assess (c : Execute) (position : PaperPosition) (at_ : Instant)
    (originalStop : Option ℚ) : Except String String :=
  match candidate c.report, c.report.tradePlan with
  | .error invalid, _ => .ok invalid
  | .ok _, none => .error "AttributeError"
  | .ok _, some plan =>
      if plan.side = position.side then .ok (assessSameSide plan position originalStop)
      else match c.config.mode with
        | .reverseInProfit => do
            let price ← lastClose c.snapshot
            let profit ← profitAt position price
            pure (if 0 < profit then "WOULD_CLOSE_PROFIT" else "OPPOSITE_IN_LOSS_KEPT")
        | .structureChange =>
            match c.snapshot.frame "15m", c.config.limits.find? (fun l => decide (l.1 = "15m")) with
            | some frame, some limit =>
                if confirmedBos c.evidence.m15 frame (15 * minute) plan.side position at_
                    limit.2 = false then
                  .ok "OPPOSITE_NO_STRUCTURE_CHANGE"
                else do
                  let price ← lastClose c.snapshot
                  let profit ← profitAt position price
                  pure (if 0 < profit then "WOULD_CLOSE_PROFIT"
                    else assessLoss c.evidence.h1 position price)
            | _, _ => .error "KeyError"

/-! ## The two writes -/

namespace Execute

variable (c : Execute)

def symbol : String := c.report.symbol

def runId : String := c.report.runId

/-- The writer of both guarded writes. -/
def writer : Writer where
  accountId := c.config.accountId
  symbol := c.symbol
  ownerKey := some c.key
  instrument := c.config.instrument
  rrPolicy := c.config.rrPolicy
  uuid4 := c.uuid4

/-- The bars of a timeframe have all ended. -/
def unfinished (now : Instant) (timeframe : String) (duration : Instant) : Except String Bool :=
  match c.snapshot.frame timeframe with
  | none => .error "KeyError"
  | some rows =>
      match rows.getLast? with
      | none => .error "IndexError"
      | some bar => .ok (decide (now < bar.timestamp + duration))

/-- `gate`: why the policy may not act at this time, if so. -/
def gate (now : Instant) : Except String (Option String) :=
  match staleSnapshot c.snapshot c.symbol now c.config.limits with
  | some state => .ok (some state)
  | none => do
      if ← c.unfinished now "1h" (60 * minute) then return some "NO_DATA"
      if ← c.unfinished now "15m" (15 * minute) then return some "NO_DATA"
      if ← c.unfinished now "5m" (5 * minute) then return some "NO_DATA"
      return if c.aiAllowed then none else some "AI_CAUTION_OR_UNHEALTHY"

/-- `note`: one event row of the policy. -/
def note (setupId : String) (b : PaperBroker) (outcome : Outcome) (event : String)
    (trade : List (String × Json)) : PaperBroker :=
  b.event (some c.at_) c.runId c.symbol "opposite_policy" event
    (.obj ([("policy", .str c.config.mode.version), ("status", .str outcome.status),
      ("reason", .str outcome.reason), ("order_id", .ofOption outcome.orderId),
      ("setup_id", .str setupId)] ++ trade))

/-- The reason of `close_or_block`: the gate, a pending order, the open position. -/
def closeReason (now : Instant) (b : PaperBroker) : Except String (Option String) :=
  match c.gate now with
  | .error e => .error e
  | .ok (some reason) => .ok (some reason)
  | .ok none =>
      if b.orders.rows.any (fun o => decide (o.symbol = c.symbol ∧ o.status = .pending)) then
        .ok (some "PENDING_ORDER")
      else match b.account.openPositions.get? c.symbol with
        | none => .ok none
        | some position =>
            (assess c position now ((b.orders.get? position.originOrderId).map (·.stop))).map some

/-- `close_or_block`. -/
def closeOrBlock (setupId : String) : Apply Outcome := fun now ids b =>
  match c.closeReason now b with
  | .error e => .error e
  | .ok none => .ok (false, ⟨"CONTINUE", "NO_CONFLICT", none⟩, b)
  | .ok (some reason) =>
      if reason = "WOULD_CLOSE_PROFIT" ∨ reason = "WOULD_CLOSE_LOSS" then
        match lastClose c.snapshot with
        | .error e => .error e
        | .ok price =>
            match b.closeMarket c.symbol price c.at_ c.config.mode.exitReason c.runId
                ids.tradeId with
            | .error e => .error e
            | .ok (b, _) =>
                let outcome : Outcome := ⟨"CLOSED", reason, none⟩
                .ok (true, outcome, c.note setupId b outcome closeEvent [])
      else
        let outcome : Outcome := ⟨"SKIPPED", reason, none⟩
        .ok (true, outcome, c.note setupId b outcome decisionEvent [])

/-- The reservation request of the reverse. -/
def request (setupId : String) (plan : TradePlan) (orderId : String) : Request where
  report := c.report
  plan := plan
  instrument := c.config.instrument
  asOf := c.at_
  setupId := some setupId
  policy := riskPolicyFor plan.policyVersion
  stampSetupId := true
  drawdownBasis := c.drawdownBasis
  orderId := orderId

/-- The levels of a reverse, for its alert. -/
def tradeOf (order : PaperOrder) : List (String × Json) :=
  [("side", .str (sideName order.side)), ("entry", .num order.plannedEntry),
    ("stop_loss", .num order.stop), ("take_profit", .num order.target),
    ("quantity", .num order.quantity)]

/-- The rows of an approved reverse: the order shares the dictionary of the broker. -/
def submitted (setupId : String) (reversing : Bool) (b prepared : PaperBroker)
    (order : PaperOrder) : Outcome × PaperBroker :=
  let b := { b with orders := prepared.orders, journal := b.journal ++ prepared.journal }
  let outcome : Outcome := ⟨"SUBMITTED",
    if reversing then "STRUCTURE_REVERSE_SUBMITTED" else "ORDER_SUBMITTED", some order.orderId⟩
  let b := if reversing then
      c.note setupId b outcome "STRUCTURE_REVERSE_SUBMITTED" (tradeOf order) else b
  (outcome, c.note setupId b outcome decisionEvent [])

/-- The rows of a refused reverse. -/
def refused (setupId : String) (reversing : Bool) (b : PaperBroker) (reason : String)
    (record : RiskRecord) : Outcome × PaperBroker :=
  let outcome : Outcome := ⟨"SKIPPED",
    if reversing then "RISK_REJECTED_AFTER_CLOSE" else "RISK_REJECTED", none⟩
  let b := b.event (some c.at_) c.runId c.symbol "risk_engine_v2" "RISK_V2_DECISION" record.asJson
  let b := b.event (some c.at_) c.runId c.symbol "risk_engine_v2" "RISK_REJECTED"
    (.obj [("reason", .str reason), ("after_structure_close", .bool reversing)])
  (outcome, c.note setupId b outcome decisionEvent [])

/-- `reserve`. -/
def reserve (setupId : String) (plan : TradePlan) (reversing : Bool) : Apply Outcome :=
  fun now ids b =>
    match c.gate now with
    | .error e => .error e
    | .ok (some reason) =>
        let outcome : Outcome := ⟨"SKIPPED", reason, none⟩
        .ok (true, outcome, c.note setupId b outcome decisionEvent [])
    | .ok none =>
        match prepareReservation (c.request setupId plan ids.orderId) b.portfolio with
        | .approved prepared order _ => .ok (true, c.submitted setupId reversing b prepared order)
        | .rejected reason _ record => .ok (true, c.refused setupId reversing b reason record)

/-! ## The call -/

abbrev Executing := Program World (Except String Outcome)

def staleState : Outcome := ⟨"SKIPPED", "STALE_PAPER_STATE", none⟩

/-- The second write: the reverse, or the entry of a run that closed nothing. -/
def openReverse (setupId : String) (plan : TradePlan) (reversing : Bool) : Executing := do
  match ← guardedPaperWrite c.writer (c.reserve setupId plan reversing) with
  | .error e => pure (.error e)
  | .ok none => pure (.ok staleState)
  | .ok (some (_, outcome)) => pure (.ok outcome)

/-- The two writes of a run that is undecided and has closed nothing. -/
def closeThenReverse (setupId : String) (plan : TradePlan) : Executing := do
  match ← guardedPaperWrite c.writer (c.closeOrBlock setupId) with
  | .error e => pure (.error e)
  | .ok none => pure (.ok staleState)
  | .ok (some (_, outcome)) =>
      if outcome.status = "SKIPPED" then pure (.ok outcome)
      else c.openReverse setupId plan (decide (outcome.status = "CLOSED"))

/-- The outcome a decision row records. -/
def recorded (row : Json) : Outcome :=
  ⟨(row.get "status").str?.getD "", (row.get "reason").str?.getD "", (row.get "order_id").str?⟩

/-- The call once its claim is its own: a decided run is answered, an interrupted close is
abandoned, and only then it acts. -/
def decide_ (setupId : String) (plan : TradePlan) : Executing := do
  match ← .read (fun w => prior decisionEvent (some c.runId) w.db) with
  | some old => pure (.ok (recorded old))
  | none => do
      match ← .read (fun w => prior closeEvent (some c.runId) w.db) with
      | some _ => do
          match ← transact (abandonIncomplete c.at_ (some c.runId)) with
          | .error e => pure (.error e)
          | .ok () => pure (.ok ⟨"SKIPPED", "REVERSE_ABANDONED_AFTER_RESTART", none⟩)
      | none => c.closeThenReverse setupId plan

/-- `has_history` of the claim: a decision of the run, or an order of it. -/
def hasHistory (db : Database) : Except String Bool :=
  if prior decisionEvent (some c.runId) db ≠ none then .ok true
  else match db.loadPaper c.config.accountId with
    | .error e => .error e
    | .ok (_, orders, _) => .ok (PaperBroker.runOrder orders c.runId).isSome

/-- The claim of the run for this candidate, refused by the halt gate. -/
def claim (sha256 : Json → String) (fields : CandidateFields) :
    Program World (Except String (Option Claim)) := do
  if ← haltRefused then pure (.ok none)
  else match ← transact (claimRun sha256 c.runId c.symbol fields c.at_ c.hasHistory
      (some c.key)) with
    | .error e => pure (.error e)
    | .ok claim => pure (.ok (some claim))

/-- A valid candidate claims its run before it decides. -/
def claimThenDecide (sha256 : Json → String) (setupId : String) (plan : TradePlan)
    (fields : CandidateFields) : Executing := do
  match ← c.claim sha256 fields with
  | .error e => pure (.error e)
  | .ok none => pure (.ok ⟨"SKIPPED", "HALTED", none⟩)
  | .ok (some .mismatch) => pure (.ok ⟨"SKIPPED", "RUN_ID_CANDIDATE_MISMATCH", none⟩)
  | .ok (some .unknownHistory) => pure (.ok ⟨"SKIPPED", "RUN_ID_IDENTITY_UNKNOWN", none⟩)
  | .ok (some .claimed) => c.decide_ setupId plan
  | .ok (some .same) => c.decide_ setupId plan

/-- An invalid candidate is journaled and skipped. -/
def skipInvalid (invalid : String) : Executing := do
  let payload : Json := .obj [("status", .str "SKIPPED"), ("reason", .str invalid)]
  match ← transact (fun db => .ok ((), db.event (some c.at_) (some c.runId) (some c.symbol)
      "opposite_policy" decisionEvent "WARNING" payload)) with
  | .error e => pure (.error e)
  | .ok () => pure (.ok ⟨"SKIPPED", invalid, none⟩)

end Execute

/-- `execute`. -/
def execute (sha256 : Json → String) (c : Execute) : Program World (Except String Outcome) := do
  if !(← .read (fun w => w.db.ownsSlot c.key c.symbol)) then
    pure (.error "opposite policy requires symbol lock")
  else if c.config.instrument = none then pure (.error "KeyError")
  else match candidate c.report with
    | .error invalid => c.skipInvalid invalid
    | .ok setupId =>
        match c.report.tradePlan with
        | none => pure (.error "AttributeError")
        | some plan =>
            match candidateFields c.report c.config.instrument c.config.accountId setupId
                (riskPolicyFor plan.policyVersion) c.config.mode.version with
            | none => pure (.error "candidate_identity_invalid")
            | some fields => c.claimThenDecide sha256 setupId plan fields

end MarketSystem.OppositePolicy
