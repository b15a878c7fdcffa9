import MarketSystem.Data.MarketEvidence
import MarketSystem.Runtime.GuardedWrite

/-!
# The pending-order gate

A PENDING order is evaluated only with the bar of a current cycle that passed its
gates. Every other committed bar after its submission is journaled once as not
evaluated. The evaluation applies to freshly loaded durable state and is saved
under the compare-and-swap.
-/
namespace MarketSystem.PendingOrderGate

open Library Database GuardedWrite

/-- `EVENT`. -/
def notEvaluatedEvent : String := "PENDING_NOT_EVALUATED"

/-- `REASON`. -/
def noCurrentCycleGate : String := "NO_CURRENT_CYCLE_GATE"

def blockingFinalStatuses : List String := ["AI_CAUTION", "ERROR", "RISK_REJECTED"]

/-- The outcome of the gates of one cycle, with its own latest closed bar. -/
structure CurrentCycleGate where
  runId : String
  symbol : String
  bar : Bar
  paperEnabled : Bool
  executionFresh : Bool
  sessionOpen : Bool
  aiHealthy : Bool
  aiFinalStatus : String

def CurrentCycleGate.passed (gate : CurrentCycleGate) : Bool :=
  gate.paperEnabled && gate.executionFresh && gate.sessionOpen && gate.aiHealthy
    && decide (gate.aiFinalStatus ≠ "" ∧ gate.aiFinalStatus ∉ blockingFinalStatuses)

inductive GateStatus
  | noOp
  | notEvaluated
  | evaluated
  | stale
  deriving DecidableEq, Repr

structure PendingGateResult where
  symbol : String
  status : GateStatus
  notEvaluated : List (String × Instant) := []
  journaled : ℕ := 0
  evaluated : List String := []
  deriving DecidableEq

/-- The arguments of one call. -/
structure Call where
  writer : Writer
  asOf : Instant
  gate : Option CurrentCycleGate
  evidence : Evidence

/-- `_pending`: the PENDING orders of a symbol with a submission time. -/
def pending (orders : Orders) (symbol : String) : List PaperOrder :=
  orders.rows.filter (fun o => decide (o.symbol = symbol ∧ o.status = .pending) && o.asOf.isSome)

namespace Call

variable (c : Call)

def symbol : String := c.writer.symbol

/-- `_current_bar_time`: the time of the gate's bar when the gate passed and no committed
bar is newer. -/
def currentBarTime (bars : List MarketBar) : Option Instant :=
  match c.gate with
  | none => none
  | some gate =>
      if gate.passed = false ∨ gate.symbol ≠ c.symbol ∨ gate.bar.symbol ≠ c.symbol then none
      else match bars.getLast? with
        | none => some gate.bar.timestamp
        | some last => if gate.bar.timestamp < last.start then none else some gate.bar.timestamp

/-- The bars an order was not evaluated with: after its submission, not the current one. -/
def skippedBars (bars : List MarketBar) (current : Option Instant) (order : PaperOrder) :
    List MarketBar :=
  bars.filter (fun bar => decide (order.asOf.getD bar.start < bar.start ∧ some bar.start ≠ current))

/-- One bar of one order, journaled unless it already is. -/
def journalBar (order : PaperOrder) (state : Database × ℕ) (bar : MarketBar) : Database × ℕ :=
  let (db, written) := state
  if db.journal.any (fun row => decide (row.eventType = notEvaluatedEvent
      ∧ row.symbol = some c.symbol ∧ row.source = order.orderId
      ∧ row.timestamp = some bar.start)) then state
  else (db.event (some bar.start) (some order.runId) (some c.symbol) order.orderId
    notEvaluatedEvent "INFO" (.obj [("order_id", .str order.orderId),
      ("bar_start", .num bar.start), ("reason", .str noCurrentCycleGate)]), written + 1)

/-- `_journal_not_evaluated`. -/
def journalNotEvaluated (bars : List MarketBar) (current : Option Instant) :
    Tx (List (String × Instant) × ℕ) := fun db =>
  if (match c.writer.ownerKey with
      | some key => !db.ownsSlot key c.symbol
      | none => false) then .error "paper journal without slot ownership"
  else match db.loadPaper c.writer.accountId with
    | .error e => .error e
    | .ok (_, orders, _) =>
        let orders := pending orders c.symbol
        let keys := orders.flatMap (fun o =>
          (skippedBars bars current o).map (fun bar => (o.orderId, bar.start)))
        let (db, written) := orders.foldl
          (fun state o => (skippedBars bars current o).foldl (c.journalBar o) state) (db, 0)
        .ok ((keys, written), db)

/-- The journaling, which a halt suppresses. -/
def journal (bars : List MarketBar) (current : Option Instant) :
    Program World (Except String (List (String × Instant) × ℕ)) := do
  if ← haltRefused then pure (.ok ([], 0))
  else transact (c.journalNotEvaluated bars current)

/-- The evaluation of one order with the bar of the gate, never at or before its submission. -/
def evaluateOrder (bar : Bar) (b : PaperBroker) (order : PaperOrder) : Except String PaperBroker :=
  match order.asOf with
  | none => .ok b
  | some asOf =>
      if asOf < bar.timestamp then
        let ids := c.writer.uuid4.draw b
        (b.processNextBar order bar ids.fillId ids.positionId).map (·.1)
      else .ok b

/-- The evaluation of all PENDING orders on freshly loaded state. -/
def evaluate (bar : Bar) (notEvaluated : List (String × Instant)) (journaled : ℕ) :
    Program World (Except String PendingGateResult) := do
  match ← load c.writer.accountId with
  | .error e => pure (.error e)
  | .ok (none, _, _) => pure (.error "AttributeError")
  | .ok (some account, orders, fills) =>
      let broker := c.writer.broker account orders fills
      let due := pending broker.orders c.symbol
      match due.foldlM (c.evaluateOrder bar) broker with
      | .error e => pure (.error e)
      | .ok changed => do
          let evaluated := (due.filter (fun o => decide (o.asOf.getD bar.timestamp
            < bar.timestamp))).map (·.orderId)
          let result := PendingGateResult.mk c.symbol .evaluated notEvaluated journaled evaluated
          if changed.journal.isEmpty then pure (.ok result)
          else match ← saveAttempt c.writer broker () changed with
            | .error e => pure (.error e)
            | .ok none => pure (.ok { result with status := .stale, evaluated := [] })
            | .ok (some _) => pure (.ok result)

/-- The submission time of the oldest order. -/
def oldest (orders : List PaperOrder) : Instant :=
  match orders.filterMap (·.asOf) with
  | [] => c.asOf
  | asOf :: rest => rest.foldl min asOf

/-- The call once there is a PENDING order. -/
def admitted (orders : List PaperOrder) : Program World (Except String PendingGateResult) := do
  if ← haltRefused then pure (.error "HaltRefused")
  else match c.evidence.eligibleBars c.symbol (c.oldest orders) c.asOf with
    | .error e => pure (.error e)
    | .ok bars => do
        let current := c.currentBarTime bars
        match ← c.journal bars current with
        | .error e => pure (.error e)
        | .ok (keys, written) =>
            match current, c.gate with
            | some _, some gate => c.evaluate gate.bar keys written
            | _, _ => pure (.ok ⟨c.symbol, .notEvaluated, keys, written, []⟩)

end Call

/-- `gate_pending_orders`. -/
def gatePendingOrders (c : Call) : Program World (Except String PendingGateResult) := do
  match ← load c.writer.accountId with
  | .error e => pure (.error e)
  | .ok (none, _, _) => pure (.ok { symbol := c.symbol, status := .noOp })
  | .ok (some _, orders, _) =>
      match pending orders c.symbol with
      | [] => pure (.ok { symbol := c.symbol, status := .noOp })
      | order :: orders => c.admitted (order :: orders)

end MarketSystem.PendingOrderGate
