import MarketSystem.Execution.RiskReservation
import Mathlib.Data.Multiset.Basic

/-!
# The trading database

One SQLite file, written only under `BEGIN IMMEDIATE`. A transaction is a
function of the durable state that either yields a result with the new state or
raises, after which the state is the old one: transactions of any number of
processes are serialized.

The columns kept are those that some modelled operation reads. PAPER rows are
stored under their own primary keys; the account row carries no positions and no
trades, which live in tables of their own.
-/
namespace MarketSystem

open Library

inductive RunStatus
  | running
  | completed
  | failed
  deriving DecidableEq, Repr

structure RunRow where
  slotKey : String
  runId : String
  symbol : String
  asOf : Instant
  startedAt : Instant
  completedAt : Option Instant := none
  status : RunStatus
  finalStatus : Option String := none
  error : Option String := none
  deriving DecidableEq, Repr

structure LockRow where
  symbol : String
  slotKey : String
  deriving DecidableEq, Repr

structure ReviewRow where
  runId : String
  slotKey : String
  payload : Json

structure JournalRow where
  /-- `none` is the wall clock of the write. -/
  timestamp : Option Instant
  runId : Option String
  symbol : Option String
  source : String
  eventType : String
  severity : String := "INFO"
  payload : Json := .obj []

structure StateRow where
  key : String
  value : String
  deriving DecidableEq, Repr

structure Database where
  runs : Table RunRow.slotKey := Table.empty
  symbolLocks : Table LockRow.symbol := Table.empty
  reviewReports : Table ReviewRow.runId := Table.empty
  journal : List JournalRow := []
  systemState : Table StateRow.key := Table.empty
  paperAccounts : Table PaperAccount.accountId := Table.empty
  paperOrders : Orders := Table.empty
  paperFills : Fills := Table.empty
  paperPositions : Table PaperPosition.positionId := Table.empty
  closedTrades : Table ClosedTrade.tradeId := Table.empty

/-- A transaction body: the result with the state to commit, or the exception. -/
abbrev Tx (α : Type) := Database → Except String (α × Database)

/-- `Store.transaction`: commit on success, roll back on an exception. -/
def commit {α : Type} (tx : Tx α) (db : Database) : Except String α × Database :=
  match tx db with
  | .ok (a, db') => (.ok a, db')
  | .error e => (.error e, db)

theorem commit_ok {α : Type} {tx : Tx α} {db db' : Database} {a : α}
    (h : tx db = .ok (a, db')) : commit tx db = (.ok a, db') := by
  simp [commit, h]

theorem commit_error {α : Type} {tx : Tx α} {db : Database} {e : String}
    (h : tx db = .error e) : commit tx db = (.error e, db) := by
  simp [commit, h]

theorem commit_cases {α : Type} {tx : Tx α} {db db' : Database} {r : Except String α}
    (h : commit tx db = (r, db')) :
    (∃ a, r = .ok a ∧ tx db = .ok (a, db')) ∨ (∃ e, r = .error e ∧ db' = db) := by
  unfold commit at h
  cases ht : tx db with
  | ok res =>
    obtain ⟨a, d⟩ := res
    simp only [ht, Prod.mk.injEq] at h
    obtain ⟨rfl, rfl⟩ := h
    exact .inl ⟨a, rfl, rfl⟩
  | error e =>
    simp only [ht, Prod.mk.injEq] at h
    exact .inr ⟨e, h.1.symm, h.2.symm⟩

namespace Database

/-- `_event`: append one journal row. -/
def event (db : Database) (timestamp : Option Instant) (runId symbol : Option String)
    (source eventType : String) (severity : String := "INFO") (payload : Json := .obj []) :
    Database :=
  { db with journal := db.journal
      ++ [⟨timestamp, runId, symbol, source, eventType, severity, payload⟩] }

def setState (db : Database) (key value : String) : Database :=
  { db with systemState := db.systemState.put ⟨key, value⟩ }

def getState (db : Database) (key : String) : Option String :=
  (db.systemState.get? key).map (·.value)

/-- `owns_slot`: the run is RUNNING and holds the lock of its symbol. -/
def ownsSlot (db : Database) (key symbol : String) : Bool :=
  match db.runs.get? key with
  | none => false
  | some run =>
      match db.symbolLocks.get? run.symbol with
      | none => false
      | some lock => decide (run.symbol = symbol ∧ run.status = .running ∧ lock.slotKey = key)

theorem ownsSlot_eq_true {db : Database} {key symbol : String} :
    db.ownsSlot key symbol = true ↔
      ∃ run lock, db.runs.get? key = some run ∧ run.symbol = symbol ∧ run.status = .running ∧
        db.symbolLocks.get? symbol = some lock ∧ lock.slotKey = key := by
  constructor
  · intro h
    unfold ownsSlot at h
    cases hr : db.runs.get? key with
    | none => simp [hr] at h
    | some run =>
      cases hl : db.symbolLocks.get? run.symbol with
      | none => simp [hr, hl] at h
      | some lock =>
        simp only [hr, hl, decide_eq_true_eq] at h
        exact ⟨run, lock, rfl, h.1, h.2.1, h.1 ▸ hl, h.2.2⟩
  · rintro ⟨run, lock, hr, rfl, hstatus, hl, hkey⟩
    simp [ownsSlot, hr, hl, hstatus, hkey]

/-! ## PAPER state -/

/-- `paper_encode` of an account: its positions and trades are stored elsewhere. -/
def encodeAccount (account : PaperAccount) : PaperAccount :=
  { account with openPositions := Table.empty, closedTrades := [] }

/-- `paper_state`: the comparison value over every PAPER object a save can overwrite.
The sorted tuples of encodings are compared as multisets. -/
structure PaperState where
  account : Option PaperAccount
  positions : Multiset PaperPosition
  trades : Multiset ClosedTrade
  orders : Multiset PaperOrder
  fills : Multiset PaperFill
  deriving DecidableEq

def paperState (account : Option PaperAccount) (orders : Orders) (fills : Fills) : PaperState where
  account := account.map encodeAccount
  positions := match account with
    | some a => a.openPositions.rows
    | none => 0
  trades := match account with
    | some a => a.closedTrades
    | none => 0
  orders := orders.rows
  fills := fills.rows

/-- `load_paper`: the account with its open positions and closed trades, all orders
and all fills. -/
def loadPaper (db : Database) (accountId : String) :
    Except String (Option PaperAccount × Orders × Fills) :=
  match db.paperAccounts.get? accountId with
  | none => .ok (none, db.paperOrders, db.paperFills)
  | some account =>
      match Table.ofList? (db.paperPositions.rows.filter (fun p => decide (p.status = .open))) with
      | none => .error "duplicate open paper position"
      | some positions =>
          .ok (some { account with
            openPositions := positions
            closedTrades := db.closedTrades.rows }, db.paperOrders, db.paperFills)

/-- The economic rows of a save: account, orders, fills, positions and trades, then
the positions of closed trades are marked CLOSED. -/
def writePaper (db : Database) (broker : PaperBroker) : Database :=
  let account := broker.account
  let close (p : PaperPosition) : PaperPosition :=
    if p.positionId ∈ account.closedTrades.map (·.positionId) then { p with status := .closed }
    else p
  let positions := db.paperPositions.putAll account.openPositions.rows
  { db with
    paperAccounts := db.paperAccounts.put (encodeAccount account)
    paperOrders := db.paperOrders.putAll broker.orders.rows
    paperFills := db.paperFills.putAll broker.fills.rows
    paperPositions := positions.modify close (fun p => by dsimp only [close]; split_ifs <;> rfl)
    closedTrades := db.closedTrades.putAll account.closedTrades }

/-- The in-memory journal of the broker, appended row by row. -/
def writeEvents (db : Database) (events : List JournalEvent) : Database :=
  events.foldl (fun db e => db.event e.timestamp (some e.runId) (some e.symbol) e.entityId
    e.eventType "INFO" e.details) db

/-- The `paper` section of the review of one run. -/
def paperSummary (broker : PaperBroker) (runId : String) : Json :=
  .obj [
    ("orders", .arr ((broker.orders.rows.filter (fun o => decide (o.runId = runId))).map
      (fun o => .str o.orderId))),
    ("fills", .arr ((broker.fills.rows.filter (fun f => decide (f.runId = runId))).map
      (fun f => .str f.fillId))),
    ("open_positions", .arr ((broker.account.openPositions.rows.filter
      (fun p => decide (p.runId = runId))).map (fun p => .str p.positionId))),
    ("closed_trades", .arr ((broker.account.closedTrades.filter
      (fun t => decide (t.runId = runId))).map (fun t => .str t.tradeId))),
    ("equity", .num broker.account.equity),
    ("realized_pnl", .num broker.account.realizedPnl),
    ("unrealized_pnl", .num broker.account.unrealizedPnl)]

/-- The runs whose review a save refreshes. -/
def savedRuns (broker : PaperBroker) : List String :=
  broker.orders.rows.map (·.runId) ++ broker.fills.rows.map (·.runId)
    ++ broker.account.closedTrades.map (·.runId)

def writeReviews (db : Database) (broker : PaperBroker) : Database :=
  let refresh (r : ReviewRow) : ReviewRow :=
    if r.runId ∈ savedRuns broker then
      { r with payload := r.payload.merge [("paper", paperSummary broker r.runId)] }
    else r
  let reviews := db.reviewReports.modify refresh (fun r => by dsimp only [refresh]; split_ifs <;> rfl)
  { db with reviewReports := reviews }

/-- Everything a successful save writes, in one transaction. -/
def persist (db : Database) (broker : PaperBroker) : Database :=
  ((db.writePaper broker).writeEvents broker.journal).writeReviews broker

/-- `save_paper`: ownership first, then the compare-and-swap, then the writes. The
result is `false` when the durable state is not the expected one. -/
def savePaper (broker : PaperBroker) (ownerKey : Option String) (symbol : String)
    (expectedState : Option PaperState) : Tx Bool := fun db =>
  if (match ownerKey with
      | some key => !db.ownsSlot key symbol
      | none => false) then
    .error "paper persistence without slot ownership"
  else match expectedState with
    | none => .ok (true, db.persist broker)
    | some expected =>
        match db.loadPaper broker.account.accountId with
        | .error e => .error e
        | .ok (account, orders, fills) =>
            if paperState account orders fills ≠ expected then .ok (false, db)
            else .ok (true, db.persist broker)

/-! ## What a save leaves alone -/

@[simp] theorem event_runs (db : Database) (t : Option Instant) (r s : Option String)
    (src e sev : String) (p : Json) : (db.event t r s src e sev p).runs = db.runs := rfl

@[simp] theorem event_symbolLocks (db : Database) (t : Option Instant) (r s : Option String)
    (src e sev : String) (p : Json) :
    (db.event t r s src e sev p).symbolLocks = db.symbolLocks := rfl

@[simp] theorem setState_runs (db : Database) (k v : String) :
    (db.setState k v).runs = db.runs := rfl

@[simp] theorem setState_symbolLocks (db : Database) (k v : String) :
    (db.setState k v).symbolLocks = db.symbolLocks := rfl

/-- Appending events moves nothing but the journal. -/
theorem writeEvents_eq (db : Database) (events : List JournalEvent) :
    ∃ journal, db.writeEvents events = { db with journal := journal } := by
  induction events generalizing db with
  | nil => exact ⟨db.journal, rfl⟩
  | cons e events ih =>
    obtain ⟨journal, h⟩ := ih (db.event e.timestamp (some e.runId) (some e.symbol) e.entityId
      e.eventType "INFO" e.details)
    exact ⟨journal, h⟩

@[simp] theorem persist_runs (db : Database) (broker : PaperBroker) :
    (db.persist broker).runs = db.runs := by
  obtain ⟨journal, h⟩ := writeEvents_eq (db.writePaper broker) broker.journal
  simp only [persist, h]
  rfl

@[simp] theorem persist_symbolLocks (db : Database) (broker : PaperBroker) :
    (db.persist broker).symbolLocks = db.symbolLocks := by
  obtain ⟨journal, h⟩ := writeEvents_eq (db.writePaper broker) broker.journal
  simp only [persist, h]
  rfl

/-- A save either raises, or reports a stale state, or persists the broker. -/
theorem savePaper_ok {broker : PaperBroker} {ownerKey : Option String} {symbol : String}
    {expected : Option PaperState} {db db' : Database} {saved : Bool}
    (h : savePaper broker ownerKey symbol expected db = .ok (saved, db')) :
    (∀ key, ownerKey = some key → db.ownsSlot key symbol = true) ∧
      ((saved = false ∧ db' = db) ∨ (saved = true ∧ db' = db.persist broker)) := by
  unfold savePaper at h
  split_ifs at h with howner
  refine ⟨?_, ?_⟩
  · rintro key rfl
    simpa using howner
  · cases expected with
    | none =>
      simp only [Except.ok.injEq, Prod.mk.injEq] at h
      exact .inr ⟨h.1.symm, h.2.symm⟩
    | some expected =>
      cases hl : db.loadPaper broker.account.accountId with
      | error e => simp [hl] at h
      | ok loaded =>
        simp only [hl] at h
        split_ifs at h
        · simp only [Except.ok.injEq, Prod.mk.injEq] at h
          exact .inl ⟨h.1.symm, h.2.symm⟩
        · simp only [Except.ok.injEq, Prod.mk.injEq] at h
          exact .inr ⟨h.1.symm, h.2.symm⟩

end Database

end MarketSystem
