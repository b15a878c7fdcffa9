import Mathlib.Data.List.Infix
import MarketSystem.Data.MarketEvidence
import MarketSystem.Library.Fallible
import MarketSystem.Library.Table

/-!
# The evidence store

A database of its own for committed bars and anomalies. A unit of work is one
transaction: it takes effect as a whole or not at all. Inside a batch the units
share one transaction, which is kept when the time budget runs out between two
units and rolled back on any other error.
-/
namespace MarketSystem.EvidenceStore

open Library

/-- The primary key of `market_evidence`. -/
structure Key where
  symbol : String
  timeframe : Timeframe
  barStart : Instant
  deriving DecidableEq, Repr

/-- The content of a bar that its digest is taken of. -/
structure Content where
  open_ : ℚ
  high : ℚ
  low : ℚ
  close : ℚ
  volume : Option ℚ
  deriving DecidableEq, Repr

/-- A row of `market_evidence`. The payload is the text of a bar that is read back exactly. -/
structure EvidenceRow where
  key : Key
  streamSeq : ℕ
  payload : MarketBar
  digest : String
  deriving DecidableEq

def BySeq (a b : EvidenceRow) : Prop := a.streamSeq ≤ b.streamSeq

instance : DecidableRel BySeq := fun a b => inferInstanceAs (Decidable (a.streamSeq ≤ b.streamSeq))

inductive AnomalyKind
  | gap
  | late
  | revision
  deriving DecidableEq, Repr

inductive Details
  | gap (after before : Instant) (missingSeconds missingIntervals : ℚ)
  | late (watermark : Instant) (presentedDigest : String)
  | revision (committedDigest presentedDigest : String) (presentedProvider : Option String)
  deriving DecidableEq, Repr

structure Anomaly where
  kind : AnomalyKind
  key : Key
  details : Details
  deriving DecidableEq, Repr

structure AnomalyRow where
  anomalyId : String
  anomaly : Anomaly
  deriving DecidableEq, Repr

structure EvidenceDb where
  evidence : Table EvidenceRow.key
  anomalies : Table AnomalyRow.anomalyId

/-- A database that has just been created. -/
def EvidenceDb.empty : EvidenceDb := ⟨Table.empty, Table.empty⟩

namespace EvidenceDb

variable (db : EvidenceDb) (symbol : String) (timeframe : Timeframe)

/-- The rows of one stream, in the order they were inserted. -/
def stream : List EvidenceRow :=
  db.evidence.rows.filter (fun r => r.key.symbol = symbol ∧ r.key.timeframe = timeframe)

/-- `ORDER BY stream_seq`. -/
def ordered : List EvidenceRow := (db.stream symbol timeframe).insertionSort BySeq

/-- `ORDER BY stream_seq DESC LIMIT 1`. -/
def top : Option EvidenceRow := (db.ordered symbol timeframe).getLast?

/-- `INSERT INTO market_evidence`, under both its constraints. -/
def insertEvidence (row : EvidenceRow) : Except String EvidenceDb :=
  if (db.stream row.key.symbol row.key.timeframe).any (fun r => r.streamSeq = row.streamSeq) then
    .error "IntegrityError"
  else match db.evidence.insert? row with
    | none => .error "IntegrityError"
    | some evidence => .ok { db with evidence := evidence }

/-- `INSERT OR IGNORE INTO evidence_anomalies`. -/
def insertAnomaly (row : AnomalyRow) : EvidenceDb :=
  { db with anomalies := (db.anomalies.insert? row).getD db.anomalies }

theorem mem_stream {db : EvidenceDb} {symbol : String} {timeframe : Timeframe} {r : EvidenceRow} :
    r ∈ db.stream symbol timeframe ↔
      r ∈ db.evidence ∧ r.key.symbol = symbol ∧ r.key.timeframe = timeframe := by
  simp [stream, Table.mem_def]

@[simp] theorem insertAnomaly_evidence (row : AnomalyRow) :
    (db.insertAnomaly row).evidence = db.evidence := rfl

@[simp] theorem insertAnomaly_stream (row : AnomalyRow) :
    (db.insertAnomaly row).stream symbol timeframe = db.stream symbol timeframe := rfl

/-- An anomaly is there afterwards, or its id was taken. -/
theorem mem_insertAnomaly {db : EvidenceDb} {row r : AnomalyRow} :
    r ∈ (db.insertAnomaly row).anomalies ↔ r ∈ db.anomalies ∨
      (r = row ∧ ∀ s ∈ db.anomalies, s.anomalyId ≠ row.anomalyId) := by
  unfold insertAnomaly
  cases h : db.anomalies.insert? row with
  | none =>
    obtain ⟨s, hs, hid⟩ := Table.insert?_eq_none.mp h
    constructor
    · exact .inl
    · rintro (hr | ⟨-, hfree⟩)
      · exact hr
      · exact absurd hid (hfree s hs)
  | some t =>
    obtain ⟨-, hfree⟩ := Table.rows_of_insert? h
    rw [Option.getD_some, Table.mem_of_insert? h]
    constructor
    · rintro (hr | rfl)
      · exact .inl hr
      · exact .inr ⟨rfl, hfree⟩
    · rintro (hr | ⟨rfl, -⟩)
      · exact .inl hr
      · exact .inr rfl

end EvidenceDb

/-! ## Transactions -/

/-- A connection: what it sees, and whether a batch is open. -/
structure Store where
  db : EvidenceDb
  inBatch : Bool

def Store.fresh : Store := ⟨.empty, false⟩

abbrev M := Fallible Store

def BUDGET_EXCEEDED : String := "MARKET EVIDENCE batch time budget exhausted"

/-- The body of a transaction: what it raises undoes it. -/
def work {α : Type} (unit : EvidenceDb → Except String (α × EvidenceDb)) : M α := do
  let done ← .access "OperationalError" (fun s => match unit s.db with
    | .ok (a, db) => (.ok a, { s with db := db })
    | .error e => (.error e, s))
  .ofExcept done

/-- `transaction`: a unit of work. In a batch it first looks at the time budget. -/
def transaction {α : Type} (unit : EvidenceDb → Except String (α × EvidenceDb)) : M α := do
  let s ← .get
  if s.inBatch then .access BUDGET_EXCEEDED (fun s => ((), s))
  work unit

/-- A read outside of any unit. -/
def query {α : Type} (f : EvidenceDb → α) : M α := .access "OperationalError" (fun s => (f s.db, s))

/-- The end of a batch: what it did is committed, or rolled back to how it found the database. -/
def close {α : Type} (before : EvidenceDb) (outcome : Except String α) : M α := do
  .modify (fun s => { s with inBatch := false })
  match outcome with
  | .ok _ => do
      let committed ← .attempt (.access "OperationalError" (fun s => ((), s)))
      match committed with
      | .ok _ => .ofExcept outcome
      | .error e => do
          .modify (fun s => { s with db := before })
          .raise e
  | .error e =>
      if e = BUDGET_EXCEEDED then do
        let committed ← .attempt (.access "OperationalError" (fun s => ((), s)))
        match committed with
        | .ok _ => .raise e
        | .error e' => do
            .modify (fun s => { s with db := before })
            .raise e'
      else do
        .modify (fun s => { s with db := before })
        .raise e

/-- `batch`: every unit inside runs in one transaction. -/
def batch {α : Type} (body : M α) : M α := do
  let before ← .access "OperationalError" (fun s => (s.db, { s with inBatch := true }))
  let outcome ← .attempt body
  close before outcome

end MarketSystem.EvidenceStore
