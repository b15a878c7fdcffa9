import MarketSystem.Storage.EvidenceStore

/-!
# The market evidence engine

Bars of one stream are presented in any order, several times, in overlapping
windows. The closed ones are taken in chronological order, one transaction each: a
bar is committed after the watermark, and otherwise recorded as what it is.
-/
namespace MarketSystem

namespace MarketBar

def key (bar : MarketBar) : EvidenceStore.Key := ⟨bar.symbol, bar.timeframe, bar.start⟩

def content (bar : MarketBar) : EvidenceStore.Content :=
  ⟨bar.open_, bar.high, bar.low, bar.close, bar.volume⟩

end MarketBar

namespace EvidenceIngest

open Library EvidenceStore

/-- The digests of SHA-256, and the text of an instant. -/
structure Rendering where
  digest : Content → String
  anomalyId : AnomalyKind → Key → String → String
  utc : Instant → String

/-- What became of a bar that was taken. -/
inductive Kind
  | committed
  | duplicate
  | late
  | revision
  deriving DecidableEq, Repr

/-- The anomaly that stands between two committed bars. -/
def gapBetween (watermark : Instant) (bar : MarketBar) : Anomaly :=
  let duration := bar.timeframe.duration
  let expected := watermark + duration
  ⟨.gap, bar.key, .gap watermark bar.start (((bar.start - expected : ℤ) : ℚ) / 1000000)
    (((bar.start - watermark : ℤ) : ℚ) / ((duration : ℤ) : ℚ) - 1)⟩

/-- `_anomaly`. -/
def anomaly (h : Rendering) (bar : MarketBar) (a : Anomaly) (db : EvidenceDb) : EvidenceDb :=
  db.insertAnomaly ⟨h.anomalyId a.kind bar.key (h.digest bar.content), a⟩

/-- The insertion at the end of `_commit`. -/
def insertBar (h : Rendering) (bar : MarketBar) (seq : ℕ) (gap : Option Anomaly) (db : EvidenceDb) :
    Except String ((Kind × Option Anomaly) × EvidenceDb) :=
  match db.insertEvidence ⟨bar.key, seq, bar, h.digest bar.content⟩ with
  | .error e => .error e
  | .ok db => .ok ((.committed, gap), db)

/-- `_commit`: the unit of work of one bar. -/
def commit (h : Rendering) (bar : MarketBar) (db : EvidenceDb) :
    Except String ((Kind × Option Anomaly) × EvidenceDb) :=
  match db.evidence.get? bar.key with
  | some existing =>
      if existing.digest = h.digest bar.content then .ok ((.duplicate, none), db)
      else .ok ((.revision, none), anomaly h bar ⟨.revision, bar.key,
        .revision existing.digest (h.digest bar.content) bar.provider⟩ db)
  | none =>
      match db.top bar.symbol bar.timeframe with
      | none => insertBar h bar 1 none db
      | some top =>
          let watermark := top.key.barStart
          if bar.start ≤ watermark then
            .ok ((.late, none), anomaly h bar ⟨.late, bar.key,
              .late watermark (h.digest bar.content)⟩ db)
          else
            let expected := watermark + bar.timeframe.duration
            if expected < bar.start then
              let gap := gapBetween watermark bar
              insertBar h bar (top.streamSeq + 1) (some gap) (anomaly h bar gap db)
            else insertBar h bar (top.streamSeq + 1) none db

/-- The loop over a presentation: one bar for each start, and no two that differ. -/
def collect (h : Rendering) (symbol : String) (timeframe : Timeframe) :
    List MarketBar → List MarketBar → Except String (List MarketBar)
  | unique, [] => .ok unique
  | unique, bar :: rest =>
      if ¬ (bar.symbol = symbol ∧ bar.timeframe = timeframe) then
        .error "bar does not belong to this stream"
      else match unique.find? (fun b => b.key = bar.key) with
        | none => collect h symbol timeframe (unique ++ [bar]) rest
        | some b =>
            if b ≠ bar then
              .error ("conflicting duplicate bar " ++ h.utc bar.start ++ " in one presentation")
            else collect h symbol timeframe unique rest

def ByStart (a b : MarketBar) : Prop := a.start ≤ b.start

instance : DecidableRel ByStart := fun a b => inferInstanceAs (Decidable (a.start ≤ b.start))

/-- `_split_closed`: the closed prefix, and what is held. -/
def splitClosed (ordered : List MarketBar) (asOf : Instant) : List MarketBar × List MarketBar :=
  (ordered.takeWhile (fun bar => bar.closedAt asOf), ordered.dropWhile (fun bar => bar.closedAt asOf))

/-- A bar that was taken, with what became of it. -/
structure Taken where
  bar : MarketBar
  kind : Kind
  gap : Option Anomaly
  deriving DecidableEq

/-- One transaction after the other. -/
def commitAll (h : Rendering) : List MarketBar → M (List Taken)
  | [] => pure []
  | bar :: rest => do
      let (kind, gap) ← transaction (commit h bar)
      let taken ← commitAll h rest
      pure (⟨bar, kind, gap⟩ :: taken)

structure IngestResult where
  symbol : String
  timeframe : Timeframe
  asOf : Instant
  presented : ℕ
  committed : List MarketBar
  duplicates : List Instant
  held : List Instant
  late : List Instant
  revisions : List Instant
  gaps : List Anomaly
  watermark : Option Instant

def IngestResult.contiguous (r : IngestResult) : Bool := r.gaps.isEmpty

/-- The bars of one kind. -/
def outcome (taken : List Taken) (kind : Kind) : List MarketBar :=
  (taken.filter (fun t => t.kind = kind)).map Taken.bar

/-- The arguments of one `ingest`. -/
structure Presentation where
  symbol : String
  timeframe : Timeframe
  bars : List MarketBar
  asOf : Instant

def IngestResult.of (p : Presentation) (held : List MarketBar) (taken : List Taken)
    (last : Option EvidenceRow) : IngestResult where
  symbol := p.symbol
  timeframe := p.timeframe
  asOf := p.asOf
  presented := p.bars.length
  committed := outcome taken .committed
  duplicates := (outcome taken .duplicate).map MarketBar.start
  held := held.map MarketBar.start
  late := (outcome taken .late).map MarketBar.start
  revisions := (outcome taken .revision).map MarketBar.start
  gaps := taken.filterMap Taken.gap
  watermark := last.map (fun r => r.payload.start)

/-- `ingest`. -/
def ingest (h : Rendering) (enabledSymbols : List String) (p : Presentation) : M IngestResult :=
  if p.symbol ∉ enabledSymbols then .raise ("symbol '" ++ p.symbol ++ "' is not enabled")
  else do
    let unique ← .ofExcept (collect h p.symbol p.timeframe [] p.bars)
    let ordered := unique.insertionSort ByStart
    let (eligible, held) := splitClosed ordered p.asOf
    let taken ← commitAll h eligible
    let last ← query (fun db => db.top p.symbol p.timeframe)
    pure (.of p held taken last)

/-! ## Operations on a store -/

/-- One presentation after the other, until one raises. -/
def ingestAll (h : Rendering) (enabledSymbols : List String) :
    List Presentation → M (List IngestResult)
  | [] => pure []
  | p :: rest => do
      let result ← ingest h enabledSymbols p
      let results ← ingestAll h enabledSymbols rest
      pure (result :: results)

/-- What is done with a store: presentations, each bar on its own, or as one batch. -/
inductive Operation
  | ingest (presentations : List Presentation)
  | batch (presentations : List Presentation)

def Operation.program (h : Rendering) (enabledSymbols : List String) :
    Operation → M (List IngestResult)
  | ingest presentations => ingestAll h enabledSymbols presentations
  | batch presentations => EvidenceStore.batch (ingestAll h enabledSymbols presentations)

/-- An operation with the database it found, what came of it and the database it left. -/
structure Performed where
  operation : Operation
  before : EvidenceDb
  outcome : Except String (List IngestResult)
  after : EvidenceDb

/-- Operations one after the other, under one oracle for all their accesses. An operation that
a crash ends is one whose next access fails. -/
def perform (h : Rendering) (enabledSymbols : List String) (fails : ℕ → Bool) :
    List Operation → ℕ × EvidenceDb → List Performed
  | [], _ => []
  | op :: rest, (n, db) =>
      let (outcome, n', s) := (op.program h enabledSymbols).run fails (n, ⟨db, false⟩)
      ⟨op, db, outcome, s.db⟩ :: perform h enabledSymbols fails rest (n', s.db)

end EvidenceIngest

end MarketSystem
