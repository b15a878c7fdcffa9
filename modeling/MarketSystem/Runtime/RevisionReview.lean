import MarketSystem.Library.PyJson
import MarketSystem.Library.Table
import Mathlib.Logic.Function.Basic

/-!
# Reviews of revised bars

A provider may present a committed bar again with other prices. `revision_review` journals one
classification for each such anomaly of the evidence database and the Owner's decisions about
it, and `demo_gate` reads both. The journal may hold any other rows of the two event types: a
row counts only when it is valid, and whether a review is depends on the reviews before it.

Payloads are texts. What Python and SQLite make of a text are parameters: SQLite raises on a
text that is no JSON to it. The nesting depth of a payload is not bounded.
-/
namespace MarketSystem.RevisionReview

open Library

def event : String := "EVIDENCE_REVISION"

def reviewEvent : String := "EVIDENCE_REVISION_REVIEWED"

def sourceName : String := "revision_review"

def finalDecisions : List String := ["ACCEPTED_FIRST_COMMITTED"]

def openDecisions : List String := ["ESCALATED"]

def decisions : List String := finalDecisions ++ openDecisions

def invalidDecision : String := "INVALID_DECISION"

/-- The keys that `safe_json` drops contain one of these. -/
def secretWords : List String := ["secret", "password", "token", "api_key", "credential"]

/-- The two readers of a payload, and the writer. -/
structure Codec (F : Type) where
  /-- The exact value of a finite float. -/
  value : F → ℚ
  /-- `json.loads`; `none` when the text is no JSON. -/
  loads : String → Option (PyJson F)
  /-- `json.dumps`, as `safe_json` calls it. -/
  dumps : PyJson F → String
  /-- `json_extract(payload, '$.anomaly_id')`, when it is a text; an error when SQLite cannot
  read the payload. -/
  extract : String → Except String (Option String)
  /-- A dictionary has every key once. -/
  loads_keyed : ∀ (t : String) (v : PyJson F), loads t = some v → v.keyed = true
  /-- What is written is read back. -/
  loads_dumps : ∀ v : PyJson F, v.keyed = true → v.plain secretWords = true →
    loads (dumps v) = some v

/-- A journal row. -/
structure Row where
  timestamp : String
  runId : Option String := none
  symbol : Option String
  source : String
  eventType : String
  severity : String
  payload : String
  deriving DecidableEq

/-! ## Validity of rows -/

section Rows

variable {F : Type} (codec : Codec F)

/-- `_parse_object`. -/
def parseObject (payload : String) : Option (PyJson.Dict F) :=
  match codec.loads payload with
  | some (.obj data) => some data
  | _ => none

def errorIf (c : Bool) (name : String) : List String := if c then [name] else []

/-- A text that is not empty. -/
def nonempty (v : PyJson F) : Bool :=
  match v with
  | .str s => decide (s ≠ [])
  | _ => false

/-- `_classification_errors`. -/
def classificationErrors (source : String) (data : Option (PyJson.Dict F)) : List String :=
  match data with
  | none => ["payload_not_object"]
  | some data =>
      errorIf (source != sourceName) "wrong_source"
        ++ errorIf (!nonempty (PyJson.get data "anomaly_id")) "anomaly_id_invalid"
        ++ errorIf (!PyJson.eq codec.value (PyJson.get data "review_key")
            (PyJson.get data "anomaly_id")) "review_key_mismatch"
        ++ ["symbol", "timeframe", "bar_start"].flatMap (fun field =>
            errorIf (!nonempty (PyJson.get data field)) (field ++ "_invalid"))
        ++ errorIf (!(PyJson.get data "material").isBool) "material_invalid"
        ++ errorIf (!(PyJson.get data "affected").isArr) "affected_invalid"

/-- The `anomaly_id` of a payload, when it is usable. -/
def anomalyId (data : Option (PyJson.Dict F)) : Option Text :=
  match data with
  | some data =>
      match PyJson.get data "anomaly_id" with
      | .str s => if s = [] then none else some s
      | _ => none
  | none => none

/-- `_classification_rows`: every row of the event, with its errors. -/
def classificationRows (rows : List Row) : List (Option (PyJson.Dict F) × List String) :=
  (rows.filter (fun r => decide (r.eventType = event))).map (fun r =>
    (parseObject codec r.payload,
      classificationErrors codec r.source (parseObject codec r.payload)))

/-- `_valid_classifications`. -/
def validClassifications (rows : List Row) : List (PyJson.Dict F) :=
  (classificationRows codec rows).filterMap (fun item => if item.2 = [] then item.1 else none)

/-- The anomalies with a valid classification. -/
def recorded (rows : List Row) : List Text :=
  (validClassifications codec rows).filterMap (fun data => anomalyId (some data))

/-- `_review_rows`. -/
def reviewRows (rows : List Row) : List (String × Option (PyJson.Dict F)) :=
  (rows.filter (fun r => decide (r.eventType = reviewEvent))).map (fun r =>
    (r.source, parseObject codec r.payload))

end Rows

section Reviews

variable {F : Type}

/-- `_key`. -/
def keyOf (data : Option (PyJson.Dict F)) : Option Text :=
  match data with
  | some data =>
      match PyJson.get data "review_key" with
      | .str s => some s
      | _ => none
  | none => none

/-- The literal decision of a row, valid or not. -/
def literal (data : Option (PyJson.Dict F)) : PyJson F :=
  match data with
  | some data => PyJson.get data "decision"
  | none => .null

/-- `_latest_literal_decisions`. -/
def latestLiteralDecisions (reviews : List (String × Option (PyJson.Dict F))) :
    Option Text → PyJson F :=
  reviews.foldl (fun latest r => Function.update latest (keyOf r.2) (literal r.2))
    (fun _ => .null)

/-- The value is one of these texts. -/
def isOneOf (names : List String) (v : PyJson F) : Bool :=
  match v with
  | .str s => names.any (fun name => decide (s = text name))
  | _ => false

/-- The characters that `str.strip` removes. -/
def isSpace (c : ℕ) : Bool :=
  decide (9 ≤ c ∧ c ≤ 13 ∨ 28 ≤ c ∧ c ≤ 32 ∨ c = 0x85 ∨ c = 0xA0 ∨ c = 0x1680
    ∨ 0x2000 ≤ c ∧ c ≤ 0x200A ∨ c = 0x2028 ∨ c = 0x2029 ∨ c = 0x202F ∨ c = 0x205F ∨ c = 0x3000)

def blank (s : Text) : Bool := s.all isSpace

variable (codec : Codec F)

/-- What is wrong with the payload of a review, given the literal decision before it. -/
def payloadReasons (previous : PyJson F) (source : String) (data : PyJson.Dict F) :
    List String :=
  errorIf (source != sourceName) "wrong_source"
    ++ errorIf (!isOneOf decisions (PyJson.get data "decision")) "unknown_decision"
    ++ errorIf (match keyOf (some data) with
        | none => true
        | some key => !PyJson.eq codec.value (PyJson.get data "anomaly_id") (.str key))
        "review_key_mismatch"
    ++ errorIf (match PyJson.get data "reviewer" with
        | .str s => blank s
        | _ => true) "reviewer_missing"
    ++ errorIf (match PyJson.get data "final" with
        | .bool b => b != isOneOf finalDecisions (PyJson.get data "decision")
        | _ => true) "final_inconsistent"
    ++ errorIf ((data.lookup (text "previous_decision")).isNone ||
        !PyJson.eq codec.value (PyJson.get data "previous_decision") previous)
        "previous_decision_mismatch"

/-- The key of a review is that of a recorded anomaly. -/
def isRecorded (recorded : List Text) (key : Option Text) : Bool :=
  match key with
  | none => false
  | some key => decide (key ∈ recorded)

/-- The reasons why a review is not valid. -/
def reviewReasons (recorded : List Text) (previous : PyJson F) (source : String)
    (data : Option (PyJson.Dict F)) : List String :=
  (match data with
    | none => ["payload_not_object"]
    | some data => payloadReasons codec previous source data)
    ++ errorIf (!isRecorded recorded (keyOf data)) "review_without_record"

/-- What is known of the latest review of an anomaly. -/
structure ReviewState (F : Type) where
  anomalyId : Option Text
  decision : PyJson F
  reasons : List String

def ReviewState.valid (s : ReviewState F) : Bool := s.reasons.isEmpty

/-- The state of the loop of `_review_states`. -/
structure Chain (F : Type) where
  previous : Option Text → PyJson F := fun _ => .null
  states : Option Text → Option (ReviewState F) := fun _ => none
  historicalInvalid : List (ReviewState F) := []
  withoutRecord : List (Option Text) := []

/-- One review row. -/
def Chain.next (recorded : List Text) (chain : Chain F)
    (review : String × Option (PyJson.Dict F)) : Chain F :=
  let key := keyOf review.2
  let reasons := reviewReasons codec recorded (chain.previous key) review.1 review.2
  { previous := Function.update chain.previous key (literal review.2)
    states := Function.update chain.states key (some ⟨key, literal review.2, reasons⟩)
    historicalInvalid := chain.historicalInvalid ++
      (match chain.states key with
        | some prior => if prior.valid then [] else [prior]
        | none => [])
    withoutRecord := chain.withoutRecord ++
      (if isRecorded recorded key then [] else [key]) }

/-- `_review_states`. -/
def reviewStates (rows : List Row) : Chain F :=
  (reviewRows codec rows).foldl (Chain.next codec (recorded codec rows)) {}

/-- `_effective`. -/
def effective (chain : Chain F) (key : Text) : Option (PyJson F) :=
  (chain.states (some key)).map (fun state =>
    if state.valid then state.decision else .str (text invalidDecision))

/-- The effective decision of an anomaly is one of these. -/
def decidedAs (names : List String) (chain : Chain F) (key : Option Text) : Bool :=
  match key.bind (effective chain) with
  | some decision => isOneOf names decision
  | none => false

structure Summary where
  recorded : ℕ
  unreviewed : ℕ
  materialUnreviewed : ℕ
  escalatedUnresolved : ℕ
  deriving DecidableEq

/-- The classification is of a material revision. -/
def material (data : PyJson.Dict F) : Bool :=
  match PyJson.get data "material" with
  | .bool b => b
  | _ => false

/-- `_summary`. -/
def summary (rows : List Row) : Summary :=
  let classifications := validClassifications codec rows
  let chain := reviewStates codec rows
  let unresolved := classifications.filter (fun data =>
    !decidedAs finalDecisions chain (keyOf (some data)))
  { recorded := classifications.length
    unreviewed := unresolved.length
    materialUnreviewed := (unresolved.filter material).length
    escalatedUnresolved := (unresolved.filter (fun data =>
      decidedAs openDecisions chain (keyOf (some data)))).length }

end Reviews

/-! ## Writers -/

/-- The journal, and the `evidence_revisions` summary. -/
structure Store where
  rows : List Row := []
  summary : Option Summary := none

section Writers

variable {F : Type} (codec : Codec F)

/-- The payload that `_event` stores. -/
def safeJson (v : PyJson F) : Except String String :=
  match v.sanitize secretWords with
  | none => .error "nonfinite JSON number"
  | some w => if w.encodable then .ok (codec.dumps w) else .error "surrogates not allowed"

/-- `SELECT ... WHERE event_type=? AND json_extract(payload,'$.anomaly_id')=?`, the first row. -/
def firstMatch (key : String) : List Row → Except String (Option Row)
  | [] => .ok none
  | r :: rows =>
      if r.eventType ≠ event then firstMatch key rows
      else
        match codec.extract r.payload with
        | .error e => .error e
        | .ok found => if found = some key then .ok (some r) else firstMatch key rows

structure Ohlc (F : Type) where
  open_ : F
  high : F
  low : F
  close : F

def Ohlc.toJson (bar : Ohlc F) : PyJson F :=
  .obj [(text "open", .float bar.open_), (text "high", .float bar.high),
    (text "low", .float bar.low), (text "close", .float bar.close)]

/-- A level that the presented bar crosses and the committed bar does not. -/
structure Affected (F : Type) where
  positionId : String
  level : String
  price : F

def Affected.toJson (a : Affected F) : PyJson F :=
  .obj [(text "position_id", .str (text a.positionId)), (text "level", .str (text a.level)),
    (text "price", .float a.price)]

/-- A record that `classify` returns. -/
structure Record (F : Type) where
  anomalyId : String
  symbol : String
  timeframe : String
  barStart : String
  committed : Option (Ohlc F)
  presented : Option (Ohlc F)
  affected : List (Affected F)
  managedBy : String

/-- `bool(affected)`. -/
def Record.material (r : Record F) : Bool := !r.affected.isEmpty

def Record.fields (r : Record F) : PyJson.Dict F :=
  [(text "anomaly_id", .str (text r.anomalyId)), (text "symbol", .str (text r.symbol)),
    (text "timeframe", .str (text r.timeframe)), (text "bar_start", .str (text r.barStart)),
    (text "committed", match r.committed with
      | some bar => bar.toJson
      | none => .null),
    (text "presented", match r.presented with
      | some bar => bar.toJson
      | none => .null),
    (text "material", .bool r.material), (text "affected", .arr (r.affected.map Affected.toJson)),
    (text "rule", .str (text "FIRST_COMMITTED_BAR_AUTHORITATIVE (unchanged)")),
    (text "review_key", .str (text r.anomalyId)), (text "managed_by", .str (text r.managedBy))]

/-- The rows after the records that have none yet, and how many were written. -/
def journalRecords (timestamp runId : String) :
    List Row → List (Record F) → Except String (List Row × ℕ)
  | rows, [] => .ok (rows, 0)
  | rows, record :: records =>
      match firstMatch codec record.anomalyId rows with
      | .error e => .error e
      | .ok (some _) => journalRecords timestamp runId rows records
      | .ok none =>
          match safeJson codec (.obj record.fields) with
          | .error e => .error e
          | .ok payload =>
              let row : Row :=
                { timestamp := timestamp
                  runId := some runId
                  symbol := some record.symbol
                  source := sourceName
                  eventType := event
                  severity := if record.material then "WARNING" else "INFO"
                  payload := payload }
              match journalRecords timestamp runId (rows ++ [row]) records with
              | .error e => .error e
              | .ok (rows, written) => .ok (rows, written + 1)

/-- `journal`: the store and the number of rows written. -/
def journal (store : Store) (records : List (Record F)) (timestamp runId : String) :
    Except String (Store × ℕ) :=
  match journalRecords codec timestamp runId store.rows records with
  | .error e => .error e
  | .ok (rows, written) => .ok (⟨rows, some (summary codec rows)⟩, written)

/-- The payload of a review. -/
def reviewPayload (key decision reviewer note : String) (previous : PyJson F) : PyJson.Dict F :=
  [(text "review_key", .str (text key)), (text "anomaly_id", .str (text key)),
    (text "decision", .str (text decision)), (text "final", .bool (decide (decision ∈ finalDecisions))),
    (text "previous_decision", previous), (text "reviewer", .str (text reviewer)),
    (text "note", .str (text note))]

/-- `record_review`. -/
def recordReview (store : Store) (key decision reviewer note timestamp : String) :
    Except String Store :=
  if decision ∉ decisions then .error "decision must be one of DECISIONS"
  else if blank (text reviewer) = true then .error "reviewer required"
  else
    match firstMatch codec key store.rows with
    | .error e => .error e
    | .ok none => .error "unknown review_key"
    | .ok (some found) =>
        let previous := latestLiteralDecisions (reviewRows codec store.rows) (some (text key))
        match safeJson codec (.obj (reviewPayload key decision reviewer note previous)) with
        | .error e => .error e
        | .ok payload =>
            let row : Row :=
              { timestamp := timestamp
                symbol := found.symbol
                source := sourceName
                eventType := reviewEvent
                severity := if decision ∈ finalDecisions then "INFO" else "WARNING"
                payload := payload }
            let rows := store.rows ++ [row]
            .ok ⟨rows, some (summary codec rows)⟩

/-- A call of one of the two writers, or a row written by someone else. -/
inductive Step (F : Type)
  | journal (records : List (Record F)) (timestamp runId : String)
  | review (key decision reviewer note timestamp : String)
  | foreign (row : Row)

/-- What a step leaves: a call that raises leaves the store as it was. -/
def step (store : Store) : Step F → Store
  | .journal records timestamp runId =>
      match journal codec store records timestamp runId with
      | .ok (store, _) => store
      | .error _ => store
  | .review key decision reviewer note timestamp =>
      match recordReview codec store key decision reviewer note timestamp with
      | .ok store => store
      | .error _ => store
  | .foreign row => { store with rows := store.rows ++ [row] }

def run (steps : List (Step F)) : Store := steps.foldl (step codec) {}

end Writers

/-! ## The gate -/

structure Anomaly where
  anomalyId : String
  symbol : String
  timeframe : String
  barStart : String
  deriving DecidableEq

/-- The REVISION anomalies by their id. -/
abbrev Anomalies := Table Anomaly.anomalyId

/-- The evidence database as the gate finds it. -/
inductive EvidenceDb
  | missing
  | unreadable (read : Anomalies)
  | readable (anomalies : Anomalies)

def EvidenceDb.anomalies : EvidenceDb → Anomalies
  | .missing => Table.empty
  | .unreadable read => read
  | .readable anomalies => anomalies

def EvidenceDb.blockers : EvidenceDb → List String
  | .missing => ["EVIDENCE_DB_MISSING"]
  | .unreadable _ => ["EVIDENCE_DB_UNREADABLE"]
  | .readable _ => []

def defaultEnabledSymbols : List String := ["XAUUSD", "EURUSD"]

section Gate

variable {F : Type}

/-- The classification is of this anomaly. -/
def isOf (key : Text) (data : PyJson.Dict F) : Bool := decide (anomalyId (some data) = some key)

/-- The classification names the symbol, the timeframe and the bar of its anomaly. -/
def agrees (a : Anomaly) (data : PyJson.Dict F) : Bool :=
  [("symbol", a.symbol), ("timeframe", a.timeframe), ("bar_start", a.barStart)].all (fun field =>
    match PyJson.get data field.1 with
    | .str s => decide (s = text field.2)
    | _ => false)

variable (codec : Codec F)

/-- The keys of a dictionary that is filled in this order. -/
def firstKeys (keys : List Text) : List Text := keys.reverse.dedup.reverse

/-- Every usable `anomaly_id` of a row, valid or not. -/
def usableIds (rows : List Row) : List Text :=
  (classificationRows codec rows).filterMap (fun item => anomalyId item.1)

/-- The first valid classification of every anomaly. -/
def classified (rows : List Row) : List (Text × PyJson.Dict F) :=
  (firstKeys (recorded codec rows)).filterMap (fun key =>
    ((validClassifications codec rows).find? (isOf key)).map (fun data => (key, data)))

structure Gate (F : Type) where
  blockers : List String
  materialUnreviewed : List (PyJson.Dict F)
  escalatedUnresolved : List (PyJson.Dict F)
  unclassified : List Anomaly
  orphanClassifications : List (PyJson.Dict F)
  nonMaterialUnreviewed : List (PyJson.Dict F)
  invalidReviews : List (ReviewState F)
  historicalInvalidReviews : List (ReviewState F)
  reviewsWithoutRecord : List (Option Text)
  classificationMismatches : List (Anomaly × PyJson.Dict F)
  classificationConflicts : List (Text × ℕ)
  classificationMalformed : List (Option Text × List String)
  anomaliesForDisabledSymbols : List Anomaly

def Gate.status (g : Gate F) : String := if g.blockers = [] then "CLEAR" else "BLOCKED"

/-- A blocker, when there is something to name. -/
def blockerIf {α : Type} (found : List α) (name : String) : List String :=
  if found.isEmpty then [] else [name]

/-- `demo_gate`. -/
def demoGate (evidence : EvidenceDb) (rows : List Row) (enabledSymbols : Option (List String)) :
    Gate F :=
  let enabled := enabledSymbols.getD defaultEnabledSymbols
  let anomalies := evidence.anomalies.rows
  let evidenceOk := evidence.blockers.isEmpty
  let chain := reviewStates codec rows
  let items := classificationRows codec rows
  let ids := usableIds codec rows
  let malformed := (items.filter (fun item => !item.2.isEmpty)).map
    (fun item => (anomalyId item.1, item.2))
  let classifications := classified codec rows
  let conflicts := ((firstKeys ids).filter (fun key => decide (1 < ids.count key))).map
    (fun key => (key, ids.count key))
  let unclassified := anomalies.filter (fun a =>
    !classifications.any (fun c => decide (c.1 = text a.anomalyId)))
  let orphans := if evidenceOk then
      (classifications.filter (fun c =>
        !anomalies.any (fun a => decide (text a.anomalyId = c.1)))).map Prod.snd
    else []
  let mismatches := if evidenceOk then
      (validClassifications codec rows).flatMap (fun data =>
        (anomalies.filter (fun a => isOf (text a.anomalyId) data && !agrees a data)).map
          (fun a => (a, data)))
    else []
  let invalidLatest := classifications.filterMap (fun c =>
    (chain.states (some c.1)).filter (fun state => !state.valid))
  let unreviewed := (classifications.filter (fun c => (effective chain c.1).isNone)).map Prod.snd
  let escalated := (classifications.filter (fun c =>
    decidedAs openDecisions chain (some c.1))).map Prod.snd
  let materialUnreviewed := unreviewed.filter material
  let disabled := anomalies.filter (fun a => decide (a.symbol ∉ enabled))
  { blockers := evidence.blockers
      ++ blockerIf unclassified "UNCLASSIFIED"
      ++ blockerIf orphans "CLASSIFICATION_WITHOUT_ANOMALY"
      ++ blockerIf materialUnreviewed "MATERIAL_UNREVIEWED"
      ++ blockerIf escalated "ESCALATED_UNRESOLVED"
      ++ blockerIf disabled "ANOMALY_FOR_DISABLED_SYMBOL"
      ++ blockerIf invalidLatest "INVALID_REVIEW_RECORD"
      ++ blockerIf chain.withoutRecord "REVIEW_WITHOUT_RECORD"
      ++ blockerIf mismatches "CLASSIFICATION_MISMATCH"
      ++ blockerIf conflicts "CLASSIFICATION_CONFLICT"
      ++ blockerIf malformed "CLASSIFICATION_MALFORMED"
    materialUnreviewed := materialUnreviewed
    escalatedUnresolved := escalated
    unclassified := unclassified
    orphanClassifications := orphans
    nonMaterialUnreviewed := unreviewed.filter (fun data => !material data)
    invalidReviews := invalidLatest
    historicalInvalidReviews := chain.historicalInvalid
    reviewsWithoutRecord := chain.withoutRecord
    classificationMismatches := mismatches
    classificationConflicts := conflicts
    classificationMalformed := malformed
    anomaliesForDisabledSymbols := disabled }

end Gate

end MarketSystem.RevisionReview
