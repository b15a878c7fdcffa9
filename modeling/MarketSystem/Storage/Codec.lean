import MarketSystem.Library.IsoRead
import MarketSystem.Library.PyJson
import MarketSystem.Library.Refusal
import MarketSystem.Storage.Database

/-!
# The payloads of the PAPER tables

Every record is stored as the JSON object of its fields: times as the text of their UTC instant, an
identity that was added later only where it is known. Reading a payload gives the record back, so
two payloads are one text exactly when the records are equal, and the comparison of texts under
which `save_paper` writes is the comparison of states.

The numbers of the records are those with a fraction. `schema_version` is `1.0` in every record; the
records of the model do not carry it.
-/
namespace MarketSystem.Codec

open Library
open Library.IsoTime (Stamp Representable utc)
open MarketSystem.Database (encodeAccount paperState)

/-! ## Values and texts -/

/-- The value of a field. -/
inductive Value
  | none
  | text (s : String)
  | number (q : ℚ)
  | time (t : Instant)

/-- The fields of a record, or the keyword arguments of its class. -/
abbrev Args := List (String × Value)

def TIME_FIELDS : List String :=
  ["as_of", "opened_at", "last_processed_at", "fill_timestamp", "exited_at"]

/-- The words by which `safe_json` knows a secret. -/
def secrets : List String := ["secret", "password", "token", "api_key", "credential"]

/-- `json.dumps` as `safe_json` calls it, `json.loads` and `datetime.fromisoformat`: what is written
is read back. -/
structure Json where
  dumps : PyJson ℚ → String
  loads : String → Option (PyJson ℚ)
  fromIso : String → Option Stamp
  loads_dumps : ∀ v : PyJson ℚ, v.keyed = true → v.plain secrets = true → loads (dumps v) = some v
  fromIso_utc : ∀ t (ht : Representable t),
    fromIso (String.ofList (utc t)) = some (Stamp.inUtc t ht)

/-- `utc(value)` or the value itself. -/
def toJson : Value → Except String (PyJson ℚ)
  | .none => pure .null
  | .text s => pure (.str (text s))
  | .number q => pure (.float q)
  | .time t =>
    if Representable t then pure (.str (text (String.ofList (utc t))))
    else .error "date value out of range"

/-- What a JSON value is as an argument. A truth value or a container in the place of one makes a
record that no writer stores. -/
def ofJson : PyJson ℚ → Except String Value
  | .null => pure .none
  | .str s => pure (.text (PyJson.ofText s))
  | .float q => pure (.number q)
  | .int n => pure (.number n)
  | _ => .error "unsupported field value"

/-- `parse_utc`. -/
def parseUtc (json : Json) : Value → Except String Value
  | .text s =>
    match json.fromIso s with
    | none => .error "Invalid isoformat string"
    | some stamp =>
      if stamp.offset = none then .error "naive timestamp rejected"
      else if Representable stamp.instant then pure (.time stamp.instant)
      else .error "date value out of range"
  | _ => .error "UTC timestamp string required"

/-! ## Records -/

/-- A class of `PAPER_TYPES`: the names of its fields, those of `OPTIONAL_IDENTITY_FIELDS`, the
fields of an object that are stored, and its constructor. -/
structure PaperType (α : Type) where
  fields : List String
  optional : List String
  args : α → Args
  construct : Args → Except String α

section Payloads

variable {α : Type} (json : Json) (cls : PaperType α)

/-- A field that is left out of the payload. -/
def omits (optional : List String) (field : String × Value) : Bool :=
  match field.2 with
  | .none => decide (field.1 ∈ optional)
  | _ => false

def toDict : Args → Except String (PyJson.Dict ℚ)
  | [] => pure []
  | (name, value) :: rest => do
    let value ← toJson value
    let rest ← toDict rest
    pure ((text name, value) :: rest)

/-- `paper_encode`. -/
def paperEncode (obj : α) : Except String String := do
  let payload ← toDict ((cls.args obj).filter (fun field => !omits cls.optional field))
  match (PyJson.obj payload).sanitize secrets with
  | none => .error "nonfinite JSON number"
  | some stored => pure (json.dumps stored)

/-- One key of the payload as an argument. -/
def toArg (key : String) (value : PyJson ℚ) : Except String Value := do
  let value ← ofJson value
  match value with
  | .none => pure .none
  | value => if key ∈ TIME_FIELDS then parseUtc json value else pure value

def ofDict : PyJson.Dict ℚ → Except String Args
  | [] => pure []
  | (key, value) :: rest => do
    let value ← toArg json (PyJson.ofText key) value
    let rest ← ofDict rest
    pure ((PyJson.ofText key, value) :: rest)

/-- `paper_decode`. -/
def paperDecode (payload : String) : Except String α :=
  match json.loads payload with
  | some (.obj data) => do
    require (data.all (fun field => decide (PyJson.ofText field.1 ∈ cls.fields)))
      "invalid paper payload"
    let args ← ofDict json data
    cls.construct args
  | some _ => .error "invalid paper payload"
  | none => .error "Expecting value"

end Payloads

/-! ### Arguments of constructors -/

section Arguments

variable (args : Args)

/-- An argument that has no default. -/
def required (name : String) : Except String Value :=
  match args.lookup name with
  | some value => pure value
  | none => .error "missing a required argument"

/-- An argument whose default is `None`. -/
def optional (name : String) : Value := (args.lookup name).getD .none

def asText : Value → Except String String
  | .text s => pure s
  | _ => .error "unsupported field value"

def asNumber : Value → Except String ℚ
  | .number q => pure q
  | _ => .error "unsupported field value"

def asTime : Value → Except String Instant
  | .time t => pure t
  | _ => .error "unsupported field value"

def orNone {β : Type} (read : Value → Except String β) : Value → Except String (Option β)
  | .none => pure Option.none
  | value => do pure (some (← read value))

/-- `_valid_side`. -/
def asSide : Value → Except String Side
  | .text "LONG" => pure .long
  | .text "SHORT" => pure .short
  | _ => .error "side must be LONG or SHORT"

end Arguments

def sideText : Side → String
  | .long => "LONG"
  | .short => "SHORT"

def ofOption {β : Type} (value : β → Value) : Option β → Value
  | none => .none
  | some b => value b

/-! ### The five classes -/

def orderStatus : OrderStatus → String
  | .pending => "PENDING"
  | .filled => "FILLED"
  | .cancelled => "CANCELLED"
  | .rejected => "REJECTED"

def asOrderStatus : Value → Except String OrderStatus
  | .text "PENDING" => pure .pending
  | .text "FILLED" => pure .filled
  | .text "CANCELLED" => pure .cancelled
  | .text "REJECTED" => pure .rejected
  | _ => .error "unsupported field value"

def positionStatus : PositionStatus → String
  | .open => "OPEN"
  | .closed => "CLOSED"

def asPositionStatus : Value → Except String PositionStatus
  | .text "OPEN" => pure .open
  | .text "CLOSED" => pure .closed
  | _ => .error "unsupported field value"

def paperAccount : PaperType PaperAccount where
  fields := ["schema_version", "account_id", "starting_equity", "cash", "equity", "realized_pnl",
    "unrealized_pnl", "open_positions", "closed_trades"]
  optional := []
  args account :=
    [("schema_version", .text "1.0"),
      ("account_id", .text account.accountId),
      ("starting_equity", .number account.startingEquity),
      ("cash", .number account.cash),
      ("equity", .number account.equity),
      ("realized_pnl", .number account.realizedPnl),
      ("unrealized_pnl", .number account.unrealizedPnl)]
  construct args := do
    let _ ← required args "schema_version"
    let accountId ← asText (← required args "account_id")
    let startingEquity ← asNumber (← required args "starting_equity")
    let cash ← asNumber (← required args "cash")
    let equity ← asNumber (← required args "equity")
    let realizedPnl ← asNumber ((args.lookup "realized_pnl").getD (.number 0))
    let unrealizedPnl ← asNumber ((args.lookup "unrealized_pnl").getD (.number 0))
    require (decide (0 < startingEquity)) "starting_equity must be positive"
    pure ⟨accountId, startingEquity, cash, equity, realizedPnl, unrealizedPnl, Table.empty, []⟩

def paperOrder : PaperType PaperOrder where
  fields := ["schema_version", "order_id", "run_id", "symbol", "side", "quantity", "planned_entry",
    "stop", "target", "contract_multiplier", "equity_at_submission", "cost_rate", "as_of", "status",
    "risk_policy_version", "setup_id"]
  optional := ["risk_policy_version", "setup_id"]
  args order :=
    [("schema_version", .text "1.0"),
      ("order_id", .text order.orderId),
      ("run_id", .text order.runId),
      ("symbol", .text order.symbol),
      ("side", .text (sideText order.side)),
      ("quantity", .number order.quantity),
      ("planned_entry", .number order.plannedEntry),
      ("stop", .number order.stop),
      ("target", .number order.target),
      ("contract_multiplier", ofOption .number order.contractMultiplier),
      ("equity_at_submission", ofOption .number order.equityAtSubmission),
      ("cost_rate", .number order.costRate),
      ("as_of", ofOption .time order.asOf),
      ("status", .text (orderStatus order.status)),
      ("risk_policy_version", ofOption .text order.riskPolicyVersion),
      ("setup_id", ofOption .text order.setupId)]
  construct args := do
    let _ ← required args "schema_version"
    let orderId ← asText (← required args "order_id")
    let runId ← asText (← required args "run_id")
    let symbol ← asText (← required args "symbol")
    let side ← asSide (← required args "side")
    let quantity ← asNumber (← required args "quantity")
    let plannedEntry ← asNumber (← required args "planned_entry")
    let stop ← asNumber (← required args "stop")
    let target ← asNumber (← required args "target")
    let contractMultiplier ← orNone asNumber (optional args "contract_multiplier")
    let equityAtSubmission ← orNone asNumber (optional args "equity_at_submission")
    let costRate ← asNumber ((args.lookup "cost_rate").getD (.number 0))
    let asOf ← orNone asTime (optional args "as_of")
    let status ← asOrderStatus ((args.lookup "status").getD (.text "PENDING"))
    let riskPolicyVersion ← orNone asText (optional args "risk_policy_version")
    let setupId ← orNone asText (optional args "setup_id")
    pure ⟨orderId, runId, symbol, side, quantity, plannedEntry, stop, target, contractMultiplier,
      equityAtSubmission, costRate, asOf, status, riskPolicyVersion, setupId⟩

def paperFill : PaperType PaperFill where
  fields := ["schema_version", "fill_id", "order_id", "run_id", "symbol", "side", "quantity",
    "planned_entry", "fill_price", "fill_timestamp"]
  optional := []
  args fill :=
    [("schema_version", .text "1.0"),
      ("fill_id", .text fill.fillId),
      ("order_id", .text fill.orderId),
      ("run_id", .text fill.runId),
      ("symbol", .text fill.symbol),
      ("side", .text (sideText fill.side)),
      ("quantity", .number fill.quantity),
      ("planned_entry", .number fill.plannedEntry),
      ("fill_price", .number fill.fillPrice),
      ("fill_timestamp", .time fill.fillTimestamp)]
  construct args := do
    let _ ← required args "schema_version"
    let fillId ← asText (← required args "fill_id")
    let orderId ← asText (← required args "order_id")
    let runId ← asText (← required args "run_id")
    let symbol ← asText (← required args "symbol")
    let side ← asSide (← required args "side")
    let quantity ← asNumber (← required args "quantity")
    let plannedEntry ← asNumber (← required args "planned_entry")
    let fillPrice ← asNumber (← required args "fill_price")
    let fillTimestamp ← asTime (← required args "fill_timestamp")
    pure ⟨fillId, orderId, runId, symbol, side, quantity, plannedEntry, fillPrice, fillTimestamp⟩

def paperPosition : PaperType PaperPosition where
  fields := ["schema_version", "position_id", "origin_order_id", "run_id", "symbol", "side",
    "quantity", "planned_entry", "entry_price", "stop", "target", "opened_at", "status",
    "last_price", "contract_multiplier", "cost_rate", "last_processed_at", "setup_id",
    "initial_stop", "duration_stage"]
  optional := ["setup_id", "initial_stop", "duration_stage"]
  args position :=
    [("schema_version", .text "1.0"),
      ("position_id", .text position.positionId),
      ("origin_order_id", .text position.originOrderId),
      ("run_id", .text position.runId),
      ("symbol", .text position.symbol),
      ("side", .text (sideText position.side)),
      ("quantity", .number position.quantity),
      ("planned_entry", .number position.plannedEntry),
      ("entry_price", .number position.entryPrice),
      ("stop", .number position.stop),
      ("target", .number position.target),
      ("opened_at", .time position.openedAt),
      ("status", .text (positionStatus position.status)),
      ("last_price", ofOption .number position.lastPrice),
      ("contract_multiplier", ofOption .number position.contractMultiplier),
      ("cost_rate", .number position.costRate),
      ("last_processed_at", ofOption .time position.lastProcessedAt),
      ("setup_id", ofOption .text position.setupId),
      ("initial_stop", ofOption .number position.initialStop),
      ("duration_stage", ofOption .text position.durationStage)]
  construct args := do
    let _ ← required args "schema_version"
    let positionId ← asText (← required args "position_id")
    let originOrderId ← asText (← required args "origin_order_id")
    let runId ← asText (← required args "run_id")
    let symbol ← asText (← required args "symbol")
    let side ← asSide (← required args "side")
    let quantity ← asNumber (← required args "quantity")
    let plannedEntry ← asNumber (← required args "planned_entry")
    let entryPrice ← asNumber (← required args "entry_price")
    let stop ← asNumber (← required args "stop")
    let target ← asNumber (← required args "target")
    let openedAt ← asTime (← required args "opened_at")
    let status ← asPositionStatus ((args.lookup "status").getD (.text "OPEN"))
    let lastPrice ← orNone asNumber (optional args "last_price")
    let contractMultiplier ← orNone asNumber (optional args "contract_multiplier")
    let costRate ← asNumber ((args.lookup "cost_rate").getD (.number 0))
    let lastProcessedAt ← orNone asTime (optional args "last_processed_at")
    let setupId ← orNone asText (optional args "setup_id")
    let initialStop ← orNone asNumber (optional args "initial_stop")
    let durationStage ← orNone asText (optional args "duration_stage")
    pure ⟨positionId, originOrderId, runId, symbol, side, quantity, plannedEntry, entryPrice, stop,
      target, openedAt, status, lastPrice, contractMultiplier, costRate, lastProcessedAt, setupId,
      initialStop, durationStage⟩

def closedTrade : PaperType ClosedTrade where
  fields := ["schema_version", "trade_id", "position_id", "run_id", "symbol", "side", "entry_price",
    "exit_price", "quantity", "gross_pnl", "cost", "net_pnl", "exited_at", "reason"]
  optional := []
  args trade :=
    [("schema_version", .text "1.0"),
      ("trade_id", .text trade.tradeId),
      ("position_id", .text trade.positionId),
      ("run_id", .text trade.runId),
      ("symbol", .text trade.symbol),
      ("side", .text (sideText trade.side)),
      ("entry_price", .number trade.entryPrice),
      ("exit_price", .number trade.exitPrice),
      ("quantity", .number trade.quantity),
      ("gross_pnl", .number trade.grossPnl),
      ("cost", .number trade.cost),
      ("net_pnl", .number trade.netPnl),
      ("exited_at", .time trade.exitedAt),
      ("reason", .text trade.reason)]
  construct args := do
    let _ ← required args "schema_version"
    let tradeId ← asText (← required args "trade_id")
    let positionId ← asText (← required args "position_id")
    let runId ← asText (← required args "run_id")
    let symbol ← asText (← required args "symbol")
    let side ← asSide (← required args "side")
    let entryPrice ← asNumber (← required args "entry_price")
    let exitPrice ← asNumber (← required args "exit_price")
    let quantity ← asNumber (← required args "quantity")
    let grossPnl ← asNumber (← required args "gross_pnl")
    let cost ← asNumber (← required args "cost")
    let netPnl ← asNumber (← required args "net_pnl")
    let exitedAt ← asTime (← required args "exited_at")
    let reason ← asText (← required args "reason")
    pure ⟨tradeId, positionId, runId, symbol, side, entryPrice, exitPrice, quantity, grossPnl,
      cost, netPnl, exitedAt, reason⟩

/-- The state that `save_paper` compares, in texts: each tuple is sorted. -/
structure StateTexts where
  account : Option String
  positions : List String
  trades : List String
  orders : List String
  fills : List String
  deriving DecidableEq

section State

variable (json : Json)

/-- `tuple(sorted(paper_encode(item) for item in items))` -/
def encodedAll {α : Type} (cls : PaperType α) (items : List α) : Except String (List String) := do
  let texts ← items.mapM (paperEncode json cls)
  pure (texts.insertionSort (· ≤ ·))

/-- `… if account else ()` -/
def ofAccount {β : Type} (account : Option PaperAccount) (absent : β)
    (encode : PaperAccount → Except String β) : Except String β :=
  match account with
  | none => pure absent
  | some a => encode a

/-- `Store.paper_state`. -/
def stateTexts (account : Option PaperAccount) (orders : Orders) (fills : Fills) :
    Except String StateTexts := do
  let accountText ← ofAccount account none (fun a => (paperEncode json paperAccount a).map some)
  let positions ← ofAccount account []
    (fun a => encodedAll json paperPosition a.openPositions.rows)
  let trades ← ofAccount account [] (fun a => encodedAll json closedTrade a.closedTrades)
  let orders ← encodedAll json paperOrder orders.rows
  let fills ← encodedAll json paperFill fills.rows
  pure ⟨accountText, positions, trades, orders, fills⟩

end State

end MarketSystem.Codec
