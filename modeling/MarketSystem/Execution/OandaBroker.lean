import MarketSystem.Execution.RouterEntry
import MarketSystem.Library.PyJson
import Mathlib.Logic.Function.Basic

/-!
# The OANDA adapter

A submission is checked, then the broker is read, then the order is posted. The id of
a submission whose outcome is not known stays latched, and a latched id is only looked
up. Every answer of the broker is given: the replies to the reads, and what each
attempt of the POST came back with.

The digits of the ids, the digest of a long id and the decimals of a text are those of
the language.
-/
namespace MarketSystem.OandaBroker

open Library RrContract RouterEntry
open EurusdPullback (geometryOk)

/-- A decoded answer. Its numbers with a fraction are decimals. -/
abbrev Payload := PyJson ℚ

/-- What the language has for texts. -/
structure Python where
  sha256hex : String → String
  isDecimal : ℕ → Bool
  /-- `Decimal(text)`, when it is finite. -/
  decimal : Text → Option ℚ

/-! ## The client -/

inductive BrokerError
  | auth
  | rateLimited
  | timeout
  | unavailable
  | rejected (status : ℕ) (code : Option Text)
  | malformed
  | guard
  /-- Any exception that is no `BrokerError`. -/
  | other (name : String)
  deriving DecidableEq

/-- `type(error).__name__`. -/
def BrokerError.name : BrokerError → String
  | auth => "BrokerAuthError"
  | rateLimited => "BrokerRateLimited"
  | timeout => "BrokerTimeout"
  | unavailable => "BrokerUnavailable"
  | rejected _ _ => "BrokerRejected"
  | malformed => "BrokerMalformedResponse"
  | guard => "BrokerGuardError"
  | other name => name

/-- The reply to a request, after its retries. -/
abbrev Reply := Except BrokerError Payload

/-- The text without one line feed at its end, which `$` in a pattern lets pass. -/
def body (t : Text) : Text := if t.getLast? = some 10 then t.dropLast else t

def isCodeChar (c : ℕ) : Bool := (65 ≤ c && c ≤ 90) || (48 ≤ c && c ≤ 57) || c == 95

/-- `reason_code`, without its default. -/
def reasonCode : Payload → Option Text
  | .str t =>
      if 1 ≤ (body t).length ∧ (body t).length ≤ 64 ∧ (body t).all isCodeChar = true then some t
      else none
  | _ => none

/-- The fields of an answer that is an object. -/
def dict? : Payload → Option (PyJson.Dict ℚ)
  | .obj fields => some fields
  | _ => none

/-- `key in payload`. -/
def has (fields : PyJson.Dict ℚ) (key : String) : Bool := (fields.lookup (text key)).isSome

/-- The code of a rejection. -/
def rejectionCode (payload : Option Payload) : Option Text :=
  match payload.bind dict? with
  | none => none
  | some fields =>
      match PyJson.get fields "errorCode", dict? (PyJson.get fields "orderRejectTransaction") with
      | .null, some reject => reasonCode (PyJson.get reject "rejectReason")
      | raw, _ => reasonCode raw

/-- `_decode`; an answer that cannot be parsed has no payload. -/
def decode (status : ℕ) (payload : Option Payload) : Reply :=
  if 200 ≤ status ∧ status < 300 then
    match payload with
    | none => .error .unavailable
    | some payload => .ok payload
  else if 300 ≤ status ∧ status < 400 then .error .unavailable
  else if status = 401 ∨ status = 403 then .error .auth
  else if 500 ≤ status then .error .unavailable
  else .error (.rejected status (rejectionCode payload))

/-- What a transport attempt comes back with. -/
inductive Transport
  | answer (status : ℕ) (payload : Option Payload)
  | timeout
  | failure
  | raised (name : String)

/-- An attempt of a trading request: the guard right before it, and the transport. -/
structure Attempt where
  guard : Except BrokerError Unit
  transport : Transport

/-- `_call` of a trading request: how often it was sent, and the reply. Only a 429 is
sent again. -/
def callTrading (attempts : ℕ → Attempt) : ℕ → ℕ → ℕ × Reply
  | retries, i =>
      match (attempts i).guard with
      | .error e => (0, .error e)
      | .ok _ =>
          match (attempts i).transport with
          | .timeout => (1, .error .timeout)
          | .failure => (1, .error .unavailable)
          | .raised name => (1, .error (.other name))
          | .answer status payload =>
              if status = 429 then
                match retries with
                | 0 => (1, .error .rateLimited)
                | retries + 1 =>
                    ((callTrading attempts retries (i + 1)).1 + 1,
                      (callTrading attempts retries (i + 1)).2)
              else (1, decode status payload)

/-! ## Reading answers -/

section Reading

variable (py : Python)

/-- `_dec`. -/
def dec : Payload → Option ℚ
  | .int n => some n
  | .float q => some q
  | .str t => py.decimal t
  | _ => none

/-- `_TRADE_ID_RE`. -/
def isTradeId (t : Text) : Bool :=
  decide (1 ≤ (body t).length ∧ (body t).length ≤ 20) && (body t).all py.isDecimal

/-- A text that is a trade id. -/
def tradeId? : Payload → Option Text
  | .str t => if isTradeId py t then some t else none
  | _ => none

structure OpenTrade where
  tradeId : Text
  instrument : Text
  units : ℚ
  price : ℚ
  clientExtId : Option Text
  stop : Option ℚ
  target : Option ℚ

def OpenTrade.side (t : OpenTrade) : Side := if 0 < t.units then .long else .short

/-- `_optional_price`. -/
def optionalPrice (item : PyJson.Dict ℚ) (key : String) : Except BrokerError (Option ℚ) :=
  match PyJson.get item key with
  | .null => .ok none
  | order =>
      match (dict? order).bind (fun fields => dec py (PyJson.get fields "price")) with
      | none => .error .malformed
      | some price => if price ≤ 0 then .error .malformed else .ok (some price)

/-- A text; not empty. -/
def nonEmpty? : Payload → Option Text
  | .str t => if t = [] then none else some t
  | _ => none

/-- The id of the client extensions. -/
def extensionId (item : PyJson.Dict ℚ) : Option Text :=
  match dict? (PyJson.get item "clientExtensions") with
  | none => none
  | some extensions =>
      match PyJson.get extensions "id" with
      | .str t => some t
      | _ => none

/-- `_parse_trade`. -/
def parseTrade (item : Payload) : Except BrokerError OpenTrade :=
  match dict? item with
  | none => .error .malformed
  | some item =>
      match tradeId? py (PyJson.get item "id"), nonEmpty? (PyJson.get item "instrument"),
          dec py (PyJson.get item "currentUnits"), dec py (PyJson.get item "price") with
      | some tradeId, some instrument, some units, some price =>
          if units = 0 ∨ units.den ≠ 1 ∨ price ≤ 0 then .error .malformed
          else do
            let stop ← optionalPrice py item "stopLossOrder"
            let target ← optionalPrice py item "takeProfitOrder"
            pure ⟨tradeId, instrument, units, price, extensionId item, stop, target⟩
      | _, _, _, _ => .error .malformed

/-- The items of a list under a key of an object. -/
def listOf (payload : Payload) (key : String) : Except BrokerError (List Payload) :=
  match (dict? payload).map (fun fields => PyJson.get fields key) with
  | some (.arr items) => .ok items
  | _ => .error .malformed

/-- `_trades`. -/
def trades (payload : Payload) : Except BrokerError (List OpenTrade) := do
  let items ← listOf payload "trades"
  items.mapM (parseTrade py)

/-- The price of the first level. -/
def best (item : PyJson.Dict ℚ) (key : String) : Option ℚ :=
  match PyJson.get item key with
  | .arr (.obj level :: _) => dec py (PyJson.get level "price")
  | _ => none

/-- `_quote`: tradeable, bid and ask. -/
def quote (payload : Payload) (instrument : Text) : Except BrokerError (Bool × ℚ × ℚ) := do
  let prices ← listOf payload "prices"
  let named := (prices.filterMap dict?).find? (fun item =>
    match PyJson.get item "instrument" with
    | .str t => decide (t = instrument)
    | _ => false)
  match named with
  | none => .error .malformed
  | some item =>
      match best py item "bids", best py item "asks", PyJson.get item "tradeable" with
      | some bid, some ask, .bool tradeable =>
          if bid ≤ 0 ∨ ask < bid then .error .malformed else .ok (tradeable, bid, ask)
      | _, _, _ => .error .malformed

/-- `_transaction_id`. -/
def transactionId (transaction : Payload) : Option Text :=
  (dict? transaction).bind (fun fields => nonEmpty? (PyJson.get fields "id"))

/-- `_reject_code`: the first of the fields that is a text. -/
def rejectCode (transaction : Payload) (fields : List String) : Option Text :=
  match dict? transaction, transactionId transaction with
  | some data, some _ =>
      (fields.findSome? (fun f => nonEmpty? (PyJson.get data f))).map (fun reason =>
        (reasonCode (.str reason)).getD (text "UNRECOGNIZED_REASON"))
  | _, _ => none

end Reading

/-! ## Submitting -/

inductive Status
  | accepted
  | resting
  | rejected
  | unknown
  deriving DecidableEq, Repr

/-- `SubmitResult` and `LimitResult`. -/
structure Result where
  status : Status
  clientId : String
  brokerRef : Option Text := none
  reason : Option Text := none
  deriving DecidableEq

/-- `IN_FLIGHT` and `OUTCOME_UNKNOWN`. -/
inductive Latch
  | inFlight
  | outcomeUnknown
  deriving DecidableEq, Repr

/-- `_unresolved`, by client extension id. -/
abbrev Unresolved := String → Option Latch

/-- What the instance was made with. -/
structure Broker where
  closeOnly : Bool
  emergencyStop : Bool
  allowScaleIn : Bool
  /-- `max_429_retries`. -/
  max429 : ℕ

inductive OrderKind
  | market
  | limit (price : ℚ) (gtdTime : String)

/-- A posted order. -/
structure Order where
  kind : OrderKind
  units : ℤ
  stop : ℚ
  target : ℚ
  clientExtId : String

/-- What is submitted. The price of a limit may be no finite number. -/
inductive Request
  | market
  | limit (price : Option ℚ) (gtdTime : String)
  /-- A limit whose price is no decimal or whose time is no text. -/
  | limitInvalid

/-- One call, with the answers it gets. -/
structure Call where
  plan : OrderPlan
  approval : Option RiskApproval
  request : Request
  /-- The registry before the reads: an emergency is active, and the mode is allowed. -/
  emergencyActive : Bool
  isAllowed : Bool
  /-- The reply to the lookup of the client id. -/
  lookup : Reply
  openTrades : Reply
  pricing : Reply
  attempts : ℕ → Attempt
  /-- The reply to the lookup after an ambiguous POST. -/
  lookupAfter : Reply

def isSafeChar (c : Char) : Bool :=
  c.isAlphanum || c == '_' || c == '.' || c == '-'

/-- `_SAFE_ID_RE`. -/
def isSafeId (id : String) : Bool :=
  let body := if id.toList.getLast? = some '\n' then id.toList.dropLast else id.toList
  decide (1 ≤ body.length ∧ body.length ≤ 128) && body.all isSafeChar

/-- `client_extension_id`. -/
def clientExtensionId (py : Python) (clientId : String) : String :=
  if isSafeId clientId then clientId
  else "aif-" ++ String.ofList ((py.sha256hex clientId).toList.take 32)

def TRADE_NOT_FOUND_CODES : List Text := [text "TRADE_DOES_NOT_EXIST", text "NO_SUCH_TRADE"]

/-- `round_price`, which raises when more digits are needed than a decimal has. -/
def roundPrice (price : ℚ) : Except BrokerError ℚ :=
  match EurusdPullback.roundPrice price with
  | none => .error (.other "ValueError")
  | some rounded => if rounded < 10 ^ 23 then .ok rounded else .error (.other "InvalidOperation")

/-- Why a plan is refused before anything is read. -/
def problem (plan : OrderPlan) (approval : Option RiskApproval) : Option String :=
  match approval with
  | none => some "risk_approval_missing"
  | some approval =>
      match approvalProblem plan approval with
      | some problem => some problem
      | none =>
          if plan.symbol ∉ ALLOWED_SYMBOLS then some "symbol_not_supported"
          else if geometryOk plan.side plan.plannedEntry plan.stop plan.target = false then
            some "invalid_plan_geometry"
          else if plan.quantity.den ≠ 1 then some "quantity_not_integer"
          else none

/-- Entry, stop and target, rounded. -/
def roundedPrices (plan : OrderPlan) : Except BrokerError (ℚ × ℚ × ℚ) := do
  let entry ← roundPrice plan.plannedEntry
  let stop ← roundPrice plan.stop
  let target ← roundPrice plan.target
  pure (entry, stop, target)

/-- `_ensure_open_allowed`. -/
def ensureOpenAllowed (b : Broker) (emergencyActive isAllowed : Bool) : Except BrokerError Unit :=
  if b.closeOnly || b.emergencyStop || emergencyActive || !isAllowed then .error .guard else .ok ()

section Adapter

variable (py : Python) (b : Broker)

/-- `_trade_by_client_id`. -/
def tradeByClientId (reply : Reply) : Except BrokerError (Option Text) :=
  match reply with
  | .error (.rejected status code) =>
      if status = 404 ∧ ∃ c ∈ TRADE_NOT_FOUND_CODES, code = some c then .ok none
      else .error (.rejected status code)
  | .error e => .error e
  | .ok payload =>
      match ((dict? payload).bind (fun fields => dict? (PyJson.get fields "trade"))).bind
          (fun trade => tradeId? py (PyJson.get trade "id")) with
      | some tradeId => .ok (some tradeId)
      | none => .error .malformed

/-- The gate's answer when the order may not be sent. -/
inductive Verdict
  | already (tradeId : Text)
  | refuse (reason : String)

/-- `_pre_submit_gate`: `none` when the order may be sent. -/
def preSubmitGate (c : Call) (extId : String) : Except BrokerError (Option Verdict) := do
  match ← tradeByClientId py c.lookup with
  | some existing => pure (some (.already existing))
  | none =>
      let trades ← trades py (← c.openTrades)
      match trades.find? (fun t => decide (t.clientExtId = some (text extId))) with
      | some trade => pure (some (.already trade.tradeId))
      | none =>
          let same := trades.filter (fun t => decide (t.instrument = text "EUR_USD"))
          if same.any (fun t => decide (t.side ≠ c.plan.side)) then
            pure (some (.refuse "would_hedge_or_net"))
          else if same ≠ [] ∧ b.allowScaleIn = false then
            pure (some (.refuse "position_already_open"))
          else
            let pricing ← c.pricing
            match quote py pricing (text "EUR_USD") with
            | .error _ => pure (some (.refuse "pricing_malformed"))
            | .ok (tradeable, _, _) =>
                if tradeable then pure none else pure (some (.refuse "instrument_not_tradeable"))

/-- The order of a call, when it can be built. -/
def buildOrder (c : Call) (stop target : ℚ) : Except BrokerError Order :=
  let units := match c.plan.side with
    | .long => c.plan.quantity.num
    | .short => -c.plan.quantity.num
  let order kind := Order.mk kind units stop target (clientExtensionId py c.plan.clientId)
  match c.request with
  | .market => .ok (order .market)
  | .limit price gtdTime =>
      if ¬('T' ∈ gtdTime.toList ∧ gtdTime.toList.getLast? = some 'Z') then
        .error (.other "ValueError")
      else
        match price with
        | none => .error (.other "ValueError")
        | some price => do
            let price ← roundPrice price
            pure (order (.limit price gtdTime))
  | .limitInvalid => .error (.other "TypeError")

/-- The evidence of a fill: the id of the opened trade. -/
def openedTrade (fill : Payload) : Option Text :=
  match transactionId fill, (dict? fill).bind (fun f => dict? (PyJson.get f "tradeOpened")) with
  | some _, some opened => tradeId? py (PyJson.get opened "tradeID")
  | _, _ => none

/-- What both mappers make of an answer with a fill, a cancellation or a rejection. -/
def mapFilled (clientId : String) (fields : PyJson.Dict ℚ) : Option Result :=
  let unknown reason : Result := ⟨.unknown, clientId, none, some (text reason)⟩
  let refused key names : Result :=
    match rejectCode (PyJson.get fields key) names with
    | none => unknown "malformed_reject_evidence"
    | some code => ⟨.rejected, clientId, none, some code⟩
  if has fields "orderFillTransaction" then
    match openedTrade py (PyJson.get fields "orderFillTransaction") with
    | some tradeId => some ⟨.accepted, clientId, some tradeId, none⟩
    | none => some (unknown "malformed_fill_evidence")
  else if has fields "orderCancelTransaction" then
    some (refused "orderCancelTransaction" ["reason"])
  else if has fields "orderRejectTransaction" then
    some (refused "orderRejectTransaction" ["rejectReason", "reason"])
  else none

/-- `_map_submit`. -/
def mapSubmit (clientId : String) (payload : Payload) : Result :=
  let unknown reason : Result := ⟨.unknown, clientId, none, some (text reason)⟩
  match dict? payload with
  | none => unknown "no_acceptance_evidence"
  | some fields =>
      match mapFilled py clientId fields with
      | some result => result
      | none =>
          if (dict? (PyJson.get fields "orderCreateTransaction")).isSome then
            unknown "no_fill_evidence"
          else unknown "no_acceptance_evidence"

/-- `_map_limit`: an order that rests is known. -/
def mapLimit (clientId : String) (payload : Payload) : Result :=
  let unknown reason : Result := ⟨.unknown, clientId, none, some (text reason)⟩
  match dict? payload with
  | none => unknown "no_acceptance_evidence"
  | some fields =>
      match mapFilled py clientId fields with
      | some result => result
      | none =>
          match dict? (PyJson.get fields "orderCreateTransaction") with
          | none => unknown "no_acceptance_evidence"
          | some created =>
              match PyJson.get created "type" with
              | .str type =>
                  if type = text "LIMIT_ORDER" then
                    match tradeId? py (PyJson.get created "id") with
                    | some orderId => ⟨.resting, clientId, some orderId, none⟩
                    | none => unknown "malformed_limit_evidence"
                  else unknown "no_acceptance_evidence"
              | _ => unknown "no_acceptance_evidence"

/-- `_reconcile_submit`: one read after an ambiguous POST. -/
def reconcileSubmit (c : Call) (errorName : String) : Except BrokerError Result :=
  let unknown reason : Result :=
    ⟨.unknown, c.plan.clientId, none, some (text (errorName ++ reason))⟩
  match tradeByClientId py c.lookupAfter with
  | .error (.other name) => .error (.other name)
  | .error _ => .ok (unknown ":reconcile_failed")
  | .ok none => .ok (unknown ":not_found_unproven")
  | .ok (some tradeId) =>
      .ok ⟨.accepted, c.plan.clientId, some tradeId, some (text "reconciled_after_timeout")⟩

/-- What a call does: its result, the orders it posted, and the latches after it. -/
structure Outcome where
  result : Except BrokerError Result
  posted : List Order
  unresolved : Unresolved

/-- What the reply to a POST says of the order. -/
def interpret (c : Call) : Reply → Except BrokerError Result
  | .ok payload =>
      match c.request with
      | .market => .ok (mapSubmit py c.plan.clientId payload)
      | _ => .ok (mapLimit py c.plan.clientId payload)
  | .error (.rejected status code) =>
      .ok ⟨.rejected, c.plan.clientId, none,
        some (code.getD (text ("broker_rejected:" ++ toString status)))⟩
  | .error .timeout => reconcileSubmit py c BrokerError.timeout.name
  | .error .unavailable => reconcileSubmit py c BrokerError.unavailable.name
  | .error e => .error e

/-- The latch after a POST: it stays when the order may exist. -/
def latchAfter : Except BrokerError Result → Option Latch
  | .ok result => if result.status = .unknown then some .outcomeUnknown else none
  | .error .guard => none
  | .error .auth => none
  | .error .rateLimited => none
  | .error _ => some .inFlight

/-- The POST. -/
def send (u : Unresolved) (c : Call) (order : Order) : Outcome :=
  let reply := callTrading c.attempts b.max429 0
  let result := interpret py c reply.2
  ⟨result, List.replicate reply.1 order,
    Function.update u (clientExtensionId py c.plan.clientId) (latchAfter result)⟩

/-- `_resolve_previous`: a latched id is looked up, and nothing is sent. -/
def resolvePrevious (u : Unresolved) (c : Call) : Outcome :=
  let clientId := c.plan.clientId
  let unknown : Result := ⟨.unknown, clientId, none, some (text "previous_submission_unresolved")⟩
  match tradeByClientId py c.lookup with
  | .ok (some tradeId) =>
      ⟨.ok ⟨.accepted, clientId, some tradeId, some (text "already_submitted")⟩, [],
        Function.update u (clientExtensionId py clientId) none⟩
  | .ok none => ⟨.ok unknown, [], u⟩
  | .error .auth => ⟨.error .auth, [], u⟩
  | .error .rateLimited => ⟨.error .rateLimited, [], u⟩
  | .error (.other name) => ⟨.error (.other name), [], u⟩
  | .error _ => ⟨.ok unknown, [], u⟩

/-- The part of a submission after its checks. -/
def submitChecked (u : Unresolved) (c : Call) (stop target : ℚ) : Outcome :=
  let clientId := c.plan.clientId
  let refused reason : Outcome := ⟨.ok ⟨.rejected, clientId, none, some (text reason)⟩, [], u⟩
  let extId := clientExtensionId py clientId
  if (u extId).isSome then resolvePrevious py u c
  else
    match preSubmitGate py b c extId with
    | .error .auth => ⟨.error .auth, [], u⟩
    | .error .rateLimited => ⟨.error .rateLimited, [], u⟩
    | .error (.other name) => ⟨.error (.other name), [], u⟩
    | .error e => refused ("pre_submit_check_failed:" ++ e.name)
    | .ok (some (.already tradeId)) =>
        ⟨.ok ⟨.accepted, clientId, some tradeId, some (text "already_submitted")⟩, [], u⟩
    | .ok (some (.refuse reason)) => refused reason
    | .ok none =>
        match buildOrder py c stop target with
        | .error e => ⟨.error e, [], u⟩
        | .ok order => send py b u c order

/-- `_submit_plan`. -/
def submitPlan (u : Unresolved) (c : Call) : Outcome :=
  let refused reason : Outcome :=
    ⟨.ok ⟨.rejected, c.plan.clientId, none, some (text reason)⟩, [], u⟩
  match problem c.plan c.approval with
  | some reason => refused reason
  | none =>
      match roundedPrices c.plan with
      | .error e => ⟨.error e, [], u⟩
      | .ok (entry, stop, target) =>
          if geometryOk c.plan.side entry stop target = false then
            refused "price_rounding_breaks_geometry"
          else
            match ensureOpenAllowed b c.emergencyActive c.isAllowed with
            | .error e => ⟨.error e, [], u⟩
            | .ok _ => submitChecked py b u c stop target

/-- `submit_plan` and `submit_limit`. -/
def submit (u : Unresolved) (c : Call) : Outcome :=
  if b.closeOnly then ⟨.error .guard, [], u⟩
  else
    match c.request with
    | .limitInvalid =>
        ⟨.ok ⟨.rejected, c.plan.clientId, none, some (text "limit_invalid")⟩, [], u⟩
    | _ => submitPlan py b u c

end Adapter

end MarketSystem.OandaBroker
