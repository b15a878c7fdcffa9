import MarketSystem.Execution.RouterRequests
import MarketSystem.Library.OwnedPool
import Mathlib.Data.List.Sort

/-!
# The manual close and its outbox

The dashboard stores one request to close a trade. Each tick the router takes it up under its
lock: the trade is closed by the router's own close, and the request is consumed in one
transaction with the event of its completion and, for some kinds, a row of the alert outbox.
The outbox is drained at the begin of the tick and after a completion.

Each transaction, each call to the broker and each alert is one action. An exception that leaves
the request for a later tick has the effect of a crash at that point, except where the source
goes on: at a claim, a delivery and its record, and an event that is not written. Events of
other kinds are left to the environment. What was sent to the broker and what was handed to
`on_alert` are recorded.
-/
namespace MarketSystem.OperatorRequests

open Library RouterState RouterRequests

def MANUAL_CLOSE : String := "MANUAL_CLOSE"
def MANUAL_CLOSE_REQUESTED : String := "MANUAL_CLOSE_REQUESTED"
def MANUAL_CLOSE_REFUSED : String := "MANUAL_CLOSE_REFUSED"
def MANUAL_CLOSE_NOT_OPEN : String := "MANUAL_CLOSE_NOT_OPEN"
def MANUAL_CLOSE_DRY_RUN : String := "MANUAL_CLOSE_DRY_RUN"
def MANUAL_CLOSE_FAILED : String := "MANUAL_CLOSE_FAILED"
def MANUAL_CLOSE_PENDING : String := "MANUAL_CLOSE_PENDING"
def SOURCE : String := "dashboard"
def DEMO_SYMBOL : String := "EURUSD"
def MAX_REASON : ℕ := 120
def MAX_ACTOR : ℕ := 64
def MAX_REQUEST_ID : ℕ := 64

def ALERT_KINDS : List String :=
  ["ACCEPTED", "REJECTED", "UNKNOWN", "CLOSED", "CLOSE_UNKNOWN", "CLOSE_FAILED",
    "CLOSED_AT_BROKER", "BREAKEVEN", "DRIFT", "UNRESOLVED_ACTION", "DAILY_LOSS_HALT",
    "DAILY_LOSS_RESUMED", "DRAWDOWN_HALT", "FLATTEN_DAILY_LOSS", "FLATTEN_DRAWDOWN",
    "EMERGENCY_BUTTON", "FLATTEN_REQUEST_DONE", "DRIFT_CLEARED", "DRIFT_CLEAR_REFUSED",
    MANUAL_CLOSE, MANUAL_CLOSE_FAILED, "FILL_ANCHOR_REFUSED", "FILL_OUT_OF_POLICY",
    "LIMIT_PENDING", "LIMIT_EXPIRED", "LIMIT_CANCELLED", "PARTIAL_CLOSE", "TRAIL"]

/-- The kinds that `_complete_manual` is called with. -/
def COMPLETIONS : List String :=
  [MANUAL_CLOSE, MANUAL_CLOSE_NOT_OPEN, MANUAL_CLOSE_REFUSED, MANUAL_CLOSE_DRY_RUN,
    MANUAL_CLOSE_FAILED]

/-- The text of a status. -/
def statusText : Status → String
  | .pendingSend => "PENDING_SEND"
  | .open => "OPEN"
  | .unknown => "UNKNOWN"
  | .rejected => "REJECTED"
  | .closed => "CLOSED"
  | .closedAtBroker => "CLOSED_AT_BROKER"
  | .dryRun => "DRY_RUN"
  | .pendingLimit => "PENDING_LIMIT"
  | .cancelled => "CANCELLED"

/-! ## The store -/

/-- The fields of a request that are read back. -/
structure Request where
  clientId : String
  tradeId : Option String
  requestId : Option String
  actor : Option String
  reason : Option String
  ts : Option String
  deriving DecidableEq

/-- The text of the flag as `json.loads` reads it: a dictionary with a text as its `client_id`,
or anything else. -/
inductive Raw
  | request (r : Request)
  | malformed (text : String)
  deriving DecidableEq

abbrev Detail := List (String × Option String)

/-- A row of `broker_demo_events`; its id is its position, from one. -/
structure Event where
  kind : String
  clientId : Option String
  detail : Detail
  deriving DecidableEq

inductive AlertStatus
  | pending
  | claimed
  | sent
  | failed
  | unknown
  deriving DecidableEq

/-- A row of `broker_demo_outbox`. -/
structure Alert where
  eventId : ℕ
  kind : String
  detail : Detail
  status : AlertStatus := .pending
  attemptedAt : Option Instant := none
  deriving DecidableEq

structure Desk where
  world : World
  /-- `manual_close_request`, when it holds a text that is not empty. -/
  manual : Option Raw := none
  events : List Event := []
  outbox : Table Alert.eventId := .empty
  /-- For each close that was sent, the row that the store held under its client id. -/
  sent : List (Option Row) := []
  /-- The events whose alerts were handed to `on_alert`. -/
  handed : List ℕ := []

def Desk.setWorld (w : World) (s : Desk) : Desk := { s with world := w }

/-- The router's work on its rows, the other flags and the book. -/
def onWorld {α : Type} (p : Program World α) : Program Desk α := p.zoom Desk.world Desk.setWorld

/-- `set_flag_if_absent` -/
def setFlagIfAbsent (raw : Raw) (event : Event) (s : Desk) : Bool × Desk :=
  match s.manual with
  | none => (true, { s with manual := some raw, events := s.events ++ [event] })
  | some _ => (false, s)

/-- `consume_flag`. An outbox row whose key is taken rolls the transaction back. -/
def consumeFlag (raw : Raw) (event : Event) (alerts : Bool) (s : Desk) : Desk :=
  if s.manual = some raw then
    let consumed := { s with manual := none, events := s.events ++ [event] }
    if alerts then
      match s.outbox.insert? ⟨s.events.length + 1, event.kind, event.detail, .pending, none⟩ with
      | some outbox => { consumed with outbox := outbox }
      | none => s
    else consumed
  else s

/-- An alert in the transaction of `claim_outbox`. -/
def Alert.claim (now staleBefore : Instant) (a : Alert) : Alert :=
  match a.status with
  | .claimed =>
      match a.attemptedAt with
      | some attempt => if attempt < staleBefore then { a with status := .unknown } else a
      | none => a
  | .pending => { a with status := .claimed, attemptedAt := some now }
  | _ => a

theorem Alert.claim_eventId (now staleBefore : Instant) (a : Alert) :
    (a.claim now staleBefore).eventId = a.eventId := by
  unfold Alert.claim
  split
  · split
    · split_ifs <;> rfl
    · rfl
  · rfl
  · rfl

/-- `claim_outbox`: the alerts that this call has claimed. -/
def claimOutbox (now staleBefore : Instant) (s : Desk) : List Alert × Desk :=
  (s.outbox.rows.filter (fun a => decide (a.status = .pending)),
    { s with
      outbox := s.outbox.modify (Alert.claim now staleBefore)
        (Alert.claim_eventId now staleBefore) })

/-- An alert in the statement of `finish_outbox`. -/
def Alert.finish (eventId : ℕ) (status : AlertStatus) (a : Alert) : Alert :=
  if a.eventId = eventId ∧ a.status = .claimed then { a with status := status } else a

theorem Alert.finish_eventId (eventId : ℕ) (status : AlertStatus) (a : Alert) :
    (a.finish eventId status).eventId = a.eventId := by
  unfold Alert.finish
  split_ifs <;> rfl

/-- `finish_outbox` -/
def finishOutbox (eventId : ℕ) (status : AlertStatus) (s : Desk) : Desk :=
  { s with
    outbox := s.outbox.modify (Alert.finish eventId status)
      (Alert.finish_eventId eventId status) }

/-! ## The click -/

/-- `_text`, of a text. -/
def text (value : String) (limit : ℕ) : String := String.ofList (value.toList.take limit)

/-- The newest row first. -/
def Newer (r r' : Row) : Prop :=
  r'.createdAt < r.createdAt ∨ r.createdAt = r'.createdAt ∧ r'.clientId ≤ r.clientId

instance : DecidableRel Newer := fun r r' =>
  inferInstanceAs (Decidable (r'.createdAt < r.createdAt ∨
    r.createdAt = r'.createdAt ∧ r'.clientId ≤ r.clientId))

/-- `manual_close_target`: the newest open trade of the router. The symbol of a row, which
nothing updates, is given by its client id. -/
def manualCloseTarget (symbol : String → String) (s : World) : Option Row :=
  ((s.trades [.open]).filter (fun r => decide (symbol r.clientId = DEMO_SYMBOL))
    |>.insertionSort Newer).find? (fun r =>
      "aif-".toList.isPrefixOf r.clientId.toList && stored r.tradeId)

/-- What a click is called with, and what it reads from its environment. -/
structure Click where
  actor : String
  reason : String
  clientId : String
  requestId : String
  /-- `practice_problem` -/
  problem : Option String
  ts : String

/-- The request that a click stores. -/
def Click.request (c : Click) (target : Row) : Request where
  clientId := c.clientId
  tradeId := target.tradeId
  requestId := some (text c.requestId MAX_REQUEST_ID)
  actor := some (if text c.actor MAX_ACTOR = "" then SOURCE else text c.actor MAX_ACTOR)
  reason := some (text c.reason MAX_REASON)
  ts := some c.ts

/-- The event that is written with it. -/
def Click.event (c : Click) (target : Row) : Event where
  kind := MANUAL_CLOSE_REQUESTED
  clientId := some c.clientId
  detail :=
    [("actor", (c.request target).actor), ("reason", some MANUAL_CLOSE),
      ("note", (c.request target).reason), ("source", some SOURCE),
      ("request_id", (c.request target).requestId), ("trade_id", target.tradeId)]

/-- The answer when a request is pending already. -/
def alreadyPending (requestId : String) (pending : Option Raw) : Bool × String :=
  match pending with
  | some (.request r) =>
      if r.requestId = some requestId then (true, "duplicate") else (false, "already_pending")
  | _ => (false, "already_pending")

/-- `request_manual_close` -/
def requestManualClose (symbol : String → String) (c : Click) : Program Desk (Bool × String) :=
  match c.problem with
  | some problem => pure (false, problem)
  | none =>
      if text c.requestId MAX_REQUEST_ID = "" ∨ c.clientId = "" then pure (false, "bad_request")
      else do
        let target ← Program.read (fun s => manualCloseTarget symbol s.world)
        match target with
        | none => pure (false, "no_open_trade")
        | some target =>
            if target.clientId ≠ c.clientId then pure (false, "no_open_trade")
            else if target.Latched then pure (false, "action_unresolved")
            else do
              let stored ← Program.call
                (setFlagIfAbsent (.request (c.request target)) (c.event target))
              if stored then pure (true, "requested")
              else do
                let pending ← Program.read Desk.manual
                pure (alreadyPending (text c.requestId MAX_REQUEST_ID) pending)

/-! ## The drain -/

/-- `OUTBOX_CLAIM_GRACE` -/
def OUTBOX_CLAIM_GRACE : Instant := 10 * 60 * 1000000

/-- What a drain meets: the time, and which of its steps raise. -/
structure Drain where
  now : Instant
  claimFails : Bool := false
  handFails : ℕ → Bool := fun _ => false
  finishFails : ℕ → Bool := fun _ => false

/-- One alert: handed over, and then recorded. -/
def handAlert (d : Drain) (eventId : ℕ) : Program Desk Unit := do
  Program.call (fun s => ((), { s with handed := s.handed ++ [eventId] }))
  if d.finishFails eventId then pure ()
  else Program.call (fun s =>
    ((), finishOutbox eventId (if d.handFails eventId then .failed else .sent) s))

def handAlerts (d : Drain) : List Alert → Program Desk Unit
  | [] => pure ()
  | a :: rest => do
      handAlert d a.eventId
      handAlerts d rest

/-- `_drain_outbox` -/
def drainOutbox (onAlert : Bool) (d : Drain) : Program Desk Unit :=
  if onAlert = false ∨ d.claimFails then pure ()
  else do
    let claimed ← Program.call (claimOutbox d.now (d.now - OUTBOX_CLAIM_GRACE))
    handAlerts d claimed

/-! ## The router -/

/-- What a tick meets. -/
structure Tick where
  broker : Broker
  settings : Settings
  /-- The identity of a drift episode that begins here. -/
  episode : String
  /-- `on_alert` is set. -/
  onAlert : Bool
  before : Drain
  after : Drain
  /-- The pending event is written: the cap is not reached and the write does not fail. -/
  noted : Bool

section Router

variable (ext : String → String) (t : Tick)

/-- `_complete_manual` -/
def completeManual (raw : Raw) (kind : String) (clientId : Option String) (detail : Detail) :
    Program Desk Unit := do
  Program.call (fun s => ((),
    consumeFlag raw ⟨kind, clientId, detail⟩ (t.onAlert && decide (kind ∈ ALERT_KINDS)) s))
  drainOutbox t.onAlert t.after

/-- `_event`, for a request that stays. -/
def notePending (clientId : String) (detail : Detail) : Program Desk Unit :=
  if t.noted then
    Program.call (fun s => ((),
      { s with events := s.events ++ [⟨MANUAL_CLOSE_PENDING, some clientId, detail⟩] }))
  else pure ()

/-- A close of the request: its call to the broker records the row that is stored. -/
def closeManual (row : Row) : Program Desk String :=
  match onWorld (close t.broker row MANUAL_CLOSE) with
  | .pure outcome => .pure outcome
  | .act step next =>
      .act (fun s => { step s with sent := s.sent ++ [s.world.rows.get? row.clientId] }) next

/-- The part of every event's detail that names the request. -/
def Request.detail (r : Request) : Detail := [("request_id", r.requestId), ("actor", r.actor)]

/-- The request, once the trades are read. -/
def closeRequested (r : Request) : Program Desk (List (String × String)) := do
  let complete := fun kind detail =>
    completeManual t (.request r) kind (some r.clientId) (detail ++ r.detail)
  let row ← Program.read (fun s => s.world.rows.get? r.clientId)
  match row with
  | none => do
      complete MANUAL_CLOSE_NOT_OPEN [("status", none)]
      pure []
  | some row =>
      if row.status ≠ .open then do
        if row.closedReason = some MANUAL_CLOSE then
          complete MANUAL_CLOSE [("trade_id", row.tradeId), ("reason", some MANUAL_CLOSE),
            ("outcome", some (statusText row.status))]
        else complete MANUAL_CLOSE_NOT_OPEN [("status", some (statusText row.status))]
        pure []
      else if r.tradeId ≠ none ∧ r.tradeId ≠ row.tradeId then do
        complete MANUAL_CLOSE_REFUSED [("reason", some "trade_mismatch")]
        pure []
      else if row.Latched then do
        notePending t r.clientId (("reason", some "action_unresolved") :: r.detail)
        pure [(r.clientId, "ACTION_UNRESOLVED")]
      else if t.settings.dryRun then do
        complete MANUAL_CLOSE_DRY_RUN
          [("trade_id", row.tradeId), ("reason", some MANUAL_CLOSE)]
        pure [(r.clientId, "DRY_RUN")]
      else do
        let outcome ← closeManual t row
        let detail := [("trade_id", row.tradeId), ("reason", some MANUAL_CLOSE),
          ("outcome", some outcome)]
        if outcome = "CLOSED" ∨ outcome = "CLOSED_AT_BROKER" then complete MANUAL_CLOSE detail
        else if outcome = "CLOSE_REJECTED" then complete MANUAL_CLOSE_FAILED detail
        else pure ()
        pure [(r.clientId, outcome)]

/-- `_process_manual_close`; the trades that this tick has read already are given. -/
def processManualClose (report : Option (List OpenTrade)) :
    Program Desk (List (String × String) × Option (List OpenTrade)) := do
  drainOutbox t.onAlert t.before
  let raw ← Program.read Desk.manual
  match raw with
  | none => pure ([], report)
  | some (.malformed text) => do
      completeManual t (.malformed text) MANUAL_CLOSE_REFUSED none
        [("reason", some "malformed_request")]
      pure ([], report)
  | some (.request r) =>
      if r.clientId = "" then do
        completeManual t (.request r) MANUAL_CLOSE_REFUSED none
          [("reason", some "malformed_request")]
        pure ([], report)
      else do
        let report ← match report with
          | some trades => pure (some trades)
          | none => onWorld (reconcile ext t.broker t.episode)
        match report with
        | none => do
            notePending t r.clientId (("reason", some "broker_read_failed") :: r.detail)
            pure ([], none)
        | some trades => do
            let outcome ← closeRequested t r
            pure (outcome, some trades)

/-- `process_operator_requests` -/
def processOperatorRequests : Program Desk (List (String × String)) := do
  let (flatten, manual) ← Program.read (fun s => (s.world.flattenRequest, s.manual))
  if stored flatten = false ∧ manual = none then pure []
  else do
    let (flattened, report) ← onWorld (processRequests ext t.broker t.settings t.episode)
    let (manual, _) ← processManualClose ext t report
    pure (flattened ++ manual)

/-- `on_cycle` and `manage`: the requests, and then the rest of the tick. -/
def operatorTick
    (rest : List (String × String) → Option (List OpenTrade) →
      Program World (List (String × String))) : Program Desk (List (String × String)) := do
  let (flattened, report) ← onWorld (processRequests ext t.broker t.settings t.episode)
  let (manual, report) ← processManualClose ext t report
  onWorld (rest (flattened ++ manual) report)

end Router

/-! ## Everything that runs -/

/-- What the router does under its lock. -/
inductive Work (ext : String → String) : Program Desk (List (String × String)) → Prop
  | poll (t : Tick) : Work ext (processOperatorRequests ext t)
  | tick (t : Tick) (rest : List (String × String) → Option (List OpenTrade) →
      Program World (List (String × String))) : Work ext (operatorTick ext t rest)
  /-- Everything else that the router does, such as a close in an emergency. -/
  | other (p : Program World (List (String × String))) : Work ext (onWorld p)

/-- A click of the dashboard. -/
inductive Clicks (symbol : String → String) : Program Desk (Bool × String) → Prop
  | click (c : Click) : Clicks symbol (requestManualClose symbol c)

/-- What happens by itself: the book moves, other requests are stored, and events of other
kinds are written. -/
inductive Env : Desk → Desk → Prop
  | world (s : Desk) (w : World) (hrows : w.rows = s.world.rows) : Env s (s.setWorld w)
  | event (s : Desk) (e : Event) (hkind : e.kind ∉ MANUAL_CLOSE_REQUESTED :: COMPLETIONS) :
      Env s { s with events := s.events ++ [e] }

end MarketSystem.OperatorRequests
