import MarketSystem.Execution.EurusdPullback
import MarketSystem.Execution.RouterState

/-!
# Reconciliation and the flatten request

Once a tick the router compares its rows with the broker. A resting limit that has
filled becomes an open trade, one that is gone is closed in the table, and an action
whose outcome is unknown stays latched until there is evidence. On a flatten request
every resting limit is then cancelled and every open trade closed.

Every call to the broker and every statement of the store is one action; between two of
them the market moves.
-/
namespace MarketSystem.RouterRequests

open Library RouterState EurusdPullback

def DRIFT : String := "drift"
def UNRESOLVED_ACTION : String := "unresolved_action"
def CLOSE_PREFIX : String := "CLOSE:"
def BREAKEVEN : String := "BREAKEVEN"
def SL_TP_OR_EXTERNAL : String := "SL_TP_OR_EXTERNAL"
def EMERGENCY_ACTIVE : String := "EMERGENCY_ACTIVE"
def EMERGENCY_BUTTON : String := "EMERGENCY_BUTTON"
def STAGE_DAY2 : String := "DAY2_BREAKEVEN"

/-- The last entry of a dictionary that was filled in this order. -/
def lastWith {α : Type} (l : List α) (p : α → Bool) : Option α := l.reverse.find? p

/-! ## Actions -/

def update (clientId : String) (u : Update) : Program World Unit :=
  .call (fun s => ((), s.update clientId u))

/-- A call that changes the book. -/
def callBroker (f : Book → Answer × Book) : Program World Answer :=
  .call (fun s => ((f s.book).1, { s with book := (f s.book).2 }))

/-- A call that reads it. -/
def readBroker {α : Type} (f : Book → α) : Program World α := .read (fun s => f s.book)

/-- The row leaves the live statuses and nothing is pending on it. -/
def ending (status : Status) (reason : String) : Update :=
  ⟨fun r => { r with
    status := status, closedReason := some reason, pendingAction := none,
    actionStatus := none }, fun _ => rfl⟩

/-- The outcome of an action is not known. -/
def latching (action : String) : Update :=
  ⟨fun r => { r with pendingAction := some action, actionStatus := some UNKNOWN }, fun _ => rfl⟩

/-! ## One row against the broker -/

/-- `breakeven_stop`. -/
def breakevenStop (row : Row) : Option ℚ := roundPrice (row.fillPrice.getD row.entry)

/-- The reason in `CLOSE:reason`. -/
def closeAction (action : Option String) : Option String :=
  match action with
  | some text =>
      if CLOSE_PREFIX.toList.isPrefixOf text.toList then
        some (String.ofList (text.toList.drop CLOSE_PREFIX.length))
      else none
  | none => none

/-- An open row whose trade is gone: by our own close, or at the broker. -/
def gone (row : Row) : Update :=
  match closeAction row.pendingAction with
  | some reason => ending .closed reason
  | none => ending .closedAtBroker SL_TP_OR_EXTERNAL

/-- What the broker's trade adds to an open row: the fill, and a breakeven that is proved
by the stop at the broker. -/
def observed (row : Row) (trade : OpenTrade) : Update where
  apply r :=
    let r := if row.fillPrice = none ∨ trade.openTime ≠ none ∧ row.openedAt = none then
        { r with fillPrice := some trade.price, openedAt := trade.openTime <|> r.openedAt }
      else r
    match breakevenStop row with
    | some stop =>
        if row.Latched ∧ row.pendingAction = some BREAKEVEN
            ∧ trade.stop.bind roundPrice = some stop then
          { r with stage := some STAGE_DAY2, initialStop := some row.stop, stop := stop,
                   pendingAction := none, actionStatus := none }
        else r
    | none => r
  keeps r := by
    dsimp only
    split <;> split_ifs <;> rfl

/-- A limit that filled: open, with the engine's stop and target. -/
def filledLimit (row : Row) (trade : OpenTrade) : Update :=
  ⟨fun r => { r with
    status := .open, tradeId := some trade.tradeId,
    fillPrice := some trade.price, openedAt := some (trade.openTime.getD row.createdAt),
    closedReason := none, pendingAction := none, actionStatus := none,
    unitsRemaining := some (match row.unitsRemaining with
      | some units => if units = 0 then row.units else units
      | none => row.units) }, fun _ => rfl⟩

/-- A submission that the broker knows as a resting order. -/
def restingLimit (order : PendingOrder) : Update :=
  ⟨fun r => { r with
    status := .pendingLimit, orderId := some order.orderId,
    closedReason := none }, fun _ => rfl⟩

/-- A limit that filled and closed again at the broker. -/
def closedAtBroker (tradeId : String) : Update :=
  ⟨fun r => { r with
    status := .closedAtBroker, tradeId := some tradeId,
    closedReason := some SL_TP_OR_EXTERNAL, pendingAction := none, actionStatus := none },
    fun _ => rfl⟩

/-- A market submission that the broker knows as an open trade. -/
def filledMarket (row : Row) (trade : OpenTrade) : Update :=
  ⟨fun r => { r with
    status := .open, tradeId := some trade.tradeId,
    fillPrice := some trade.price, openedAt := some (trade.openTime.getD row.createdAt),
    closedReason := none }, fun _ => rfl⟩

/-- A market submission that filled and closed again. -/
def closedMarket (tradeId : String) : Update :=
  ⟨fun r => { r with
    status := .closedAtBroker, tradeId := some tradeId,
    closedReason := some SL_TP_OR_EXTERNAL }, fun _ => rfl⟩

section Reconcile

-- `ext` is `client_extension_id`.
variable (ext : String → String) (b : Broker)

def tradeByExt (trades : List OpenTrade) (clientId : String) : Option OpenTrade :=
  lastWith trades (fun t => decide (t.clientExtId = some (ext clientId)))

/-- `book.get(ext) or book["_ids"].get(row["order_id"])`. -/
def restingFor (orders : List PendingOrder) (row : Row) : Option PendingOrder :=
  lastWith orders (fun o => decide (o.clientExtId = some (ext row.clientId))) <|>
    lastWith orders (fun o => decide (row.orderId = some o.orderId))

/-- `_pending_by_ext`: read once a pass, and again only after a failed read. -/
def pendingByExt (cached : Option (List PendingOrder)) :
    Program World (Option (List PendingOrder)) :=
  match cached with
  | some orders => pure (some orders)
  | none => readBroker b.pendingOrders

/-- A limit that no open trade answers to: still resting, closed again, or gone. -/
def reconcileUnfilled (row : Row) (orders : List PendingOrder) : Program World Unit :=
  match restingFor ext orders row with
  | some order =>
      if row.status ≠ .pendingLimit then do
        update row.clientId (restingLimit order)
        pure ()
      else pure ()
  | none => do
      let made ← readBroker (b.tradeIdForClient (ext row.clientId))
      match made with
      | none => pure ()
      | some (some tradeId) => do
          update row.clientId (closedAtBroker tradeId)
          pure ()
      | some none => do
          update row.clientId (ending .cancelled "LIMIT_EXPIRED")
          pure ()

/-- `_reconcile_limit`. When the resting orders cannot be read the row is left alone. -/
def reconcileLimit (trades : List OpenTrade) (row : Row) (cached : Option (List PendingOrder)) :
    Program World (Option String × Option (List PendingOrder)) :=
  match tradeByExt ext trades row.clientId with
  | some trade => do
      update row.clientId (filledLimit row trade)
      pure (some trade.tradeId, cached)
  | none => do
      let book ← pendingByExt b cached
      match book with
      | none => pure (none, none)
      | some orders => do
          reconcileUnfilled ext b row orders
          pure (none, some orders)

def reconcileOpen (trades : List OpenTrade) (row : Row) : Program World (Option String) :=
  match lastWith trades (fun t => decide (row.tradeId = some t.tradeId)) with
  | none => do
      update row.clientId (gone row)
      pure none
  | some trade => do
      update row.clientId (observed row trade)
      pure (some trade.tradeId)

/-- A market submission without an answer: open, closed again, or still unresolved. -/
def reconcileSent (trades : List OpenTrade) (row : Row) : Program World (Option String) :=
  match tradeByExt ext trades row.clientId with
  | some trade => do
      update row.clientId (filledMarket row trade)
      pure (some trade.tradeId)
  | none => do
      let made ← readBroker (b.tradeIdForClient (ext row.clientId))
      match made with
      | some (some tradeId) => do
          update row.clientId (closedMarket tradeId)
          pure none
      | _ => pure none

/-- `_reconcile_row`: the trade that the row is matched to, and the book as read so far. -/
def reconcileRow (trades : List OpenTrade) (row : Row) (cached : Option (List PendingOrder)) :
    Program World (Option String × Option (List PendingOrder)) :=
  if row.IsLimit then reconcileLimit ext b trades row cached
  else if row.status = .open then do
    let matched ← reconcileOpen trades row
    pure (matched, cached)
  else do
    let matched ← reconcileSent ext b trades row
    pure (matched, cached)

def reconcileRows (trades : List OpenTrade) :
    List Row → Option (List PendingOrder) → Program World (List String)
  | [], _ => pure []
  | row :: rows, cached => do
      let (matched, cached) ← reconcileRow ext b trades row cached
      let others ← reconcileRows trades rows cached
      pure (matched.toList ++ others)

/-! ## The blocks -/

/-- `_drift_problems`. -/
def driftProblems (drift : List (String × String)) (s : World) : List String :=
  (if drift = [] then [] else ["drift_present"]) ++
    (if s.trades UNRESOLVED_STATUSES = [] then [] else ["unresolved_submission"]) ++
    if ∃ r ∈ s.trades [.open], r.Latched then ["unresolved_action"] else []

/-- `_drift_clear_request`: the request is consumed, and the block goes only when it names
the current episode and nothing is wrong. -/
def driftClearRequest (problems : World → List String) (s : World) : World :=
  match s.driftClear with
  | none => s
  | some request =>
      let found :=
        if s.blocked ≠ some DRIFT then ["not_blocked_by_drift"]
        else if stored request.actor = false then ["request_invalid"]
        else if stored request.episode = false ∨ request.episode ≠ s.driftEpisode then
          ["stale_episode"]
        else problems s
      if found = [] then { s with driftClear := none, driftEpisode := none, blocked := none }
      else { s with driftClear := none }

/-- A drift that is new starts an episode. -/
def blockOnDrift (episode : String) (drift : List (String × String)) (s : World) : World :=
  if drift ≠ [] ∧ s.blocked ≠ some DRIFT then
    { s with blocked := some DRIFT, driftEpisode := some episode }
  else s

/-- The block on unresolved actions, which looks at open rows only. -/
def blockOnUnresolved (s : World) : World :=
  if s.blocked = some DRIFT then s
  else if ∃ r ∈ s.trades [.open], r.Latched then { s with blocked := some UNRESOLVED_ACTION }
  else if s.blocked = some UNRESOLVED_ACTION then { s with blocked := none }
  else s

/-- What `reconcile` does once its rows are through. -/
def settleBlocks (episode : String) (drift : List (String × String)) (s : World) : World :=
  blockOnUnresolved (driftClearRequest (driftProblems drift) (blockOnDrift episode drift s))

/-- `reconcile`: the open trades, or nothing when they could not be read. The identity of
a drift episode that begins here is given. -/
def reconcile (episode : String) : Program World (Option (List OpenTrade)) := do
  let read ← readBroker b.openTrades
  match read with
  | none => do
      Program.call (fun s => ((), driftClearRequest (fun _ => ["broker_read_failed"]) s))
      pure none
  | some trades => do
      let rows ← Program.read (fun s => s.trades LIVE_STATUSES)
      let matched ← reconcileRows ext b trades rows none
      let drift := (trades.filter (fun t => decide (t.tradeId ∉ matched))).map
        (fun t => (t.tradeId, t.instrument))
      Program.call (fun s => ((), settleBlocks episode drift s))
      pure (some trades)

/-! ## Cancelling and closing -/

/-- `_cancel_limit`. A cancel that finds no order is left to the next reconciliation. -/
def cancelLimit (row : Row) (reason : String) : Program World String :=
  match row.orderId.filter (fun id => decide (id ≠ "")) with
  | none => do
      update row.clientId (ending .cancelled reason)
      pure "LIMIT_CANCELLED"
  | some orderId => do
      let answer ← callBroker (b.cancelOrder orderId)
      match answer with
      | .notProcessed _ => pure "LIMIT_CANCEL_FAILED"
      | .raised _ => do
          update row.clientId (latching "CANCEL_LIMIT")
          pure UNKNOWN
      | .accepted => do
          update row.clientId (ending .cancelled reason)
          pure (if reason = "LIMIT_EXPIRED" ∨ reason = "WEEKEND_ENTRY_BLOCK" then "LIMIT_EXPIRED"
            else "LIMIT_CANCELLED")
      | .rejected refusal =>
          if refusal = "order_not_found" then pure "LIMIT_CANCEL_UNCONFIRMED"
          else pure "LIMIT_CANCEL_FAILED"
      | .unknown _ => do
          update row.clientId (latching "CANCEL_LIMIT")
          pure UNKNOWN

/-- The close call; a row without a trade id is refused before it reaches the broker. -/
def closeTrade (row : Row) : Program World Answer :=
  match row.tradeId with
  | some tradeId => callBroker (b.closeMarket tradeId)
  | none => pure (.rejected "invalid_position_ref")

/-- `_close`. -/
def close (row : Row) (reason : String) : Program World String := do
  let answer ← closeTrade b row
  match answer with
  | .notProcessed _ => pure "CLOSE_FAILED"
  | .raised _ => do
      update row.clientId (latching (CLOSE_PREFIX ++ reason))
      pure UNKNOWN
  | .accepted => do
      update row.clientId (ending .closed reason)
      pure "CLOSED"
  | .rejected refusal =>
      if refusal = "no_open_position" then do
        update row.clientId (ending .closedAtBroker SL_TP_OR_EXTERNAL)
        pure "CLOSED_AT_BROKER"
      else pure "CLOSE_REJECTED"
  | .unknown _ => do
      update row.clientId (latching (CLOSE_PREFIX ++ reason))
      pure UNKNOWN

/-! ## The request -/

structure Settings where
  dryRun : Bool
  closingOnly : Bool

/-- One row of a flatten: a latched one is left alone, and a dry run sends nothing. -/
def flattenRow (settings : Settings) (act : Row → Program World String) (row : Row) :
    Program World String :=
  if row.Latched then pure "ACTION_UNRESOLVED"
  else if settings.dryRun then pure "DRY_RUN"
  else act row

/-- The rows one after the other, with their outcomes. -/
def flattenRows (settings : Settings) (act : Row → Program World String) :
    List Row → Program World (List (String × String))
  | [] => pure []
  | row :: rows => do
      let outcome ← flattenRow settings act row
      let others ← flattenRows settings act rows
      pure ((row.clientId, outcome) :: others)

/-- What a request asks for, and the reason that the rows will carry. -/
def requested (settings : Settings) (raw : Option String) (live : List Row) : Option String :=
  if stored raw then some EMERGENCY_BUTTON
  else if settings.closingOnly ∧ live ≠ [] then some EMERGENCY_ACTIVE
  else none

/-- The request goes only when no live row is left, and only while it is the same one. -/
def finishRequest (raw : Option String) (s : World) : World :=
  if s.trades LIVE_STATUSES = [] ∧ stored raw ∧ s.flattenRequest = raw then
    { s with flattenRequest := none }
  else s

/-- A tick on which something is asked for: reconcile, cancel what rests, close what is open. -/
def flatten (settings : Settings) (episode : String) (raw : Option String) (reason : String) :
    Program World (List (String × String) × Option (List OpenTrade)) := do
  let report ← reconcile ext b episode
  match report with
  | none => pure ([], none)
  | some trades => do
      let limits ← Program.read (fun s => s.trades [.pendingLimit])
      let cancelled ← flattenRows settings (fun row => cancelLimit b row reason) limits
      let opens ← Program.read (fun s => s.trades [.open])
      let closed ← flattenRows settings (fun row => close b row reason) opens
      Program.call (fun s => ((), finishRequest raw s))
      pure (cancelled ++ closed, some trades)

/-- `_process_requests`: the outcomes of this tick, and the trades as read. -/
def processRequests (settings : Settings) (episode : String) :
    Program World (List (String × String) × Option (List OpenTrade)) := do
  let (raw, live) ← Program.read (fun s => (s.flattenRequest, s.trades LIVE_STATUSES))
  match requested settings raw live with
  | none => pure ([], none)
  | some reason => flatten ext b settings episode raw reason

end Reconcile

/-! ## Sending a limit -/

/-- The answer to `submit_limit`: a resting order has an id, a fill has a trade. -/
inductive LimitAnswer
  | resting (orderId : String)
  | filled (tradeId : String)
  | rejected (reason : String)
  | unknown (reason : String)

/-- The row after the answer; of a fill the open trade, when it could be read. -/
def answered (time : Instant) (trade : Option OpenTrade) : LimitAnswer → Update
  | .resting orderId => ⟨fun r => { r with
      status := .pendingLimit, orderId := some orderId, closedReason := none }, fun _ => rfl⟩
  | .filled tradeId => ⟨fun r => { r with
      status := .open, tradeId := some tradeId,
      openedAt := some ((trade.bind OpenTrade.openTime).getD time),
      fillPrice := trade.map OpenTrade.price, closedReason := none }, fun _ => rfl⟩
  | .rejected reason => ⟨fun r => { r with
      status := .rejected, closedReason := some reason }, fun _ => rfl⟩
  | .unknown reason => ⟨fun r => { r with
      status := .unknown, closedReason := some reason }, fun _ => rfl⟩

/-- The write-ahead row; an insert that fails leaves everything as it was. -/
def insertIntent (row : Row) (s : World) : Bool × World :=
  match s.rows.insert? { row with status := .pendingSend } with
  | some rows => (true, { s with rows := rows })
  | none => (false, s)

/-- `_send`, for a limit. -/
def sendLimit (submit : Book → LimitAnswer × Book) (trade : Option OpenTrade) (time : Instant)
    (row : Row) : Program World Unit := do
  let inserted ← Program.call (insertIntent row)
  if inserted then
    let answer ← Program.call (fun s => ((submit s.book).1, { s with book := (submit s.book).2 }))
    update row.clientId (answered time trade answer)
    pure ()
  else pure ()

end MarketSystem.RouterRequests
