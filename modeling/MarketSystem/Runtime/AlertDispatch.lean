import MarketSystem.Library.KeysetScan
import MarketSystem.Library.Table
import MarketSystem.Library.Takeover
import Mathlib.Data.String.Basic
import Mathlib.Logic.Function.Basic

/-!
# Alert dispatch

Dispatchers share the ledger of the deliveries. Each of its statements is atomic and nothing
more, so the parts of a claim, the attempts and the completion are steps of their own. The clock
is read in whole seconds. Who claimed what and what was sent is recorded; no step reads it.
-/
namespace MarketSystem.AlertDispatch

open Library Library.Takeover

def minStaleAfter : ℚ := 60
def maxAttemptsLimit : ℕ := 5
def ambiguousRetry : String := "AMBIGUOUS_RETRY"
def setupChartEmail : String := "setup_chart_email"

inductive EventType
  | validExecutedTrade
  | orderSubmitted
  | positionOpened
  | positionClosed
  | riskRejected
  | aiCaution
  | providerFailure
  | systemDegraded
  | systemCritical
  | recovery
  | testAlert
  | setupValidated
  deriving DecidableEq

/-- `AlertKind.trade` of the catalog. -/
def EventType.trade : EventType → Bool
  | .providerFailure => false
  | .systemDegraded => false
  | .systemCritical => false
  | .recovery => false
  | _ => true

/-- `AlertEvent`, also for the charts of setups; an event has an id. -/
structure AlertEvent where
  eventId : String
  eventType : EventType
  named : "" < eventId
  deriving DecidableEq

inductive DeliveryStatus
  | sending
  | delivered
  | failed
  deriving DecidableEq

/-- A row of `alert_deliveries`. -/
structure Delivery where
  status : DeliveryStatus
  attempts : ℕ := 0
  errorType : Option String := none
  claimedAt : ℤ
  completedAt : Option ℤ := none
  recovery : Option String := none
  reclaims : ℕ := 0
  deriving DecidableEq

/-- The event id and the channel. -/
abbrev Key := String × String

/-- `AlertDeliveryLedger`: the deliveries and the snapshots. -/
structure Ledger where
  deliveries : Key → Option Delivery := fun _ => none
  events : Table AlertEvent.eventId := .empty

namespace Ledger

variable (l : Ledger) (key : Key)

def update (row : Delivery) : Ledger :=
  { l with deliveries := Function.update l.deliveries key (some row) }

/-- `_save` -/
def save (event : AlertEvent) : Ledger := { l with events := (l.events.insert? event).getD l.events }

/-- The insertion of `claim`; `none` where the row is there already. -/
def insertClaim (at_ : ℤ) : Option Ledger :=
  match l.deliveries key with
  | none => some (l.update key { status := .sending, claimedAt := at_ })
  | some _ => none

/-- The selection of `claim`: the time of a claim that is stale. -/
def staleClaim (at_ : ℤ) (staleAfter : ℚ) : Option ℤ :=
  match l.deliveries key with
  | none => none
  | some row =>
    if row.status = .sending ∧ staleAfter ≤ ((at_ - row.claimedAt : ℤ) : ℚ) then some row.claimedAt
    else none

/-- The update of `claim`; `none` where the claim is not the one that was selected. -/
def takeOver (at_ seen : ℤ) : Option Ledger :=
  match l.deliveries key with
  | none => none
  | some row =>
    if row.status = .sending ∧ row.claimedAt = seen then
      some (l.update key
        { row with claimedAt := at_, recovery := some ambiguousRetry, reclaims := row.reclaims + 1 })
    else none

/-- `complete`, of the claim made at `claimedAt`. -/
def complete (at_ : ℤ) (attempts : ℕ) (errorType : Option String) (claimedAt : ℤ) : Ledger :=
  match l.deliveries key with
  | none => l
  | some row =>
    if row.status = .sending ∧ row.claimedAt = claimedAt then
      l.update key { row with
        status := if errorType.isSome then .failed else .delivered
        attempts := attempts, errorType := errorType, completedAt := some at_ }
    else l

end Ledger

/-- A channel is offered when it has no row yet or a stale claim; the rows are read twice. -/
def offers (rows claims : Ledger) (eventId : String) (at_ : ℤ) (staleAfter : ℚ) (name : String) :
    Bool :=
  decide (rows.deliveries (eventId, name) = none) ||
    decide (claims.staleClaim (eventId, name) at_ staleAfter ≠ none)

/-- `pending`, with the ledger as each of its readings finds it: the next event, the rows of the
event and its claims. `n` bounds the events it looks at. -/
def pending (ledgers : ℕ → Ledger) (channels : List String) (at_ : ℤ) (staleAfter : ℚ)
    (channelFilter : AlertEvent → List String → List String) (n : ℕ) : Option (List AlertEvent) :=
  (KeysetScan.scan AlertEvent.eventId (fun k => (ledgers k).events.rows) 3 n 0 "").map
    (fun visits => (visits.filter (fun (k, event) => (channelFilter event channels).any
      (offers (ledgers (k + 1)) (ledgers (k + 2)) event.eventId at_ staleAfter))).map (·.2))

structure Channel where
  name : String
  configured : Bool
  deriving DecidableEq

/-- `AlertDispatcher`, with the bounds its constructor checks. -/
structure Dispatcher where
  maxAttempts : ℕ
  staleAfter : ℚ
  normalAlertsEnabled : Bool := true
  oandaResults : Bool := false
  attempts_pos : 1 ≤ maxAttempts
  attempts_le : maxAttempts ≤ maxAttemptsLimit
  stale_le : minStaleAfter ≤ staleAfter

namespace Dispatcher

variable (d : Dispatcher)

/-- The channels of an event in `recover_pending`. -/
def eligible (event : AlertEvent) (names : List String) : List String :=
  let setup := decide (event.eventType = .setupValidated)
  names.filter (fun name =>
    decide (name = setupChartEmail) == setup && (setup || d.normalAlertsEnabled))

/-- Why `_deliver` does not turn to the ledger at all. -/
def refusal (channel : Channel) (event : AlertEvent) : Option String :=
  let setup := decide (event.eventType = .setupValidated)
  if decide (channel.name = setupChartEmail) ≠ setup then some "NOT_APPLICABLE"
  else if !setup && !d.normalAlertsEnabled then some "DISABLED"
  else if !setup && event.eventType.trade && decide (event.eventType ≠ .testAlert) && d.oandaResults
    then some "OANDA_ONLY"
  else none

end Dispatcher

/-! ### Dispatchers on one ledger -/

/-- Where a dispatcher is in `_deliver`. -/
inductive Phase
  | idle
  | saved (event : AlertEvent) (channel : String)
  | stamped (event : AlertEvent) (channel : String) (at_ : ℤ)
  | refused (event : AlertEvent) (channel : String) (at_ : ℤ)
  | found (event : AlertEvent) (channel : String) (at_ seen : ℤ)
  | sending (event : AlertEvent) (channel : String) (at_ : ℤ) (attempts : ℕ)
  | sent (event : AlertEvent) (channel : String) (at_ : ℤ) (attempts : ℕ) (error : Option String)
  | closing (event : AlertEvent) (channel : String) (at_ : ℤ) (attempts : ℕ)
      (error : Option String) (stamp : ℤ)
  deriving DecidableEq

/-- An attempt on a channel: under which claim, and the row at that moment. -/
structure Send (ι : Type) where
  key : Key
  owner : ι
  at_ : ℤ
  row : Option Delivery

structure State (ι : Type) where
  ledger : Ledger := {}
  phase : ι → Phase := fun _ => .idle
  now : ℤ
  claims : Key → List (Claim ι) := fun _ => []
  sends : List (Send ι) := []

/-- What happens next. `advance` takes the next step of a dispatcher; the outcome is that of an
attempt: an error with its code, and whether it may be retried. -/
inductive Event (ι : Type)
  | tick (seconds : ℕ)
  | deliver (i : ι) (channel : Channel) (event : AlertEvent)
  | advance (i : ι) (outcome : Option (String × Bool))
  | crash (i : ι)

section Steps

variable {ι : Type} [DecidableEq ι] (cfg : ι → Dispatcher) (s : State ι)

namespace State

def setPhase (i : ι) (phase : Phase) : State ι := { s with phase := Function.update s.phase i phase }

@[simp] theorem setPhase_ledger (i : ι) (phase : Phase) : (s.setPhase i phase).ledger = s.ledger :=
  rfl

/-- The claim of a dispatcher that holds one. -/
def claimOf (i : ι) (at_ : ℤ) : Claim ι :=
  ⟨i, at_, (cfg i).staleAfter, lt_of_lt_of_le (by decide) (cfg i).stale_le⟩

def claimed (i : ι) (event : AlertEvent) (channel : String) (at_ : ℤ) (ledger : Ledger) : State ι :=
  let key := (event.eventId, channel)
  { s.setPhase i (.sending event channel at_ 0) with
    ledger := ledger
    claims := Function.update s.claims key (claimOf cfg i at_ :: s.claims key) }

@[simp] theorem claimed_ledger (i : ι) (event : AlertEvent) (channel : String) (at_ : ℤ)
    (ledger : Ledger) : (s.claimed cfg i event channel at_ ledger).ledger = ledger := rfl

/-- The end of an attempt. -/
def attempted (i : ι) (event : AlertEvent) (channel : String) (at_ : ℤ) (attempts : ℕ) :
    Option (String × Bool) → Phase
  | none => .sent event channel at_ attempts none
  | some (code, retryable) =>
    if retryable = true ∧ attempts < (cfg i).maxAttempts then .sending event channel at_ attempts
    else .sent event channel at_ attempts (some code)

/-- The next step of a dispatcher in `_deliver`. -/
def advance (i : ι) (outcome : Option (String × Bool)) : State ι :=
  match s.phase i with
  | .idle => s
  | .saved event channel => s.setPhase i (.stamped event channel s.now)
  | .stamped event channel at_ =>
    match s.ledger.insertClaim (event.eventId, channel) at_ with
    | some ledger => s.claimed cfg i event channel at_ ledger
    | none => s.setPhase i (.refused event channel at_)
  | .refused event channel at_ =>
    match s.ledger.staleClaim (event.eventId, channel) at_ (cfg i).staleAfter with
    | some seen => s.setPhase i (.found event channel at_ seen)
    | none => s.setPhase i .idle
  | .found event channel at_ seen =>
    match s.ledger.takeOver (event.eventId, channel) at_ seen with
    | some ledger => s.claimed cfg i event channel at_ ledger
    | none => s.setPhase i .idle
  | .sending event channel at_ attempts =>
    let key := (event.eventId, channel)
    { s.setPhase i (attempted cfg i event channel at_ (attempts + 1) outcome) with
      sends := ⟨key, i, at_, s.ledger.deliveries key⟩ :: s.sends }
  | .sent event channel at_ attempts error =>
    s.setPhase i (.closing event channel at_ attempts error s.now)
  | .closing event channel at_ attempts error stamp =>
    { s.setPhase i .idle with
      ledger := s.ledger.complete (event.eventId, channel) stamp attempts error at_ }

def step : Event ι → State ι
  | .tick seconds => { s with now := s.now + seconds }
  | .deliver i channel event =>
    if s.phase i = .idle ∧ (cfg i).refusal channel event = none then
      { s.setPhase i (if channel.configured then .saved event channel.name else .idle) with
        ledger := s.ledger.save event }
    else s
  | .advance i outcome => s.advance cfg i outcome
  | .crash i => s.setPhase i .idle

end State

end Steps

end MarketSystem.AlertDispatch
