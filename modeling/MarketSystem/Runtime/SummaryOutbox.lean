import MarketSystem.Library.Process
import MarketSystem.Library.Table
import MarketSystem.Storage.DailySummary
import Mathlib.Data.List.Sort

/-!
# The daily summary and its outbox

A call persists the summaries that are due, captures a notification event for each, claims the
event, hands it to the sink and records the outcome. Every transaction and every delivery is an
action of its own, so that a call may end between any two of them. Journal rows of other types
are left out. The attempts at the sink are recorded.
-/
namespace MarketSystem.SummaryOutbox

open Library DailySummary
open WeekendRule (NewYork)

/-- `SUMMARY_CLAIM_GRACE` -/
def summaryClaimGrace : Instant := 15 * 60 * 1000000
def second : Instant := 1000000

/-- A row of type `DAILY_SUMMARY`; its run id is `daily:` and the label. -/
structure JournalRow where
  id : ℕ
  label : ℤ
  deriving DecidableEq

structure NotificationEvent (ε : Type) where
  eventId : ε
  journalId : ℕ
  label : ℤ
  deriving DecidableEq

inductive DeliveryStatus
  | claimed
  | delivered
  | failed
  | unknown
  deriving DecidableEq

/-- A row of `notification_deliveries`. -/
structure Delivery (ε : Type) where
  eventId : ε
  status : DeliveryStatus
  attemptedAt : Instant
  completedAt : Option Instant := none
  errorType : Option String := none
  deriving DecidableEq

structure World (ε : Type) where
  journal : List JournalRow := []
  nextId : ℕ := 1
  /-- `daily_summary_date` -/
  lastLabel : Option ℤ := none
  events : Table (@NotificationEvent.eventId ε) := .empty
  deliveries : Table (@Delivery.eventId ε) := .empty
  attempts : List ε := []
  reads : ℕ := 0

/-- What a runner works with: the clock by its readings, the sink by its deliveries (the type of
the error, or none), and the event id of a journal row, `uuid5` of its number. -/
structure Runner (ε : Type) where
  zone : NewYork
  clock : ℕ → Instant
  sink : ℕ → Option String
  eventId : ℕ → ε

namespace Runner

variable {ε : Type} [DecidableEq ε] (r : Runner ε)

/-- The loop of the first transaction of `daily_summary`. -/
def persistDays : List ℤ → World ε → List ℤ × World ε
  | [], w => ([], w)
  | day :: days, w =>
    if w.journal.any (fun row => decide (row.label = day)) then persistDays days w
    else
      let result := persistDays days { w with
        journal := w.journal ++ [⟨w.nextId, day⟩], nextId := w.nextId + 1, lastLabel := some day }
      (day :: result.1, result.2)

def persist (at_ : Instant) (w : World ε) : List ℤ × World ε :=
  persistDays (pendingSummaryDays r.zone w.lastLabel at_) w

/-- The loop of `capture_notifications` over the rows of one run id. -/
def captureRows : List JournalRow → World ε → List (NotificationEvent ε) × World ε
  | [], w => ([], w)
  | row :: rows, w =>
    let event : NotificationEvent ε := ⟨r.eventId row.id, row.id, row.label⟩
    match w.events.insert? event with
    | none => captureRows rows w
    | some events =>
      let result := captureRows rows { w with events := events }
      (event :: result.1, result.2)

/-- `capture_notifications` -/
def capture (label : ℤ) (w : World ε) : List (NotificationEvent ε) × World ε :=
  r.captureRows (w.journal.filter (fun row => decide (row.label = label))) w

/-- `claim_notification_delivery` -/
def claim (event : NotificationEvent ε) (w : World ε) : Bool × World ε :=
  match w.deliveries.insert? ⟨event.eventId, .claimed, r.clock w.reads, none, none⟩ with
  | some deliveries => (true, { w with deliveries := deliveries, reads := w.reads + 1 })
  | none => (false, { w with reads := w.reads + 1 })

/-- `sink.deliver` -/
def send (event : NotificationEvent ε) (w : World ε) : Option String × World ε :=
  (r.sink w.attempts.length, { w with attempts := w.attempts ++ [event.eventId] })

/-- `complete_notification_delivery` -/
def completed (id : ε) (at_ : Instant) (errorType : Option String) (d : Delivery ε) : Delivery ε :=
  if d.eventId = id ∧ d.status = .claimed then
    { d with
      status := if errorType.isSome then .failed else .delivered
      completedAt := some at_, errorType := errorType }
  else d

theorem completed_eventId (id : ε) (at_ : Instant) (errorType : Option String) (d : Delivery ε) :
    (completed id at_ errorType d).eventId = d.eventId := by
  unfold completed
  split_ifs <;> rfl

def complete (event : NotificationEvent ε) (errorType : Option String) (w : World ε) :
    Unit × World ε :=
  ((), { w with
    deliveries := w.deliveries.modify (completed event.eventId (r.clock w.reads) errorType)
      (completed_eventId _ _ _)
    reads := w.reads + 1 })

/-- `_deliver`, of one event. -/
def deliverOne (event : NotificationEvent ε) : Program (World ε) Unit := do
  let claimed ← Program.call (r.claim event)
  if claimed then
    let error ← Program.call (r.send event)
    Program.call (r.complete event error)
  else pure ()

/-- `_deliver` -/
def deliver : List (NotificationEvent ε) → Program (World ε) Unit
  | [] => pure ()
  | event :: events => do
    r.deliverOne event
    deliver events

/-- `_capture_and_deliver`, for each of some labels. -/
def captureAndDeliver : List ℤ → Program (World ε) Unit
  | [] => pure ()
  | label :: labels => do
    let events ← Program.call (r.capture label)
    r.deliver events
    captureAndDeliver labels

/-- The labels of the rows without an event. -/
def uncaptured (w : World ε) : List ℤ :=
  (w.journal.filter (fun row => w.events.rows.all (fun e => decide (e.journalId ≠ row.id)))).map
    (·.label)

/-- The events without a delivery, in the order of the journal. -/
def unclaimed (w : World ε) : List (NotificationEvent ε) :=
  (w.events.rows.filter (fun e => (w.deliveries.get? e.eventId).isNone)).insertionSort
    (fun a b => a.journalId ≤ b.journalId)

/-- A claim without an outcome; the times are compared by their seconds. -/
def expired (at_ : Instant) (d : Delivery ε) : Delivery ε :=
  if d.status = .claimed ∧ d.attemptedAt / second ≤ (at_ - summaryClaimGrace) / second then
    { d with status := .unknown }
  else d

omit [DecidableEq ε] in
theorem expired_eventId (at_ : Instant) (d : Delivery ε) :
    (expired at_ d).eventId = d.eventId := by
  unfold expired
  split_ifs <;> rfl

def markUnknown (at_ : Instant) (w : World ε) : Unit × World ε :=
  ((), { w with deliveries := w.deliveries.modify (expired at_) (expired_eventId at_) })

/-- `_summary_outbox` -/
def summaryOutbox (at_ : Instant) : Program (World ε) Unit := do
  let labels ← Program.read uncaptured
  r.captureAndDeliver labels
  let events ← Program.read unclaimed
  r.deliver events
  Program.call (markUnknown at_)

/-- `daily_summary`; `allowed` is the answer of the halt gate. -/
def dailySummary (allowed : Bool) (at_ : Instant) : Program (World ε) Bool :=
  if allowed then do
    let persisted ← Program.call (r.persist at_)
    r.captureAndDeliver persisted
    r.summaryOutbox at_
    pure (!persisted.isEmpty)
  else pure false

end Runner

/-- A call, and after how many actions its process dies, if it does. -/
structure Call where
  allowed : Bool
  at_ : Instant
  crash : Option ℕ

def Runner.after {ε : Type} [DecidableEq ε] (r : Runner ε) (w : World ε) (call : Call) : World ε :=
  match call.crash with
  | none => ((r.dailySummary call.allowed call.at_).alone w).2
  | some n => ((r.dailySummary call.allowed call.at_).runFor n w).2

end MarketSystem.SummaryOutbox
