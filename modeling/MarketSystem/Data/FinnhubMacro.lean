import Mathlib.Data.List.Infix
import MarketSystem.Data.FxMacroData

/-!
# The Finnhub provider

A refresh asks for the calendar from yesterday on and keeps every row. The events carry
the time at which the refresh began, and there is one snapshot only: a slot that precedes
it sees nothing.
-/
namespace MarketSystem.FinnhubMacro

open MacroNewsAgent
open FxMacroData (SECOND DAY date fetchedBy)

def EURO_COUNTRIES : List String :=
  ["EU", "EA", "EZ", "DE", "FR", "IT", "ES", "NL", "BE", "AT", "IE", "PT", "FI", "GR"]

/-- A text that stands for a time: with an offset, without one, or no ISO time at all. -/
inductive TimeText
  | aware (time : Instant)
  | naive
  | invalid
  deriving DecidableEq

/-- `_timestamp`. -/
def timestamp : TimeText → Except String Instant
  | .aware time => .ok time
  | .naive => .error "UNKNOWN_TIMEZONE"
  | .invalid => .error "INVALID_EVENT"

/-- `strip`. -/
def strip (text : String) : String :=
  String.ofList ((text.toList.dropWhile Char.isWhitespace).reverse.dropWhile
    Char.isWhitespace).reverse

/-- One of the words occurs in the name. -/
def mentions (name : String) (words : List String) : Bool :=
  words.any (fun word => decide (word.toList <:+: name.toList))

/-- `_category`. -/
def category (title : String) : String :=
  let name := title.toLower
  if mentions name ["interest rate", "rate decision", "fed ", "ecb ", "fomc"] then "interest_rates"
  else if mentions name ["cpi", "inflation", "pce", "ppi"] then "inflation"
  else if mentions name ["payroll", "unemployment", "employment", "jobless"] then "employment"
  else if mentions name ["gdp", "growth"] then "growth"
  else "unknown"

/-- An item of the calendar. A field that is no text is `none`. -/
structure CalendarItem where
  country : Option String
  event : Option String
  time : TimeText
  impact : Option String := none
  sourceTimestamp : Option TimeText := none
  id : Option String := none
  actual : Option String := none
  deriving DecidableEq

/-- `EconomicCalendarEvent`. -/
structure EconomicCalendarEvent where
  eventId : String
  eventTimeUtc : Instant
  country : String
  currency : String
  event : String
  importance : String
  actual : Option String
  fetchedAt : Instant
  sourceTimestamp : Option Instant
  deriving DecidableEq

def currencyOf (country : String) : String :=
  if country = "US" then "USD" else if country ∈ EURO_COUNTRIES then "EUR" else "OTHER"

def importanceOf (impact : Option String) : String :=
  match impact with
  | some text => if text.toUpper ∈ ["HIGH", "MEDIUM", "LOW"] then text.toUpper else "UNKNOWN"
  | none => "UNKNOWN"

/-- The time that the source gives, where it gives one. -/
def sourceTime (text : Option TimeText) : Except String (Option Instant) :=
  match text with
  | some text => (timestamp text).map some
  | none => .ok none

section Provider

-- The digest that stands for an item without an id: of country, time and title.
variable (digest : String → Instant → String → String)

/-- `_normalize`. -/
def normalize (fetchedAt : Instant) (item : CalendarItem) : Except String EconomicCalendarEvent :=
  match item.country, item.event with
  | some country, some title =>
      if strip country = "" ∨ strip title = "" then .error "INVALID_EVENT"
      else do
        let country := (strip country).toUpper
        let time ← timestamp item.time
        let sourceTime ← sourceTime item.sourceTimestamp
        pure
          { eventId := "finnhub:" ++ item.id.getD (digest country time title)
            eventTimeUtc := time
            country := country
            currency := currencyOf country
            event := strip title
            importance := importanceOf item.impact
            actual := item.actual
            fetchedAt := fetchedAt
            sourceTimestamp := sourceTime }
  | _, _ => .error "INVALID_EVENT"

structure State where
  cache : List EconomicCalendarEvent := []
  fetchedAt : Option Instant := none
  health : String := "NOT_CHECKED"

/-- `_refresh` of an answer, which may be a failed request. -/
def refresh (now : Instant) (answer : Except String (List CalendarItem)) (s : State) :
    State × Except String Unit :=
  match answer with
  | .error kind => ({ s with health := kind }, .error "FinnhubMacroError")
  | .ok items =>
      match items.mapM (normalize digest now) with
      | .error kind => ({ s with health := kind }, .error "FinnhubMacroError")
      | .ok events =>
          ({ cache := events
             fetchedAt := some now
             health := if events = [] then "EMPTY" else "READY" }, .ok ())

/-- The snapshot is missing or older than the cache time. -/
def stale (cacheSeconds : ℕ) (s : State) (now : Instant) : Bool :=
  match s.fetchedAt with
  | none => true
  | some fetchedAt => decide (cacheSeconds * SECOND ≤ now - fetchedAt)

/-- The macro event of a calendar event; the result is not shown before the release. -/
def macroEventOf (asOf : Instant) (event : EconomicCalendarEvent) : MacroEvent :=
  let actual := if event.eventTimeUtc ≤ asOf then event.actual else none
  { eventId := some event.eventId
    source := some "Finnhub Economic Calendar"
    sourceTimestamp := event.sourceTimestamp
    eventTimestamp := some event.eventTimeUtc
    receivedAt := some event.fetchedAt
    title := some event.event
    category := some (category event.event)
    currency := some event.currency
    impact := some event.importance
    actual := actual
    resultTimestamp := if actual = none then none else some event.fetchedAt
    knownAt := some event.fetchedAt
    fetchedAt := some event.fetchedAt }

/-- What a slot sees of the snapshot. -/
def visible (s : State) (asOf : Instant) : List MacroEvent :=
  ((s.cache.filter (fun event => decide (event.fetchedAt ≤ asOf))).filter
    (fun event => decide (event.currency ∈ ["USD", "EUR"]))).map (macroEventOf asOf)

/-- `events_at` and `macro_events_at`. -/
def macroEventsAt (cacheSeconds : ℕ) (s : State) (now asOf : Instant)
    (answer : Except String (List CalendarItem)) : State × Except String (List MacroEvent) :=
  if stale cacheSeconds s now then
    match refresh digest now answer s with
    | (s, .error exception) => (s, .error exception)
    | (s, .ok ()) => (s, .ok (visible s asOf))
  else (s, .ok (visible s asOf))

end Provider

end MarketSystem.FinnhubMacro
