import MarketSystem.Agents.MacroNewsAgent
import MarketSystem.Library.FirstCopy

/-!
# Items that were not known yet

The macro scout on all that a provider may hand over: events and news, with times that may
be naive or no times at all, and events of which only the date is known. The first copy of
a key is judged and the others are skipped, so a copy that is rejected hides one that could
be reported.
-/
namespace MarketSystem.KnownItems

open Library Library.FirstCopy Scouts
open MacroNewsAgent (SUPPORTED_SYMBOLS Window window impactLevel macroRelevant later)

/-- A time as an item carries it: its text, and the instant it names unless it is naive or
no time. -/
structure Stamp where
  text : String
  utc : Option Instant
  deriving DecidableEq

/-- `_utc`. -/
def utc (value : Option Stamp) : Option Instant := value.bind Stamp.utc

/-- A value that is there and has no time. -/
def malformed (value : Option Stamp) : Bool := value.isSome && (utc value).isNone

/-- `str` of an optional text. -/
def text (value : Option String) : String := value.getD "None"

/-- `MacroEvent`, with the fields that the scout reads. -/
structure MacroEvent where
  eventId : Option String
  source : Option String
  sourceTimestamp : Option Stamp := none
  eventTimestamp : Option Stamp
  receivedAt : Option Stamp
  title : Option String
  category : Option String
  currency : Option String
  impact : Option String
  actual : Option String := none
  resultTimestamp : Option Stamp := none
  knownAt : Option Stamp := none
  fetchedAt : Option Stamp := none
  /-- `event_date`, as a day, when it is one. -/
  eventDate : Option ℤ := none
  /-- `data_quality["event_timezone"]`. -/
  eventTimezone : Option String := none
  /-- `data_quality["importance_origin"]`. -/
  importanceOrigin : Option String := none
  deriving DecidableEq

/-- The event with its times in UTC. -/
def MacroEvent.inUtc (event : MacroEvent) : MacroNewsAgent.MacroEvent where
  eventId := event.eventId
  source := event.source
  sourceTimestamp := utc event.sourceTimestamp
  eventTimestamp := utc event.eventTimestamp
  receivedAt := utc event.receivedAt
  title := event.title
  category := event.category
  currency := event.currency
  impact := event.impact
  actual := event.actual
  resultTimestamp := utc event.resultTimestamp
  knownAt := utc event.knownAt
  fetchedAt := utc event.fetchedAt
  importanceOrigin := event.importanceOrigin

structure NewsItem where
  newsId : Option String
  source : Option String
  publishedAt : Option Stamp
  receivedAt : Option Stamp
  headline : Option String
  category : Option String
  symbols : List String := []
  relevance : List String := []
  knownAt : Option Stamp := none
  deriving DecidableEq

/-- `_stable_key`, of either kind of item. -/
inductive StableKey
  | byId (source : Option String) (id : String)
  | byFields (source : Option String) (fields : List String)
  deriving DecidableEq

def eventKey (event : MacroEvent) : StableKey :=
  if event.eventId.getD "" ≠ "" then .byId event.source (event.eventId.getD "")
  else .byFields event.source [text event.source, text (event.eventTimestamp.map Stamp.text),
    text event.title, text event.currency, text event.category]

def newsKey (item : NewsItem) : StableKey :=
  if item.newsId.getD "" ≠ "" then .byId item.source (item.newsId.getD "")
  else .byFields item.source [text item.source, text (item.publishedAt.map Stamp.text),
    text item.headline, text item.category]

/-- `window` of an accepted item: that of its time, or of its date when it has no time. -/
inductive ItemWindow
  | timed (window : Window)
  | dateOnlyToday
  | dateOnlyUpcoming
  | dateOnlyScheduled
  | dateOnlyPast
  deriving DecidableEq

/-- The window of a date that is so many days ahead. -/
def dateWindow (days : ℤ) : ItemWindow :=
  if days = 0 then .dateOnlyToday
  else if 0 < days ∧ days ≤ 1 then .dateOnlyUpcoming
  else if 1 < days then .dateOnlyScheduled
  else .dateOnlyPast

/-- An accepted event as the report carries it. -/
structure ReportedEvent where
  event : MacroEvent
  impact : Option String
  window : ItemWindow
  deriving DecidableEq

structure ReportedNews where
  item : NewsItem
  /-- `known_at` after its defaults. -/
  knownAt : Instant
  window : ItemWindow
  deriving DecidableEq

def EVENT_TIMEZONES : List String := ["Europe/Luxembourg", "America/New_York", "UTC"]

section Judge

-- the date of an instant in a zone, from the zone database
variable (localDate : String → Instant → ℤ) (symbol : String) (timestamp : Instant)

/-- The date of an event in a zone that the scout knows. -/
def eventDate (event : MacroEvent) : Option (ℤ × String) :=
  match event.eventDate, event.eventTimezone with
  | some day, some zone => if zone ∈ EVENT_TIMEZONES then some (day, zone) else none
  | _, _ => none

/-- The window of an event by its time, or else by its date. -/
def eventWindow (event : MacroEvent) : Option ItemWindow :=
  match utc event.eventTimestamp, eventDate event with
  | some time, _ => some (.timed (window time timestamp))
  | none, some (day, zone) => some (dateWindow (day - localDate zone timestamp))
  | none, none => none

/-- What the loop decides on an event that is no duplicate. -/
def judgeEvent (event : MacroEvent) : Judgement String ReportedEvent :=
  let sourceTime := utc event.sourceTimestamp
  match eventWindow localDate timestamp event with
  | none => .rejected "missing_source_or_timestamp"
  | some window =>
      if event.source.getD "" = "" then .rejected "missing_source_or_timestamp"
      else if malformed event.sourceTimestamp || malformed event.receivedAt
          || malformed event.fetchedAt then .rejected "invalid_timestamp"
      else if later sourceTime timestamp || later (utc event.receivedAt) timestamp
          || later (utc event.fetchedAt) timestamp then .rejected "future_information"
      else if later (utc event.knownAt <|> sourceTime) timestamp then
        .rejected "future_information"
      else if event.actual ≠ none ∧ (utc event.resultTimestamp = none
          ∨ later (utc event.resultTimestamp) timestamp = true) then .rejected "future_information"
      else if macroRelevant event.inUtc symbol = false then .ignored
      else .accepted
        { event := event
          impact :=
            if event.importanceOrigin = some "INTERNAL_POLICY" ∧ event.impact = none then none
            else some (impactLevel event.impact)
          window := window }

/-- The characters that `str.strip` takes away. -/
def isSpace (c : Char) : Bool :=
  decide (c.toNat ∈ [9, 10, 11, 12, 13, 28, 29, 30, 31, 32, 133, 160, 5760, 8232, 8233, 8239,
    8287, 12288] ∨ 8192 ≤ c.toNat ∧ c.toNat ≤ 8202)

/-- `_news_relevant`. -/
def newsRelevant (item : NewsItem) : Bool :=
  decide (symbol ∈ item.symbols.map String.toUpper ∨ symbol ∈ item.relevance.map String.toUpper
    ∨ "ALL" ∈ item.relevance.map String.toUpper)

/-- What the loop decides on a news item that is no duplicate. -/
def judgeNews (item : NewsItem) : Judgement String ReportedNews :=
  match item.source, utc item.publishedAt with
  | some source, some published =>
      let knownAt := (utc item.knownAt <|> utc item.receivedAt).getD published
      if source.toList.all isSpace then .rejected "missing_source_or_timestamp"
      else if timestamp < knownAt then .rejected "future_information"
      else if newsRelevant symbol item = false then .ignored
      else .accepted
        { item := item, knownAt := knownAt, window := .timed (window published timestamp) }
  | _, _ => .rejected "missing_source_or_timestamp"

end Judge

/-- `evidence[0]` of the report. -/
structure ItemReport where
  macroEvents : List ReportedEvent
  newsItems : List ReportedNews
  deriving DecidableEq

/-- The warnings of a pass, a skipped copy being a duplicate. -/
def warningsOf {β : Type} (t : Tally String β) : List String :=
  t.warnings.map (fun warning => warning.getD "duplicate")

section Report

variable (localDate : String → Instant → ℤ)

/-- `analizar_macro_news`: the events and the news of a provider, or the exception that
reading them raised, and its health. -/
def analizarMacroNews (items : Except String (List MacroEvent × List NewsItem))
    (health symbol : String) (asOf : Instant) (runId : String) : AgentMessage ItemReport :=
  if symbol.toUpper ∉ SUPPORTED_SYMBOLS then
    { runId := runId, timestamp := asOf, symbol := symbol, timeframe := "context"
      status := .error, warnings := ["invalid_context"] }
  else
    match items with
    | .error exception =>
        { runId := runId, timestamp := asOf, symbol := symbol.toUpper, timeframe := "context"
          status := .error, warnings := ["provider_error:" ++ exception] }
    | .ok (rawEvents, rawNews) =>
        let events := pass eventKey (judgeEvent localDate symbol.toUpper asOf) [] rawEvents
        let news := pass newsKey (judgeNews symbol.toUpper asOf) [] rawNews
        let rejected := events.rejected + news.rejected
        let partialHealth := decide (health = "PARTIAL")
        { runId := runId, timestamp := asOf, symbol := symbol.toUpper, timeframe := "context"
          status :=
            if events.accepted = [] ∧ news.accepted = [] then
              if 0 < rejected then .partialData else .noData
            else if 0 < rejected ∨ partialHealth = true then .partialData
            else .ok
          evidence := some ⟨events.accepted, news.accepted⟩
          warnings := (warningsOf events ++ warningsOf news
            ++ if partialHealth then ["provider_partial"] else []).eraseDups }

/-- The events and the news without every item that is rejected whenever it is judged. -/
def withoutRejected (symbol : String) (asOf : Instant) (events : List MacroEvent)
    (news : List NewsItem) : List MacroEvent × List NewsItem :=
  (events.filter (fun event => !rejects (judgeEvent localDate symbol.toUpper asOf) event),
    news.filter (fun item => !rejects (judgeNews symbol.toUpper asOf) item))

variable {localDate}

/-- What is reported is what would be reported without the rejected items exactly when, for
a supported symbol, none of them hides an acceptable copy behind it. -/
theorem rejected_hide_nothing_iff (events : List MacroEvent) (news : List NewsItem)
    (health symbol : String) (asOf : Instant) (runId : String) :
    (analizarMacroNews localDate (.ok (events, news)) health symbol asOf runId).evidence =
        (analizarMacroNews localDate (.ok (withoutRejected localDate symbol asOf events news))
          health symbol asOf runId).evidence ↔
      (symbol.toUpper ∈ SUPPORTED_SYMBOLS →
        ¬Hidden eventKey (judgeEvent localDate symbol.toUpper asOf) events ∧
          ¬Hidden newsKey (judgeNews symbol.toUpper asOf) news) := by
  unfold analizarMacroNews withoutRejected
  by_cases hsymbol : symbol.toUpper ∈ SUPPORTED_SYMBOLS
  · rw [if_neg (not_not.mpr hsymbol), if_neg (not_not.mpr hsymbol)]
    dsimp only
    rw [Option.some.injEq, ItemReport.mk.injEq, pass_filter_iff, pass_filter_iff]
    exact ⟨fun h _ => h, fun h => h hsymbol⟩
  · rw [if_pos hsymbol, if_pos hsymbol]
    exact ⟨fun _ h => absurd h hsymbol, fun _ => rfl⟩

/-- An inflation release at noon, as fetched at some time. -/
def inflation (fetchedAt : Stamp) : MacroEvent where
  eventId := some "cpi"
  source := some "calendar"
  eventTimestamp := some ⟨"12:00", some 12⟩
  receivedAt := none
  title := some "CPI"
  category := some "inflation"
  currency := some "USD"
  impact := some "HIGH"
  fetchedAt := some fetchedAt

/-- A copy that is fetched after the slot stands first, and the copy of before is not
reported. -/
theorem rejected_hides_release :
    ¬∀ (localDate : String → Instant → ℤ) (events : List MacroEvent) (news : List NewsItem)
      (health symbol : String) (asOf : Instant) (runId : String),
      (analizarMacroNews localDate (.ok (events, news)) health symbol asOf runId).evidence =
        (analizarMacroNews localDate (.ok (withoutRejected localDate symbol asOf events news))
          health symbol asOf runId).evidence := by
  intro h
  have hsame := h (fun _ _ => 0) [inflation ⟨"14:00", some 14⟩, inflation ⟨"11:00", some 11⟩] []
    "READY" "XAUUSD" 13 "run"
  revert hsame
  decide +kernel

end Report

/-! ## Items whose times are all known -/

/-- A judgement in the words of the scout that reads no date-only events. -/
def verdictOf : Judgement String ReportedEvent → MacroNewsAgent.Verdict
  | .rejected warning => .rejected warning
  | .ignored => .irrelevant
  | .accepted value =>
      match value.window, utc value.event.eventTimestamp with
      | .timed window, some time => .accepted ⟨value.event.eventId, time, value.impact, window⟩
      | _, _ => .rejected "missing_source_or_timestamp"

/-- On an event with no malformed time and no date both scouts decide the same. -/
theorem judge_inUtc {localDate : String → Instant → ℤ} {symbol : String} {timestamp : Instant}
    {event : MacroEvent} (hsource : malformed event.sourceTimestamp = false)
    (hreceived : malformed event.receivedAt = false)
    (hfetched : malformed event.fetchedAt = false) (hdate : event.eventDate = none) :
    MacroNewsAgent.judge symbol timestamp event.inUtc =
      verdictOf (judgeEvent localDate symbol timestamp event) := by
  have hnoDate : eventDate event = none := by simp [eventDate, hdate]
  unfold MacroNewsAgent.judge judgeEvent eventWindow
  have hsourceUtc : event.inUtc.sourceTimestamp = utc event.sourceTimestamp := rfl
  have hreceivedUtc : event.inUtc.receivedAt = utc event.receivedAt := rfl
  have hfetchedUtc : event.inUtc.fetchedAt = utc event.fetchedAt := rfl
  have hknownUtc : event.inUtc.knownAt = utc event.knownAt := rfl
  have hresultUtc : event.inUtc.resultTimestamp = utc event.resultTimestamp := rfl
  have hactualUtc : event.inUtc.actual = event.actual := rfl
  have htimeUtc : event.inUtc.eventTimestamp = utc event.eventTimestamp := rfl
  have hsourceName : event.inUtc.source = event.source := rfl
  rw [hsource, hreceived, hfetched, hnoDate, hsourceUtc, hreceivedUtc, hfetchedUtc, hknownUtc,
    hresultUtc, hactualUtc, htimeUtc, hsourceName]
  cases htime : utc event.eventTimestamp with
  | none => cases event.source <;> rfl
  | some time =>
    cases hname : event.source with
    | none => rfl
    | some source =>
      dsimp only [Option.getD_some]
      rw [Bool.or_self, Bool.or_self, if_neg Bool.false_ne_true]
      by_cases hempty : source = ""
      · rw [if_pos hempty, if_pos hempty]
        rfl
      rw [if_neg hempty, if_neg hempty]
      by_cases hlater : (later (utc event.sourceTimestamp) timestamp
          || later (utc event.receivedAt) timestamp || later (utc event.fetchedAt) timestamp) = true
      · rw [if_pos hlater, if_pos hlater]
        rfl
      rw [if_neg hlater, if_neg hlater]
      by_cases hknown : later (utc event.knownAt <|> utc event.sourceTimestamp) timestamp = true
      · rw [if_pos hknown, if_pos hknown]
        rfl
      rw [if_neg hknown, if_neg hknown]
      by_cases hactual : event.actual ≠ none ∧ (utc event.resultTimestamp = none
          ∨ later (utc event.resultTimestamp) timestamp = true)
      · rw [if_pos hactual, if_pos hactual]
        rfl
      rw [if_neg hactual, if_neg hactual]
      by_cases hrelevant : macroRelevant event.inUtc symbol = false
      · rw [if_pos hrelevant, if_pos hrelevant]
        rfl
      rw [if_neg hrelevant, if_neg hrelevant]
      simp only [verdictOf, htime]
      rfl

end MarketSystem.KnownItems
