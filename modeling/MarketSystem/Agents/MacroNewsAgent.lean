import MarketSystem.Agents.Scouts

/-!
# The macro scout

Macro events of a provider, judged at the time of a slot. What was not known then is
rejected; what concerns the symbol is reported with the window it falls into: an exact
release is active for one hour.
-/
namespace MarketSystem.MacroNewsAgent

open Scouts

/-- One hour, in microseconds. -/
def HOUR : ℤ := 3600000000

/-- `ACTIVE_WINDOW`. -/
def ACTIVE_WINDOW : ℤ := HOUR

/-- `RECENT_WINDOW`. -/
def RECENT_WINDOW : ℤ := 24 * HOUR

def IMPACT_LEVELS : List String := ["LOW", "MEDIUM", "HIGH", "UNKNOWN"]

def SUPPORTED_SYMBOLS : List String := ["XAUUSD", "NAS100", "US100", "EURUSD"]

def ALL_SYMBOLS : List String := ["XAUUSD", "NAS100", "EURUSD"]

def RELEVANT_CATEGORIES : List String :=
  ["central_bank", "interest_rates", "inflation", "employment", "growth", "currency",
    "bonds/yields", "risk_event"]

/-- `MacroEvent`, with the fields that the scout reads. -/
structure MacroEvent where
  eventId : Option String
  source : Option String
  sourceTimestamp : Option Instant := none
  eventTimestamp : Option Instant
  receivedAt : Option Instant
  title : Option String
  category : Option String
  currency : Option String
  impact : Option String
  actual : Option String := none
  resultTimestamp : Option Instant := none
  knownAt : Option Instant := none
  fetchedAt : Option Instant := none
  /-- `data_quality["importance_origin"]`. -/
  importanceOrigin : Option String := none
  deriving DecidableEq

/-- `_impact`. -/
def impactLevel (value : Option String) : String :=
  match value with
  | some text => if text.toUpper ∈ IMPACT_LEVELS then text.toUpper else "UNKNOWN"
  | none => "UNKNOWN"

/-- `_macro_relevant`. -/
def macroRelevant (event : MacroEvent) (symbol : String) : Bool :=
  let category := (event.category.getD "").toLower
  let currency := (event.currency.getD "").toUpper
  if category ∉ RELEVANT_CATEGORIES then false
  else if category = "risk_event" then true
  else if currency = "USD" then decide (symbol ∈ ALL_SYMBOLS)
  else if currency = "EUR" then decide (symbol = "EURUSD")
  else false

inductive Window
  | upcoming
  | activeWindow
  | recent
  | stale
  deriving DecidableEq, Repr

/-- `_window`. -/
def window (eventTimestamp asOf : Instant) : Window :=
  if asOf < eventTimestamp then .upcoming
  else if asOf - eventTimestamp ≤ ACTIVE_WINDOW then .activeWindow
  else if asOf - eventTimestamp ≤ RECENT_WINDOW then .recent
  else .stale

/-- `_stable_key`. -/
inductive StableKey
  | byId (source : Option String) (id : String)
  | byFields (source : Option String) (eventTimestamp : Option Instant)
      (title currency category : Option String)
  deriving DecidableEq

def stableKey (event : MacroEvent) : StableKey :=
  match event.eventId with
  | some id =>
      if id ≠ "" then .byId event.source id
      else .byFields event.source event.eventTimestamp event.title event.currency event.category
  | none =>
      .byFields event.source event.eventTimestamp event.title event.currency event.category

/-- An accepted event as the report carries it. -/
structure MacroItem where
  eventId : Option String
  eventTimestamp : Instant
  impact : Option String
  window : Window
  deriving DecidableEq

inductive Verdict
  | rejected (warning : String)
  | irrelevant
  | accepted (item : MacroItem)

/-- A time that is later than the slot. -/
def later (value : Option Instant) (timestamp : Instant) : Bool :=
  match value with
  | some time => decide (timestamp < time)
  | none => false

/-- What the loop decides on one event that is no duplicate. -/
def judge (symbol : String) (timestamp : Instant) (event : MacroEvent) : Verdict :=
  match event.source, event.eventTimestamp with
  | some source, some eventTime =>
      if source = "" then .rejected "missing_source_or_timestamp"
      else if later event.sourceTimestamp timestamp || later event.receivedAt timestamp
          || later event.fetchedAt timestamp then .rejected "future_information"
      else if later (event.knownAt <|> event.sourceTimestamp) timestamp then
        .rejected "future_information"
      else if event.actual ≠ none ∧ (event.resultTimestamp = none
          ∨ later event.resultTimestamp timestamp = true) then .rejected "future_information"
      else if macroRelevant event symbol = false then .irrelevant
      else .accepted
        { eventId := event.eventId
          eventTimestamp := eventTime
          impact :=
            if event.importanceOrigin = some "INTERNAL_POLICY" ∧ event.impact = none then none
            else some (impactLevel event.impact)
          window := window eventTime timestamp }
  | _, _ => .rejected "missing_source_or_timestamp"

structure Tally where
  accepted : List MacroItem := []
  rejected : ℕ := 0
  warnings : List String := []

/-- The events one after the other; a key that was seen before is a duplicate. -/
def tally (symbol : String) (timestamp : Instant) : List StableKey → List MacroEvent → Tally
  | _, [] => {}
  | seen, event :: events =>
      if stableKey event ∈ seen then
        let rest := tally symbol timestamp seen events
        { rest with warnings := "duplicate" :: rest.warnings }
      else
        let rest := tally symbol timestamp (stableKey event :: seen) events
        match judge symbol timestamp event with
        | .rejected warning =>
            { rest with rejected := rest.rejected + 1, warnings := warning :: rest.warnings }
        | .irrelevant => rest
        | .accepted item => { rest with accepted := item :: rest.accepted }

/-- `macro_events` of the report. -/
structure MacroReport where
  macroEvents : List MacroItem
  deriving DecidableEq

def macroStatus (t : Tally) (partialHealth : Bool) : AgentStatus :=
  if t.accepted = [] then if 0 < t.rejected then .partialData else .noData
  else if 0 < t.rejected ∨ partialHealth = true then .partialData
  else .ok

/-- `analizar_macro_news`, for a provider without news items: its events, or the exception
that reading them raised, and its health. -/
def analizarMacroNews (events : Except String (List MacroEvent)) (health symbol : String)
    (asOf : Instant) (runId : String) : AgentMessage MacroReport :=
  if symbol.toUpper ∉ SUPPORTED_SYMBOLS then
    { runId := runId, timestamp := asOf, symbol := symbol, timeframe := "context"
      status := .error, warnings := ["invalid_context"] }
  else
    match events with
    | .error exception =>
        { runId := runId, timestamp := asOf, symbol := symbol.toUpper, timeframe := "context"
          status := .error, warnings := ["provider_error:" ++ exception] }
    | .ok events =>
        let t := tally symbol.toUpper asOf [] events
        let partialHealth := decide (health = "PARTIAL")
        { runId := runId, timestamp := asOf, symbol := symbol.toUpper, timeframe := "context"
          status := macroStatus t partialHealth
          evidence := some ⟨t.accepted⟩
          warnings := (t.warnings ++ if partialHealth then ["provider_partial"] else []).eraseDups }

/-! ## What is reported -/

variable {symbol : String} {timestamp : Instant}

/-- What every event of a key is accepted as is reported. -/
theorem mem_tally {seen : List StableKey} {events : List MacroEvent} {event : MacroEvent}
    {item : MacroItem} (hmem : event ∈ events) (hseen : stableKey event ∉ seen)
    (hjudge : ∀ e ∈ events, stableKey e = stableKey event →
      judge symbol timestamp e = .accepted item) :
    item ∈ (tally symbol timestamp seen events).accepted := by
  induction events generalizing seen with
  | nil => cases hmem
  | cons first events ih =>
    by_cases hkey : stableKey first = stableKey event
    · have hfirst := hjudge first List.mem_cons_self hkey
      unfold tally
      rw [if_neg (hkey ▸ hseen), hfirst]
      exact List.mem_cons_self
    · have hmem : event ∈ events := by
        obtain rfl | h := List.mem_cons.mp hmem
        · exact absurd rfl hkey
        · exact h
      have hrest : ∀ e ∈ events, stableKey e = stableKey event →
          judge symbol timestamp e = .accepted item :=
        fun e he => hjudge e (List.mem_cons_of_mem _ he)
      unfold tally
      split_ifs
      · exact ih hmem hseen hrest
      · have hothers := @ih (stableKey first :: seen) hmem
          (by simp [Ne.symm hkey, hseen]) hrest
        dsimp only
        split
        · exact hothers
        · exact hothers
        · exact List.mem_cons_of_mem _ hothers

/-- Every item of a report is the verdict on one of the events. -/
theorem of_mem_tally {seen : List StableKey} {events : List MacroEvent} {item : MacroItem}
    (h : item ∈ (tally symbol timestamp seen events).accepted) :
    ∃ event ∈ events, judge symbol timestamp event = .accepted item := by
  induction events generalizing seen with
  | nil => cases h
  | cons first events ih =>
    unfold tally at h
    split_ifs at h
    · obtain ⟨event, hmem, hjudge⟩ := ih h
      exact ⟨event, List.mem_cons_of_mem _ hmem, hjudge⟩
    · dsimp only at h
      split at h
      · obtain ⟨event, hmem, hjudge⟩ := ih h
        exact ⟨event, List.mem_cons_of_mem _ hmem, hjudge⟩
      · obtain ⟨event, hmem, hjudge⟩ := ih h
        exact ⟨event, List.mem_cons_of_mem _ hmem, hjudge⟩
      · next verdict hjudge =>
        obtain rfl | h := List.mem_cons.mp h
        · exact ⟨first, List.mem_cons_self, hjudge⟩
        · obtain ⟨event, hmem, hjudge⟩ := ih h
          exact ⟨event, List.mem_cons_of_mem _ hmem, hjudge⟩

/-- What an accepted event says of itself. -/
theorem of_judge_accepted {event : MacroEvent} {item : MacroItem}
    (h : judge symbol timestamp event = .accepted item) :
    item.eventId = event.eventId ∧ macroRelevant event symbol = true ∧
      event.eventTimestamp = some item.eventTimestamp ∧
      item.window = window item.eventTimestamp timestamp := by
  unfold judge at h
  split at h
  · next source eventTime _ htime =>
    split_ifs at h with _ _ _ _ hrelevant <;> cases h <;>
      exact ⟨rfl, by simpa using hrelevant, htime, rfl⟩
  · cases h

/-- Nothing is accepted that was not known at the slot. -/
theorem not_later_of_judge_accepted {event : MacroEvent} {item : MacroItem}
    (h : judge symbol timestamp event = .accepted item) :
    later event.sourceTimestamp timestamp = false ∧ later event.fetchedAt timestamp = false := by
  unfold judge at h
  split at h
  · split_ifs at h with _ hlater
    all_goals
      simp only [Bool.or_eq_true, not_or, Bool.not_eq_true] at hlater
      exact ⟨hlater.1.1, hlater.2⟩
  · cases h

/-- What is upcoming has not come. -/
theorem lt_of_window_upcoming {e asOf : Instant} (h : window e asOf = .upcoming) : asOf < e := by
  unfold window at h
  split_ifs at h with hupcoming
  exact hupcoming

/-- A release is active from its time on for one hour. -/
theorem window_active {e asOf : Instant} (hfrom : e ≤ asOf) (hto : asOf ≤ e + ACTIVE_WINDOW) :
    window e asOf = .activeWindow := by
  unfold window
  rw [if_neg (not_lt.mpr hfrom), if_pos]
  exact sub_le_iff_le_add'.mpr hto

end MarketSystem.MacroNewsAgent
