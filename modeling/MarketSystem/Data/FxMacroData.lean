import MarketSystem.Agents.MacroNewsAgent
import MarketSystem.Library.Table

/-!
# The FXMacroData provider

A refresh asks for the calendar from today on and keeps the rows whose release is still
to come. The events of a refresh carry the time at which it was complete, and a slot sees
only what was complete by then; the snapshot before the current one is kept for slots
that precede the refresh.
-/
namespace MarketSystem.FxMacroData

open Library MacroNewsAgent

/-- One second, in microseconds. -/
def SECOND : ℤ := 1000000

/-- One day. -/
def DAY : ℤ := 24 * HOUR

/-- `.date()` of an instant in UTC, as a count of days. -/
def date (time : Instant) : ℤ := time / DAY

theorem date_mono {a b : Instant} (h : a ≤ b) : date a ≤ date b :=
  Int.ediv_le_ediv (by decide) h

/-- `HIGH_INDICATORS`. -/
def HIGH_INDICATORS : List (String × String) :=
  [("inflation", "inflation"), ("core_inflation", "inflation"), ("core_pce", "inflation"),
    ("ppi", "inflation"), ("non_farm_payrolls", "employment"), ("employment", "employment"),
    ("unemployment", "employment"), ("initial_jobless_claims", "employment"), ("gdp", "growth"),
    ("retail_sales", "growth"), ("policy_rate", "interest_rates"),
    ("policy_rate_mro", "interest_rates"), ("policy_rate_mlf", "interest_rates")]

/-- A row of the calendar. -/
structure CalendarRow where
  release : String
  announcement : Option Instant
  releaseTimeAssumed : Bool := false
  releaseTimeStatus : Option String := none
  releaseDateConfirmed : Bool := false
  calendarEventId : Option String := none
  deriving DecidableEq

/-- `_calendar_time_is_exact`. -/
def calendarTimeIsExact (row : CalendarRow) : Bool :=
  match row.announcement with
  | none => false
  | some _ =>
      if row.releaseTimeAssumed then false
      else
        match row.releaseTimeStatus with
        | some status => decide (status = "confirmed")
        | none => row.releaseDateConfirmed

/-- The id of an event; without one from the provider it is made of what identifies it. -/
def eventId (currency : String) (row : CalendarRow) (scheduled : Instant) : String :=
  "fxmacrodata:" ++
    match row.calendarEventId with
    | some id =>
        if id ≠ "" then id
        else currency.toLower ++ ":" ++ row.release ++ ":" ++ toString (scheduled / SECOND)
    | none => currency.toLower ++ ":" ++ row.release ++ ":" ++ toString (scheduled / SECOND)

/-- `.replace("_", " ").title()`. -/
def title (indicator : String) : String :=
  let step := fun (state : List Char × Bool) (c : Char) =>
    let c := if c = '_' then ' ' else c
    (state.1 ++ [if state.2 then c.toLower else c.toUpper], c.isAlpha)
  String.ofList (indicator.toList.foldl step ([], false)).1

/-- What the requests of one refresh return: the calendar of a currency, and the source
that the announcements of an indicator name. -/
structure Answers where
  calendar : String → List CalendarRow
  announcementSource : String → String → Option String

/-- The rows that a refresh keeps. -/
def relevant (now : Instant) (row : CalendarRow) : Bool :=
  (HIGH_INDICATORS.lookup row.release).isSome
    && (match row.announcement with
      | some scheduled => decide (now < scheduled)
      | none => false)
    && calendarTimeIsExact row

/-- The event of a kept row, with the time at which the refresh was complete. -/
def eventOf (answers : Answers) (fetchedAt : Instant) (currency : String) (row : CalendarRow)
    (scheduled : Instant) : MacroEvent where
  eventId := some (eventId currency row scheduled)
  source := some ("FXMacroData" ++
    match answers.announcementSource currency row.release with
    | some name => if name ≠ "" then " / " ++ name else ""
    | none => "")
  eventTimestamp := some scheduled
  receivedAt := some fetchedAt
  title := some (title row.release)
  category := HIGH_INDICATORS.lookup row.release
  currency := some currency
  impact := some "HIGH"
  knownAt := some fetchedAt
  fetchedAt := some fetchedAt
  importanceOrigin := some "INTERNAL_POLICY"

/-- The events of one currency. -/
def eventsOf (answers : Answers) (now fetchedAt : Instant) (currency : String) :
    List MacroEvent :=
  ((answers.calendar currency).filter (relevant now)).filterMap (fun row =>
    row.announcement.map (eventOf answers fetchedAt currency row))

structure State where
  cache : List MacroEvent := []
  previousCache : List MacroEvent := []
  fetchedAt : Option Instant := none
  retryAfter : Option Instant := none
  health : String := "NOT_CHECKED"

/-- `health` after a refresh: of each currency, and of the events together. -/
def healthOf (answers : Answers) (now : Instant) : String :=
  let ready := fun currency => decide ((answers.calendar currency).filter (relevant now) ≠ [])
  if ready "USD" && ready "EUR" then "READY"
  else if ready "USD" || ready "EUR" then "PARTIAL"
  else "EMPTY"

/-- `_refresh` when every request succeeds; `done` is the clock when it is complete. -/
def refresh (now done : Instant) (answers : Answers) (s : State) : State :=
  let fetchedAt := max now done
  { cache := eventsOf answers now fetchedAt "USD" ++ eventsOf answers now fetchedAt "EUR"
    previousCache := s.cache
    fetchedAt := some fetchedAt
    retryAfter := none
    health := healthOf answers now }

/-- `_refresh` when a request fails. -/
def refreshFailed (now : Instant) (kind : String) (s : State) : State :=
  { s with
    health := kind
    retryAfter := some (now + if kind = "RATE_LIMITED" then 3600 * SECOND else 300 * SECOND) }

/-- The snapshot is missing or older than the cache time. -/
def stale (cacheSeconds : ℕ) (s : State) (now : Instant) : Bool :=
  match s.fetchedAt with
  | none => true
  | some fetchedAt => decide (cacheSeconds * SECOND ≤ now - fetchedAt)

/-- A failure is waited out. -/
def waits (s : State) (now : Instant) : Bool :=
  match s.retryAfter with
  | some time => decide (now < time)
  | none => false

/-- The time that an event carries is not after the slot. -/
def fetchedBy (asOf : Instant) (event : MacroEvent) : Bool :=
  match event.fetchedAt with
  | some time => decide (time ≤ asOf)
  | none => false

/-- The later fetch of two, the second one when they are equal. -/
def supersedes (event prior : MacroEvent) : Bool :=
  match event.fetchedAt, prior.fetchedAt with
  | some time, some earlier => decide (earlier ≤ time)
  | _, _ => false

/-- One turn of the loop over the snapshots: of one id the later fetch is kept. -/
def keepLatest (asOf : Instant) (kept : Table MacroEvent.eventId) (event : MacroEvent) :
    Table MacroEvent.eventId :=
  if fetchedBy asOf event = false then kept
  else
    match kept.get? event.eventId with
    | none => kept.put event
    | some prior => if supersedes event prior then kept.put event else kept

/-- What a slot sees of the two snapshots. -/
def visible (s : State) (asOf : Instant) : List MacroEvent :=
  ((s.previousCache ++ s.cache).foldl (keepLatest asOf) Table.empty).rows

/-- One call of `macro_events_at`: the clock before and after, the slot, and what a refresh
would be answered. -/
structure Call where
  now : Instant
  done : Instant
  asOf : Instant
  answers : Except String Answers

/-- `macro_events_at`. -/
def macroEventsAt (cacheSeconds : ℕ) (s : State) (c : Call) :
    State × Except String (List MacroEvent) :=
  if stale cacheSeconds s c.now then
    if waits s c.now then
      if s.fetchedAt = none then (s, .error "FXMacroDataError")
      else
        let s := { s with health := "PARTIAL" }
        (s, .ok (visible s c.asOf))
    else
      match c.answers with
      | .error kind => (refreshFailed c.now kind s, .error "FXMacroDataError")
      | .ok answers =>
          let s := refresh c.now c.done answers s
          (s, .ok (visible s c.asOf))
  else (s, .ok (visible s c.asOf))

/-! ## What a slot sees -/

variable {asOf : Instant}

theorem mem_keepLatest {kept : Table MacroEvent.eventId} {event e : MacroEvent}
    (h : e ∈ keepLatest asOf kept event) :
    e ∈ kept ∨ e = event ∧ fetchedBy asOf event = true := by
  have hput : fetchedBy asOf event = true → e ∈ kept.put event →
      e ∈ kept ∨ e = event ∧ fetchedBy asOf event = true := by
    intro hby h
    obtain rfl | ⟨h, -⟩ := Table.mem_put.mp h
    · exact .inr ⟨rfl, hby⟩
    · exact .inl h
  unfold keepLatest at h
  split_ifs at h with hfetched
  · exact .inl h
  · have hby : fetchedBy asOf event = true := by simpa using hfetched
    split at h
    · exact hput hby h
    · split_ifs at h
      · exact hput hby h
      · exact .inl h

/-- What is kept for an id stays kept, in this copy or another. -/
theorem keepLatest_keeps (asOf : Instant) (event : MacroEvent)
    {kept : Table MacroEvent.eventId} {e : MacroEvent}
    (h : e ∈ kept) : ∃ e' ∈ keepLatest asOf kept event, e'.eventId = e.eventId := by
  have hput : ∃ e' ∈ kept.put event, e'.eventId = e.eventId := by
    by_cases hid : e.eventId = event.eventId
    · exact ⟨event, Table.mem_put.mpr (.inl rfl), hid.symm⟩
    · exact ⟨e, Table.mem_put.mpr (.inr ⟨h, hid⟩), rfl⟩
  unfold keepLatest
  split_ifs
  · exact ⟨e, h, rfl⟩
  · split
    · exact hput
    · split_ifs
      · exact hput
      · exact ⟨e, h, rfl⟩

/-- An event that the slot may see is kept, in this copy or another. -/
theorem keepLatest_self (kept : Table MacroEvent.eventId) {event : MacroEvent}
    (h : fetchedBy asOf event = true) :
    ∃ e' ∈ keepLatest asOf kept event, e'.eventId = event.eventId := by
  have hput : ∃ e' ∈ kept.put event, e'.eventId = event.eventId :=
    ⟨event, Table.mem_put.mpr (.inl rfl), rfl⟩
  unfold keepLatest
  rw [if_neg (by simp [h])]
  split
  · exact hput
  · next prior hprior =>
    split_ifs
    · exact hput
    · exact ⟨prior, (Table.get?_eq_some.mp hprior).1, (Table.get?_eq_some.mp hprior).2⟩

theorem mem_foldl_keepLatest {events : List MacroEvent} {kept : Table MacroEvent.eventId}
    {e : MacroEvent} (h : e ∈ events.foldl (keepLatest asOf) kept) :
    e ∈ kept ∨ e ∈ events ∧ fetchedBy asOf e = true := by
  induction events generalizing kept with
  | nil => exact .inl h
  | cons event events ih =>
    obtain h | ⟨hmem, hby⟩ := ih h
    · obtain h | ⟨rfl, hby⟩ := mem_keepLatest h
      · exact .inl h
      · exact .inr ⟨List.mem_cons_self, hby⟩
    · exact .inr ⟨List.mem_cons_of_mem _ hmem, hby⟩

theorem foldl_keepLatest_keeps (asOf : Instant) (events : List MacroEvent)
    {kept : Table MacroEvent.eventId} {e : MacroEvent} (h : e ∈ kept) :
    ∃ e' ∈ events.foldl (keepLatest asOf) kept, e'.eventId = e.eventId := by
  induction events generalizing kept e with
  | nil => exact ⟨e, h, rfl⟩
  | cons event events ih =>
    obtain ⟨e₁, hmem, hid⟩ := keepLatest_keeps asOf event h
    obtain ⟨e₂, hmem₂, hid₂⟩ := ih hmem
    exact ⟨e₂, hmem₂, hid₂.trans hid⟩

/-- A slot sees no event that was fetched after it, and none that is in neither snapshot. -/
theorem of_mem_visible {s : State} {e : MacroEvent} (h : e ∈ visible s asOf) :
    e ∈ s.previousCache ++ s.cache ∧ fetchedBy asOf e = true := by
  obtain h | h := mem_foldl_keepLatest (Table.mem_def.mpr h)
  · exact absurd h Table.not_mem_empty
  · exact h

/-- A slot sees every event of the two snapshots that was fetched by then, in one copy. -/
theorem mem_visible {s : State} {e : MacroEvent} (h : e ∈ s.previousCache ++ s.cache)
    (hby : fetchedBy asOf e = true) : ∃ e' ∈ visible s asOf, e'.eventId = e.eventId := by
  obtain ⟨before, after, hsplit⟩ := List.append_of_mem h
  unfold visible
  rw [hsplit, List.foldl_append, List.foldl_cons]
  obtain ⟨e₁, hmem, hid⟩ :=
    keepLatest_self (before.foldl (keepLatest asOf) Table.empty) hby
  obtain ⟨e₂, hmem₂, hid₂⟩ := foldl_keepLatest_keeps asOf after hmem
  exact ⟨e₂, hmem₂, hid₂.trans hid⟩

end MarketSystem.FxMacroData
