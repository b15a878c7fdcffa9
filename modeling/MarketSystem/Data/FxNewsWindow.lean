import MarketSystem.Data.FxMacroData
import MarketSystem.Data.NewsWindow

/-!
# Releases of the FXMacroData provider

A refresh that begins at or after the release does not keep it, and two refreshes later no
snapshot does. What a slot in the window sees of the release is therefore what the last
two refreshes kept that began before it.
-/
namespace MarketSystem.FxNewsWindow

open Library MacroNewsAgent FxMacroData NewsWindow

/-- The provider with the cache time of its constructor. -/
def fxMacroData (cacheSeconds : ℕ) : MacroProvider State Answers where
  fresh := {}
  refreshDue := fun s now => stale cacheSeconds s now && !waits s now
  macroEventsAt := fun s c => macroEventsAt cacheSeconds s ⟨c.now, c.done, c.asOf, c.answers⟩
  health := State.health

/-- A row of the calendar that is exact and of high impact. -/
structure FxRelease where
  currency : String
  row : CalendarRow
  time : Instant
  category : String
  euroDollar : currency = "USD" ∨ currency = "EUR"
  high : HIGH_INDICATORS.lookup row.release = some category
  announced : row.announcement = some time
  exact : calendarTimeIsExact row = true

namespace FxRelease

/-- The release as the reports know it. -/
def release (r : FxRelease) : Release where
  id := eventId r.currency r.row r.time
  time := r.time
  currency := r.currency
  category := r.category
  sourceTimestamp := none
  named := by
    intro h
    have hlength := congrArg String.length h
    simp [eventId] at hlength
  euroDollar := r.euroDollar

/-- The calendar has the row whenever its date is asked for, and no other row carries its
id. -/
structure Listed (r : FxRelease) (now : Instant) (answers : Answers) : Prop where
  listed : r.row ∈ answers.calendar r.currency ↔
    date now ≤ date r.time ∧ date r.time ≤ date (now + 14 * DAY)
  alone : ∀ currency, currency = "USD" ∨ currency = "EUR" → ∀ row ∈ answers.calendar currency,
    ∀ time, row.announcement = some time → eventId currency row time = r.release.id →
      currency = r.currency ∧ row = r.row

/-- One of the two refreshes began before the release and was complete by the slot. -/
def Held (r : FxRelease) (asOf : Instant) (refreshes : Option Refresh × Option Refresh) : Prop :=
  ∃ refresh, (refreshes.1 = some refresh ∨ refreshes.2 = some refresh) ∧
    refresh.began < r.time ∧ refresh.complete ≤ asOf

end FxRelease

section OneRelease

variable (r : FxRelease)

/-- The id is in the snapshot. -/
def Has (cache : List MacroEvent) : Prop := ∃ event ∈ cache, event.eventId = some r.release.id

/-- A refresh that began by then asked for the date of the release. -/
def InRange (began : Instant) : Prop := date r.time ≤ date (began + 14 * DAY)

/-- What a snapshot holds of the release came with its refresh, which began before it. -/
def Origin (cache : List MacroEvent) (refresh : Option Refresh) : Prop :=
  ∀ event ∈ cache, event.eventId = some r.release.id → ∃ refresh', refresh = some refresh' ∧
    refresh'.began < r.time ∧ InRange r refresh'.began ∧
      IsCopy r.release refresh'.complete event

/-- The snapshot of a refresh that began before the release and asked for its date has it. -/
def Kept (cache : List MacroEvent) (refresh : Option Refresh) : Prop :=
  ∀ refresh', refresh = some refresh' → refresh'.began < r.time → InRange r refresh'.began →
    Has r cache

/-- What every desk satisfies. -/
structure Inv (d : Desk State) : Prop where
  calm : d.provider.retryAfter = none
  current : Origin r d.provider.cache d.current
  previous : Origin r d.provider.previousCache d.previous
  keptCurrent : Kept r d.provider.cache d.current
  keptPrevious : Kept r d.provider.previousCache d.previous
  past : ∀ refresh, d.current = some refresh → refresh.began ≤ d.clock
  order : ∀ earlier, d.previous = some earlier →
    ∃ refresh, d.current = some refresh ∧ earlier.began ≤ refresh.began

/-- What a desk satisfies from the first report of the release on: the refreshes asked for
its date, or the last one had it already. -/
structure Shown (d : Desk State) : Prop where
  clock : InRange r d.clock
  current : ∀ refresh, d.current = some refresh → InRange r refresh.began
  previous : ∀ refresh, d.previous = some refresh → InRange r refresh.began ∨
    ∃ last, d.current = some last ∧ last.began < r.time ∧ last.complete < r.time

end OneRelease

variable {r : FxRelease} {cacheSeconds : ℕ}

/-- The events of a refresh that carry the id are the release. -/
theorem copy_of_eventsOf {answers : Answers} {now fetchedAt : Instant} {currency : String}
    {event : MacroEvent} (hcurrency : currency = "USD" ∨ currency = "EUR")
    (hlisted : r.Listed now answers) (h : event ∈ eventsOf answers now fetchedAt currency)
    (hid : event.eventId = some r.release.id) :
    now < r.time ∧ InRange r now ∧ IsCopy r.release fetchedAt event := by
  obtain ⟨row, hrow, hevent⟩ := List.mem_filterMap.mp h
  obtain ⟨hmem, hrelevant⟩ := List.mem_filter.mp hrow
  obtain ⟨time, htime, rfl⟩ := Option.map_eq_some_iff.mp hevent
  obtain ⟨rfl, rfl⟩ := hlisted.alone currency hcurrency row hmem time htime
    (Option.some.inj hid)
  rw [r.announced] at htime
  cases htime
  have hnow : now < r.time := by
    simp only [relevant, r.announced, Bool.and_eq_true, decide_eq_true_eq] at hrelevant
    exact hrelevant.1.2
  refine ⟨hnow, (hlisted.listed.mp hmem).2, ?_⟩
  exact
    { eventId := rfl
      source := ⟨_, rfl, fun h => by
        have hlength := congrArg String.length h
        simp at hlength⟩
      sourceTimestamp := rfl
      eventTimestamp := rfl
      receivedAt := rfl
      category := r.high
      currency := rfl
      impact := rfl
      result := fun h => absurd rfl h
      knownAt := rfl
      fetchedAt := rfl }

/-- A refresh that begins before the release, within the range it asks for, has it. -/
theorem has_eventsOf {answers : Answers} {now fetchedAt : Instant}
    (hlisted : r.Listed now answers) (hnow : now < r.time)
    (hrange : InRange r now) :
    Has r (eventsOf answers now fetchedAt "USD" ++ eventsOf answers now fetchedAt "EUR") := by
  have hrow : r.row ∈ answers.calendar r.currency :=
    hlisted.listed.mpr ⟨date_mono (le_of_lt hnow), hrange⟩
  have hrelevant : relevant now r.row = true := by
    simp [relevant, r.high, r.announced, r.exact, hnow]
  have hevent : eventOf answers fetchedAt r.currency r.row r.time
      ∈ eventsOf answers now fetchedAt r.currency := by
    refine List.mem_filterMap.mpr ⟨r.row, List.mem_filter.mpr ⟨hrow, hrelevant⟩, ?_⟩
    rw [r.announced]
    rfl
  refine ⟨eventOf answers fetchedAt r.currency r.row r.time, ?_, rfl⟩
  obtain h | h := r.euroDollar
  · exact List.mem_append_left _ (h ▸ hevent)
  · exact List.mem_append_right _ (h ▸ hevent)

/-! ## One step -/

section Call

variable {d : Desk State} {c : NewsWindow.Cycle Answers}

/-- A call that refreshes. -/
theorem call_due (hdue : (fxMacroData cacheSeconds).refreshDue d.provider c.now = true)
    {answers : Answers} (hanswers : c.answers = .ok answers) :
    macroEventsAt cacheSeconds d.provider ⟨c.now, c.done, c.asOf, c.answers⟩
      = (refresh c.now c.done answers d.provider,
        .ok (visible (refresh c.now c.done answers d.provider) c.asOf)) := by
  simp only [fxMacroData, Bool.and_eq_true, Bool.not_eq_true'] at hdue
  simp [macroEventsAt, hdue.1, hdue.2, hanswers]

/-- A call that does not. -/
theorem call_fresh (hcalm : d.provider.retryAfter = none)
    (hdue : ¬(fxMacroData cacheSeconds).refreshDue d.provider c.now = true) :
    macroEventsAt cacheSeconds d.provider ⟨c.now, c.done, c.asOf, c.answers⟩
      = (d.provider, .ok (visible d.provider c.asOf)) := by
  have hstale : stale cacheSeconds d.provider c.now = false := by
    simpa [fxMacroData, waits, hcalm] using hdue
  simp [macroEventsAt, hstale]

end Call

theorem InRange.mono {a b : Instant} (h : InRange r a) (hab : a ≤ b) : InRange r b :=
  h.trans (date_mono (add_le_add_left hab _))

theorem inv_start (r : FxRelease) (clock : Instant) :
    Inv r (start (fxMacroData cacheSeconds) clock) where
  calm := rfl
  current := fun event hmem => absurd hmem List.not_mem_nil
  previous := fun event hmem => absurd hmem List.not_mem_nil
  keptCurrent := fun refresh hrefresh => by cases hrefresh
  keptPrevious := fun refresh hrefresh => by cases hrefresh
  past := fun refresh hrefresh => by cases hrefresh
  order := fun earlier hearlier => by cases hearlier

theorem step_inv (cacheSeconds : ℕ) {d : Desk State} {s : Step Answers} (h : Inv r d)
    (hok : Admissible r.Listed d s) : Inv r (step (fxMacroData cacheSeconds) d s) := by
  cases s with
  | restart => exact inv_start r d.clock
  | cycle c =>
    obtain ⟨answers, hanswers, hlisted⟩ := hok.answered
    have hclock := hok.clock
    have hduration := hok.duration
    by_cases hdue : (fxMacroData cacheSeconds).refreshDue d.provider c.now = true
    · have hcall := call_due hdue hanswers
      have hfetched : max c.now c.done = c.done := max_eq_right hduration
      have hprovider : ((fxMacroData cacheSeconds).macroEventsAt d.provider c).1
          = refresh c.now c.done answers d.provider := congrArg Prod.fst hcall
      unfold step refreshed
      simp only [hdue, if_true, hprovider]
      refine
        { calm := rfl
          current := ?_
          previous := h.current
          keptCurrent := ?_
          keptPrevious := h.keptCurrent
          past := ?_
          order := ?_ }
      · intro event hmem hid
        simp only [refresh, hfetched] at hmem
        have hcopy : c.now < r.time ∧ InRange r c.now ∧ IsCopy r.release c.done event := by
          obtain hmem | hmem := List.mem_append.mp hmem
          · exact copy_of_eventsOf (.inl rfl) hlisted hmem hid
          · exact copy_of_eventsOf (.inr rfl) hlisted hmem hid
        exact ⟨⟨c.now, c.done⟩, rfl, hcopy⟩
      · intro refresh hrefresh hbegan hrange
        cases hrefresh
        exact has_eventsOf hlisted hbegan hrange
      · intro refresh hrefresh
        cases hrefresh
        exact hduration
      · intro earlier hearlier
        exact ⟨⟨c.now, c.done⟩, rfl, (h.past earlier hearlier).trans hclock⟩
    · have hprovider : ((fxMacroData cacheSeconds).macroEventsAt d.provider c).1 = d.provider :=
        congrArg Prod.fst (call_fresh h.calm hdue)
      unfold step refreshed
      simp only [hdue, hprovider]
      exact
        { calm := h.calm
          current := h.current
          previous := h.previous
          keptCurrent := h.keptCurrent
          keptPrevious := h.keptPrevious
          past := fun refresh hrefresh =>
            (h.past refresh hrefresh).trans (hclock.trans hduration)
          order := h.order }

theorem step_shown (cacheSeconds : ℕ) {d : Desk State} {s : Step Answers} (h : Shown r d)
    (hok : Admissible r.Listed d s) : Shown r (step (fxMacroData cacheSeconds) d s) := by
  cases s with
  | restart =>
    exact
      { clock := h.clock
        current := fun refresh hrefresh => by cases hrefresh
        previous := fun refresh hrefresh => by cases hrefresh }
  | cycle c =>
    have hnow : InRange r c.now := h.clock.mono hok.clock
    have hdone : InRange r c.done := hnow.mono hok.duration
    by_cases hdue : (fxMacroData cacheSeconds).refreshDue d.provider c.now = true
    · unfold step refreshed
      simp only [hdue, if_true]
      refine
        { clock := hdone
          current := ?_
          previous := fun refresh hrefresh => .inl (h.current refresh hrefresh) }
      intro refresh hrefresh
      cases hrefresh
      exact hnow
    · unfold step refreshed
      simp only [hdue]
      exact
        { clock := hdone
          current := h.current
          previous := h.previous }

/-- A cycle reads the provider as it is afterwards. -/
theorem macroReport_eq {d : Desk State} {c : NewsWindow.Cycle Answers} (h : Inv r d)
    (hok : Answered r.Listed d c) :
    macroReport (fxMacroData cacheSeconds) d c =
      let s := (step (fxMacroData cacheSeconds) d (.cycle c)).provider
      analizarMacroNews (.ok (visible s c.asOf)) s.health c.symbol c.asOf c.runId := by
  obtain ⟨answers, hanswers, -⟩ := hok.answered
  by_cases hdue : (fxMacroData cacheSeconds).refreshDue d.provider c.now = true
  · have hcall : (fxMacroData cacheSeconds).macroEventsAt d.provider c = _ :=
      call_due hdue hanswers
    simp only [macroReport, step, hcall]
    rfl
  · have hcall : (fxMacroData cacheSeconds).macroEventsAt d.provider c = _ :=
      call_fresh h.calm hdue
    simp only [macroReport, step, hcall]
    rfl

/-- What a slot sees under the id is the release, as fetched by then. -/
theorem copy_of_visible {d : Desk State} {asOf : Instant} {event : MacroEvent} (h : Inv r d)
    (hmem : event ∈ visible d.provider asOf) (hid : event.eventId = some r.release.id) :
    ∃ refresh, (event ∈ d.provider.cache ∧ d.current = some refresh
        ∨ event ∈ d.provider.previousCache ∧ d.previous = some refresh) ∧
      refresh.began < r.time ∧ InRange r refresh.began ∧ refresh.complete ≤ asOf ∧
        IsCopy r.release refresh.complete event := by
  obtain ⟨hmem, hby⟩ := of_mem_visible hmem
  have hfetched : ∀ refresh : Refresh, IsCopy r.release refresh.complete event →
      refresh.complete ≤ asOf := by
    intro refresh hcopy
    simpa [fetchedBy, hcopy.fetchedAt] using hby
  obtain hprevious | hcurrent := List.mem_append.mp hmem
  · obtain ⟨refresh, hrefresh, hbegan, hrange, hcopy⟩ := h.previous event hprevious hid
    exact ⟨refresh, .inr ⟨hprevious, hrefresh⟩, hbegan, hrange, hfetched refresh hcopy, hcopy⟩
  · obtain ⟨refresh, hrefresh, hbegan, hrange, hcopy⟩ := h.current event hcurrent hid
    exact ⟨refresh, .inl ⟨hcurrent, hrefresh⟩, hbegan, hrange, hfetched refresh hcopy, hcopy⟩

/-- The cycle that reports the release as upcoming has it within the range. -/
theorem shown_of_reported {d : Desk State} {c : NewsWindow.Cycle Answers} (h : Inv r d)
    (hok : Answered r.Listed d c)
    (hreported : Reported r.release .upcoming (macroReport (fxMacroData cacheSeconds) d c)) :
    Shown r (step (fxMacroData cacheSeconds) d (.cycle c)) := by
  have hinv := step_inv cacheSeconds h (s := .cycle c) hok
  rw [macroReport_eq h hok] at hreported
  obtain ⟨event, hmem, hid, item, hjudge, hwindow⟩ := of_reported hok.symbol hreported
  obtain ⟨refresh, hfrom, hbegan, hrange, hcomplete, hcopy⟩ := copy_of_visible hinv hmem hid
  have htime : r.time = item.eventTimestamp := by
    have := (of_judge_accepted hjudge).2.2.1
    rw [hcopy.eventTimestamp] at this
    exact Option.some.inj this
  have hupcoming : c.asOf < r.time := by
    rw [htime]
    exact lt_of_window_upcoming ((of_judge_accepted hjudge).2.2.2.symm.trans hwindow)
  have hsooner : refresh.complete < r.time := lt_of_le_of_lt hcomplete hupcoming
  generalize step (fxMacroData cacheSeconds) d (.cycle c) = d' at hinv hfrom
  obtain ⟨-, hcurrent⟩ | ⟨-, hprevious⟩ := hfrom
  · exact
      { clock := hrange.mono (hinv.past refresh hcurrent)
        current := fun other hother => by
          rw [hcurrent] at hother
          cases hother
          exact hrange
        previous := fun _ _ => .inr ⟨refresh, hcurrent, hbegan, hsooner⟩ }
  · obtain ⟨last, hlast, horder⟩ := hinv.order refresh hprevious
    have hlastRange : InRange r last.began := hrange.mono horder
    exact
      { clock := hlastRange.mono (hinv.past last hlast)
        current := fun other hother => by
          rw [hlast] at hother
          cases hother
          exact hlastRange
        previous := fun other hother => by
          rw [hprevious] at hother
          cases hother
          exact .inl hrange }

/-- A copy that was fetched by the slot is seen, or another one with its id. -/
theorem visible_of_copy {s : State} {event : MacroEvent} {fetchedAt asOf : Instant}
    (hmem : event ∈ s.previousCache ++ s.cache) (hcopy : IsCopy r.release fetchedAt event)
    (hfetched : fetchedAt ≤ asOf) :
    ∃ event ∈ visible s asOf, event.eventId = some r.release.id := by
  have hby : fetchedBy asOf event = true := by
    simpa [fetchedBy, hcopy.fetchedAt] using hfetched
  obtain ⟨seen, hseen, hid⟩ := mem_visible hmem hby
  exact ⟨seen, hseen, hid.trans hcopy.eventId⟩

/-- A refresh that the slot may rely on left it a copy. -/
theorem has_of_held {d : Desk State} {asOf : Instant} (h : Inv r d) (hshown : Shown r d)
    (hfrom : r.time ≤ asOf) (hheld : r.Held asOf (d.current, d.previous)) :
    ∃ event ∈ visible d.provider asOf, event.eventId = some r.release.id := by
  have hcurrent : ∀ refresh, d.current = some refresh → refresh.began < r.time →
      refresh.complete ≤ asOf →
      ∃ event ∈ visible d.provider asOf, event.eventId = some r.release.id := by
    intro refresh hrefresh hbegan hcomplete
    obtain ⟨event, hmem, hid⟩ :=
      h.keptCurrent refresh hrefresh hbegan (hshown.current refresh hrefresh)
    obtain ⟨refresh', hrefresh', -, -, hcopy⟩ := h.current event hmem hid
    obtain rfl : refresh = refresh' := Option.some.inj (hrefresh.symm.trans hrefresh')
    exact visible_of_copy (List.mem_append_right _ hmem) hcopy hcomplete
  obtain ⟨refresh, hrefresh | hrefresh, hbegan, hcomplete⟩ := hheld
  · exact hcurrent refresh hrefresh hbegan hcomplete
  · obtain hrange | ⟨last, hlast, hlastBegan, hlastComplete⟩ := hshown.previous refresh hrefresh
    · obtain ⟨event, hmem, hid⟩ := h.keptPrevious refresh hrefresh hbegan hrange
      obtain ⟨refresh', hrefresh', -, -, hcopy⟩ := h.previous event hmem hid
      obtain rfl : refresh = refresh' := Option.some.inj (hrefresh.symm.trans hrefresh')
      exact visible_of_copy (List.mem_append_left _ hmem) hcopy hcomplete
    · exact hcurrent last hlast hlastBegan ((le_of_lt hlastComplete).trans hfrom)

/-- The categories of the indicators concern a symbol through its currency. -/
theorem byCurrency (r : FxRelease) : ByCurrency r.category := by
  have hall : ∀ indicator ∈ HIGH_INDICATORS, indicator.2.toLower ∈ RELEVANT_CATEGORIES ∧
      indicator.2.toLower ≠ "risk_event" := by decide +kernel
  obtain ⟨before, after, hsplit⟩ := List.lookup_eq_some_iff.mp r.high
  exact hall (r.row.release, r.category) (by rw [hsplit.1]; simp)

/-! ## The window -/

/-- In its window the release blocks exactly when it concerns the symbol and the slot may
rely on one of the last two refreshes. -/
theorem blocks_iff {d : Desk State} {c : NewsWindow.Cycle Answers} (h : Inv r d) (hshown : Shown r d)
    (hok : Answered r.Listed d c) (hfrom : r.time ≤ c.asOf)
    (hto : c.asOf ≤ r.time + ACTIVE_WINDOW) :
    Blocks r.release (macroReport (fxMacroData cacheSeconds) d c) c.symbol c.runId c.asOf ↔
      Concerns r.currency c.symbol ∧
        r.Held c.asOf (refreshed (fxMacroData cacheSeconds) d c) := by
  have hinv := step_inv cacheSeconds h (s := .cycle c) hok
  have hshown := step_shown cacheSeconds hshown (s := .cycle c) hok
  have hrefreshed : refreshed (fxMacroData cacheSeconds) d c =
      ((step (fxMacroData cacheSeconds) d (.cycle c)).current,
        (step (fxMacroData cacheSeconds) d (.cycle c)).previous) := rfl
  rw [macroReport_eq h hok, hrefreshed]
  generalize step (fxMacroData cacheSeconds) d (.cycle c) = d' at hinv hshown
  constructor
  · intro hblocks
    obtain ⟨event, hmem, hid, item, hjudge, -⟩ := of_reported hok.symbol hblocks.active
    obtain ⟨refresh, hin, hbegan, -, hcomplete, hcopy⟩ := copy_of_visible hinv hmem hid
    have hconcerns : Concerns r.currency c.symbol :=
      (macroRelevant_iff hcopy (byCurrency r)).mp (of_judge_accepted hjudge).2.1
    refine ⟨hconcerns, refresh, ?_, hbegan, hcomplete⟩
    exact hin.imp And.right And.right
  · rintro ⟨hconcerns, hheld⟩
    refine blocks_of_copy hok.symbol hfrom hto rfl (byCurrency r) hconcerns ?_
      (has_of_held hinv hshown hfrom hheld)
    intro event hmem hid
    obtain ⟨refresh, -, -, -, hcomplete, hcopy⟩ := copy_of_visible hinv hmem hid
    exact ⟨refresh.complete, hcomplete, hcopy⟩

end MarketSystem.FxNewsWindow
