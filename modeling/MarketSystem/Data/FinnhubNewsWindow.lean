import MarketSystem.Data.FinnhubMacro
import MarketSystem.Data.NewsWindow
import MarketSystem.Library.Refusal

/-!
# Releases of the Finnhub provider

The calendar is asked for from yesterday on, so a snapshot that is not stale has every
release of the hour before. What a slot sees of it is decided by one thing: whether the
snapshot was fetched by the slot.
-/
namespace MarketSystem.FinnhubNewsWindow

open Library MacroNewsAgent FinnhubMacro NewsWindow
open FxMacroData (SECOND DAY date)

variable (digest : String → Instant → String → String)

/-- The provider with the cache time of its constructor. -/
def finnhub (cacheSeconds : ℕ) : MacroProvider State (List CalendarItem) where
  fresh := {}
  refreshDue := stale cacheSeconds
  macroEventsAt := fun s c => macroEventsAt digest cacheSeconds s c.now c.asOf c.answers
  health := State.health

/-- An item of the calendar that is of high impact. -/
structure FinnhubRelease where
  item : CalendarItem
  event : EconomicCalendarEvent
  normal : FinnhubMacro.normalize digest event.fetchedAt item = .ok event
  euroDollar : event.currency = "USD" ∨ event.currency = "EUR"
  high : event.importance = "HIGH"

variable {digest}

/-- The time of a fetch and a result go into the event and nowhere else. -/
theorem normalize_update {item : CalendarItem} {event : EconomicCalendarEvent}
    {fetchedAt : Instant} (h : FinnhubMacro.normalize digest fetchedAt item = .ok event) (later : Instant)
    (actual : Option String) :
    FinnhubMacro.normalize digest later { item with actual := actual }
      = .ok { event with fetchedAt := later, actual := actual } := by
  unfold FinnhubMacro.normalize at h ⊢
  split at h
  · next country title hcountry htitle =>
    split_ifs at h with hblank
    obtain ⟨time, htime, h⟩ := bind_eq_ok.mp h
    obtain ⟨source, hsource, h⟩ := bind_eq_ok.mp h
    cases h
    simp only [hcountry, htitle, if_neg hblank, htime, hsource]
    rfl
  · cases h

theorem fetchedAt_of_normalize {item : CalendarItem} {event : EconomicCalendarEvent}
    {fetchedAt : Instant} (h : FinnhubMacro.normalize digest fetchedAt item = .ok event) :
    event.fetchedAt = fetchedAt := by
  have hsame := normalize_update h fetchedAt item.actual
  rw [show ({ item with actual := item.actual } : CalendarItem) = item from rfl, h] at hsame
  exact congrArg EconomicCalendarEvent.fetchedAt (Except.ok.inj hsame)

theorem eventId_of_normalize {item : CalendarItem} {event : EconomicCalendarEvent}
    {fetchedAt : Instant} (h : FinnhubMacro.normalize digest fetchedAt item = .ok event) :
    event.eventId ≠ "" := by
  unfold FinnhubMacro.normalize at h
  split at h
  · split_ifs at h
    obtain ⟨time, -, h⟩ := bind_eq_ok.mp h
    obtain ⟨source, -, h⟩ := bind_eq_ok.mp h
    cases h
    intro hempty
    have hlength := congrArg String.length hempty
    simp at hlength
  · cases h

namespace FinnhubRelease

/-- The release as the reports know it. -/
def release (r : FinnhubRelease digest) : Release where
  id := r.event.eventId
  time := r.event.eventTimeUtc
  currency := r.event.currency
  category := category r.event.event
  sourceTimestamp := r.event.sourceTimestamp
  named := eventId_of_normalize r.normal
  euroDollar := r.euroDollar

/-- The calendar is accepted; it has the item whenever its date is asked for, with a result
or without, and no other item carries its id. -/
structure Listed (r : FinnhubRelease digest) (now : Instant) (items : List CalendarItem) :
    Prop where
  accepted : ∃ events, items.mapM (FinnhubMacro.normalize digest now) = .ok events
  listed : (∃ actual, { r.item with actual := actual } ∈ items) ↔
    date (now - DAY) ≤ date r.event.eventTimeUtc ∧ date r.event.eventTimeUtc ≤ date (now + 7 * DAY)
  alone : ∀ item ∈ items, ∀ event, FinnhubMacro.normalize digest now item = .ok event →
    event.eventId = r.event.eventId → ∃ actual, item = { r.item with actual := actual }

/-- The snapshot was fetched by the slot. -/
def Held (asOf : Instant) (refreshes : Option Refresh × Option Refresh) : Prop :=
  ∃ refresh, refreshes.1 = some refresh ∧ refresh.began ≤ asOf

end FinnhubRelease

section OneRelease

variable (r : FinnhubRelease digest)

/-- What every desk satisfies. -/
structure Inv (d : Desk State) : Prop where
  fetchedAt : d.provider.fetchedAt = d.current.map Refresh.began
  past : ∀ refresh, d.current = some refresh → refresh.began ≤ d.clock
  fetched : ∀ event ∈ d.provider.cache, d.provider.fetchedAt = some event.fetchedAt
  copies : ∀ event ∈ d.provider.cache, event.eventId = r.event.eventId →
    ∃ fetchedAt actual, event = { r.event with fetchedAt := fetchedAt, actual := actual }
  kept : ∀ refresh, d.current = some refresh →
    date (refresh.began - DAY) ≤ date r.event.eventTimeUtc →
    date r.event.eventTimeUtc ≤ date (refresh.began + 7 * DAY) →
    ∃ event ∈ d.provider.cache, event.eventId = r.event.eventId

end OneRelease

variable {r : FinnhubRelease digest} {cacheSeconds : ℕ}

/-! ## One step -/

section Call

variable {d : Desk State} {c : NewsWindow.Cycle (List CalendarItem)}

/-- The provider after a refresh that was answered. -/
def updated (now : Instant) (events : List EconomicCalendarEvent) : State where
  cache := events
  fetchedAt := some now
  health := if events = [] then "EMPTY" else "READY"

/-- A call that refreshes. -/
theorem call_due (hdue : stale cacheSeconds d.provider c.now = true) {items : List CalendarItem}
    (hanswers : c.answers = .ok items) {events : List EconomicCalendarEvent}
    (hevents : items.mapM (FinnhubMacro.normalize digest c.now) = .ok events) :
    macroEventsAt digest cacheSeconds d.provider c.now c.asOf c.answers
      = (updated c.now events, .ok (visible (updated c.now events) c.asOf)) := by
  simp [macroEventsAt, hdue, refresh, hanswers, hevents, updated]

/-- A call that does not. -/
theorem call_fresh (hdue : ¬stale cacheSeconds d.provider c.now = true) :
    macroEventsAt digest cacheSeconds d.provider c.now c.asOf c.answers
      = (d.provider, .ok (visible d.provider c.asOf)) := by
  simp [macroEventsAt, hdue]

end Call

theorem inv_start (r : FinnhubRelease digest) (clock : Instant) :
    Inv r (start (finnhub digest cacheSeconds) clock) where
  fetchedAt := rfl
  past := fun refresh hrefresh => by cases hrefresh
  fetched := fun event hmem => absurd hmem List.not_mem_nil
  copies := fun event hmem => absurd hmem List.not_mem_nil
  kept := fun refresh hrefresh => by cases hrefresh

theorem step_inv (cacheSeconds : ℕ) {d : Desk State} {s : Step (List CalendarItem)} (h : Inv r d)
    (hok : Admissible r.Listed d s) : Inv r (step (finnhub digest cacheSeconds) d s) := by
  cases s with
  | restart => exact inv_start r d.clock
  | cycle c =>
    obtain ⟨items, hanswers, hlisted⟩ := hok.answered
    have hclock := hok.clock
    have hduration := hok.duration
    by_cases hdue : stale cacheSeconds d.provider c.now = true
    · obtain ⟨events, hevents⟩ := hlisted.accepted
      have hprovider : ((finnhub digest cacheSeconds).macroEventsAt d.provider c).1
          = updated c.now events := congrArg Prod.fst (call_due hdue hanswers hevents)
      have hrefreshDue : (finnhub digest cacheSeconds).refreshDue d.provider c.now = true := hdue
      unfold step refreshed
      simp only [hrefreshDue, if_true, hprovider]
      refine
        { fetchedAt := rfl
          past := ?_
          fetched := ?_
          copies := ?_
          kept := ?_ }
      · intro refresh hrefresh
        cases hrefresh
        exact hduration
      · intro event hmem
        obtain ⟨item, -, hitem⟩ := (mem_of_mapM_ok hevents event).mp hmem
        exact congrArg some (fetchedAt_of_normalize hitem).symm
      · intro event hmem hid
        obtain ⟨item, hitem, hnormal⟩ := (mem_of_mapM_ok hevents event).mp hmem
        obtain ⟨actual, rfl⟩ := hlisted.alone item hitem event hnormal hid
        rw [normalize_update r.normal] at hnormal
        cases hnormal
        exact ⟨_, _, rfl⟩
      · intro refresh hrefresh hfrom hto
        cases hrefresh
        obtain ⟨actual, hitem⟩ := hlisted.listed.mpr ⟨hfrom, hto⟩
        exact ⟨_, (mem_of_mapM_ok hevents _).mpr ⟨_, hitem, normalize_update r.normal _ _⟩, rfl⟩
    · have hprovider : ((finnhub digest cacheSeconds).macroEventsAt d.provider c).1 = d.provider :=
        congrArg Prod.fst (call_fresh hdue)
      have hrefreshDue : ¬(finnhub digest cacheSeconds).refreshDue d.provider c.now = true := hdue
      unfold step refreshed
      simp only [hrefreshDue, hprovider]
      exact
        { fetchedAt := h.fetchedAt
          past := fun refresh hrefresh =>
            (h.past refresh hrefresh).trans (hclock.trans hduration)
          fetched := h.fetched
          copies := h.copies
          kept := h.kept }

/-- A cycle reads the provider as it is afterwards. -/
theorem macroReport_eq {d : Desk State} {c : NewsWindow.Cycle (List CalendarItem)}
    (hok : Answered r.Listed d c) :
    macroReport (finnhub digest cacheSeconds) d c =
      let s := (step (finnhub digest cacheSeconds) d (.cycle c)).provider
      analizarMacroNews (.ok (visible s c.asOf)) s.health c.symbol c.asOf c.runId := by
  obtain ⟨items, hanswers, hlisted⟩ := hok.answered
  by_cases hdue : stale cacheSeconds d.provider c.now = true
  · obtain ⟨events, hevents⟩ := hlisted.accepted
    have hcall : (finnhub digest cacheSeconds).macroEventsAt d.provider c = _ :=
      call_due hdue hanswers hevents
    simp only [macroReport, step, hcall]
    rfl
  · have hcall : (finnhub digest cacheSeconds).macroEventsAt d.provider c = _ := call_fresh hdue
    simp only [macroReport, step, hcall]
    rfl

/-- What a slot sees under the id is the release, as fetched by then. -/
theorem copy_of_visible {d : Desk State} {asOf : Instant} {event : MacroEvent} (h : Inv r d)
    (hmem : event ∈ visible d.provider asOf) (hid : event.eventId = some r.release.id) :
    ∃ fetchedAt ≤ asOf, d.provider.fetchedAt = some fetchedAt ∧
      IsCopy r.release fetchedAt event := by
  unfold visible at hmem
  obtain ⟨source, hsource, rfl⟩ := List.mem_map.mp hmem
  simp only [List.mem_filter, decide_eq_true_eq] at hsource
  obtain ⟨⟨hcache, hby⟩, -⟩ := hsource
  have hfetched := h.fetched source hcache
  obtain ⟨fetchedAt, actual, rfl⟩ := h.copies source hcache (Option.some.inj hid)
  refine ⟨fetchedAt, hby, hfetched, ?_⟩
  exact
    { eventId := rfl
      source := ⟨_, rfl, by decide⟩
      sourceTimestamp := rfl
      eventTimestamp := rfl
      receivedAt := rfl
      category := rfl
      currency := rfl
      impact := congrArg some r.high
      result := fun hactual => if_neg hactual
      knownAt := rfl
      fetchedAt := rfl }

/-- Every category that moves a symbol at all does it through the currency. -/
theorem category_cases (title : String) :
    category title = "unknown" ∨ ByCurrency (category title) := by
  unfold category ByCurrency
  dsimp only
  split_ifs
  · exact .inr (by decide +kernel)
  · exact .inr (by decide +kernel)
  · exact .inr (by decide +kernel)
  · exact .inr (by decide +kernel)
  · exact .inl rfl

/-- What is reported is of a category that moves symbols. -/
theorem byCurrency_of_relevant {event : MacroEvent} {fetchedAt : Instant} {symbol : String}
    (hcopy : IsCopy r.release fetchedAt event) (h : macroRelevant event symbol = true) :
    ByCurrency r.release.category := by
  obtain hunknown | hcategory := category_cases r.event.event
  · have hcat : event.category = some "unknown" := hcopy.category.trans (congrArg some hunknown)
    have hirrelevant : "unknown".toLower ∉ RELEVANT_CATEGORIES := by decide +kernel
    simp [macroRelevant, hcat, hirrelevant] at h
  · exact hcategory

/-! ## The window -/

/-- What the report of the release as upcoming tells about it. -/
structure Known (r : FinnhubRelease digest) (asOf : Instant) : Prop where
  category : ByCurrency r.release.category
  source : later r.release.sourceTimestamp asOf = false
  upcoming : asOf < r.release.time

theorem known_of_reported {d : Desk State} {c : NewsWindow.Cycle (List CalendarItem)} (h : Inv r d)
    (hok : Answered r.Listed d c)
    (hreported : Reported r.release .upcoming (macroReport (finnhub digest cacheSeconds) d c)) :
    Known r c.asOf := by
  have hinv := step_inv cacheSeconds h (s := .cycle c) hok
  rw [macroReport_eq hok] at hreported
  obtain ⟨event, hmem, hid, item, hjudge, hwindow⟩ := of_reported hok.symbol hreported
  obtain ⟨fetchedAt, -, -, hcopy⟩ := copy_of_visible hinv hmem hid
  obtain ⟨-, hrelevant, htime, hitem⟩ := of_judge_accepted hjudge
  rw [hcopy.eventTimestamp] at htime
  have hsource := (not_later_of_judge_accepted hjudge).1
  rw [hcopy.sourceTimestamp] at hsource
  exact
    { category := byCurrency_of_relevant hcopy hrelevant
      source := hsource
      upcoming := Option.some.inj htime ▸ lt_of_window_upcoming (hitem.symm.trans hwindow) }

theorem later_mono {time : Option Instant} {a b : Instant} (h : later time a = false)
    (hab : a ≤ b) : later time b = false := by
  cases time with
  | none => rfl
  | some time =>
    simp only [later, decide_eq_false_iff_not, not_lt] at h ⊢
    exact h.trans hab

/-- A provider that has been asked holds a snapshot of the last day. -/
theorem current_of_step {d : Desk State} {c : NewsWindow.Cycle (List CalendarItem)} (h : Inv r d)
    (hcache : cacheSeconds ≤ 86400) :
    ∃ refresh, (step (finnhub digest cacheSeconds) d (.cycle c)).current = some refresh ∧
      c.now < refresh.began + DAY := by
  have hday : DAY = 86400 * SECOND := by decide
  have hsecond : (0 : ℤ) < SECOND := by decide
  by_cases hdue : stale cacheSeconds d.provider c.now = true
  · have hrefreshDue : (finnhub digest cacheSeconds).refreshDue d.provider c.now = true := hdue
    refine ⟨⟨c.now, c.done⟩, by simp [step, refreshed, hrefreshDue], ?_⟩
    exact lt_add_of_pos_right _ (by rw [hday]; exact mul_pos (by decide) hsecond)
  · have hrefreshDue : ¬(finnhub digest cacheSeconds).refreshDue d.provider c.now = true := hdue
    have hfetched := h.fetchedAt
    cases hcurrent : d.current with
    | none =>
      rw [hcurrent] at hfetched
      simp [stale, hfetched] at hdue
    | some refresh =>
      rw [hcurrent] at hfetched
      refine ⟨refresh, by simp [step, refreshed, hrefreshDue, hcurrent], ?_⟩
      simp only [stale, hfetched, Option.map_some, decide_eq_true_eq, not_le] at hdue
      have hle : (cacheSeconds : ℤ) * SECOND ≤ 86400 * SECOND :=
        mul_le_mul_of_nonneg_right (by exact_mod_cast hcache) (le_of_lt hsecond)
      rw [hday]
      exact sub_lt_iff_lt_add'.mp (lt_of_lt_of_le hdue hle)

/-- A snapshot of the last day that the slot may rely on has the release of its window. -/
theorem has_of_held {d : Desk State} {asOf now : Instant} {refresh : Refresh} (h : Inv r d)
    (hcurrent : d.current = some refresh) (hfrom : r.event.eventTimeUtc ≤ asOf)
    (hto : asOf ≤ r.event.eventTimeUtc + ACTIVE_WINDOW) (hslot : asOf ≤ now)
    (hday : now < refresh.began + DAY) (hbegan : refresh.began ≤ asOf) :
    ∃ event ∈ visible d.provider asOf, event.eventId = some r.release.id := by
  have hhour : ACTIVE_WINDOW ≤ DAY := by decide
  have hweek : DAY ≤ 7 * DAY := by decide
  have hlower : refresh.began - DAY ≤ r.event.eventTimeUtc :=
    sub_le_iff_le_add.mpr ((hbegan.trans hto).trans (add_le_add_right hhour _))
  have hupper : r.event.eventTimeUtc ≤ refresh.began + 7 * DAY :=
    (((hfrom.trans hslot).trans (le_of_lt hday)).trans (add_le_add_right hweek _))
  obtain ⟨event, hmem, hid⟩ := h.kept refresh hcurrent (FxMacroData.date_mono hlower)
    (FxMacroData.date_mono hupper)
  have hfetched := h.fetched event hmem
  rw [h.fetchedAt, hcurrent] at hfetched
  have hby : event.fetchedAt ≤ asOf := (Option.some.inj hfetched).symm ▸ hbegan
  obtain ⟨fetchedAt, actual, hcopy⟩ := h.copies event hmem hid
  have hcurrency : event.currency ∈ ["USD", "EUR"] := by
    rw [hcopy]
    obtain hdollar | heuro := r.euroDollar
    · simp [hdollar]
    · simp [heuro]
  refine ⟨macroEventOf asOf event, List.mem_map_of_mem ?_, congrArg some hid⟩
  simp only [List.mem_filter, decide_eq_true_eq]
  exact ⟨⟨hmem, hby⟩, hcurrency⟩

/-- In its window the release blocks exactly when it concerns the symbol and the snapshot
was fetched by the slot. -/
theorem blocks_iff {d : Desk State} {c : NewsWindow.Cycle (List CalendarItem)} {shownAt : Instant}
    (h : Inv r d) (hknown : Known r shownAt) (hcache : cacheSeconds ≤ 86400)
    (hok : Answered r.Listed d c) (hfrom : r.event.eventTimeUtc ≤ c.asOf)
    (hto : c.asOf ≤ r.event.eventTimeUtc + ACTIVE_WINDOW) :
    Blocks r.release (macroReport (finnhub digest cacheSeconds) d c) c.symbol c.runId c.asOf ↔
      Concerns r.event.currency c.symbol ∧
        FinnhubRelease.Held c.asOf (refreshed (finnhub digest cacheSeconds) d c) := by
  have hinv := step_inv cacheSeconds h (s := .cycle c) hok
  obtain ⟨last, hlast, hday⟩ := current_of_step (c := c) h hcache
  have hrefreshed : (refreshed (finnhub digest cacheSeconds) d c).1 =
      (step (finnhub digest cacheSeconds) d (.cycle c)).current := rfl
  rw [macroReport_eq hok, FinnhubRelease.Held, hrefreshed]
  generalize step (finnhub digest cacheSeconds) d (.cycle c) = d' at hinv hlast
  constructor
  · intro hblocks
    obtain ⟨event, hmem, hid, item, hjudge, -⟩ := of_reported hok.symbol hblocks.active
    obtain ⟨fetchedAt, hby, hfetched, hcopy⟩ := copy_of_visible hinv hmem hid
    refine ⟨(macroRelevant_iff hcopy hknown.category).mp (of_judge_accepted hjudge).2.1,
      last, hlast, ?_⟩
    rw [hinv.fetchedAt, hlast] at hfetched
    exact Option.some.inj hfetched ▸ hby
  · rintro ⟨hconcerns, refresh, hrefresh, hbegan⟩
    obtain rfl : last = refresh := Option.some.inj (hlast.symm.trans hrefresh)
    refine blocks_of_copy hok.symbol hfrom hto
      (later_mono hknown.source ((le_of_lt hknown.upcoming).trans hfrom)) hknown.category
      hconcerns ?_ (has_of_held hinv hlast hfrom hto hok.slot hday hbegan)
    intro event hmem hid
    obtain ⟨fetchedAt, hby, -, hcopy⟩ := copy_of_visible hinv hmem hid
    exact ⟨fetchedAt, hby, hcopy⟩

end MarketSystem.FinnhubNewsWindow
