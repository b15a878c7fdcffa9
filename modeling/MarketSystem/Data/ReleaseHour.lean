import MarketSystem.Data.FinnhubNewsWindow
import MarketSystem.Data.FxNewsWindow

/-!
# The hour of a release

Once a cycle has reported a high-impact release as upcoming, a cycle of its active hour is
held back as long as the provider still has what it fetched in time.
-/
namespace MarketSystem.ReleaseHour

open Library MacroNewsAgent NewsWindow
open FxMacroData (Answers CalendarRow SECOND DAY)
open FinnhubMacro (CalendarItem)
open FxNewsWindow (fxMacroData FxRelease)
open FinnhubNewsWindow (finnhub FinnhubRelease)

/-- In the hour of a release that a cycle has shown before, a cycle is held back exactly when
the release concerns its symbol and, for FXMacroData, one of the last two refreshes since
the process started began before the release and was complete by the slot; for Finnhub,
the last refresh began by the slot. -/
theorem release_blocks (cacheSeconds : ℕ) :
    (∀ (r : FxRelease) (course : Course Answers),
      course.Answered (fxMacroData cacheSeconds) r.Listed →
      course.Through (fxMacroData cacheSeconds) r.release →
      (course.Blocked (fxMacroData cacheSeconds) r.release ↔
        Concerns r.currency course.cycle.symbol ∧
          r.Held course.cycle.asOf (refreshed (fxMacroData cacheSeconds)
            (course.last (fxMacroData cacheSeconds)) course.cycle))) ∧
    (∀ digest : String → Instant → String → String, cacheSeconds ≤ 86400 →
      ∀ (r : FinnhubRelease digest) (course : Course (List CalendarItem)),
      course.Answered (finnhub digest cacheSeconds) r.Listed →
      course.Through (finnhub digest cacheSeconds) r.release →
      (course.Blocked (finnhub digest cacheSeconds) r.release ↔
        Concerns r.event.currency course.cycle.symbol ∧
          FinnhubRelease.Held course.cycle.asOf (refreshed (finnhub digest cacheSeconds)
            (course.last (finnhub digest cacheSeconds)) course.cycle))) := by
  constructor
  · intro r course hanswered hthrough
    have hfirst := run_induction (P := FxNewsWindow.Inv r) (fun _ _ => FxNewsWindow.step_inv cacheSeconds)
      (FxNewsWindow.inv_start r course.clock) hanswered.before
    have hshown := FxNewsWindow.shown_of_reported hfirst hanswered.shown hthrough.upcoming
    have hinv := FxNewsWindow.step_inv cacheSeconds hfirst
      (s := .cycle course.shown) hanswered.shown
    have hlast := run_induction (P := FxNewsWindow.Inv r) (fun _ _ => FxNewsWindow.step_inv cacheSeconds)
      hinv hanswered.between
    have hlastShown := run_induction (P := FxNewsWindow.Shown r)
      (fun _ _ => FxNewsWindow.step_shown cacheSeconds) hshown hanswered.between
    exact FxNewsWindow.blocks_iff hlast hlastShown hanswered.cycle hthrough.since hthrough.within
  · intro digest hcache r course hanswered hthrough
    have hfirst := run_induction (P := FinnhubNewsWindow.Inv r)
      (fun _ _ => FinnhubNewsWindow.step_inv cacheSeconds) (FinnhubNewsWindow.inv_start r course.clock)
      hanswered.before
    have hknown := FinnhubNewsWindow.known_of_reported hfirst hanswered.shown hthrough.upcoming
    have hinv := FinnhubNewsWindow.step_inv cacheSeconds hfirst
      (s := .cycle course.shown) hanswered.shown
    have hlast := run_induction (P := FinnhubNewsWindow.Inv r)
      (fun _ _ => FinnhubNewsWindow.step_inv cacheSeconds) hinv hanswered.between
    exact FinnhubNewsWindow.blocks_iff hlast hknown hcache hanswered.cycle hthrough.since
      hthrough.within

/-! ## One afternoon -/

def MINUTE : ℤ := 60 * SECOND

/-- Inflation, announced for 14:00. -/
def cpiRow : CalendarRow where
  release := "inflation"
  announcement := some (14 * HOUR)
  releaseDateConfirmed := true
  calendarEventId := some "cpi"

def cpiRelease : FxRelease where
  currency := "USD"
  row := cpiRow
  time := 14 * HOUR
  category := "inflation"
  euroDollar := .inl rfl
  high := by decide
  announced := rfl
  exact := by decide

/-- The calendar of the day. -/
def cpiAnswers : Answers where
  calendar := fun currency => if currency = "USD" then [cpiRow] else []
  announcementSource := fun _ _ => none

/-- A cycle whose slot is its own time, for an answer that is there at once. -/
def cycleAt {α : Type} (answers : α) (time : Instant) : NewsWindow.Cycle α where
  symbol := "EURUSD"
  runId := "run"
  now := time
  done := time
  asOf := time
  answers := .ok answers

/-- Shown at 13:55, and refreshed at 14:10 and again at 14:25. -/
def refreshedTwice : Course Answers where
  clock := 13 * HOUR
  before := []
  shown := cycleAt cpiAnswers (13 * HOUR + 55 * MINUTE)
  between := [.cycle (cycleAt cpiAnswers (14 * HOUR + 10 * MINUTE))]
  cycle := cycleAt cpiAnswers (14 * HOUR + 25 * MINUTE)

/-- Shown at 13:55 and still held at 14:05, when nothing is refreshed. -/
def heldAtFive : Course Answers where
  clock := 13 * HOUR
  before := []
  shown := cycleAt cpiAnswers (13 * HOUR + 55 * MINUTE)
  between := []
  cycle := cycleAt cpiAnswers (14 * HOUR + 5 * MINUTE)

theorem cpiListed {now : Instant} (h : FxMacroData.date now = 0) :
    cpiRelease.Listed now cpiAnswers where
  listed := by
    have hlater : FxMacroData.date (now + 14 * DAY) = 14 := by
      have hday : DAY ≠ 0 := by decide
      unfold FxMacroData.date at h ⊢
      rw [Int.add_mul_ediv_right _ _ hday, h]
      rfl
    have htime : FxMacroData.date cpiRelease.time = 0 := by decide
    rw [h, hlater, htime]
    exact ⟨fun _ => by decide, fun _ => by decide⟩
  alone := by
    intro currency hcurrency row hrow time _ _
    obtain rfl | rfl := hcurrency
    · exact ⟨rfl, List.mem_singleton.mp hrow⟩
    · exact absurd hrow List.not_mem_nil

theorem cpiAnswered {d : Desk FxMacroData.State} {time : Instant} (hclock : d.clock ≤ time)
    (hdate : FxMacroData.date time = 0) :
    NewsWindow.Answered cpiRelease.Listed d (cycleAt cpiAnswers time) where
  clock := hclock
  duration := le_refl _
  slot := le_refl _
  symbol := show "EURUSD" ∈ SUPPORTED_SYMBOLS by decide
  answered := ⟨cpiAnswers, rfl, cpiListed hdate⟩

theorem refreshedTwice_answered :
    refreshedTwice.Answered (fxMacroData 900) cpiRelease.Listed where
  before := trivial
  shown := cpiAnswered (by decide +kernel) (by decide +kernel)
  between := ⟨cpiAnswered (by decide +kernel) (by decide +kernel), trivial⟩
  cycle := cpiAnswered (by decide +kernel) (by decide +kernel)

theorem refreshedTwice_through :
    refreshedTwice.Through (fxMacroData 900) cpiRelease.release where
  upcoming := ⟨⟨[⟨some "fxmacrodata:cpi", 14 * HOUR, some "HIGH", .upcoming⟩]⟩,
    by decide +kernel, _, List.mem_singleton_self _, rfl, rfl⟩
  since := by decide +kernel
  within := by decide +kernel

theorem heldAtFive_answered : heldAtFive.Answered (fxMacroData 900) cpiRelease.Listed where
  before := trivial
  shown := cpiAnswered (by decide +kernel) (by decide +kernel)
  between := trivial
  cycle := cpiAnswered (by decide +kernel) (by decide +kernel)

theorem heldAtFive_through : heldAtFive.Through (fxMacroData 900) cpiRelease.release where
  upcoming := refreshedTwice_through.upcoming
  since := by decide +kernel
  within := by decide +kernel

/-- Inflation again, as Finnhub lists it. -/
def cpiItem : CalendarItem where
  country := some "US"
  event := some "CPI"
  time := .aware (14 * HOUR)
  impact := some "high"
  id := some "cpi"

def cpiEvent : FinnhubRelease (fun _ _ _ => "") where
  item := cpiItem
  event :=
    { eventId := "finnhub:cpi"
      eventTimeUtc := 14 * HOUR
      country := "US"
      currency := "USD"
      event := "CPI"
      importance := "HIGH"
      actual := none
      fetchedAt := 0
      sourceTimestamp := none }
  normal := by decide +kernel
  euroDollar := .inl rfl
  high := rfl

/-- Shown at 13:30; the cycle of the slot 14:15 refreshes five seconds later. -/
def refreshedLate : Course (List CalendarItem) where
  clock := 13 * HOUR
  before := []
  shown := cycleAt [cpiItem] (13 * HOUR + 30 * MINUTE)
  between := []
  cycle :=
    { cycleAt [cpiItem] (14 * HOUR + 15 * MINUTE + 5 * SECOND) with
      asOf := 14 * HOUR + 15 * MINUTE }

/-- Shown at 13:55 and still held at 14:05. -/
def heldByFinnhub : Course (List CalendarItem) where
  clock := 13 * HOUR
  before := []
  shown := cycleAt [cpiItem] (13 * HOUR + 55 * MINUTE)
  between := []
  cycle := cycleAt [cpiItem] (14 * HOUR + 5 * MINUTE)

theorem cpiItem_listed {now : Instant} (h : FxMacroData.date now = 0) :
    cpiEvent.Listed now [cpiItem] where
  accepted := by
    have hnormal := FinnhubNewsWindow.normalize_update cpiEvent.normal now none
    exact ⟨[{ cpiEvent.event with fetchedAt := now }], by
      rw [List.mapM_cons, show cpiItem = { cpiItem with actual := none } from rfl]
      erw [hnormal]
      rfl⟩
  listed := by
    have hday : DAY ≠ 0 := by decide
    have hearlier : FxMacroData.date (now - DAY) = -1 := by
      unfold FxMacroData.date at h ⊢
      rw [Int.sub_ediv_of_dvd _ (dvd_refl DAY), h, Int.ediv_self hday]
      rfl
    have hlater : FxMacroData.date (now + 7 * DAY) = 7 := by
      unfold FxMacroData.date at h ⊢
      rw [Int.add_mul_ediv_right _ _ hday, h]
      rfl
    have htime : FxMacroData.date cpiEvent.event.eventTimeUtc = 0 := by decide
    rw [hearlier, hlater, htime]
    exact ⟨fun _ => by decide, fun _ => ⟨none, List.mem_singleton_self _⟩⟩
  alone := fun item hitem _ _ _ => ⟨none, List.mem_singleton.mp hitem⟩

theorem cpiItem_answered {d : Desk FinnhubMacro.State} {c : NewsWindow.Cycle (List CalendarItem)}
    (hanswers : c.answers = .ok [cpiItem]) (hsymbol : c.symbol ∈ SUPPORTED_SYMBOLS)
    (hclock : d.clock ≤ c.now) (hduration : c.now ≤ c.done) (hslot : c.asOf ≤ c.now)
    (hdate : FxMacroData.date c.now = 0) : NewsWindow.Answered cpiEvent.Listed d c where
  clock := hclock
  duration := hduration
  slot := hslot
  symbol := hsymbol
  answered := ⟨[cpiItem], hanswers, cpiItem_listed hdate⟩

theorem refreshedLate_answered :
    refreshedLate.Answered (finnhub (fun _ _ _ => "") 900) cpiEvent.Listed where
  before := trivial
  shown := cpiItem_answered rfl (by decide) (by decide +kernel) (by decide +kernel)
    (by decide +kernel) (by decide +kernel)
  between := trivial
  cycle := cpiItem_answered rfl (by decide) (by decide +kernel) (by decide +kernel)
    (by decide +kernel) (by decide +kernel)

theorem heldByFinnhub_answered :
    heldByFinnhub.Answered (finnhub (fun _ _ _ => "") 900) cpiEvent.Listed where
  before := trivial
  shown := cpiItem_answered rfl (by decide) (by decide +kernel) (by decide +kernel)
    (by decide +kernel) (by decide +kernel)
  between := trivial
  cycle := cpiItem_answered rfl (by decide) (by decide +kernel) (by decide +kernel)
    (by decide +kernel) (by decide +kernel)

theorem refreshedLate_through :
    refreshedLate.Through (finnhub (fun _ _ _ => "") 900) cpiEvent.release where
  upcoming := ⟨⟨[⟨some "finnhub:cpi", 14 * HOUR, some "HIGH", .upcoming⟩]⟩,
    by decide +kernel, _, List.mem_singleton_self _, rfl, rfl⟩
  since := by decide +kernel
  within := by decide +kernel

theorem heldByFinnhub_through :
    heldByFinnhub.Through (finnhub (fun _ _ _ => "") 900) cpiEvent.release where
  upcoming := ⟨⟨[⟨some "finnhub:cpi", 14 * HOUR, some "HIGH", .upcoming⟩]⟩,
    by decide +kernel, _, List.mem_singleton_self _, rfl, rfl⟩
  since := by decide +kernel
  within := by decide +kernel

/-- An empty report blocks nothing. -/
theorem not_blocks_of_empty {r : Release} {message : Scouts.AgentMessage MacroReport}
    {symbol runId : String} {asOf : Instant} (h : message.evidence = some ⟨[]⟩) :
    ¬Blocks r message symbol runId asOf := by
  intro hblocks
  obtain ⟨payload, hpayload, item, hitem, -⟩ := hblocks.active
  rw [h] at hpayload
  cases hpayload
  exact absurd hitem List.not_mem_nil

/-- The release blocks at 14:05 under either provider. -/
theorem release_blocks_held :
    heldAtFive.Blocked (fxMacroData 900) cpiRelease.release ∧
      heldByFinnhub.Blocked (finnhub (fun _ _ _ => "") 900) cpiEvent.release := by
  constructor
  · refine ((release_blocks 900).1 cpiRelease heldAtFive heldAtFive_answered
      heldAtFive_through).mpr ⟨.inl ⟨rfl, by decide⟩, ⟨13 * HOUR + 55 * MINUTE,
        13 * HOUR + 55 * MINUTE⟩, .inl ?_, ?_, ?_⟩
    · decide +kernel
    · decide +kernel
    · decide +kernel
  · refine ((release_blocks 900).2 _ (by decide) cpiEvent heldByFinnhub heldByFinnhub_answered
      heldByFinnhub_through).mpr ⟨.inl ⟨rfl, by decide⟩, ⟨13 * HOUR + 55 * MINUTE,
        13 * HOUR + 55 * MINUTE⟩, ?_, ?_⟩
    · decide +kernel
    · decide +kernel

/-- Two refreshes after the release, or one that begins after the slot, and the release no
longer holds anything back. -/
theorem release_forgotten :
    (¬∀ (cacheSeconds : ℕ), 900 ≤ cacheSeconds → cacheSeconds ≤ 86400 →
      ∀ (r : FxRelease) (course : Course Answers),
      course.Answered (fxMacroData cacheSeconds) r.Listed →
      course.Through (fxMacroData cacheSeconds) r.release →
      course.Blocked (fxMacroData cacheSeconds) r.release) ∧
    ¬∀ (digest : String → Instant → String → String) (cacheSeconds : ℕ), 900 ≤ cacheSeconds →
      cacheSeconds ≤ 86400 → ∀ (r : FinnhubRelease digest) (course : Course (List CalendarItem)),
      course.Answered (finnhub digest cacheSeconds) r.Listed →
      course.Through (finnhub digest cacheSeconds) r.release →
      course.Blocked (finnhub digest cacheSeconds) r.release := by
  constructor
  · intro h
    refine not_blocks_of_empty ?_ (h 900 (by decide) (by decide) cpiRelease refreshedTwice
      refreshedTwice_answered refreshedTwice_through)
    decide +kernel
  · intro h
    refine not_blocks_of_empty ?_ (h _ 900 (by decide) (by decide) cpiEvent refreshedLate
      refreshedLate_answered refreshedLate_through)
    decide +kernel

end MarketSystem.ReleaseHour
