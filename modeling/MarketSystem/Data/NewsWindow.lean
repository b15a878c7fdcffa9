import MarketSystem.Agents.SetupValidator
import MarketSystem.Library.Runs

/-!
# The window of a release

Cycles ask a provider for its events, one after the other, and a process may start again
in between. A refresh replaces what the provider holds, so what a cycle sees of a release
is decided by when the last refreshes began and when they were complete.
-/
namespace MarketSystem.NewsWindow

open Library MacroNewsAgent Scouts SetupValidator
open StructureAgent (StructureReport)
open LiquidityAgent (LiquidityReport)

/-! ## Providers and their cycles -/

/-- One cycle: the clock before and after the provider was asked, the slot, and what a
refresh would be answered. -/
structure Cycle (α : Type) where
  symbol : String
  runId : String
  now : Instant
  done : Instant
  asOf : Instant
  answers : Except String α

inductive Step (α : Type)
  | cycle (c : Cycle α)
  | restart

/-- A provider that keeps what it fetched in memory. -/
structure MacroProvider (σ α : Type) where
  fresh : σ
  refreshDue : σ → Instant → Bool
  macroEventsAt : σ → Cycle α → σ × Except String (List MacroEvent)
  health : σ → String

/-- When a refresh began and when it was complete. -/
structure Refresh where
  began : Instant
  complete : Instant
  deriving DecidableEq

/-- The provider with the clock, and the last two refreshes since the process started. -/
structure Desk (σ : Type) where
  clock : Instant
  provider : σ
  current : Option Refresh := none
  previous : Option Refresh := none

section Cycles

variable {σ α : Type} (p : MacroProvider σ α)

/-- A process that has just started. -/
def start (clock : Instant) : Desk σ := { clock := clock, provider := p.fresh }

/-- The last two refreshes when the provider has been asked. -/
def refreshed (d : Desk σ) (c : Cycle α) : Option Refresh × Option Refresh :=
  if p.refreshDue d.provider c.now then (some ⟨c.now, c.done⟩, d.current)
  else (d.current, d.previous)

def step (d : Desk σ) : Step α → Desk σ
  | .restart => start p d.clock
  | .cycle c =>
      { clock := c.done
        provider := (p.macroEventsAt d.provider c).1
        current := (refreshed p d c).1
        previous := (refreshed p d c).2 }

/-- The macro report of a cycle. -/
def macroReport (d : Desk σ) (c : Cycle α) : AgentMessage MacroReport :=
  let (provider, events) := p.macroEventsAt d.provider c
  analizarMacroNews events (p.health provider) c.symbol c.asOf c.runId

/-- The clock does not run backwards, the slot is not after it, and every request is
answered, by a calendar that the condition holds of. -/
structure Answered (listing : Instant → α → Prop) (d : Desk σ) (c : Cycle α) : Prop where
  clock : d.clock ≤ c.now
  duration : c.now ≤ c.done
  slot : c.asOf ≤ c.now
  symbol : c.symbol ∈ SUPPORTED_SYMBOLS
  answered : ∃ answers, c.answers = .ok answers ∧ listing c.now answers

/-- The condition on a step of a run. -/
def Admissible (listing : Instant → α → Prop) (d : Desk σ) : Step α → Prop
  | .restart => True
  | .cycle c => Answered listing d c

/-- A cycle before a release and one in its window, with any steps before and between. -/
structure Course (α : Type) where
  clock : Instant
  before : List (Step α)
  shown : Cycle α
  between : List (Step α)
  cycle : Cycle α

/-- The desk that the first of the two cycles meets. -/
def Course.first (course : Course α) : Desk σ :=
  run (step p) course.before (start p course.clock)

/-- The desk that the second one meets. -/
def Course.last (course : Course α) : Desk σ :=
  run (step p) course.between (step p (course.first p) (.cycle course.shown))

/-- Every cycle of the course is answered. -/
structure Course.Answered (listing : Instant → α → Prop) (course : Course α) : Prop where
  before : Meets (step p) (Admissible listing) course.before (start p course.clock)
  shown : NewsWindow.Answered listing (course.first p) course.shown
  between : Meets (step p) (Admissible listing) course.between
    (step p (course.first p) (.cycle course.shown))
  cycle : NewsWindow.Answered listing (course.last p) course.cycle

end Cycles

/-! ## What is reported of a release -/

/-- A high-impact release, as far as a report depends on it. -/
structure Release where
  id : String
  time : Instant
  currency : String
  category : String
  sourceTimestamp : Option Instant
  named : id ≠ ""
  euroDollar : currency = "USD" ∨ currency = "EUR"

/-- The release moves the symbol. -/
def Concerns (currency symbol : String) : Prop :=
  currency = "USD" ∧ symbol ∈ ALL_SYMBOLS ∨ currency = "EUR" ∧ symbol = "EURUSD"

/-- An event of a provider is the release, as it was fetched at a time. -/
structure IsCopy (r : Release) (fetchedAt : Instant) (event : MacroEvent) : Prop where
  eventId : event.eventId = some r.id
  source : ∃ name, event.source = some name ∧ name ≠ ""
  sourceTimestamp : event.sourceTimestamp = r.sourceTimestamp
  eventTimestamp : event.eventTimestamp = some r.time
  receivedAt : event.receivedAt = some fetchedAt
  category : event.category = some r.category
  currency : event.currency = some r.currency
  impact : event.impact = some "HIGH"
  result : event.actual ≠ none → event.resultTimestamp = some fetchedAt
  knownAt : event.knownAt = some fetchedAt
  fetchedAt : event.fetchedAt = some fetchedAt

/-- The categories that concern a symbol through its currency. -/
def ByCurrency (category : String) : Prop :=
  category.toLower ∈ RELEVANT_CATEGORIES ∧ category.toLower ≠ "risk_event"

/-- The release is in the report, with the window. -/
def Reported (r : Release) (w : Window) (message : AgentMessage MacroReport) : Prop :=
  ∃ payload, message.evidence = some payload ∧
    ∃ item ∈ payload.macroEvents, item.eventId = some r.id ∧ item.window = w

/-- The release is reported as active, and whatever the other scouts say, when they deliver
the setup is held back. -/
structure Blocks (r : Release) (message : AgentMessage MacroReport) (symbol runId : String)
    (asOf : Instant) : Prop where
  active : Reported r .activeWindow message
  watch : ∀ (structureReports : Reports StructureReport)
    (liquidityReports : Reports LiquidityReport), Available structureReports runId symbol asOf →
      Available liquidityReports runId symbol asOf →
      (evaluarSetup structureReports liquidityReports (some message) symbol runId asOf).status
        = .watch

/-- The first cycle of the course reports the release as upcoming, and the second one is for
a slot of its active hour. -/
structure Course.Through {σ α : Type} (p : MacroProvider σ α) (r : Release) (course : Course α) :
    Prop where
  upcoming : Reported r .upcoming (macroReport p (course.first p) course.shown)
  since : r.time ≤ course.cycle.asOf
  within : course.cycle.asOf ≤ r.time + ACTIVE_WINDOW

/-- The second cycle of the course is held back. -/
abbrev Course.Blocked {σ α : Type} (p : MacroProvider σ α) (r : Release) (course : Course α) :
    Prop :=
  Blocks r (macroReport p (course.last p) course.cycle) course.cycle.symbol course.cycle.runId
    course.cycle.asOf

variable {r : Release} {event : MacroEvent} {events : List MacroEvent} {fetchedAt asOf : Instant}
  {symbol runId health : String}

theorem macroRelevant_iff (hcopy : IsCopy r fetchedAt event) (hcategory : ByCurrency r.category) :
    macroRelevant event symbol = true ↔ Concerns r.currency symbol := by
  have hupper : r.currency.toUpper = r.currency := by
    obtain h | h := r.euroDollar
    · rw [h]
      decide +kernel
    · rw [h]
      decide +kernel
  unfold macroRelevant Concerns
  simp only [hcopy.category, hcopy.currency, Option.getD_some, hupper, hcategory.1,
    hcategory.2, not_true, if_false]
  obtain h | h := r.euroDollar
  · simp [h]
  · simp [h]

/-- What was fetched by the slot is accepted when it concerns the symbol. -/
theorem judge_copy (hcopy : IsCopy r fetchedAt event) (hfetched : fetchedAt ≤ asOf)
    (hsource : later r.sourceTimestamp asOf = false) (hrelevant : macroRelevant event symbol = true) :
    judge symbol asOf event = .accepted ⟨some r.id, r.time, some "HIGH", window r.time asOf⟩ := by
  obtain ⟨name, hname, hne⟩ := hcopy.source
  have hlater : later (some fetchedAt) asOf = false := by
    simp [later, hfetched]
  have hresult : ¬(event.actual ≠ none ∧ (event.resultTimestamp = none
      ∨ later event.resultTimestamp asOf = true)) := by
    rintro ⟨hactual, h⟩
    rw [hcopy.result hactual, hlater] at h
    simp at h
  have hlevel : impactLevel (some "HIGH") = "HIGH" := by decide +kernel
  unfold judge
  rw [hname, hcopy.eventTimestamp]
  dsimp only
  rw [if_neg hne, if_neg (by simp [hcopy.sourceTimestamp, hcopy.receivedAt, hcopy.fetchedAt,
    hsource, hlater]), if_neg (by simp [hcopy.knownAt, hlater]), if_neg hresult,
    if_neg (by simp [hrelevant])]
  simp [hcopy.eventId, hcopy.impact, hlevel]

theorem toUpper_of_supported (h : symbol ∈ SUPPORTED_SYMBOLS) : symbol.toUpper = symbol := by
  have hall : ∀ symbol ∈ SUPPORTED_SYMBOLS, symbol.toUpper = symbol := by decide +kernel
  exact hall symbol h

/-- A report on events that were read carries what the loop accepts of them. -/
theorem analizarMacroNews_evidence (h : symbol ∈ SUPPORTED_SYMBOLS) :
    (analizarMacroNews (.ok events) health symbol asOf runId).evidence
      = some ⟨(tally symbol asOf [] events).accepted⟩ := by
  have hupper := toUpper_of_supported h
  simp [analizarMacroNews, hupper, h]

/-- A release that was reported is among the events, and was accepted. -/
theorem of_reported {w : Window} (h : symbol ∈ SUPPORTED_SYMBOLS)
    (hreported : Reported r w (analizarMacroNews (.ok events) health symbol asOf runId)) :
    ∃ event ∈ events, event.eventId = some r.id ∧ ∃ item, judge symbol asOf event = .accepted item
      ∧ item.window = w := by
  obtain ⟨payload, hpayload, item, hitem, hid, hw⟩ := hreported
  rw [analizarMacroNews_evidence h] at hpayload
  cases hpayload
  obtain ⟨event, hmem, hjudge⟩ := of_mem_tally hitem
  exact ⟨event, hmem, (of_judge_accepted hjudge).1.symm.trans hid, item, hjudge, hw⟩

/-- A release that is active blocks when one of the events is it, every one that carries
its id is it as fetched by the slot, and it concerns the symbol. -/
theorem blocks_of_copy (h : symbol ∈ SUPPORTED_SYMBOLS) (hfrom : r.time ≤ asOf)
    (hto : asOf ≤ r.time + ACTIVE_WINDOW) (hsource : later r.sourceTimestamp asOf = false)
    (hcategory : ByCurrency r.category) (hconcerns : Concerns r.currency symbol)
    (hcopies : ∀ event ∈ events, event.eventId = some r.id →
      ∃ fetchedAt ≤ asOf, IsCopy r fetchedAt event)
    (hevent : ∃ event ∈ events, event.eventId = some r.id) :
    Blocks r (analizarMacroNews (.ok events) health symbol asOf runId) symbol runId asOf := by
  obtain ⟨event, hmem, hid⟩ := hevent
  have hupper := toUpper_of_supported h
  have hkey : ∀ event : MacroEvent, event.eventId = some r.id →
      stableKey event = .byId event.source r.id := by
    intro event hid
    simp [stableKey, hid, r.named]
  have hjudge : ∀ other ∈ events, stableKey other = stableKey event →
      judge symbol asOf other = .accepted ⟨some r.id, r.time, some "HIGH", .activeWindow⟩ := by
    intro other hother hsame
    have hotherId : other.eventId = some r.id := by
      rw [hkey event hid] at hsame
      unfold stableKey at hsame
      split at hsame
      · next id hid' =>
        split_ifs at hsame
        · rw [hid', (StableKey.byId.inj hsame).2]
      · cases hsame
    obtain ⟨fetchedAt, hfetched, hcopy⟩ := hcopies other hother hotherId
    rw [judge_copy hcopy hfetched hsource ((macroRelevant_iff hcopy hcategory).mpr hconcerns),
      window_active hfrom hto]
  have hitem := mem_tally hmem List.not_mem_nil hjudge
  have hevidence := @analizarMacroNews_evidence events asOf symbol runId health h
  refine ⟨⟨_, hevidence, _, hitem, rfl, rfl⟩, fun structureReports liquidityReports hs hl => ?_⟩
  refine evaluarSetup_watch hs hl ?_ ?_ ?_ ?_ hevidence hitem rfl
  · simp [analizarMacroNews, hupper, h]
  · simp [analizarMacroNews, hupper, h]
  · simp [analizarMacroNews, hupper, h]
  · have hok : (tally symbol asOf [] events).accepted ≠ [] := List.ne_nil_of_mem hitem
    simp only [analizarMacroNews, hupper, h, not_true, if_false, macroStatus, hok, ne_eq]
    split_ifs <;> simp

end MarketSystem.NewsWindow
