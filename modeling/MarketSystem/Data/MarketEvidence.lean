import MarketSystem.Execution.Contracts
import Mathlib.Data.List.Sort

/-!
# Market evidence

A `MarketBar` is checked when it is built, so its prices are coherent wherever it
is used. Evidence is either the committed stream of the evidence store or the
snapshot a cycle observed; both are read as the closed bars after an instant.
-/
namespace MarketSystem

inductive Timeframe
  | h1
  | m15
  | m5
  deriving DecidableEq, Repr

/-- `TIMEFRAMES`, in microseconds. -/
def Timeframe.duration : Timeframe → Instant
  | h1 => 3600000000
  | m15 => 900000000
  | m5 => 300000000

/-- A bar that passed `__post_init__`. -/
structure MarketBar where
  symbol : String
  timeframe : Timeframe
  start : Instant
  open_ : ℚ
  high : ℚ
  low : ℚ
  close : ℚ
  volume : Option ℚ := none
  provider : Option String := none
  isClosed : Bool := false
  named : symbol ≠ "" := by decide
  positive : 0 < open_ ∧ 0 < high ∧ 0 < low ∧ 0 < close
  coherent : open_ ≤ high ∧ close ≤ high ∧ low ≤ open_ ∧ low ≤ close
  volume_nonneg : ∀ v, volume = some v → 0 ≤ v := by simp
  deriving DecidableEq

namespace MarketBar

def end_ (bar : MarketBar) : Instant := bar.start + bar.timeframe.duration

def closedAt (bar : MarketBar) (asOf : Instant) : Bool :=
  bar.isClosed && decide (bar.end_ ≤ asOf)

theorem closedAt_eq_true {bar : MarketBar} {asOf : Instant} :
    bar.closedAt asOf = true ↔ bar.isClosed = true ∧ bar.end_ ≤ asOf := by
  simp [closedAt]

/-- `_bar`: the dictionary `process_bar` receives. -/
def toBar (bar : MarketBar) : Bar where
  symbol := bar.symbol
  timestamp := bar.start
  open_ := bar.open_
  high := bar.high
  low := bar.low
  close := bar.close

@[simp] theorem toBar_symbol (bar : MarketBar) : bar.toBar.symbol = bar.symbol := rfl

@[simp] theorem toBar_timestamp (bar : MarketBar) : bar.toBar.timestamp = bar.start := rfl

@[simp] theorem toBar_isClosed (bar : MarketBar) : bar.toBar.isClosed = true := rfl

@[simp] theorem toBar_validOhlc (bar : MarketBar) : bar.toBar.validOhlc = true := by
  have hp := bar.positive
  have hc := bar.coherent
  simp [Bar.validOhlc, toBar, hp, hc]

end MarketBar

/-- Where the bars come from: the committed stream, or an observed snapshot. -/
inductive Evidence
  | committed (rows : List MarketBar)
  | observed (bars : List MarketBar)

namespace Evidence

/-- All bars, of whatever stream. -/
def bars : Evidence → List MarketBar
  | committed rows => rows
  | observed bars => bars

/-- The bars after an instant, as each source delivers them. -/
def after (evidence : Evidence) (symbol : String) (instant asOf : Instant) : List MarketBar :=
  match evidence with
  | committed rows => rows.filter (fun bar =>
      decide (bar.symbol = symbol ∧ bar.timeframe = .m5) && decide (instant < bar.start))
  | observed bars => (bars.filter (fun bar =>
      decide (instant < bar.start) && bar.closedAt asOf)).mergeSort
        (fun a b => decide (a.start ≤ b.start))

/-- The contract of a stream: one symbol, 5m, closed, strictly chronological. -/
def checkStream (symbol : String) : Instant → List MarketBar → Except String Unit
  | _, [] => .ok ()
  | previous, bar :: rest =>
      if bar.symbol ≠ symbol ∨ bar.timeframe ≠ .m5 ∨ bar.isClosed = false then
        .error "committed evidence does not match the requested stream"
      else if bar.start ≤ previous then
        .error "committed evidence is not strictly chronological"
      else checkStream symbol bar.start rest

/-- `_eligible_bars`: the closed 5m bars strictly after `instant`, oldest first. -/
def eligibleBars (evidence : Evidence) (symbol : String) (instant asOf : Instant) :
    Except String (List MarketBar) :=
  let bars := evidence.after symbol instant asOf
  match checkStream symbol instant bars with
  | .error e => .error e
  | .ok () => .ok (bars.filter (fun bar => bar.closedAt asOf))

theorem checkStream_ok {symbol : String} {previous : Instant} {bars : List MarketBar}
    (h : checkStream symbol previous bars = .ok ()) :
    (∀ bar ∈ bars, bar.symbol = symbol ∧ bar.timeframe = .m5 ∧ bar.isClosed = true ∧
      previous < bar.start) ∧ bars.Pairwise (fun a b => a.start < b.start) := by
  induction bars generalizing previous with
  | nil => simp
  | cons bar rest ih =>
    simp only [checkStream] at h
    split_ifs at h with hstream horder
    push Not at hstream
    obtain ⟨hrest, hpairwise⟩ := ih h
    have hbar : previous < bar.start := lt_of_not_ge horder
    refine ⟨?_, List.pairwise_cons.mpr ⟨fun b hb => (hrest b hb).2.2.2, hpairwise⟩⟩
    intro b hb
    rcases List.mem_cons.mp hb with rfl | hb
    · exact ⟨hstream.1, hstream.2.1, by simpa using hstream.2.2, hbar⟩
    · obtain ⟨h1, h2, h3, h4⟩ := hrest b hb
      exact ⟨h1, h2, h3, hbar.trans h4⟩

/-- A stream that keeps its contract is accepted. -/
theorem checkStream_of {symbol : String} {previous : Instant} {bars : List MarketBar}
    (hbars : ∀ bar ∈ bars, bar.symbol = symbol ∧ bar.timeframe = .m5 ∧ bar.isClosed = true ∧
      previous < bar.start) (hsorted : bars.Pairwise (fun a b => a.start < b.start)) :
    checkStream symbol previous bars = .ok () := by
  induction bars generalizing previous with
  | nil => rfl
  | cons bar rest ih =>
    obtain ⟨hfirst, hrest⟩ := List.pairwise_cons.mp hsorted
    obtain ⟨hsymbol, htimeframe, hclosed, hlater⟩ := hbars bar List.mem_cons_self
    have hnext : checkStream symbol bar.start rest = .ok () := by
      refine ih (fun b hb => ?_) hrest
      obtain ⟨h1, h2, h3, -⟩ := hbars b (List.mem_cons_of_mem _ hb)
      exact ⟨h1, h2, h3, hfirst b hb⟩
    simp [checkStream, hsymbol, htimeframe, hclosed, not_le.mpr hlater, hnext]

/-- The bars a catch-up may apply: closed 5m bars of the symbol. -/
def Applicable (evidence : Evidence) (symbol : String) (bar : MarketBar) : Prop :=
  bar ∈ evidence.bars ∧ bar.symbol = symbol ∧ bar.timeframe = .m5 ∧ bar.isClosed = true

theorem mem_after {evidence : Evidence} {symbol : String} {instant asOf : Instant}
    {bar : MarketBar} (h : evidence.Applicable symbol bar) (hstart : instant < bar.start)
    (hend : bar.end_ ≤ asOf) : bar ∈ evidence.after symbol instant asOf := by
  obtain ⟨hmem, hsymbol, htimeframe, hclosed⟩ := h
  cases evidence with
  | committed rows => exact List.mem_filter.mpr ⟨hmem, by simp [hsymbol, htimeframe, hstart]⟩
  | observed bars =>
    refine List.mem_mergeSort.mpr (List.mem_filter.mpr ⟨hmem, ?_⟩)
    simp [hstart, MarketBar.closedAt, hclosed, hend]

theorem mem_of_mem_after {evidence : Evidence} {symbol : String} {instant asOf : Instant}
    {bar : MarketBar} (h : bar ∈ evidence.after symbol instant asOf) : bar ∈ evidence.bars := by
  cases evidence with
  | committed rows => exact (List.mem_filter.mp h).1
  | observed bars => exact (List.mem_filter.mp (List.mem_mergeSort.mp h)).1

/-- The eligible bars are exactly the applicable ones after `instant` that are closed by
`asOf`, in strictly increasing order. -/
theorem eligibleBars_ok {evidence : Evidence} {symbol : String} {instant asOf : Instant}
    {bars : List MarketBar} (h : evidence.eligibleBars symbol instant asOf = .ok bars) :
    bars.Pairwise (fun a b => a.start < b.start) ∧
    ∀ bar, bar ∈ bars ↔
      evidence.Applicable symbol bar ∧ instant < bar.start ∧ bar.end_ ≤ asOf := by
  unfold eligibleBars at h
  cases hc : checkStream symbol instant (evidence.after symbol instant asOf) with
  | error e => simp [hc] at h
  | ok _ =>
    simp only [hc, Except.ok.injEq] at h
    subst h
    obtain ⟨hstream, hpairwise⟩ := checkStream_ok hc
    refine ⟨hpairwise.filter _, fun bar => ?_⟩
    rw [List.mem_filter, MarketBar.closedAt_eq_true]
    constructor
    · rintro ⟨hmem, hclosed, hend⟩
      obtain ⟨hsymbol, htimeframe, -, hstart⟩ := hstream bar hmem
      exact ⟨⟨mem_of_mem_after hmem, hsymbol, htimeframe, hclosed⟩, hstart, hend⟩
    · rintro ⟨happ, hstart, hend⟩
      exact ⟨mem_after happ hstart hend, happ.2.2.2, hend⟩

end Evidence

end MarketSystem
