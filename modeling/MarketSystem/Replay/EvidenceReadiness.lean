import MarketSystem.Library.IsoTime
import MarketSystem.Library.WallClock
import MarketSystem.Storage.EvidenceStore
import MarketSystem.Storage.PaperStore
import Mathlib.Data.List.Dedup

/-!
# Evidence readiness

For every symbol: whether the newest closed bar is committed, and for every open position how many
bars are missing after its watermark and which anomalies lie in that window. The windows are cut
out of the store by the texts of the times, and the missing bars are counted, not looked up.
-/
namespace MarketSystem.EvidenceReadiness

open Library EvidenceStore
open Library.WallClock (MINUTE HOUR DAY)
open Library.IsoTime (utc Representable utc_lt_utc utc_le_utc utc_inj)

def FIVE : ℤ := 5 * MINUTE
def MAX_LISTED : ℕ := 50
def MAX_WINDOW : ℤ := 14 * DAY

/-- `replace(minute=minute - minute % 5, second=0, microsecond=0)` -/
def floorFive (t : ℤ) : ℤ :=
  let minute := t / MINUTE % 60
  t - t % HOUR + (minute - minute % 5) * MINUTE

/-- `newest_closed_5m` -/
def newestClosed5m (asOf : ℤ) : ℤ := floorFive asOf - FIVE

/-- `_first_after` -/
def firstAfter (watermark : ℤ) : ℤ :=
  let start := floorFive watermark
  if start ≤ watermark then start + FIVE else start

/-- `_open_positions`; there are none without a trading database. -/
def openPositions (trading : Option Database) : List PaperPosition :=
  match trading with
  | none => []
  | some db => db.paperPositions.rows.filter (fun p => decide (p.status = .open))

/-- The `bar_start` of the committed 5m bars of a symbol. -/
def barStarts (db : EvidenceDb) (symbol : String) : List Instant :=
  (db.stream symbol .m5).map (·.key.barStart)

/-- The anomalies of the 5m stream of a symbol that are a GAP or LATE. -/
def anomaliesOf (db : EvidenceDb) (symbol : String) : List (AnomalyKind × Instant) :=
  (db.anomalies.rows.filter (fun r => decide (r.anomaly.key.symbol = symbol ∧
    r.anomaly.key.timeframe = .m5 ∧ (r.anomaly.kind = .gap ∨ r.anomaly.kind = .late)))).map
      (fun r => (r.anomaly.kind, r.anomaly.key.barStart))

/-- `bar_start>? AND bar_start<=?`, on texts. -/
def inWindow (watermark newest barStart : Instant) : Bool :=
  decide (utc watermark < utc barStart ∧ utc barStart ≤ utc newest)

def kindText : AnomalyKind → String
  | .gap => "GAP"
  | .late => "LATE"
  | .revision => "REVISION"

/-- The order of pairs of a kind and a start. -/
def ByKind (a b : AnomalyKind × Instant) : Prop :=
  kindText a.1 < kindText b.1 ∨ kindText a.1 = kindText b.1 ∧ a.2 ≤ b.2

instance : DecidableRel ByKind := fun a b => inferInstanceAs
  (Decidable (kindText a.1 < kindText b.1 ∨ kindText a.1 = kindText b.1 ∧ a.2 ≤ b.2))

structure PositionEntry where
  positionId : String
  watermark : List Char
  missingCount : ℤ := 0
  missing : List (List Char) := []
  anomalies : List (AnomalyKind × List Char) := []
  anomalyCount : ℕ := 0
  error : Option String := none

/-- The loop that lists missing bars. -/
def listMissing (onGrid : List ℤ) (newest limit stamp : ℤ) (missing : List (List Char)) :
    List (List Char) :=
  if stamp ≤ newest ∧ (missing.length : ℤ) < limit then
    listMissing onGrid newest limit (stamp + FIVE)
      (if stamp ∈ onGrid then missing else missing ++ [utc stamp])
  else missing
termination_by (newest + 1 - stamp).toNat
decreasing_by
  unfold FIVE MINUTE
  omega

/-- The bars a window should hold. -/
def expectedCount (first newest : ℤ) : ℤ :=
  if first ≤ newest then (newest - first) / FIVE + 1 else 0

/-- `_position` -/
def position (db : EvidenceDb) (symbol : String) (p : PaperPosition) (newest : Instant) :
    PositionEntry × Bool :=
  let entry : PositionEntry := { positionId := p.positionId, watermark := utc p.watermark }
  if MAX_WINDOW < newest - p.watermark then
    ({ entry with error := some "window longer than 14 days (not enumerated)" }, false)
  else
    let first := firstAfter p.watermark
    let committed := ((barStarts db symbol).filter (inWindow p.watermark newest)).dedup
    let onGrid := committed.filter (fun b => decide ((b - first) % FIVE = 0))
    let missingCount := expectedCount first newest - onGrid.length
    let blocking := ((anomaliesOf db symbol).filter (fun a => inWindow p.watermark newest a.2 &&
      decide (a.1 = .gap ∨ a.2 ∉ committed))).insertionSort ByKind
    ({ entry with
        missingCount := missingCount
        missing := listMissing onGrid newest (min MAX_LISTED missingCount) first []
        anomalies := (blocking.take MAX_LISTED).map (fun a => (a.1, utc a.2))
        anomalyCount := blocking.length },
      decide (missingCount = 0) && blocking.isEmpty)

inductive Verdict
  | ready
  | notReady
  deriving DecidableEq, Repr

structure Reading where
  verdict : Verdict
  error : Option String := none
  newestClosed : Option (List Char) := none
  newestCommitted : Option (List Char) := none
  newestPresent : Option Bool := none
  positions : List PositionEntry := []

/-- `SELECT MAX(bar_start)` -/
def newestCommitted (starts : List Instant) : Option Instant :=
  starts.foldl (fun top b => match top with
    | none => some b
    | some t => if utc t < utc b then some b else some t) none

/-- `evidence_contiguity_report`, one symbol. -/
def contiguityReport (trading : Option Database) (db : EvidenceDb) (newest : Instant)
    (symbol : String) : Reading :=
  let present := (barStarts db symbol).any (fun b => decide (utc b = utc newest))
  let details := ((openPositions trading).filter (fun p => decide (p.symbol = symbol))).map
    (fun p => position db symbol p newest)
  { verdict := if present && details.all (·.2) then .ready else .notReady
    newestClosed := some (utc newest)
    newestCommitted := (newestCommitted (barStarts db symbol)).map utc
    newestPresent := some present
    positions := details.map (·.1) }

/-- `readiness`; `none` is a store that does not exist. -/
def readiness (trading : Option Database) (evidence : Option EvidenceDb) (symbols : List String)
    (asOf : Instant) : List (String × Reading) :=
  match evidence with
  | none => symbols.map (fun s => (s, { verdict := .notReady, error := some "evidence store absent" }))
  | some db => symbols.map (fun s => (s, contiguityReport trading db (newestClosed5m asOf) s))

/-! ### The grid -/

section Grid

variable {first newest b : ℤ}

theorem floorFive_spec (t : ℤ) :
    floorFive t % FIVE = 0 ∧ floorFive t ≤ t ∧ t < floorFive t + FIVE := by
  unfold floorFive FIVE MINUTE HOUR
  dsimp only
  omega

/-- The first grid instant after the watermark. -/
theorem firstAfter_spec (watermark : ℤ) :
    firstAfter watermark % FIVE = 0 ∧ watermark < firstAfter watermark ∧
      firstAfter watermark - FIVE ≤ watermark := by
  obtain ⟨hgrid, hle, hlt⟩ := floorFive_spec watermark
  unfold firstAfter
  rw [if_pos hle]
  unfold FIVE MINUTE at *
  omega

theorem firstAfter_le {watermark b : ℤ} (hmod : b % FIVE = 0) (hlow : watermark < b) :
    firstAfter watermark ≤ b := by
  obtain ⟨hfirst, hafter, hbefore⟩ := firstAfter_spec watermark
  generalize firstAfter watermark = first at *
  unfold FIVE MINUTE at *
  omega

/-- The grid instants after the watermark are those from the first on. -/
theorem after_iff {watermark b : ℤ} : (b - firstAfter watermark) % FIVE = 0 ∧ watermark < b ↔
    b % FIVE = 0 ∧ firstAfter watermark ≤ b := by
  obtain ⟨hfirst, hafter, hbefore⟩ := firstAfter_spec watermark
  generalize firstAfter watermark = first at *
  unfold FIVE MINUTE at *
  omega

theorem newest_on_grid (asOf : ℤ) : newestClosed5m asOf % FIVE = 0 := by
  obtain ⟨hgrid, -⟩ := floorFive_spec asOf
  unfold newestClosed5m
  unfold FIVE MINUTE at *
  omega

/-- The newest closed bar is closed. -/
theorem newest_closed (asOf : ℤ) : newestClosed5m asOf + FIVE ≤ asOf := by
  obtain ⟨-, hle, -⟩ := floorFive_spec asOf
  unfold newestClosed5m
  omega

/-- The instants of the grid from the first to the newest. -/
def grid (first newest : ℤ) : List ℤ :=
  (List.range (expectedCount first newest).toNat).map (fun (k : ℕ) => first + (k : ℤ) * FIVE)

theorem mem_grid (hfirst : first % FIVE = 0) (hnewest : newest % FIVE = 0) :
    b ∈ grid first newest ↔ b % FIVE = 0 ∧ first ≤ b ∧ b ≤ newest := by
  unfold grid expectedCount
  rw [List.mem_map]
  constructor
  · rintro ⟨k, hk, rfl⟩
    rw [List.mem_range] at hk
    unfold FIVE MINUTE at *
    split_ifs at hk <;> omega
  · rintro ⟨hb, hlow, hhigh⟩
    refine ⟨((b - first) / FIVE).toNat, ?_, ?_⟩
    · rw [List.mem_range, if_pos (hlow.trans hhigh)]
      unfold FIVE MINUTE at *
      omega
    · unfold FIVE MINUTE at *
      omega

theorem length_grid (first newest : ℤ) :
    ((grid first newest).length : ℤ) = expectedCount first newest := by
  unfold grid expectedCount
  rw [List.length_map, List.length_range]
  unfold FIVE MINUTE
  split_ifs <;> omega

theorem nodup_grid (first newest : ℤ) : (grid first newest).Nodup := by
  refine List.Nodup.map (fun a b hab => ?_) List.nodup_range
  unfold FIVE MINUTE at hab
  omega

end Grid

/-! ### A clean window -/

/-- Every grid instant of the window is committed, and so is the bar of every anomaly in it,
none of which is a gap. -/
def Covered (db : EvidenceDb) (symbol : String) (watermark newest : Instant) : Prop :=
  (∀ b : ℤ, b % FIVE = 0 → watermark < b → b ≤ newest → b ∈ barStarts db symbol) ∧
    ∀ a ∈ anomaliesOf db symbol, watermark < a.2 → a.2 ≤ newest →
      a.1 ≠ .gap ∧ a.2 ∈ barStarts db symbol

/-- The times of a store are times a `datetime` can hold. -/
structure Timed (db : EvidenceDb) (symbol : String) : Prop where
  bars : ∀ b ∈ barStarts db symbol, Representable b
  anomalies : ∀ a ∈ anomaliesOf db symbol, Representable a.2

section Clean

variable {db : EvidenceDb} {symbol : String} {watermark newest : Instant}

theorem inWindow_eq_true {b : Instant} (hw : Representable watermark) (hn : Representable newest)
    (hb : Representable b) : inWindow watermark newest b = true ↔ watermark < b ∧ b ≤ newest := by
  unfold inWindow
  rw [decide_eq_true_eq, utc_lt_utc hw hb, utc_le_utc hb hn]

/-- Distinct members of a list without repetition that are as many as it has are all of it. -/
theorem length_eq_iff {α : Type} {l g : List α} (hl : l.Nodup) (hg : g.Nodup) (hsub : l ⊆ g) :
    l.length = g.length ↔ g ⊆ l := by
  have hsubperm := hl.subperm hsub
  constructor
  · intro hlength
    exact (hsubperm.perm_of_length_le hlength.ge).symm.subset
  · intro hback
    exact le_antisymm hsubperm.length_le (hg.subperm hback).length_le

/-- What is committed in a window, as the query finds it. -/
theorem mem_window {b : Instant} (ht : Timed db symbol) (hw : Representable watermark)
    (hn : Representable newest) :
    b ∈ ((barStarts db symbol).filter (inWindow watermark newest)).dedup ↔
      b ∈ barStarts db symbol ∧ watermark < b ∧ b ≤ newest := by
  rw [List.mem_dedup, List.mem_filter]
  constructor
  · intro h
    exact ⟨h.1, (inWindow_eq_true hw hn (ht.bars b h.1)).mp h.2⟩
  · intro h
    exact ⟨h.1, (inWindow_eq_true hw hn (ht.bars b h.1)).mpr h.2⟩

/-- Nothing is missing when every grid instant of the window is committed. -/
theorem missing_eq_zero_iff (ht : Timed db symbol) (hw : Representable watermark)
    (hn : Representable newest) (hgrid : newest % FIVE = 0) :
    expectedCount (firstAfter watermark) newest -
        ((((barStarts db symbol).filter (inWindow watermark newest)).dedup.filter
          (fun b => decide ((b - firstAfter watermark) % FIVE = 0))).length : ℤ) = 0 ↔
      ∀ b : ℤ, b % FIVE = 0 → watermark < b → b ≤ newest → b ∈ barStarts db symbol := by
  obtain ⟨hfirst, hafter, hbefore⟩ := firstAfter_spec watermark
  have hmem : ∀ b : ℤ, b ∈ ((barStarts db symbol).filter (inWindow watermark newest)).dedup.filter
      (fun b => decide ((b - firstAfter watermark) % FIVE = 0)) ↔
        b ∈ barStarts db symbol ∧ b ∈ grid (firstAfter watermark) newest := by
    intro b
    rw [List.mem_filter, mem_window ht hw hn, mem_grid hfirst hgrid, decide_eq_true_eq]
    constructor
    · rintro ⟨⟨hb, hlow, hhigh⟩, hmod⟩
      obtain ⟨hmod', hlow'⟩ := after_iff.mp ⟨hmod, hlow⟩
      exact ⟨hb, hmod', hlow', hhigh⟩
    · rintro ⟨hb, hmod, hlow, hhigh⟩
      obtain ⟨hmod', hlow'⟩ := after_iff.mpr ⟨hmod, hlow⟩
      exact ⟨⟨hb, hlow', hhigh⟩, hmod'⟩
  have hnodup : (((barStarts db symbol).filter (inWindow watermark newest)).dedup.filter
      (fun b => decide ((b - firstAfter watermark) % FIVE = 0))).Nodup :=
    (List.nodup_dedup _).filter _
  have hcount := length_eq_iff hnodup (nodup_grid (firstAfter watermark) newest)
    (fun b hb => ((hmem b).mp hb).2)
  rw [← length_grid, sub_eq_zero, Nat.cast_inj, eq_comm, hcount]
  constructor
  · intro hall b hmod hlow hhigh
    have hlow' := firstAfter_le hmod hlow
    exact ((hmem b).mp (hall ((mem_grid hfirst hgrid).mpr ⟨hmod, hlow', hhigh⟩))).1
  · intro hall b hb
    obtain ⟨hmod, hlow, hhigh⟩ := (mem_grid hfirst hgrid).mp hb
    exact (hmem b).mpr ⟨hall b hmod (hafter.trans_le hlow) hhigh, hb⟩

/-- `_position` finds a window clean when it is covered. -/
theorem position_clean_iff {p : PaperPosition} (ht : Timed db symbol)
    (hw : Representable p.watermark) (hn : Representable newest) (hgrid : newest % FIVE = 0)
    (hmax : newest - p.watermark ≤ MAX_WINDOW) :
    (position db symbol p newest).2 = true ↔ Covered db symbol p.watermark newest := by
  unfold position
  rw [if_neg (not_lt.mpr hmax)]
  dsimp only
  rw [Bool.and_eq_true, decide_eq_true_eq, missing_eq_zero_iff ht hw hn hgrid]
  refine and_congr_right (fun _ => ?_)
  rw [List.isEmpty_iff, ← List.length_eq_zero_iff, (List.perm_insertionSort _ _).length_eq,
    List.length_eq_zero_iff, List.filter_eq_nil_iff]
  refine forall₂_congr (fun a ha => ?_)
  rw [Bool.and_eq_true, inWindow_eq_true hw hn (ht.anomalies a ha), decide_eq_true_eq,
    mem_window ht hw hn]
  constructor
  · intro h hlow hhigh
    constructor
    · exact fun hgap => h ⟨⟨hlow, hhigh⟩, .inl hgap⟩
    · by_contra habsent
      exact h ⟨⟨hlow, hhigh⟩, .inr (fun hthere => habsent hthere.1)⟩
  · rintro h ⟨⟨hlow, hhigh⟩, hblocking⟩
    obtain ⟨hkind, hthere⟩ := h hlow hhigh
    cases hblocking with
    | inl hgap => exact hkind hgap
    | inr habsent => exact habsent ⟨hthere, hlow, hhigh⟩

/-- A symbol is ready when its newest closed bar is committed and every window is covered. -/
theorem ready_iff {trading : Option Database} (ht : Timed db symbol) (hn : Representable newest)
    (hgrid : newest % FIVE = 0)
    (hpositions : ∀ p ∈ openPositions trading, p.symbol = symbol →
      Representable p.watermark ∧ newest - p.watermark ≤ MAX_WINDOW) :
    (contiguityReport trading db newest symbol).verdict = .ready ↔
      newest ∈ barStarts db symbol ∧
        ∀ p ∈ openPositions trading, p.symbol = symbol → Covered db symbol p.watermark newest := by
  have hpresent : (barStarts db symbol).any (fun b => decide (utc b = utc newest)) = true ↔
      newest ∈ barStarts db symbol := by
    rw [List.any_eq_true]
    constructor
    · rintro ⟨b, hb, hsame⟩
      exact (utc_inj (ht.bars b hb) hn).mp (of_decide_eq_true hsame) ▸ hb
    · exact fun hb => ⟨newest, hb, decide_eq_true rfl⟩
  have hdetails : ((((openPositions trading).filter (fun p => decide (p.symbol = symbol))).map
      (fun p => position db symbol p newest)).all (·.2)) = true ↔
        ∀ p ∈ openPositions trading, p.symbol = symbol → Covered db symbol p.watermark newest := by
    rw [List.all_map, List.all_eq_true]
    constructor
    · intro h p hp hsymbol
      have hclean := h p (List.mem_filter.mpr ⟨hp, decide_eq_true hsymbol⟩)
      obtain ⟨hw, hmax⟩ := hpositions p hp hsymbol
      exact (position_clean_iff ht hw hn hgrid hmax).mp hclean
    · intro h p hp
      obtain ⟨hp, hsymbol⟩ := List.mem_filter.mp hp
      obtain ⟨hw, hmax⟩ := hpositions p hp (of_decide_eq_true hsymbol)
      exact (position_clean_iff ht hw hn hgrid hmax).mpr (h p hp (of_decide_eq_true hsymbol))
  rw [← hpresent, ← hdetails, ← Bool.and_eq_true]
  unfold contiguityReport
  dsimp only
  cases ((barStarts db symbol).any (fun b => decide (utc b = utc newest)) &&
    (((openPositions trading).filter (fun p => decide (p.symbol = symbol))).map
      (fun p => position db symbol p newest)).all (·.2)) <;> simp

end Clean

end MarketSystem.EvidenceReadiness
