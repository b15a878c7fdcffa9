import Mathlib.Data.List.ReduceOption
import MarketSystem.Library.Binary64
import MarketSystem.Library.IsoRead
import MarketSystem.Library.Refusal
import MarketSystem.Library.Retention

/-!
# The candle cache of the alert charts

Each cycle stores the closed five minute closes of its snapshot and prunes its symbol to the newest
`MAX_BARS`. Two readers take the last closes up to the time of an event. The rows are ordered by the
text of their start; the history beside them, which no read sees, holds instants and is never
pruned.
-/
namespace MarketSystem.CandleCache

open Library
open Library.IsoTime (Stamp Representable utc)
open Library.Retention (newest later prune Retains)

/-- 24 hours of five minute bars. -/
def MAX_BARS : ℤ := 288

def FIVE : ℤ := 300000000

/-- A value in the `Close` column, after `.item()`. -/
inductive Cell
  | float (x : Binary64)
  | int (n : ℤ)
  | notFinite
  | other
  deriving DecidableEq

/-- `_positive`, with the number as `float` makes it. -/
def positive : Cell → Except String (Option Binary64)
  | .float x => pure (if 0 < x.value then some x else none)
  | .int n =>
    match Binary64.nearest n with
    | some x => pure (if 0 < x.value then some x else none)
    | none => .error "int too large to convert to float"
  | .notFinite => pure none
  | .other => pure none

/-- What the 64 bit nanoseconds of a `Timestamp` reach, in microseconds. -/
def RANGE : ℤ := 9223372036854775

/-- A row of the snapshot's frame; `isClosed` says that its cell equals `True`. -/
structure Bar where
  start : Stamp
  inRange : -RANGE ≤ start.instant ∧ start.instant ≤ RANGE
  close : Cell
  isClosed : Bool
  deriving DecidableEq

/-- A close with its symbol and the start of its bar. -/
structure Candle where
  symbol : String
  start : ℤ
  close : Binary64
  inRange : -RANGE ≤ start ∧ start ≤ RANGE
  isPositive : 0 < close.value
  deriving DecidableEq

/-- A row of the `candles` table. -/
structure Row where
  symbol : String
  barStart : List Char
  close : Binary64
  deriving DecidableEq

abbrev Candles := Table (fun r : Row => (r.symbol, r.barStart))

/-- All closes that were written, the last of each bar. -/
abbrev History := Table (fun c : Candle => (c.symbol, c.start))

def Candle.row (c : Candle) : Row where
  symbol := c.symbol
  barStart := utc c.start
  close := c.close

theorem representable_of_range {t : ℤ} (h : -RANGE ≤ t ∧ t ≤ RANGE) : Representable t := by
  unfold RANGE at h
  have hdays : (IsoTime.DAYS : ℤ) = 3652059 := by decide
  unfold Representable IsoTime.EPOCH
  omega

theorem Candle.barStart_le (c d : Candle) : c.row.barStart ≤ d.row.barStart ↔ c.start ≤ d.start :=
  IsoTime.utc_le_utc (representable_of_range c.inRange) (representable_of_range d.inRange)

theorem Candle.key_iff (c d : Candle) :
    (c.row.symbol, c.row.barStart) = (d.row.symbol, d.row.barStart) ↔
      (c.symbol, c.start) = (d.symbol, d.start) := by
  rw [Prod.mk.injEq, Prod.mk.injEq]
  exact and_congr_right fun _ =>
    IsoTime.utc_inj (representable_of_range c.inRange) (representable_of_range d.inRange)

/-! ## Writing -/

/-- One bar of the loop: skipped, kept, or an error of the conversion. -/
def candleOf (symbol : String) (asOf : ℤ) (bar : Bar) : Except String (Option Candle) :=
  if bar.start.offset = none ∨ asOf < bar.start.instant + FIVE ∨ bar.isClosed = false then pure none
  else do
    match ← positive bar.close with
    | none => pure none
    | some close =>
      if h : 0 < close.value then
        pure (some ⟨symbol, bar.start.instant, close, bar.inRange, h⟩)
      else pure none

/-- The loop over `frame.iloc[-max_bars:]`. -/
def candlesOf (maxBars : ℤ) (symbol : String) (frame : List Bar) (asOf : ℤ) :
    Except String (List Candle) := do
  require (decide (0 < maxBars)) "max_bars must be positive"
  let rows ← (frame.drop (frame.length - maxBars.toNat)).mapM (candleOf symbol asOf)
  pure rows.reduceOption

def record (maxBars : ℤ) (db : Candles) (symbol : String) (frame : List Bar) (asOf : ℤ) :
    Except String (Candles × ℕ) := do
  let rows ← candlesOf maxBars symbol frame asOf
  if rows = [] then pure (db, 0)
  else pure (prune maxBars.toNat symbol (db.putAll (rows.map Candle.row)), rows.length)

/-! ## Reading -/

/-- `datetime.fromisoformat`, which reads what `isoformat` writes. -/
structure IsoReader where
  read : String → Option Stamp
  read_utc : ∀ t (ht : Representable t), read (String.ofList (utc t)) = some (Stamp.inUtc t ht)

/-- `SELECT … WHERE symbol=? AND bar_start<=? ORDER BY bar_start DESC LIMIT ?` -/
def select (db : Candles) (symbol : String) (boundary : List Char) (limit : ℕ) : List Row :=
  newest Row.symbol Row.barStart limit symbol
    (db.rows.filter (fun r => decide (r.barStart ≤ boundary)))

/-- `_utc(at - FIVE)`; each step of it may leave the years of a `datetime`. -/
def boundary (iso : IsoReader) (occurredAt : String) : Option ℤ := do
  let at' ← iso.read occurredAt
  if at'.offset = none then none
  else if Representable (at'.wall - FIVE) ∧ Representable (at'.instant - FIVE) then
    some (at'.instant - FIVE)
  else none

/-- The greatest integer that SQLite takes. -/
def SQLITE_MAX : ℤ := 9223372036854775807

def closes (iso : IsoReader) (db : Candles) (symbol occurredAt : String) (limit : ℤ) :
    Except String (List Binary64) :=
  if symbol = "" ∨ occurredAt = "" then pure []
  else do
    require (decide (0 < limit)) "chart bar limit must be positive"
    match boundary iso occurredAt with
    | none => pure []
    | some b =>
      if SQLITE_MAX < limit then pure []
      else
        let values := (select db symbol (utc b) limit.toNat).reverse.map Row.close
        pure (if values.all (fun value => decide (0 < value.value)) then values else [])

/-- `(at-timedelta(minutes=5))` of the second reader, which goes to UTC first. -/
def setupBoundary (iso : IsoReader) (asOf : String) : Option ℤ := do
  let at' ← iso.read (asOf.replace "Z" "+00:00")
  if at'.offset = none then none
  else if Representable at'.instant ∧ Representable (at'.instant - FIVE) then
    some (at'.instant - FIVE)
  else none

/-- One bar of `read_candles`. -/
def setupBar (iso : IsoReader) (b : ℤ) (r : Row) : Option (List Char × Binary64) := do
  let start ← iso.read (String.ofList r.barStart)
  if start.offset = none ∨ b + FIVE < start.instant + FIVE ∨ r.close.value ≤ 0 then none
  else some (utc start.instant, r.close)

def readCandles (iso : IsoReader) (db : Candles) (symbol asOf : String) (limit : ℤ) :
    Except String (List (List Char × Binary64)) := do
  require (decide (0 < limit ∧ limit ≤ MAX_BARS)) "limit must be between 1 and 288"
  if symbol = "" ∨ asOf = "" then pure []
  else
    match setupBoundary iso asOf with
    | none => pure []
    | some b =>
      pure (((select db symbol (utc b) limit.toNat).reverse.mapM (setupBar iso b)).getD [])

/-! ## Runs -/

/-- A cycle's call of `record`. What it raises is logged by the caller; where the file cannot be
written, the transaction leaves it as it was. -/
structure Cycle where
  symbol : String
  frame : List Bar
  asOf : ℤ
  writable : Bool

/-- The candles that a cycle commits. -/
def Cycle.candles (maxBars : ℤ) (cycle : Cycle) : List Candle :=
  if cycle.writable then
    match candlesOf maxBars cycle.symbol cycle.frame cycle.asOf with
    | .ok rows => rows
    | .error _ => []
  else []

def cycleCache (maxBars : ℤ) (db : Candles) (cycle : Cycle) : Candles :=
  if cycle.writable then
    match record maxBars db cycle.symbol cycle.frame cycle.asOf with
    | .ok (db', _) => db'
    | .error _ => db
  else db

def cacheAfter (maxBars : ℤ) (cycles : List Cycle) : Candles :=
  cycles.foldl (cycleCache maxBars) Table.empty

def historyAfter (maxBars : ℤ) (cycles : List Cycle) : History :=
  cycles.foldl (fun h cycle => h.putAll (cycle.candles maxBars)) Table.empty

/-- The last `n` candles of a symbol that begin by `b`, the newest first. -/
def latest (h : History) (symbol : String) (b : ℤ) (n : ℕ) : List Candle :=
  newest Candle.symbol Candle.start n symbol (h.rows.filter (fun c => decide (c.start ≤ b)))

/-- How many candles of a symbol begin after `b`. -/
def startedAfter (h : History) (symbol : String) (b : ℤ) : ℕ :=
  later Candle.symbol Candle.start symbol b h.rows

/-- The history as rows. -/
def rowsOf (h : History) : Candles := h.map Candle.row Candle.key_iff

/-! ## The cache is the newest part of the history -/

/-- Whether anything is written or not, the committed candles are put and the symbol is pruned. -/
theorem cycleCache_cases (maxBars : ℤ) (db : Candles) (cycle : Cycle) :
    cycle.candles maxBars = [] ∧ cycleCache maxBars db cycle = db ∨
      cycleCache maxBars db cycle = prune maxBars.toNat cycle.symbol
        (db.putAll ((cycle.candles maxBars).map Candle.row)) := by
  unfold cycleCache Cycle.candles record
  by_cases hw : cycle.writable = true
  · rw [if_pos hw, if_pos hw]
    cases hrows : candlesOf maxBars cycle.symbol cycle.frame cycle.asOf with
    | error e => exact .inl ⟨rfl, rfl⟩
    | ok rows =>
      by_cases hnil : rows = []
      · subst hnil
        exact .inl ⟨rfl, rfl⟩
      · right
        change (match (if rows = [] then pure (db, 0) else _ : Except String (Candles × ℕ)) with
          | .ok (db', _) => db'
          | .error _ => db) = _
        rw [if_neg hnil]
        rfl
  · rw [if_neg hw, if_neg hw]
    exact .inl ⟨rfl, rfl⟩

theorem symbol_of_candleOf {symbol : String} {asOf : ℤ} {bar : Bar} {c : Candle}
    (h : candleOf symbol asOf bar = .ok (some c)) :
    c.symbol = symbol ∧ bar.isClosed = true ∧ bar.start.offset ≠ none ∧
      c.start = bar.start.instant ∧ c.start + FIVE ≤ asOf ∧
      positive bar.close = .ok (some c.close) := by
  unfold candleOf at h
  by_cases hskip : bar.start.offset = none ∨ asOf < bar.start.instant + FIVE ∨ bar.isClosed = false
  · rw [if_pos hskip] at h
    cases h
  rw [if_neg hskip] at h
  rw [not_or, not_or, not_lt] at hskip
  obtain ⟨hoffset, hclosed, his⟩ := hskip
  obtain ⟨close, hclose, h⟩ := bind_eq_ok.mp h
  cases close with
  | none => cases h
  | some x =>
    simp only at h
    by_cases hpos : 0 < x.value
    · rw [dif_pos hpos] at h
      cases h
      exact ⟨rfl, by simpa using his, hoffset, rfl, hclosed, hclose⟩
    · rw [dif_neg hpos] at h
      cases h

theorem mem_candles {maxBars : ℤ} {cycle : Cycle} {c : Candle} (h : c ∈ cycle.candles maxBars) :
    cycle.writable = true ∧ ∃ bar ∈ cycle.frame, candleOf cycle.symbol cycle.asOf bar = .ok (some c) := by
  unfold Cycle.candles at h
  by_cases hw : cycle.writable = true
  · rw [if_pos hw] at h
    cases hrows : candlesOf maxBars cycle.symbol cycle.frame cycle.asOf with
    | error e =>
      rw [hrows] at h
      exact absurd h List.not_mem_nil
    | ok rows =>
      rw [hrows] at h
      obtain ⟨_, -, hrows⟩ := bind_eq_ok.mp hrows
      obtain ⟨all, hall, hrows⟩ := bind_eq_ok.mp hrows
      cases hrows
      obtain ⟨bar, hbar, hcandle⟩ :=
        (mem_of_mapM_ok hall (some c)).mp (List.reduceOption_mem_iff.mp h)
      exact ⟨hw, bar, List.mem_of_mem_drop hbar, hcandle⟩
  · rw [if_neg hw] at h
    exact absurd h List.not_mem_nil

/-- What one cycle keeps. -/
theorem Retains.cycle {maxBars : ℤ} {db : Candles} {h : History} (cycle : Cycle)
    (hkeeps : Retains maxBars.toNat db (rowsOf h)) :
    Retains maxBars.toNat (cycleCache maxBars db cycle)
      (rowsOf (h.putAll (cycle.candles maxBars))) := by
  have hmap : (rowsOf (h.putAll (cycle.candles maxBars)))
      = (rowsOf h).putAll ((cycle.candles maxBars).map Candle.row) := Table.map_putAll
  rw [hmap]
  cases cycleCache_cases maxBars db cycle with
  | inl hsame =>
    rw [hsame.2, hsame.1]
    exact hkeeps
  | inr hwrite =>
    rw [hwrite]
    apply hkeeps.write
    intro r hr
    obtain ⟨c, hc, rfl⟩ := List.mem_map.mp hr
    obtain ⟨-, bar, -, hcandle⟩ := mem_candles hc
    exact (symbol_of_candleOf hcandle).1

theorem retains_run (maxBars : ℤ) (cycles : List Cycle) :
    Retains maxBars.toNat (cacheAfter maxBars cycles) (rowsOf (historyAfter maxBars cycles)) := by
  induction cycles using List.reverseRecOn with
  | nil => exact Retention.retains_empty
  | append_singleton cycles cycle ih =>
    rw [cacheAfter, historyAfter, List.foldl_append, List.foldl_append]
    exact Retains.cycle cycle ih

theorem mem_historyAfter {maxBars : ℤ} {cycles : List Cycle} {c : Candle}
    (h : c ∈ historyAfter maxBars cycles) : ∃ cycle ∈ cycles, c ∈ cycle.candles maxBars := by
  induction cycles using List.reverseRecOn with
  | nil => exact absurd h Table.not_mem_empty
  | append_singleton cycles cycle ih =>
    rw [historyAfter, List.foldl_append] at h
    cases Table.mem_or_mem_of_putAll h with
    | inl hnew => exact ⟨cycle, by simp, hnew⟩
    | inr hold =>
      obtain ⟨cycle', hmem, hc⟩ := ih hold
      exact ⟨cycle', List.mem_append_left _ hmem, hc⟩

/-! ## The readers -/

/-- What a reader is to show: the last candles that begin by `b`, the oldest first, as far as those
after `b` leave room. -/
def shown (h : History) (maxBars : ℤ) (symbol : String) (b limit : ℤ) : List Candle :=
  (latest h symbol b (min limit.toNat (maxBars.toNat - startedAfter h symbol b))).reverse

theorem select_eq {maxBars : ℤ} {db : Candles} {h : History}
    (hkeeps : Retains maxBars.toNat db (rowsOf h)) (symbol : String) {b : ℤ}
    (hb : Representable b) (limit : ℤ) :
    (select db symbol (utc b) limit.toNat).reverse
      = (shown h maxBars symbol b limit).map Candle.row := by
  have hle : ∀ c : Candle, c.row.barStart ≤ utc b ↔ c.start ≤ b := fun c =>
    IsoTime.utc_le_utc (representable_of_range c.inRange) hb
  have hupTo : (rowsOf h).rows.filter (fun r => decide (r.barStart ≤ utc b))
      = (h.rows.filter (fun c => decide (c.start ≤ b))).map Candle.row := by
    rw [rowsOf, Table.rows_map, List.filter_map]
    congr 1
    apply List.filter_congr
    intro c _
    simp [hle]
  have hafter : later Row.symbol Row.barStart symbol (utc b) (rowsOf h).rows
      = startedAfter h symbol b := by
    rw [startedAfter, later, later, rowsOf, Table.rows_map, List.filter_map, List.length_map]
    congr 1
    apply List.filter_congr
    intro c _
    simp only [Function.comp_apply, decide_eq_decide]
    rw [← not_le, ← not_le, hle]
    rfl
  rw [select, hkeeps.read_newest, hafter, hupTo,
    Retention.newest_map Candle.row (fun _ => rfl) Candle.barStart_le, shown, List.map_reverse]
  rfl

theorem le_of_mem_shown {h : History} {maxBars : ℤ} {symbol : String} {b limit : ℤ} {c : Candle}
    (hc : c ∈ shown h maxBars symbol b limit) : c.start ≤ b := by
  have hnewest := (Retention.mem_newest (Retention.Distinct.filter h.nodup _)).mp
    (List.mem_reverse.mp hc)
  simpa using (List.mem_filter.mp hnewest.1).2

theorem setupBar_row {iso : IsoReader} {b : ℤ} {c : Candle} (hc : c.start ≤ b) :
    setupBar iso b c.row = some (utc c.start, c.close) := by
  have hread := iso.read_utc c.start (representable_of_range c.inRange)
  have hinstant : (Stamp.inUtc c.start (representable_of_range c.inRange)).instant = c.start :=
    sub_zero _
  have hkept : ¬(((Stamp.inUtc c.start (representable_of_range c.inRange)).offset = none)
      ∨ b + FIVE < c.start + FIVE ∨ c.close.value ≤ 0) := by
    rintro (hnone | hlate | hneg)
    · cases hnone
    · omega
    · exact absurd c.isPositive (not_lt.mpr hneg)
  rw [setupBar, Candle.row, hread]
  simp only [Option.bind_eq_bind, Option.bind_some, hinstant]
  rw [if_neg hkept]

theorem mapM_setupBar (iso : IsoReader) (b : ℤ) {cs : List Candle} (h : ∀ c ∈ cs, c.start ≤ b) :
    (cs.map Candle.row).mapM (setupBar iso b) = some (cs.map fun c => (utc c.start, c.close)) := by
  induction cs with
  | nil => rfl
  | cons c cs ih =>
    rw [List.map_cons, List.mapM_cons, setupBar_row (h c List.mem_cons_self),
      ih fun d hd => h d (List.mem_cons_of_mem _ hd)]
    rfl

theorem boundary_representable {iso : IsoReader} {text : String} {b : ℤ}
    (h : boundary iso text = some b) : Representable b := by
  unfold boundary at h
  obtain ⟨at', -, h⟩ := Option.bind_eq_some_iff.mp h
  by_cases hnone : at'.offset = none
  · rw [if_pos hnone] at h
    cases h
  · rw [if_neg hnone] at h
    by_cases hyears : Representable (at'.wall - FIVE) ∧ Representable (at'.instant - FIVE)
    · rw [if_pos hyears] at h
      cases h
      exact hyears.2
    · rw [if_neg hyears] at h
      cases h

theorem setupBoundary_representable {iso : IsoReader} {text : String} {b : ℤ}
    (h : setupBoundary iso text = some b) : Representable b := by
  unfold setupBoundary at h
  obtain ⟨at', -, h⟩ := Option.bind_eq_some_iff.mp h
  by_cases hnone : at'.offset = none
  · rw [if_pos hnone] at h
    cases h
  · rw [if_neg hnone] at h
    by_cases hyears : Representable at'.instant ∧ Representable (at'.instant - FIVE)
    · rw [if_pos hyears] at h
      cases h
      exact hyears.2
    · rw [if_neg hyears] at h
      cases h

theorem closes_shown {iso : IsoReader} {maxBars : ℤ} {db : Candles} {h : History}
    (hkeeps : Retains maxBars.toNat db (rowsOf h)) {symbol text : String} {limit b : ℤ}
    (hsymbol : symbol ≠ "") (htext : text ≠ "") (hb : boundary iso text = some b)
    (hlimit : 0 < limit ∧ limit ≤ SQLITE_MAX) :
    closes iso db symbol text limit
      = .ok ((shown h maxBars symbol b limit).map Candle.close) := by
  have hrows := select_eq hkeeps symbol (boundary_representable hb) limit
  have hvalues : (select db symbol (utc b) limit.toNat).reverse.map Row.close
      = (shown h maxBars symbol b limit).map Candle.close := by
    rw [hrows, List.map_map]
    rfl
  have hall : ((shown h maxBars symbol b limit).map Candle.close).all
      (fun value => decide (0 < value.value)) = true := by
    rw [List.all_eq_true]
    intro value hvalue
    obtain ⟨c, -, rfl⟩ := List.mem_map.mp hvalue
    exact decide_eq_true c.isPositive
  unfold closes
  rw [if_neg (by simp [hsymbol, htext]), hb, require, if_pos (by simpa using hlimit.1)]
  dsimp only [bind, Except.bind]
  rw [if_neg (by omega), hvalues, if_pos hall]
  rfl

theorem readCandles_shown {iso : IsoReader} {maxBars : ℤ} {db : Candles} {h : History}
    (hkeeps : Retains maxBars.toNat db (rowsOf h)) {symbol text : String} {limit b : ℤ}
    (hsymbol : symbol ≠ "") (htext : text ≠ "") (hb : setupBoundary iso text = some b)
    (hlimit : 0 < limit ∧ limit ≤ MAX_BARS) :
    readCandles iso db symbol text limit
      = .ok ((shown h maxBars symbol b limit).map fun c => (utc c.start, c.close)) := by
  have hrows := select_eq hkeeps symbol (setupBoundary_representable hb) limit
  have hbars := mapM_setupBar iso b
    fun c (hc : c ∈ shown h maxBars symbol b limit) => le_of_mem_shown hc
  unfold readCandles
  rw [require, if_pos (by simpa using hlimit)]
  dsimp only [bind, Except.bind]
  rw [if_neg (by simp [hsymbol, htext]), hb]
  dsimp only
  rw [hrows, hbars]
  rfl

end MarketSystem.CandleCache
