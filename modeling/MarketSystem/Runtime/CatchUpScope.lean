import MarketSystem.Data.EvidenceStream
import MarketSystem.Execution.UndisturbedCatchUp
import MarketSystem.Replay.EvidenceReadiness

/-!
# The preflight of the catch-up scope

The preflight walks the grid bar by bar over the committed starts, where the readiness report
counts. Both mean that the window of every open position is covered, and a catch-up that nobody
disturbs then finds every bar of it.
-/
namespace MarketSystem.CatchUpScope

open Library EvidenceStore EvidenceReadiness PositionCatchUp
open Library.IsoTime (Representable)
open Library.WallClock (MINUTE)

/-! ### The checks -/

def CATCH_UP_SYMBOLS_ENV : String := "AI_FLOOR_V2_POSITION_CATCH_UP_SYMBOLS"
def SUPPORTED_SYMBOLS : List String := ["XAUUSD", "NAS100", "EURUSD"]
def CATCH_UP_EXCLUDED_SYMBOLS : List String := ["NAS100"]

/-- `[A-Z0-9]+` -/
def scopeToken (token : String) : Bool :=
  decide (token ≠ "") && token.toList.all (fun c =>
    decide ('A' ≤ c ∧ c ≤ 'Z' ∨ '0' ≤ c ∧ c ≤ '9'))

/-- The checks of one token after the other. -/
def checkTokens (enabledSymbols : List String) : List String → Except String Unit
  | [] => .ok ()
  | token :: tokens =>
    if token ∈ CATCH_UP_EXCLUDED_SYMBOLS then
      .error (CATCH_UP_SYMBOLS_ENV ++ ": " ++ token ++ " is never in the catch-up scope")
    else if token ∉ SUPPORTED_SYMBOLS ∨ token ∉ enabledSymbols then
      .error (CATCH_UP_SYMBOLS_ENV ++ ": " ++ token ++ " is not an enabled symbol")
    else checkTokens enabledSymbols tokens

/-- `parse_catch_up_symbols` -/
def parseCatchUpSymbols (raw : String) (enabledSymbols : List String) :
    Except String (List String) :=
  if raw = "" then .error (CATCH_UP_SYMBOLS_ENV ++ " must be a non-empty list")
  else
    let tokens := raw.splitOn ","
    if tokens.any (fun token => !scopeToken token) then
      .error (CATCH_UP_SYMBOLS_ENV ++ ": invalid token (exact upper-case symbols, no spaces)")
    else if ¬ tokens.Nodup then .error (CATCH_UP_SYMBOLS_ENV ++ ": duplicate symbol")
    else match checkTokens enabledSymbols tokens with
      | .error e => .error e
      | .ok () => .ok (enabledSymbols.filter (fun symbol => decide (symbol ∈ tokens)))

structure ScopeConfig where
  v2PositionCatchUp : Bool
  v2PositionCatchUpSymbols : List String
  enabledSymbols : List String

structure ScopeChecks where
  catchUpScopeValid : Bool
  catchUpEvidenceContiguous : Bool
  deriving DecidableEq

/-- The loop `while stamp <= newest`. -/
def walk (committed : List ℤ) (newest stamp : ℤ) : Bool :=
  if stamp ≤ newest then
    if stamp ∈ committed then walk committed newest (stamp + FIVE) else false
  else true
termination_by (newest + 1 - stamp).toNat
decreasing_by
  unfold FIVE MINUTE
  omega

/-- The body of the loop over the watermarks of a symbol. -/
def windowContiguous (db : EvidenceDb) (symbol : String) (newest : Instant) (p : PaperPosition) :
    Bool :=
  walk (barStarts db symbol) newest (firstAfter p.watermark) &&
    (anomaliesOf db symbol).all (fun a => !decide (p.watermark < a.2 ∧ a.2 ≤ newest ∧
      (a.1 = .gap ∨ a.2 ∉ barStarts db symbol)))

/-- The body of the loop over the scope. -/
def symbolContiguous (trading : Option Database) (db : EvidenceDb) (newest : Instant)
    (symbol : String) : Bool :=
  decide (newest ∈ barStarts db symbol) &&
    ((openPositions trading).filter (fun p => decide (p.symbol = symbol))).all
      (windowContiguous db symbol newest)

/-- `catch_up_scope_checks`; there are no checks when the flag is off. -/
def catchUpScopeChecks (config : ScopeConfig) (trading : Option Database)
    (evidence : Option EvidenceDb) (asOf now : Instant) : Option ScopeChecks :=
  let scope := config.v2PositionCatchUpSymbols
  let valid := !scope.isEmpty && (match parseCatchUpSymbols (",".intercalate scope)
      config.enabledSymbols with
    | .ok symbols => decide (symbols = scope)
    | .error _ => false)
  if config.v2PositionCatchUp then
    if now < asOf then some ⟨valid, false⟩
    else match evidence with
      | none => some ⟨valid, false⟩
      | some db => some ⟨valid, scope.all (symbolContiguous trading db (newestClosed5m asOf))⟩
  else none

/-- The preflight reports contiguous evidence. -/
def Contiguous (config : ScopeConfig) (trading : Option Database) (db : EvidenceDb)
    (asOf now : Instant) : Prop :=
  ∃ checks, catchUpScopeChecks config trading (some db) asOf now = some checks ∧
    checks.catchUpEvidenceContiguous = true

/-! ### One meaning -/

theorem walk_eq_true {committed : List ℤ} {newest stamp : ℤ} (hstamp : stamp % FIVE = 0) :
    walk committed newest stamp = true ↔
      ∀ b : ℤ, b % FIVE = 0 → stamp ≤ b → b ≤ newest → b ∈ committed := by
  fun_induction walk committed newest stamp with
  | case1 stamp hle hmem ih =>
    have hnext : (stamp + FIVE) % FIVE = 0 := by
      unfold FIVE MINUTE at *
      omega
    rw [ih hnext]
    constructor
    · intro hall b hb hlow hhigh
      cases hlow.eq_or_lt with
      | inl heq => exact heq ▸ hmem
      | inr hlt =>
        refine hall b hb ?_ hhigh
        unfold FIVE MINUTE at *
        omega
    · intro hall b hb hlow hhigh
      refine hall b hb ?_ hhigh
      unfold FIVE MINUTE at *
      omega
  | case2 stamp hle habsent =>
    constructor
    · intro hfalse
      cases hfalse
    · intro hall
      exact absurd (hall stamp hstamp le_rfl hle) habsent
  | case3 stamp hlate =>
    constructor
    · intro _ b _ hlow hhigh
      exact absurd (hlow.trans hhigh) hlate
    · exact fun _ => rfl

section Meaning

variable {db : EvidenceDb} {symbol : String} {newest : Instant} {trading : Option Database}

theorem windowContiguous_iff {p : PaperPosition} :
    windowContiguous db symbol newest p = true ↔ Covered db symbol p.watermark newest := by
  obtain ⟨hgrid, hafter, -⟩ := firstAfter_spec p.watermark
  unfold windowContiguous Covered
  rw [Bool.and_eq_true, walk_eq_true hgrid, List.all_eq_true]
  refine and_congr ?_ (forall₂_congr (fun a ha => ?_))
  · constructor
    · exact fun h b hb hlow hhigh => h b hb (firstAfter_le hb hlow) hhigh
    · exact fun h b hb hlow hhigh => h b hb (hafter.trans_le hlow) hhigh
  · rw [Bool.not_eq_true', decide_eq_false_iff_not]
    constructor
    · intro h hlow hhigh
      constructor
      · exact fun hgap => h ⟨hlow, hhigh, .inl hgap⟩
      · by_contra habsent
        exact h ⟨hlow, hhigh, .inr habsent⟩
    · rintro h ⟨hlow, hhigh, hblocking⟩
      obtain ⟨hkind, hthere⟩ := h hlow hhigh
      cases hblocking with
      | inl hgap => exact hkind hgap
      | inr habsent => exact habsent hthere

theorem symbolContiguous_iff : symbolContiguous trading db newest symbol = true ↔
    newest ∈ barStarts db symbol ∧
      ∀ p ∈ openPositions trading, p.symbol = symbol → Covered db symbol p.watermark newest := by
  unfold symbolContiguous
  rw [Bool.and_eq_true, decide_eq_true_eq, List.all_eq_true]
  refine and_congr_right (fun _ => ?_)
  constructor
  · intro h p hp hsymbol
    exact windowContiguous_iff.mp (h p (List.mem_filter.mpr ⟨hp, decide_eq_true hsymbol⟩))
  · intro h p hp
    obtain ⟨hp, hsymbol⟩ := List.mem_filter.mp hp
    exact windowContiguous_iff.mpr (h p hp (of_decide_eq_true hsymbol))

theorem contiguous_iff {config : ScopeConfig} {asOf now : Instant}
    (hon : config.v2PositionCatchUp = true) (hnow : asOf ≤ now) :
    Contiguous config trading db asOf now ↔ ∀ symbol ∈ config.v2PositionCatchUpSymbols,
      symbolContiguous trading db (newestClosed5m asOf) symbol = true := by
  unfold Contiguous catchUpScopeChecks
  simp only [hon, if_true, not_lt.mpr hnow, if_false]
  rw [← List.all_eq_true]
  constructor
  · rintro ⟨checks, hchecks, hcontiguous⟩
    obtain rfl := Option.some.inj hchecks
    exact hcontiguous
  · exact fun h => ⟨_, rfl, h⟩

/-- The times the checks compare are times of a `datetime`, and no window is too long. -/
structure Bounded (trading : Option Database) (db : EvidenceDb) (newest : Instant)
    (symbol : String) : Prop where
  timed : Timed db symbol
  watermarks : ∀ p ∈ openPositions trading, p.symbol = symbol →
    Representable p.watermark ∧ newest - p.watermark ≤ MAX_WINDOW

/-- The preflight and the readiness report agree. -/
theorem contiguous_iff_ready {config : ScopeConfig} {asOf now : Instant}
    (hon : config.v2PositionCatchUp = true) (hnow : asOf ≤ now)
    (hnewest : Representable (newestClosed5m asOf))
    (hbounded : ∀ symbol ∈ config.v2PositionCatchUpSymbols,
      Bounded trading db (newestClosed5m asOf) symbol) :
    Contiguous config trading db asOf now ↔
      ∀ r ∈ readiness trading (some db) config.v2PositionCatchUpSymbols asOf,
        r.2.verdict = .ready := by
  rw [contiguous_iff hon hnow]
  unfold readiness
  rw [List.forall_mem_map]
  refine forall₂_congr (fun symbol hsymbol => ?_)
  obtain ⟨htimed, hwatermarks⟩ := hbounded symbol hsymbol
  rw [symbolContiguous_iff, ready_iff htimed hnewest (newest_on_grid asOf) hwatermarks]

end Meaning

/-! ### What the catch-up finds -/

/-- `evidence.committed(symbol, "5m")` -/
def committedBars (db : EvidenceDb) (symbol : String) : List MarketBar :=
  (db.ordered symbol .m5).map (·.payload)

/-- The stream of a symbol as ingestion commits it: closed bars under their own keys, numbered
in the order of their starts. -/
structure Readable (db : EvidenceDb) (symbol : String) : Prop where
  keys : ∀ r ∈ db.stream symbol .m5, r.payload.symbol = symbol ∧ r.payload.timeframe = .m5 ∧
    r.payload.start = r.key.barStart
  closed : ∀ r ∈ db.stream symbol .m5, r.payload.isClosed = true
  chronological : (committedBars db symbol).Pairwise (fun a b => a.start < b.start)

/-- The bars a call hands to `process_bar`: committed bars in their order, one for every grid
instant after the watermark up to the newest, or up to the one that closed the position. -/
structure Hands (call : Call) (db : EvidenceDb) (newest watermark : Instant) (w : World)
    (handed : List Applied) : Prop where
  history : ((catchUpPosition call).alone w).2.history = w.history ++ handed.map .bar
  inOrder : (handed.map (·.bar)).Pairwise (fun a b => a.start < b.start)
  committed : ∀ a ∈ handed, a.bar ∈ committedBars db call.symbol
  every : ∀ b : ℤ, b % FIVE = 0 → watermark < b → b ≤ newest →
    (∃ a ∈ handed, a.bar.start = b) ∨
      ∃ last, handed.getLast? = some last ∧ last.closed ≠ [] ∧ last.bar.start < b

section Finds

variable {db : EvidenceDb} {symbol : String} {watermark asOf : Instant}

/-- What ingestion keeps of a database is what a stream is read by. -/
theorem readable_of_sound {h : EvidenceIngest.Rendering} (hs : EvidenceIngest.Sound h db)
    (hclosed : ∀ r ∈ db.stream symbol .m5, r.payload.isClosed = true) : Readable db symbol where
  keys r hr := by
    have hkey := hs.barStart hr
    have hpayload := (hs.rows r (EvidenceDb.mem_stream.mp hr).1).1
    rw [hkey] at hpayload
    obtain ⟨hsymbol, htimeframe, -⟩ := Key.mk.inj hpayload
    exact ⟨hsymbol.symm, htimeframe.symm, by rw [hkey]⟩
  closed := hclosed
  chronological := by
    unfold committedBars
    rw [hs.ordered, List.pairwise_map]
    exact hs.starts symbol .m5

theorem mem_committedBars {bar : MarketBar} :
    bar ∈ committedBars db symbol ↔ ∃ r ∈ db.stream symbol .m5, r.payload = bar := by
  unfold committedBars EvidenceDb.ordered
  rw [List.mem_map]
  exact exists_congr (fun r => and_congr_left (fun _ => (List.perm_insertionSort _ _).mem_iff))

theorem Readable.bar (h : Readable db symbol) {bar : MarketBar}
    (hbar : bar ∈ committedBars db symbol) :
    bar.symbol = symbol ∧ bar.timeframe = .m5 ∧ bar.isClosed = true := by
  obtain ⟨r, hr, rfl⟩ := mem_committedBars.mp hbar
  obtain ⟨hsymbol, htimeframe, -⟩ := h.keys r hr
  exact ⟨hsymbol, htimeframe, h.closed r hr⟩

/-- Such a stream is accepted whole. -/
theorem Readable.eligible (h : Readable db symbol) (watermark asOf : Instant) :
    ∃ bars, (Evidence.committed (committedBars db symbol)).eligibleBars symbol watermark asOf =
      .ok bars := by
  have hstream : Evidence.checkStream symbol watermark
      ((Evidence.committed (committedBars db symbol)).after symbol watermark asOf) = .ok () := by
    refine Evidence.checkStream_of (fun bar hbar => ?_) (h.chronological.filter _)
    obtain ⟨hmem, hafter⟩ := List.mem_filter.mp hbar
    obtain ⟨hsymbol, htimeframe, hclosed⟩ := h.bar hmem
    have hlater : watermark < bar.start := of_decide_eq_true (Bool.and_eq_true_iff.mp hafter).2
    exact ⟨hsymbol, htimeframe, hclosed, hlater⟩
  unfold Evidence.eligibleBars
  simp only [hstream]
  exact ⟨_, rfl⟩

/-- The bar of a committed start that is closed is eligible. -/
theorem Readable.mem_eligible (h : Readable db symbol) {bars : List MarketBar}
    (hbars : (Evidence.committed (committedBars db symbol)).eligibleBars symbol watermark asOf =
      .ok bars) {b : Instant} (hb : b ∈ barStarts db symbol) (hlow : watermark < b)
    (hhigh : b + FIVE ≤ asOf) : ∃ bar ∈ bars, bar.start = b := by
  obtain ⟨-, hmem⟩ := Evidence.eligibleBars_ok hbars
  obtain ⟨r, hr, rfl⟩ := List.mem_map.mp hb
  obtain ⟨hsymbol, htimeframe, hstart⟩ := h.keys r hr
  have hcommitted : r.payload ∈ committedBars db symbol := mem_committedBars.mpr ⟨r, hr, rfl⟩
  refine ⟨r.payload, (hmem r.payload).mpr ⟨⟨hcommitted, hsymbol, htimeframe, h.closed r hr⟩, ?_, ?_⟩,
    hstart⟩
  · exact hstart ▸ hlow
  · have hend : r.payload.end_ = r.key.barStart + FIVE := by
      unfold MarketBar.end_
      rw [htimeframe, hstart]
      rfl
    exact hend ▸ hhigh

/-- A call goes through every bar of a covered window. -/
theorem hands_of_covered {call : Call} {a : PaperAccount} {o : Orders} {f : Fills}
    {p : PaperPosition} {w : World} (hready : Ready call a o f p w)
    (hevidence : call.evidence = .committed (committedBars db call.symbol))
    (hreadable : Readable db call.symbol)
    (hcovered : Covered db call.symbol p.watermark (newestClosed5m call.asOf)) :
    ∃ handed, Hands call db (newestClosed5m call.asOf) p.watermark w handed := by
  obtain ⟨bars, hbars⟩ := hreadable.eligible p.watermark call.asOf
  obtain ⟨hsorted, hmem⟩ := Evidence.eligibleBars_ok hbars
  obtain ⟨handed, hhistory, hthrough⟩ := catchUpPosition_alone hready (hevidence ▸ hbars)
  obtain ⟨rest, hrest⟩ := hthrough.inOrder
  refine ⟨handed, hhistory, hsorted.sublist hthrough.inOrder.sublist, fun x hx => ?_, ?_⟩
  · exact ((hmem x.bar).mp (hthrough.inOrder.subset (List.mem_map_of_mem hx))).1.1
  · intro b hgrid hlow hhigh
    have hclosed : b + FIVE ≤ call.asOf :=
      (add_le_add_left hhigh FIVE).trans (newest_closed call.asOf)
    obtain ⟨bar, hbar, hstart⟩ :=
      hreadable.mem_eligible hbars (hcovered.1 b hgrid hlow hhigh) hlow hclosed
    by_cases hhanded : bar ∈ handed.map (·.bar)
    · obtain ⟨x, hx, rfl⟩ := List.mem_map.mp hhanded
      exact .inl ⟨x, hx, hstart⟩
    · -- what was not handed over comes after the bar that closed the position
      cases hthrough.all with
      | inl hall => exact absurd (hall ▸ hbar) hhanded
      | inr hstop =>
        obtain ⟨last, hlast, hclosing⟩ := hstop
        refine .inr ⟨last, hlast, hclosing, ?_⟩
        have hleft : bar ∈ rest := by
          cases List.mem_append.mp (hrest ▸ hbar) with
          | inl hthere => exact absurd hthere hhanded
          | inr hleft => exact hleft
        rw [← hrest, List.pairwise_append] at hsorted
        have hbefore := hsorted.2.2 last.bar (List.mem_map_of_mem (List.mem_of_getLast? hlast))
          bar hleft
        exact hstart ▸ hbefore

end Finds

/-- The preflight reports contiguous evidence exactly when every symbol is ready. A call at the
same time then goes through the whole window of the position it loads, when no closed trade has
the id of that position and the stream is as ingestion commits it. -/
theorem catch_up_preflight {config : ScopeConfig} {trading : Option Database} {db : EvidenceDb}
    {asOf now : Instant} (hon : config.v2PositionCatchUp = true) (hnow : asOf ≤ now)
    (hnewest : Representable (newestClosed5m asOf))
    (hbounded : ∀ symbol ∈ config.v2PositionCatchUpSymbols,
      Bounded trading db (newestClosed5m asOf) symbol) :
    (Contiguous config trading db asOf now ↔
      ∀ r ∈ readiness trading (some db) config.v2PositionCatchUpSymbols asOf,
        r.2.verdict = .ready) ∧
    (Contiguous config trading db asOf now → ∀ (call : Call) a o f p w,
      call.symbol ∈ config.v2PositionCatchUpSymbols → call.asOf = asOf →
      call.evidence = .committed (committedBars db call.symbol) → trading = some w.db →
      Readable db call.symbol → Ready call a o f p w →
        ∃ handed, Hands call db (newestClosed5m asOf) p.watermark w handed) := by
  refine ⟨contiguous_iff_ready hon hnow hnewest hbounded, ?_⟩
  rintro hcontiguous call a o f p w hscope rfl hevidence htrading hreadable hready
  obtain ⟨hmem, hsymbol⟩ := Table.get?_eq_some.mp hready.held
  have hopen : p ∈ openPositions trading := by
    rw [htrading]
    exact List.mem_filter.mpr ⟨(hready.mem.mp hmem).1, decide_eq_true (hready.mem.mp hmem).2⟩
  have hsymbolContiguous := (contiguous_iff hon hnow).mp hcontiguous call.symbol hscope
  exact hands_of_covered hready hevidence hreadable
    ((symbolContiguous_iff.mp hsymbolContiguous).2 p hopen hsymbol)

/-! ### A covered window -/

def sampleRow (seq : ℕ) (start : Instant) : EvidenceRow where
  key := ⟨"EURUSD", .m5, start⟩
  streamSeq := seq
  payload := sampleBar start
  digest := ""

/-- Three bars in a row. -/
def sampleStore : EvidenceDb where
  evidence := ⟨[sampleRow 1 300000000, sampleRow 2 600000000, sampleRow 3 900000000], by simp [sampleRow]⟩
  anomalies := .empty

def sampleConfig : ScopeConfig := ⟨true, ["EURUSD"], ["XAUUSD", "EURUSD"]⟩

/-- Two open positions of one symbol, which a load refuses. -/
def doubledDb : Database :=
  { sampleDb with
    paperPositions := ⟨[samplePosition, { samplePosition with positionId := "P2" }], by
      simp [samplePosition]⟩ }

theorem sample_bounded {trading : Option Database}
    (hopened : ∀ p ∈ openPositions trading, p.watermark = 0) :
    ∀ symbol ∈ sampleConfig.v2PositionCatchUpSymbols,
      Bounded trading sampleStore (newestClosed5m 1200000000) symbol := by
  intro symbol hsymbol
  obtain rfl := List.mem_singleton.mp hsymbol
  refine ⟨⟨?_, fun a ha => absurd ha List.not_mem_nil⟩, fun p hp _ => ?_⟩
  · have hall : ∀ b ∈ [(300000000 : ℤ), 600000000, 900000000], Representable b := by
      unfold Representable
      decide
    exact hall
  · rw [hopened p hp]
    unfold Representable
    decide

theorem sample_contiguous {trading : Option Database}
    (hopened : ∀ p ∈ openPositions trading, p.watermark = 0) :
    Contiguous sampleConfig trading sampleStore 1200000000 1200000000 := by
  refine (contiguous_iff rfl le_rfl).mpr (fun symbol hsymbol => ?_)
  obtain rfl := List.mem_singleton.mp hsymbol
  have hstarts : barStarts sampleStore "EURUSD" = [(300000000 : ℤ), 600000000, 900000000] := rfl
  have hnewest : newestClosed5m 1200000000 = 900000000 := rfl
  refine symbolContiguous_iff.mpr ⟨by rw [hstarts, hnewest]; decide, fun p hp _ => ⟨?_, ?_⟩⟩
  · intro b hgrid hlow hhigh
    have hlow' : (0 : ℤ) < b := hopened p hp ▸ hlow
    have hhigh' : b ≤ (900000000 : ℤ) := hnewest ▸ hhigh
    rw [hstarts]
    unfold FIVE MINUTE at hgrid
    have hb : b = 300000000 ∨ b = 600000000 ∨ b = 900000000 := by
      clear hlow hhigh
      omega
    simpa using hb
  · exact fun a ha => absurd ha List.not_mem_nil

theorem catch_up_preflight_sample : ∃ handed,
    Hands sampleCall sampleStore 900000000 0 ⟨sampleDb, []⟩ handed := by
  have hopened : ∀ p ∈ openPositions (some sampleDb), p.watermark = 0 := by decide
  have hreadable : Readable sampleStore "EURUSD" := by
    refine ⟨by decide, by decide, ?_⟩
    have hbars : committedBars sampleStore "EURUSD" =
      [sampleBar 300000000, sampleBar 600000000, sampleBar 900000000] := rfl
    rw [hbars]
    simp [sampleBar]
  have hready : Ready sampleCall sampleBroker.account sampleBroker.orders sampleBroker.fills
      samplePosition ⟨sampleDb, []⟩ :=
    ⟨rfl, rfl, fun t ht => absurd ht List.not_mem_nil, fun key hkey => by cases hkey⟩
  exact (catch_up_preflight rfl le_rfl (by unfold Representable; decide)
    (sample_bounded hopened)).2 (sample_contiguous hopened) sampleCall _ _ _ _ _
    (List.mem_singleton.mpr rfl) rfl rfl rfl hreadable hready

/-- The preflight accepts two open positions of one symbol, and the call hands nothing over. -/
theorem doubled_not_handed :
    ¬ ∀ (config : ScopeConfig) (trading : Option Database) (db : EvidenceDb) (asOf now : Instant),
      config.v2PositionCatchUp = true → asOf ≤ now → Representable (newestClosed5m asOf) →
      (∀ symbol ∈ config.v2PositionCatchUpSymbols,
        Bounded trading db (newestClosed5m asOf) symbol) →
      Contiguous config trading db asOf now → ∀ (call : Call) (w : World),
        call.symbol ∈ config.v2PositionCatchUpSymbols → call.asOf = asOf → call.ownerKey = none →
        call.evidence = .committed (committedBars db call.symbol) → trading = some w.db →
          ∀ p ∈ openPositions trading, p.symbol = call.symbol →
            ∃ handed, Hands call db (newestClosed5m asOf) p.watermark w handed := by
  intro hall
  have hopened : ∀ p ∈ openPositions (some doubledDb), p.watermark = 0 := by decide
  obtain ⟨handed, hhands⟩ := hall sampleConfig (some doubledDb) sampleStore 1200000000 1200000000 rfl
    le_rfl (by unfold Representable; decide) (sample_bounded hopened) (sample_contiguous hopened)
    sampleCall ⟨doubledDb, []⟩ (List.mem_singleton.mpr rfl) rfl rfl rfl rfl samplePosition
    List.mem_cons_self rfl
  have hload : doubledDb.loadPaper "A" = .error "duplicate open paper position" := rfl
  have hnothing : ((catchUpPosition sampleCall).alone ⟨doubledDb, []⟩).2.history = [] := by
    unfold catchUpPosition
    rw [Program.alone_bind, load_alone]
    simp only [show sampleCall.accountId = "A" from rfl, hload]
    rfl
  have hempty : handed = [] := by
    have hhistory := hhands.history
    rw [hnothing] at hhistory
    simpa using hhistory.symm
  obtain ⟨x, hx, -⟩ | ⟨last, hlast, -⟩ := hhands.every 300000000 (by decide) (by decide) (by decide)
  · rw [hempty] at hx
    exact absurd hx List.not_mem_nil
  · rw [hempty] at hlast
    cases hlast

end MarketSystem.CatchUpScope
