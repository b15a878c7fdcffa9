import MarketSystem.Agents.TargetPlanner

/-!
# The first obstacle of policy D

The entry is rounded away from the target, and stop and target away from each other's
advantage: the risk of a plan is at least the risk of the raw prices and its reward at most
their reward. So a plan of two risks is one on the raw prices, and the ceiling of five is
not inherited. The target is the nearest swing beyond the raw entry as long as the grid
keeps that swing beyond the entry.
-/
namespace MarketSystem.TargetPlanner

open Library RrContract Scouts
open StructureAgent (StructureReport Swing)
open SetupValidator (Assessment)

/-! ## Rounding against the trade -/

theorem beyond_iff {side : Side} {x y : ℚ} : Beyond side x y ↔ side.signed x < side.signed y := by
  cases side <;> simp [Beyond]

section Normalize

variable {side : Side} {price price' increment r r' : ℚ}

theorem normalize_floor (h : normalize price increment .floor = some r) :
    0 < increment ∧ 0 < r ∧ r = ⌊price / increment⌋ * increment := by
  unfold RrContract.normalize at h
  split at h
  · next step value hstep hvalue =>
    obtain ⟨hinc, rfl⟩ := toDecimal_eq_some.mp hstep
    obtain ⟨-, rfl⟩ := toDecimal_eq_some.mp hvalue
    obtain ⟨hpos, heq⟩ := toDecimal_eq_some.mp h
    exact ⟨hinc, heq ▸ hpos, heq⟩
  · cases h

theorem normalize_ceiling (h : normalize price increment .ceiling = some r) :
    0 < increment ∧ 0 < r ∧ r = ⌈price / increment⌉ * increment := by
  unfold RrContract.normalize at h
  split at h
  · next step value hstep hvalue =>
    obtain ⟨hinc, rfl⟩ := toDecimal_eq_some.mp hstep
    obtain ⟨-, rfl⟩ := toDecimal_eq_some.mp hvalue
    obtain ⟨hpos, heq⟩ := toDecimal_eq_some.mp h
    exact ⟨hinc, heq ▸ hpos, heq⟩
  · cases h

theorem le_of_normalize_floor (h : normalize price increment .floor = some r) : r ≤ price := by
  obtain ⟨hinc, -, rfl⟩ := normalize_floor h
  exact (le_div_iff₀ hinc).mp (Int.floor_le _)

theorem ge_of_normalize_ceiling (h : normalize price increment .ceiling = some r) : price ≤ r := by
  obtain ⟨hinc, -, rfl⟩ := normalize_ceiling h
  exact (div_le_iff₀ hinc).mp (Int.le_ceil _)

theorem normalize_floor_mono (h : normalize price increment .floor = some r)
    (h' : normalize price' increment .floor = some r') (hle : price ≤ price') : r ≤ r' := by
  obtain ⟨hinc, -, rfl⟩ := normalize_floor h
  obtain ⟨-, -, rfl⟩ := normalize_floor h'
  gcongr

theorem normalize_ceiling_mono (h : normalize price increment .ceiling = some r)
    (h' : normalize price' increment .ceiling = some r') (hle : price ≤ price') : r ≤ r' := by
  obtain ⟨hinc, -, rfl⟩ := normalize_ceiling h
  obtain ⟨-, -, rfl⟩ := normalize_ceiling h'
  gcongr

/-- The entry is rounded in the direction of the trade. -/
theorem signed_le_entry (h : normalize price increment (entryRounding side) = some r) :
    side.signed price ≤ side.signed r := by
  cases side with
  | long => exact ge_of_normalize_ceiling h
  | short => exact neg_le_neg (le_of_normalize_floor h)

/-- A level is rounded against it. -/
theorem signed_level_le (h : normalize price increment (levelRounding side) = some r) :
    side.signed r ≤ side.signed price := by
  cases side with
  | long => exact le_of_normalize_floor h
  | short => exact neg_le_neg (ge_of_normalize_ceiling h)

theorem signed_level_mono (h : normalize price increment (levelRounding side) = some r)
    (h' : normalize price' increment (levelRounding side) = some r')
    (hle : side.signed price ≤ side.signed price') : side.signed r ≤ side.signed r' := by
  cases side with
  | long => exact normalize_floor_mono h h' hle
  | short => exact neg_le_neg (normalize_ceiling_mono h' h (neg_le_neg_iff.mp hle))

/-- A level whose grid price is on the near side of a grid entry is there itself. -/
theorem signed_lt_of_level_lt {entry : ℚ}
    (h : normalize price increment (levelRounding side) = some r)
    (hentry : normalize price' increment (entryRounding side) = some entry)
    (hlt : side.signed r < side.signed entry) : side.signed price < side.signed entry := by
  cases side with
  | long =>
    obtain ⟨hinc, -, rfl⟩ := normalize_floor h
    obtain ⟨-, -, rfl⟩ := normalize_ceiling hentry
    have hunits : ⌊price / increment⌋ < ⌈price' / increment⌉ := by
      exact_mod_cast lt_of_mul_lt_mul_right hlt hinc.le
    exact (div_lt_iff₀ hinc).mp (Int.floor_lt.mp hunits)
  | short =>
    obtain ⟨hinc, -, rfl⟩ := normalize_ceiling h
    obtain ⟨-, -, rfl⟩ := normalize_floor hentry
    have hunits : ⌊price' / increment⌋ < ⌈price / increment⌉ := by
      exact_mod_cast lt_of_mul_lt_mul_right (neg_lt_neg_iff.mp hlt) hinc.le
    exact neg_lt_neg ((lt_div_iff₀ hinc).mp (Int.lt_ceil.mp hunits))

end Normalize

/-- The distance of what is beyond is the signed difference. -/
theorem abs_sub_of_signed_lt {side : Side} {x y : ℚ} (h : side.signed x < side.signed y) :
    |y - x| = side.signed y - side.signed x := by
  cases side with
  | long => exact abs_of_pos (sub_pos.mpr h)
  | short =>
    have hneg : y - x < 0 := by
      simp only [Side.signed_short] at h
      linarith
    rw [abs_of_neg hneg]
    simp only [Side.signed_short]
    ring

/-! ## The swings that a target may come from -/

/-- The swings of a report that stand in the direction of the trade. -/
def swingsOf (side : Side) (payload : StructureReport) : List Swing :=
  match side with
  | .long => payload.highs
  | .short => payload.lows

/-- A swing of a candidate timeframe, from a report of the setup's own lineage with a valid
reference, and confirmed by the slot. -/
structure Trusted (setup : Assessment) (side : Side) (asOf : Instant) (timeframe : String)
    (swing : Swing) : Prop where
  timeframe_mem : timeframe ∈ CANDIDATE_TIMEFRAMES
  reference : timeframe ∈ setup.validRefs
  confirmed : swing.timestamp ≤ asOf
  lineage : ∃ payload,
    ((setup.evidence.map SetupValidator.Evidence.structure_).getD []).lookup timeframe = some payload ∧
      payload.symbol = setup.symbol ∧ payload.timeframe = timeframe ∧ swing ∈ swingsOf side payload

/-- The nearest trusted swing strictly beyond a price. -/
structure Nearest (setup : Assessment) (side : Side) (asOf : Instant) (price : ℚ)
    (timeframe : String) (swing : Swing) : Prop where
  trusted : Trusted setup side asOf timeframe swing
  beyond : Beyond side price swing.price
  least : ∀ timeframe' swing', Trusted setup side asOf timeframe' swing' →
    Beyond side price swing'.price → |swing.price - price| ≤ |swing'.price - price|

variable {setup : Assessment} {asOf : Instant}

section Records

variable {side : Side} {entry increment : ℚ}

theorem swingRecord_eligible {timeframe : String} {lineageOk refOk : Bool} {swing : Swing} :
    (swingRecord side entry increment asOf timeframe lineageOk refOk swing).eligible = true ↔
      lineageOk = true ∧ refOk = true ∧ swing.timestamp ≤ asOf ∧
        ∃ target, normalize swing.price increment (levelRounding side) = some target ∧
          Beyond side entry target := by
  unfold swingRecord
  cases htarget : normalize swing.price increment (levelRounding side) with
  | none =>
    dsimp only
    split_ifs <;> simp
  | some target =>
    dsimp only
    split_ifs with hlineage href hfuture hbeyond
    · simp [hlineage]
    · simp [href]
    · simp [hfuture]
    · simp only [Bool.not_eq_false, not_lt] at hlineage href hfuture
      simp [hlineage, href, hfuture, hbeyond]
    · simp [hbeyond]

theorem swingRecord_target {timeframe : String} {lineageOk refOk : Bool} {swing : Swing} :
    (swingRecord side entry increment asOf timeframe lineageOk refOk swing).targetPrice =
      normalize swing.price increment (levelRounding side) := by
  unfold swingRecord
  cases normalize swing.price increment (levelRounding side) <;> dsimp only <;> split_ifs <;> rfl

theorem swingRecord_source {timeframe : String} {lineageOk refOk : Bool} {swing : Swing} :
    (swingRecord side entry increment asOf timeframe lineageOk refOk swing).source =
      swingName side ++ timeframe := by
  unfold swingRecord
  cases normalize swing.price increment (levelRounding side) <;> dsimp only <;> split_ifs <;> rfl

/-- What is eligible is the record of a trusted swing that the grid keeps beyond the entry. -/
theorem of_eligible {c : Candidate} (hmem : c ∈ (candidates setup side entry increment asOf).1)
    (h : c.eligible = true) :
    ∃ timeframe swing, Trusted setup side asOf timeframe swing ∧ ∃ target,
      normalize swing.price increment (levelRounding side) = some target ∧
        Beyond side entry target ∧ c.targetPrice = some target := by
  obtain hmem | hmem := List.mem_append.mp hmem
  · obtain ⟨timeframe, htimeframe, hmem⟩ := List.mem_flatMap.mp hmem
    split at hmem
    · exact absurd hmem List.not_mem_nil
    · next payload hlookup =>
      obtain ⟨swing, hswing, rfl⟩ := List.mem_map.mp hmem
      obtain ⟨hlineage, href, hconfirmed, target, htarget, hbeyond⟩ := swingRecord_eligible.mp h
      obtain ⟨hsymbol, hframe⟩ := of_decide_eq_true hlineage
      refine ⟨timeframe, swing, ?_, target, htarget, hbeyond, swingRecord_target.trans htarget⟩
      refine ⟨htimeframe, of_decide_eq_true href, hconfirmed, payload, hlookup, hsymbol, hframe, ?_⟩
      cases side <;> exact hswing
  · obtain ⟨timeframe, -, hmem⟩ := List.mem_flatMap.mp hmem
    split at hmem
    · exact absurd hmem List.not_mem_nil
    · obtain ⟨price, -, rfl⟩ := List.mem_map.mp hmem
      cases h

/-- And every such swing is. -/
theorem eligible_of_trusted {timeframe : String} {swing : Swing} {target : ℚ}
    (h : Trusted setup side asOf timeframe swing)
    (htarget : normalize swing.price increment (levelRounding side) = some target)
    (hbeyond : Beyond side entry target) :
    ∃ c ∈ (candidates setup side entry increment asOf).1, c.eligible = true ∧
      c.targetPrice = some target ∧ c.source = swingName side ++ timeframe := by
  obtain ⟨payload, hlookup, hsymbol, hframe, hswing⟩ := h.lineage
  refine ⟨swingRecord side entry increment asOf timeframe true true swing, ?_,
    swingRecord_eligible.mpr ⟨rfl, rfl, h.confirmed, target, htarget, hbeyond⟩,
    swingRecord_target.trans htarget, swingRecord_source⟩
  refine List.mem_append_left _ (List.mem_flatMap.mpr ⟨timeframe, h.timeframe_mem, ?_⟩)
  rw [hlookup]
  refine List.mem_map.mpr ⟨swing, ?_, ?_⟩
  · cases side <;> exact hswing
  · have hlineage : decide (payload.symbol = setup.symbol ∧ payload.timeframe = timeframe) = true :=
      decide_eq_true ⟨hsymbol, hframe⟩
    have href : decide (timeframe ∈ setup.validRefs) = true := decide_eq_true h.reference
    dsimp only
    rw [hlineage, href]

end Records

/-! ## What policy D plans -/

section Plan

variable {frame : Option Frame} {symbol runId : String} {instrument : Option Instrument}

/-- Entry and stop of the planners: the raw prices, each on the grid. -/
theorem of_levels {policy : Policy} {decision : TargetDecision} {l : Levels}
    (h : levels setup frame symbol runId asOf instrument policy = .ok (decision, l)) :
    setup.side = some l.side ∧
      (∃ i, instrument = some i ∧ i.priceIncrement = some l.increment ∧ 0 < l.increment) ∧
      (∃ raw, entry frame asOf = some raw ∧
        normalize raw l.increment (entryRounding l.side) = some l.entry) ∧
      (∃ raw, setup.invalidation = some raw ∧
        normalize raw l.increment (levelRounding l.side) = some l.stop) ∧
      Beyond l.side l.stop l.entry := by
  unfold levels at h
  dsimp only at h
  split_ifs at h
  split at h
  · cases h
  · next i =>
    split at h
    · cases h
    · next step hstep =>
      split_ifs at h
      split at h
      · next raw stopRaw side hraw hstopRaw hside =>
        split at h
        · next e s he hs =>
          split_ifs at h with hbeyond
          cases h
          obtain ⟨value, hvalue, hpos⟩ := Option.bind_eq_some_iff.mp hstep
          obtain ⟨hpos, rfl⟩ := toDecimal_eq_some.mp hpos
          obtain ⟨invalidation, hinvalidation, hstop⟩ := Option.bind_eq_some_iff.mp hstopRaw
          obtain ⟨-, rfl⟩ := toDecimal_eq_some.mp hstop
          exact ⟨hside, ⟨i, rfl, hvalue, hpos⟩, ⟨raw, hraw, he⟩, ⟨_, hinvalidation, hs⟩, hbeyond⟩
        · cases h
      · cases h

/-- A plan of policy D: its levels, and the eligible record that its target is taken from. -/
theorem of_planPolicyD {plan : TradePlan} {decision : TargetDecision}
    (h : planPolicyD setup frame symbol runId asOf instrument = (some plan, decision)) :
    ∃ start l shape first,
      levels setup frame symbol runId asOf instrument .v2D = .ok (start, l) ∧
      ((candidates setup l.side l.entry l.increment asOf).1.filter Candidate.eligible).argmin
        (nearness l.entry) = some first ∧
      geometry l.side l.entry l.stop (first.targetPrice.getD 0) = .ok shape ∧
      classify shape.rr (limits .v2D) = .withinPolicy ∧
      plan = planOf symbol runId asOf .v2D shape ∧
      decision.sources =
        ((((candidates setup l.side l.entry l.increment asOf).1.filter Candidate.eligible).filter
          (fun c => decide (c.targetPrice = first.targetPrice))).map
            Candidate.source).insertionSort (· ≤ ·) := by
  unfold planPolicyD at h
  split at h
  · cases h
  · next start l hlevels =>
    dsimp only at h
    by_cases htrust : (candidates setup l.side l.entry l.increment asOf).2 = false
    · rw [if_pos htrust] at h
      cases h
    rw [if_neg htrust] at h
    split at h
    · cases h
    · next first hfirst =>
      split at h
      · cases h
      · next shape hshape =>
        split at h
        · cases h
        · cases h
        · next hwithin =>
          cases h
          exact ⟨start, l, shape, first, hlevels, hfirst, hshape, hwithin, rfl, rfl⟩

/-- The ratio of levels as they are. -/
def rawRr (side : Side) (entry stop target : ℚ) : ℚ :=
  side.signed (target - entry) / side.signed (entry - stop)

/-- What a plan of policy D is to say of the raw prices it was made from. -/
structure FirstObstacle (setup : Assessment) (asOf : Instant) (increment entryRaw stopRaw : ℚ)
    (plan : TradePlan) (decision : TargetDecision) : Prop where
  nearest : ∃ timeframe swing, Nearest setup plan.side asOf entryRaw timeframe swing ∧
    normalize swing.price increment (levelRounding plan.side) = some plan.target ∧
    swingName plan.side ++ timeframe ∈ decision.sources ∧
    2 ≤ rawRr plan.side entryRaw stopRaw swing.price ∧
    rawRr plan.side entryRaw stopRaw swing.price ≤ 5
  stop : |plan.entry - stopRaw| ≤ |plan.entry - plan.stop|
  planned : plan.riskReward = rawRr plan.side plan.entry plan.stop plan.target ∧
    2 ≤ plan.riskReward ∧ plan.riskReward ≤ 5

/-- The grid keeps the nearest swing beyond the entry, and it is at most five raw risks away. -/
def GridKeeps (setup : Assessment) (side : Side) (asOf : Instant)
    (increment entryRaw stopRaw : ℚ) : Prop :=
  ∃ timeframe swing, Nearest setup side asOf entryRaw timeframe swing ∧
    (∃ entry target, normalize entryRaw increment (entryRounding side) = some entry ∧
      normalize swing.price increment (levelRounding side) = some target ∧
      Beyond side entry target) ∧
    side.signed (swing.price - entryRaw) ≤ 5 * side.signed (entryRaw - stopRaw)

theorem signed_sub (side : Side) (x y : ℚ) :
    side.signed (x - y) = side.signed x - side.signed y := by
  cases side with
  | long => rfl
  | short =>
    simp only [Side.signed_short]
    ring

theorem rr_eq_rawRr (g : Geometry) : g.rr = rawRr g.side g.entry g.stop g.target := by
  rw [Geometry.rr, g.reward_eq, g.risk_eq, rawRr]

/-- Of the swings that the grid keeps beyond the entry, the nearest raw one is the target. -/
theorem target_eq_of_nearest {side : Side} {increment entryRaw entry : ℚ} {first : Candidate}
    {timeframe : String} {swing : Swing} {target : ℚ}
    (hfirst : ((candidates setup side entry increment asOf).1.filter Candidate.eligible).argmin
      (nearness entry) = some first)
    (hentry : normalize entryRaw increment (entryRounding side) = some entry)
    (hnearest : Nearest setup side asOf entryRaw timeframe swing)
    (htarget : normalize swing.price increment (levelRounding side) = some target)
    (hbeyond : Beyond side entry target) : first.targetPrice = some target := by
  obtain ⟨c, hc, heligible, hprice, -⟩ := eligible_of_trusted hnearest.trusted htarget hbeyond
  have hle := List.le_of_mem_argmin (List.mem_filter.mpr ⟨hc, heligible⟩) hfirst
  obtain ⟨hmem, hfirstEligible⟩ := List.mem_filter.mp (List.argmin_mem hfirst)
  obtain ⟨timeframe', swing', htrusted, target', htarget', hbeyond', hprice'⟩ :=
    of_eligible hmem hfirstEligible
  rw [beyond_iff] at hbeyond hbeyond'
  have hdistance : |target' - entry| ≤ |target - entry| := by
    have hfst := Prod.Lex.monotone_fst _ _ hle
    simpa [nearness, hprice, hprice'] using hfst
  rw [abs_sub_of_signed_lt hbeyond, abs_sub_of_signed_lt hbeyond'] at hdistance
  -- the raw swing of the selected record is beyond the raw entry too, so it is no nearer
  have hraw' : side.signed entryRaw < side.signed swing'.price :=
    (signed_le_entry hentry).trans_lt (hbeyond'.trans_le (signed_level_le htarget'))
  have hraw := beyond_iff.mp hnearest.beyond
  have hleast := hnearest.least timeframe' swing' htrusted (beyond_iff.mpr hraw')
  rw [abs_sub_of_signed_lt hraw, abs_sub_of_signed_lt hraw'] at hleast
  have hmono := signed_level_mono htarget htarget' (by linarith)
  have hsame : side.signed target' = side.signed target := by linarith
  rw [hprice']
  cases side with
  | long => exact congrArg some hsame
  | short => exact congrArg some (neg_injective hsame)

/-- A plan of policy D says what it should of its raw prices exactly when the grid keeps the
nearest swing beyond the entry and that swing is at most five raw risks away. -/
theorem first_obstacle_iff {side : Side} {increment entryRaw stopRaw : ℚ} {plan : TradePlan}
    {decision : TargetDecision} {i : Instrument}
    (hready : planPolicyD setup frame symbol runId asOf (some i) = (some plan, decision))
    (hside : setup.side = some side) (hincrement : i.priceIncrement = some increment)
    (hentryRaw : entry frame asOf = some entryRaw) (hstopRaw : setup.invalidation = some stopRaw) :
    FirstObstacle setup asOf increment entryRaw stopRaw plan decision ↔
      GridKeeps setup side asOf increment entryRaw stopRaw := by
  obtain ⟨start, l, shape, first, hlevels, hfirst, hshape, hwithin, rfl, hsources⟩ :=
    of_planPolicyD hready
  obtain ⟨hlside, ⟨i', hi, hlincrement, -⟩, ⟨raw, hraw, hentry⟩, ⟨rawStop, hrawStop, hstop⟩,
    hrisk⟩ := of_levels hlevels
  obtain rfl := Option.some.inj (hlside.symm.trans hside)
  obtain rfl := Option.some.inj hi
  obtain rfl := Option.some.inj (hlincrement.symm.trans hincrement)
  obtain rfl := Option.some.inj (hraw.symm.trans hentryRaw)
  obtain rfl := Option.some.inj (hrawStop.symm.trans hstopRaw)
  obtain ⟨hgside, hgentry, hgstop, hgtarget⟩ := geometry_ok hshape
  have hfloor : 2 ≤ shape.rr := floor_le_of_within hwithin
  have hceiling : shape.rr ≤ 5 := le_ceiling_of_within hwithin
  have hstopBelow := signed_level_le hstop
  have hentryAbove := signed_le_entry hentry
  constructor
  · rintro ⟨⟨timeframe, swing, hnearest, htarget, -, hlow, hhigh⟩, -, -⟩
    simp only [planOf, hgside] at hnearest htarget hlow hhigh
    have hbeyond : Beyond l.side l.entry shape.target := by
      have hordered := shape.ordered
      rw [hgside, hgentry] at hordered
      unfold LevelOrder at hordered
      cases hs : l.side <;> simp only [hs, Beyond] at hordered ⊢
      · exact hordered.2
      · exact hordered.1
    refine ⟨timeframe, swing, hnearest, ⟨l.entry, shape.target, hentry, htarget, hbeyond⟩, ?_⟩
    have hreward : 0 < l.side.signed (swing.price - raw) := by
      rw [signed_sub]
      linarith [beyond_iff.mp hnearest.beyond]
    have hrawRisk : 0 < l.side.signed (raw - rawStop) := by
      by_contra hneg
      have hnonpos := div_nonpos_of_nonneg_of_nonpos hreward.le (not_lt.mp hneg)
      unfold rawRr at hlow
      linarith
    exact (div_le_iff₀ hrawRisk).mp hhigh
  · rintro ⟨timeframe, swing, hnearest, ⟨e, target, he, htarget, hbeyond⟩, hfive⟩
    obtain rfl := Option.some.inj (hentry.symm.trans he)
    have hselected := target_eq_of_nearest hfirst hentry hnearest htarget hbeyond
    rw [hselected, Option.getD_some] at hgtarget
    have hrr := rr_eq_rawRr shape
    rw [hgside, hgentry, hgstop, hgtarget] at hrr
    have hreward := beyond_iff.mp hnearest.beyond
    have hplannedRisk := beyond_iff.mp hrisk
    have htargetBelow := signed_level_le htarget
    have hrawRisk : 0 < l.side.signed (raw - rawStop) := by
      rw [signed_sub] at hfive
      linarith
    refine ⟨⟨timeframe, swing, ?_, ?_, ?_, ?_, ?_⟩, ?_, ?_⟩
    · simpa only [planOf, hgside] using hnearest
    · simpa only [planOf, hgside, hgtarget] using htarget
    · obtain ⟨c, hc, heligible, hprice, hsource⟩ :=
        eligible_of_trusted hnearest.trusted htarget hbeyond
      rw [hsources, List.mem_insertionSort]
      simp only [planOf, hgside]
      refine List.mem_map.mpr ⟨c, List.mem_filter.mpr ⟨List.mem_filter.mpr ⟨hc, heligible⟩, ?_⟩,
        hsource⟩
      exact decide_eq_true (hprice.trans hselected.symm)
    · simp only [planOf, hgside]
      unfold rawRr
      rw [le_div_iff₀ hrawRisk]
      rw [hrr, rawRr, le_div_iff₀ (by rw [signed_sub]; linarith)] at hfloor
      simp only [signed_sub] at hfloor ⊢
      linarith
    · simp only [planOf, hgside]
      exact (div_le_iff₀ hrawRisk).mpr hfive
    · simp only [planOf, hgentry, hgstop]
      have hrawStopBelow := signed_lt_of_level_lt hstop hentry hplannedRisk
      rw [abs_sub_of_signed_lt hrawStopBelow, abs_sub_of_signed_lt hplannedRisk]
      linarith
    · simp only [planOf]
      exact ⟨rr_eq_rawRr shape, hfloor, hceiling⟩

end Plan

/-! ## One long setup -/

/-- A close of gold, the only one of its frame. -/
def goldFrame (close : ℚ) : Frame :=
  ⟨["Close"], [⟨0, some close, some close, some close, some close, true⟩]⟩

/-- A confirmed 15m swing high at a price, and nothing else. -/
def swingReport (high : ℚ) : StructureReport :=
  { StructureAgent.report "XAUUSD" "15m" [] ⟨0, high, high, high, high⟩ with
    highs := [⟨0, 0, high⟩] }

/-- A long setup with an invalidation and that swing. -/
def goldSetup (invalidation high : ℚ) : Assessment where
  runId := "run"
  timestamp := 0
  symbol := "XAUUSD"
  status := .validSetup
  side := some .long
  evidence := some ⟨[("15m", swingReport high)], []⟩
  invalidation := some invalidation
  validRefs := ["15m"]

/-- Gold in cents. -/
def gold : Instrument := ⟨"XAUUSD", some (1 / 100), some (1 / 1000), some 1⟩

theorem eq_of_trusted {invalidation high : ℚ} {timeframe : String} {swing : Swing}
    (h : Trusted (goldSetup invalidation high) .long 0 timeframe swing) :
    timeframe = "15m" ∧ swing = ⟨0, 0, high⟩ := by
  obtain ⟨payload, hlookup, -, -, hswing⟩ := h.lineage
  obtain rfl : timeframe = "15m" := List.mem_singleton.mp h.reference
  obtain rfl : swingReport high = payload := Option.some.inj hlookup
  exact ⟨rfl, List.mem_singleton.mp hswing⟩

/-- On the grid already: a plan of three risks to the only swing. -/
theorem first_obstacle_on_grid :
    FirstObstacle (goldSetup 2630 2670) 0 (1 / 100) 2640 2630
      ⟨"XAUUSD", .long, 2640, 2630, 2670, 3, some "run", some 0, some .v2D⟩
      (planPolicyD (goldSetup 2630 2670) (some (goldFrame 2640)) "XAUUSD" "run" 0 (some gold)).2 := by
  have hready : planPolicyD (goldSetup 2630 2670) (some (goldFrame 2640)) "XAUUSD" "run" 0
      (some gold) = (some ⟨"XAUUSD", .long, 2640, 2630, 2670, 3, some "run", some 0, some .v2D⟩,
        (planPolicyD (goldSetup 2630 2670) (some (goldFrame 2640)) "XAUUSD" "run" 0
          (some gold)).2) := by decide +kernel
  have hentry : entry (some (goldFrame 2640)) 0 = some 2640 := by decide +kernel
  refine (first_obstacle_iff hready rfl rfl hentry rfl).mpr
    ⟨"15m", ⟨0, 0, 2670⟩, ⟨?_, by decide, ?_⟩, ⟨2640, 2670, ?_⟩, by decide +kernel⟩
  · exact ⟨by decide, by decide, by decide, swingReport 2670, rfl, rfl, rfl,
      List.mem_singleton.mpr rfl⟩
  · intro timeframe' swing' htrusted _
    rw [(eq_of_trusted htrusted).2]
  · decide +kernel

/-- Entry and stop each lose most of a cent to the grid: the plan is one of four risks, and
the raw prices have a ratio of more than ten. -/
theorem first_obstacle_rounded :
    ¬∀ (setup : Assessment) (frame : Option Frame) (symbol runId : String) (asOf : Instant)
      (i : Instrument) (side : Side) (increment entryRaw stopRaw : ℚ) (plan : TradePlan)
      (decision : TargetDecision),
      planPolicyD setup frame symbol runId asOf (some i) = (some plan, decision) →
      setup.side = some side → i.priceIncrement = some increment →
      entry frame asOf = some entryRaw → setup.invalidation = some stopRaw →
      FirstObstacle setup asOf increment entryRaw stopRaw plan decision := by
  intro h
  have hready : planPolicyD (goldSetup (2639996 / 1000) (264009 / 100))
      (some (goldFrame (2640004 / 1000))) "XAUUSD" "run" 0 (some gold) =
      (some ⟨"XAUUSD", .long, 264001 / 100, 263999 / 100, 264009 / 100, 4, some "run", some 0,
        some .v2D⟩,
        (planPolicyD (goldSetup (2639996 / 1000) (264009 / 100))
          (some (goldFrame (2640004 / 1000))) "XAUUSD" "run" 0 (some gold)).2) := by
    decide +kernel
  obtain ⟨timeframe, swing, hnearest, -, -, -, hhigh⟩ :=
    (h _ _ _ _ _ _ .long (1 / 100) (2640004 / 1000) (2639996 / 1000) _ _ hready rfl rfl
      (by decide +kernel) rfl).nearest
  rw [(eq_of_trusted hnearest.trusted).2] at hhigh
  exact absurd hhigh (by decide +kernel)

end MarketSystem.TargetPlanner
