import MarketSystem.Agents.StructureAgent

/-!
# Structure of a growing history

Bars that are appended to a history confirm further swings and may break further levels.
What was confirmed or broken before stays as it was.
-/
namespace MarketSystem.StructureAgent

open Scouts

variable {price : Bar → ℚ} {beyond : ℚ → ℚ → Bool} {direction : Trend}
  {bars later : List Bar} {highs highs' lows lows' : List Swing} {swing : Swing} {b : Break}

/-- The swings of a history come first among those of a longer one. -/
theorem swings_prefix (price : Bar → ℚ) (beyond : ℚ → ℚ → Bool) (bars later : List Bar) :
    swings price beyond bars <+: swings price beyond (bars ++ later) := by
  fun_induction swings price beyond bars with
  | case1 before pivot after bars rest hswing ih =>
    simp only [List.cons_append] at ih ⊢
    rw [swings]
    simp only [hswing, if_true]
    exact List.prefix_cons_inj _ |>.mpr ih
  | case2 before pivot after bars rest hswing ih =>
    simp only [List.cons_append] at ih ⊢
    rw [swings]
    simp only [hswing]
    exact ih
  | case3 bars => exact List.nil_prefix

/-- The first break of a swing is not moved by later bars. -/
theorem firstBreak_append (h : firstBreak direction beyond bars swing = some b) :
    firstBreak direction beyond (bars ++ later) swing = some b := by
  obtain ⟨bar, hbar, rfl⟩ := Option.map_eq_some_iff.mp h
  unfold firstBreak
  rw [List.find?_append, hbar]
  rfl

theorem mem_breaks : b ∈ breaks bars highs lows ↔
    (∃ swing ∈ highs, firstBreak .bullish above bars swing = some b) ∨
      ∃ swing ∈ lows, firstBreak .bearish below bars swing = some b := by
  simp [breaks, List.mem_filterMap]

/-- A break of a history is one of every longer history. -/
theorem breaks_append (hhighs : highs <+: highs') (hlows : lows <+: lows')
    (h : b ∈ breaks bars highs lows) : b ∈ breaks (bars ++ later) highs' lows' := by
  rw [mem_breaks] at h ⊢
  obtain ⟨swing, hmem, hbreak⟩ | ⟨swing, hmem, hbreak⟩ := h
  · exact .inl ⟨swing, hhighs.subset hmem, firstBreak_append hbreak⟩
  · exact .inr ⟨swing, hlows.subset hmem, firstBreak_append hbreak⟩

/-- The latest break of a longer history is not earlier. -/
theorem breakOfStructure_append (hhighs : highs <+: highs') (hlows : lows <+: lows')
    (h : breakOfStructure bars highs lows = some b) :
    ∃ b', breakOfStructure (bars ++ later) highs' lows' = some b' ∧
      b.breakTimestamp ≤ b'.breakTimestamp := by
  have hmem : b ∈ breaks (bars ++ later) highs' lows' :=
    breaks_append hhighs hlows (List.argmax_mem h)
  cases hlast : breakOfStructure (bars ++ later) highs' lows' with
  | none =>
    rw [breakOfStructure, List.argmax_eq_none] at hlast
    rw [hlast] at hmem
    exact absurd hmem List.not_mem_nil
  | some b' => exact ⟨b', rfl, List.le_of_mem_argmax hmem hlast⟩

/-- A break is the break of a swing, on a bar after its confirmation. -/
structure Follows (swings : List Swing) (b : Break) : Prop where
  ofSwing : ∃ swing ∈ swings, swing.timestamp = b.confirmationTimestamp ∧
    swing.pivotTimestamp = b.swingTimestamp ∧ swing.price = b.brokenLevel
  after : b.confirmationTimestamp < b.breakTimestamp

theorem firstBreak_follows (h : firstBreak direction beyond bars swing = some b) :
    swing.timestamp = b.confirmationTimestamp ∧ swing.pivotTimestamp = b.swingTimestamp ∧
      swing.price = b.brokenLevel ∧ b.confirmationTimestamp < b.breakTimestamp := by
  obtain ⟨bar, hbar, rfl⟩ := Option.map_eq_some_iff.mp h
  have hfound := List.find?_some hbar
  rw [Bool.and_eq_true, decide_eq_true_eq] at hfound
  exact ⟨rfl, rfl, rfl, hfound.1⟩

theorem breakOfStructure_follows (h : breakOfStructure bars highs lows = some b) :
    Follows (highs ++ lows) b := by
  have hmem := mem_breaks.mp (List.argmax_mem h)
  obtain ⟨swing, hswing, hbreak⟩ | ⟨swing, hswing, hbreak⟩ := hmem
  · obtain ⟨hconfirmed, hpivot, hprice, hafter⟩ := firstBreak_follows hbreak
    exact ⟨⟨swing, List.mem_append_left _ hswing, hconfirmed, hpivot, hprice⟩, hafter⟩
  · obtain ⟨hconfirmed, hpivot, hprice, hafter⟩ := firstBreak_follows hbreak
    exact ⟨⟨swing, List.mem_append_right _ hswing, hconfirmed, hpivot, hprice⟩, hafter⟩

/-! ## Reports -/

variable {frame frame' : Frame} {symbol timeframe runId : String} {asOf asOf' : Instant}
  {r r' : StructureReport}

/-- The closed bars of the second frame are those of the first one and later ones. -/
def Extends (frame : Frame) (asOf : Instant) (frame' : Frame) (asOf' : Instant) : Prop :=
  ∃ later, frame'.closedRows asOf' = frame.closedRows asOf ++ later

/-- What a report is made from. -/
theorem of_evidence {frame : Option Frame}
    (h : (analizarEstructura frame symbol timeframe runId asOf).evidence = some r) :
    ∃ bars last, closedFrame REQUIRED_COLUMNS numericBar frame asOf = some bars ∧
      r = report symbol timeframe bars last := by
  unfold analizarEstructura at h
  split_ifs at h
  split at h
  · cases h
  · next bars hbars =>
    split at h
    · next last _ =>
      split_ifs at h
      cases h
      exact ⟨bars, last, hbars, rfl⟩
    · cases h

theorem bars_of_closedFrame {β : Type} {required : List String} {bar : Row → Option β}
    {bars : List β} (h : closedFrame required bar (some frame) asOf = some bars) :
    bars = (frame.closedRows asOf).filterMap bar := by
  unfold closedFrame at h
  dsimp only at h
  split_ifs at h
  split at h
  · cases h
  · exact (Option.some.inj h).symm

/-- The report on a longer history keeps the confirmed swings, and its break of structure is
not earlier. -/
theorem report_extends (hextends : Extends frame asOf frame' asOf')
    (h : (analizarEstructura (some frame) symbol timeframe runId asOf).evidence = some r)
    (h' : (analizarEstructura (some frame') symbol timeframe runId asOf').evidence = some r') :
    r.highs <+: r'.highs ∧ r.lows <+: r'.lows ∧ ∀ b, r.bos = some b →
      Follows (r.highs ++ r.lows) b ∧
        ∃ b', r'.bos = some b' ∧ b.breakTimestamp ≤ b'.breakTimestamp := by
  obtain ⟨bars, last, hbars, rfl⟩ := of_evidence h
  obtain ⟨bars', last', hbars', rfl⟩ := of_evidence h'
  obtain ⟨laterRows, hlater⟩ := hextends
  have hmore : bars' = bars ++ laterRows.filterMap numericBar := by
    rw [bars_of_closedFrame hbars', bars_of_closedFrame hbars, hlater, List.filterMap_append]
  rw [hmore]
  have hhighs := swings_prefix Bar.high above bars (laterRows.filterMap numericBar)
  have hlows := swings_prefix Bar.low below bars (laterRows.filterMap numericBar)
  refine ⟨hhighs, hlows, fun b hb => ⟨breakOfStructure_follows hb, ?_⟩⟩
  exact breakOfStructure_append hhighs hlows hb

end MarketSystem.StructureAgent
