import MarketSystem.Execution.Historial
import MarketSystem.Library.Mean
import MarketSystem.Library.NumberText
import MarketSystem.Library.SortedView

/-!
# What the loader accepts of the builder

The schema check of the loader passes the summary of the builder except in two cases. The period may
end on a day before the one on which it begins, because its dates are those of different offsets;
and the rounded rate and averages may no longer explain the rounded expectancy, because the rate is
off by a part of a large spread. The summary does not depend on the order of the rows.
-/
namespace MarketSystem.Historial

open Library Library.IsoTime

/-! ## The loader on the fields of a summary -/

theorem get_cons (key key' : String) (v : Value) (fields : List (String × Value)) :
    get ((key', v) :: fields) key = if key = key' then v else get fields key := by
  unfold get
  rw [List.lookup_cons]
  by_cases h : key = key'
  · rw [if_pos h, beq_iff_eq.mpr h]
    rfl
  · rw [if_neg h, beq_false_of_ne h]

theorem dictOf_fields (s : Summary) : dictOf (.dict s.fields) keys "keys" = .ok s.fields := rfl

theorem dictOf_period (first last : Value) :
    dictOf (.dict [("from", first), ("to", last)]) periodKeys "period" =
      .ok [("from", first), ("to", last)] := rfl

theorem optionalOf_realOrNone (value : Option ℚ) (name : String) :
    optionalOf (realOrNone value) name = .ok value := by
  cases value <;> rfl

theorem numberOf_real (q : ℚ) (name : String) : numberOf (.real q) name = .ok q := rfl

theorem countOf_natCast (n : ℕ) : countOf (.int n) = .ok n := by
  have hpositive : require (decide ((0 : ℤ) ≤ n)) "counts" = .ok () := require_eq_ok.mpr (by simp)
  simp only [countOf, hpositive]
  rfl

section Texts

variable (py : Texts)

theorem isoDate_dateString (time : Stamp) (name : String) :
    isoDate py (.str (dateString time)) name = .ok time.day := by
  have hlength : (dateString time).length = 10 := by
    rw [dateString, String.length_ofList, length_dateText]
  have hten : require (decide ((dateString time).length = 10)) name = .ok () :=
    require_eq_ok.mpr (by simpa using hlength)
  unfold isoDate
  simp only [hten]
  rw [dateString, py.dateFromisoformat_dateText _ time.day_lt]
  rfl

/-- A text without a `Z` stays as it is. -/
theorem replaceZ_ofList {cs : List Char} (h : ∀ c ∈ cs, Written c) :
    replaceZ (String.ofList cs) = String.ofList cs := by
  have hZ : ¬Written 'Z' := by decide
  have hsame : (cs.flatMap fun c => if c = 'Z' then utcOffset else [c]) = cs := by
    induction cs with
    | nil => rfl
    | cons c cs ih =>
      rw [List.forall_mem_cons] at h
      have hc : c ≠ 'Z' := by
        rintro rfl
        exact hZ h.1
      rw [List.flatMap_cons, if_neg hc, ih h.2]
      rfl
  rw [replaceZ, String.toList_ofList, hsame]

theorem isoDatetime_secondsString {time : Stamp} (h : Representable time.instant) :
    ∃ parsed, isoDatetime py (.str (secondsString time)) = .ok parsed := by
  have hseconds : Representable (time.instant - time.instant % 1000000) := by
    obtain ⟨hlow, hhigh⟩ := h
    generalize time.instant = t at *
    have hday : (t - t % 1000000) / 86400000000 = t / 86400000000 := by omega
    exact ⟨hday ▸ hlow, hday ▸ hhigh⟩
  have hlength : 0 < (secondsString time).length ∧ (secondsString time).length ≤ 40 := by
    have hle := length_utc_le (time.instant - time.instant % 1000000)
    have hpos : 0 < (utc (time.instant - time.instant % 1000000)).length := by
      unfold utc
      simp only [List.length_append, List.length_cons, length_dateText]
      omega
    rw [secondsString, String.length_ofList]
    exact ⟨hpos, hle.trans (by decide)⟩
  have hok : require (decide (0 < (secondsString time).length ∧ (secondsString time).length ≤ 40))
      "generated_at" = .ok () := require_eq_ok.mpr (decide_eq_true hlength)
  obtain ⟨parsed, hparsed⟩ := Option.isSome_iff_exists.mp (py.fromisoformat_utc _ hseconds)
  refine ⟨parsed, ?_⟩
  unfold isoDatetime
  simp only [hok]
  rw [secondsString, replaceZ_ofList (written_utc hseconds), hparsed]
  rfl

end Texts

/-! ## Statistics -/

theorem rounded_le {x y : ℚ} (h : x ≤ y) : rounded x ≤ rounded y := Grid.roundHalfEven_mono 10000 h

theorem rounded_onGrid {x : ℚ} (h : Grid.OnGrid 10000 x) : rounded x = x :=
  Grid.roundHalfEven_of_onGrid (by decide) h

theorem onGrid_intCast (k : ℤ) : Grid.OnGrid 10000 k := ⟨k * 10000, by push_cast; ring⟩

theorem rounded_zero : rounded 0 = 0 := rounded_onGrid (by simpa using onGrid_intCast 0)

theorem rounded_one : rounded 1 = 1 := rounded_onGrid (by simpa using onGrid_intCast 1)

theorem rounded_nonneg {x : ℚ} (h : 0 ≤ x) : 0 ≤ rounded x := rounded_zero ▸ rounded_le h

/-- An R-multiple that was rounded. -/
def Rounded (rs : List ℚ) : Prop := ∀ r ∈ rs, Grid.OnGrid 10000 r

section Statistics

variable {rs : List ℚ}

theorem length_winners_add_losers_le (rs : List ℚ) :
    (winners rs).length + (losers rs).length ≤ rs.length := by
  have hsplit := @List.length_eq_length_filter_add _ rs (fun r => decide (0 < r))
  have hlosers : (losers rs).length ≤ (rs.filter fun r => !decide (0 < r)).length := by
    refine (List.monotone_filter_right rs fun r hr => ?_).length_le
    simp only [decide_eq_true_eq] at hr
    simpa using hr.le
  unfold winners
  omega

/-- The rounded average of gains is a gain. -/
theorem average_winners_pos (h : Rounded rs) {avg : ℚ} (havg : average (winners rs) = some avg) :
    0 < avg := by
  unfold average at havg
  split_ifs at havg with hne
  obtain rfl := Option.some.inj havg
  have hstep : ∀ r ∈ winners rs, (1 : ℚ) / 10000 ≤ r := by
    intro r hr
    obtain ⟨hmem, hpos⟩ := List.mem_filter.mp hr
    exact_mod_cast (h r hmem).step_le (by decide) (by simpa using hpos)
  have hgrid : Grid.OnGrid 10000 (1 / 10000) := ⟨1, by norm_num⟩
  have hmean : (1 : ℚ) / 10000 ≤ rounded (mean (winners rs)) :=
    rounded_onGrid hgrid ▸ rounded_le (le_mean hne hstep)
  exact lt_of_lt_of_le (by norm_num) hmean

theorem average_losers_neg (h : Rounded rs) {avg : ℚ} (havg : average (losers rs) = some avg) :
    avg < 0 := by
  unfold average at havg
  split_ifs at havg with hne
  obtain rfl := Option.some.inj havg
  have hstep : ∀ r ∈ losers rs, r ≤ -(1 / 10000 : ℚ) := by
    intro r hr
    obtain ⟨hmem, hneg⟩ := List.mem_filter.mp hr
    obtain ⟨k, rfl⟩ := h r hmem
    have hopposite : Grid.OnGrid 10000 (-(k / (10000 : ℕ) : ℚ)) := ⟨-k, by push_cast; ring⟩
    have hstep := hopposite.step_le (by decide) (neg_pos.mpr (by simpa using hneg))
    push_cast at hstep ⊢
    linarith
  have hgrid : Grid.OnGrid 10000 (-(1 / 10000)) := ⟨-1, by norm_num⟩
  have hmean : rounded (mean (losers rs)) ≤ -(1 / 10000 : ℚ) :=
    rounded_onGrid hgrid ▸ rounded_le (mean_le hne hstep)
  exact lt_of_le_of_lt hmean (by norm_num)

theorem isSome_average (rs : List ℚ) : decide (0 < rs.length) = (average rs).isSome := by
  unfold average
  cases rs <;> simp

theorem drawdown_le_foldl (w : Walk) (rs : List ℚ) : w.drawdown ≤ (rs.foldl Walk.step w).drawdown := by
  induction rs generalizing w with
  | nil => exact le_rfl
  | cons r rs ih =>
    have hstep : w.drawdown ≤ (w.step r).drawdown := le_max_left _ _
    exact hstep.trans (ih _)

theorem maxDrawdown_nonneg (rs : List ℚ) : 0 ≤ maxDrawdown rs := drawdown_le_foldl ⟨0, 0, 0⟩ rs

/-- A rate lies between zero and one, and rounding keeps it there. -/
theorem rate_bounds (hne : rs ≠ []) :
    0 ≤ rounded ((winners rs).length / rs.length) ∧ rounded ((winners rs).length / rs.length) ≤ 1 := by
  have hlength := length_winners_add_losers_le rs
  have hle : ((winners rs).length : ℚ) ≤ rs.length := by exact_mod_cast (by omega)
  have hpos := length_cast_pos hne
  constructor
  · exact rounded_nonneg (by positivity)
  · exact rounded_one ▸ rounded_le ((div_le_one hpos).mpr hle)

/-- Half a unit of the last digit. -/
theorem abs_rounded_sub_le (x : ℚ) : |rounded x - x| ≤ 1 / 20000 := by
  have herror := @Grid.abs_roundHalfEven_sub_le 10000 (by decide) x
  norm_num at herror
  exact herror

theorem winRate_bounds (rs : List ℚ) :
    (0 ≤ if rs = [] then 0 else rounded ((winners rs).length / rs.length)) ∧
      (if rs = [] then 0 else rounded ((winners rs).length / rs.length)) ≤ 1 := by
  split_ifs with hne
  · exact ⟨le_rfl, by norm_num⟩
  · exact rate_bounds hne

theorem winRate_near (rs : List ℚ) :
    |(if rs = [] then 0 else rounded ((winners rs).length / rs.length)) -
      if rs.length = 0 then 0 else ((winners rs).length : ℚ) / rs.length| ≤ 1 / 1000 := by
  by_cases hne : rs = []
  · rw [if_pos hne, if_pos (by rw [hne]; rfl), sub_self, abs_zero]
    norm_num
  · rw [if_neg hne, if_neg (fun h => hne (List.eq_nil_of_length_eq_zero h))]
    exact (abs_rounded_sub_le _).trans (by norm_num)

theorem profitFactor_nonneg (rs : List ℚ) :
    (if 0 < -(losers rs).sum then some (rounded ((winners rs).sum / -(losers rs).sum))
      else none).all (fun x => decide (0 ≤ x)) = true := by
  split_ifs with hloss
  · have hgain : 0 ≤ (winners rs).sum := by
      refine List.sum_nonneg fun r hr => ?_
      simpa using (of_decide_eq_true (List.mem_filter.mp hr).2).le
    exact decide_eq_true (rounded_nonneg (div_nonneg hgain hloss.le))
  · rfl

end Statistics

/-! ## When a summary is accepted -/

/-- The earliest opening has no later date than the last closing, each on its own calendar. -/
def DatesInOrder : List Trade → Prop
  | [] => True
  | trade :: rest =>
    (earliest trade.opened (rest.map Trade.opened)).day ≤ (rest.getLastD trade).closed.day

/-- Where every trade is won or lost, and some are either, rounding the rate and the averages moves
the expectancy no further than the schema tolerates. -/
def RoundingKept (rs : List ℚ) : Prop :=
  winners rs ≠ [] → losers rs ≠ [] → (winners rs).length + (losers rs).length = rs.length →
    |rounded (mean rs) - mix (rounded ((winners rs).length / rs.length))
      (rounded (mean (winners rs))) (rounded (mean (losers rs)))| ≤ expectancyTolerance

theorem checkEmpty_ok (rs : List ℚ) :
    checkEmpty rs.length (if rs = [] then 0 else rounded ((winners rs).length / rs.length))
      (if rs = [] then 0 else rounded (rs.sum / rs.length)) (rounded (maxDrawdown rs))
      (if 0 < -(losers rs).sum then some (rounded ((winners rs).sum / -(losers rs).sum)) else none) =
        .ok () := by
  unfold checkEmpty
  by_cases hne : rs = []
  · subst hne
    have hzero : rounded (maxDrawdown []) = 0 := rounded_zero
    rw [if_pos rfl, if_pos rfl, if_pos List.length_nil, if_neg (by decide), hzero]
    rfl
  · exact if_neg (fun h => hne (List.eq_nil_of_length_eq_zero h))

theorem checkExpectancy_eq_ok (rs : List ℚ) :
    checkExpectancy rs.length (winners rs).length (losers rs).length
      (if rs = [] then 0 else rounded ((winners rs).length / rs.length))
      (if rs = [] then 0 else rounded (rs.sum / rs.length)) (average (winners rs))
      (average (losers rs)) = .ok () ↔ RoundingKept rs := by
  unfold average checkExpectancy RoundingKept
  by_cases hwinners : winners rs = []
  · rw [if_pos hwinners]
    exact ⟨fun _ h => absurd hwinners h, fun _ => rfl⟩
  · by_cases hlosers : losers rs = []
    · rw [if_pos hlosers, if_neg hwinners]
      exact ⟨fun _ _ h => absurd hlosers h, fun _ => rfl⟩
    · have hne : rs ≠ [] := by
        rintro rfl
        exact hwinners rfl
      rw [if_neg hwinners, if_neg hlosers, if_neg hne, if_neg hne]
      dsimp only
      split_ifs with hall
      · rw [require_eq_ok, decide_eq_true_eq]
        exact ⟨fun h _ _ _ => h, fun h => h hwinners hlosers hall⟩
      · exact ⟨fun _ _ _ h => absurd h hall, fun _ => rfl⟩

variable {py : Texts} {source notes : String} {now : Stamp}

/-- The loader returns what the builder wrote just where the dates are in order and rounding is
tolerated. -/
theorem validate_summarize {trades : List Trade} (hsource : known source = true)
    (hnotes : notesAllowed py notes = true) (hnow : Representable now.instant)
    (hrounded : Rounded (trades.map Trade.r)) :
    validateBaseline py (.dict (summarize trades source notes now).fields) source =
        .ok (.dict (summarize trades source notes now).fields) ↔
      DatesInOrder trades ∧ RoundingKept (trades.map Trade.r) := by
  obtain ⟨parsed, hparsed⟩ := isoDatetime_secondsString py hnow
  have hcounts := length_winners_add_losers_le (trades.map Trade.r)
  have hempty := checkEmpty_ok (trades.map Trade.r)
  have hwin : (average (winners (trades.map Trade.r))).all (fun x => decide (0 < x)) = true := by
    rw [Option.all_eq_true]
    exact fun avg havg => decide_eq_true (average_winners_pos hrounded havg)
  have hloss : (average (losers (trades.map Trade.r))).all (fun x => decide (x < 0)) = true := by
    rw [Option.all_eq_true]
    exact fun avg havg => decide_eq_true (average_losers_neg hrounded havg)
  have hnotesOk : checkNotes py (.str notes) = .ok () := require_eq_ok.mpr hnotes
  have hdates : (periodOf trades now).1.day ≤ (periodOf trades now).2.day ↔ DatesInOrder trades := by
    cases trades with
    | nil => exact ⟨fun _ => trivial, fun _ => le_rfl⟩
    | cons trade rest => exact Iff.rfl
  rw [← checkExpectancy_eq_ok, ← hdates]
  generalize hrs : trades.map Trade.r = rs at *
  simp only [validateBaseline, bind_eq_ok, require_eq_ok, dictOf_fields, exists_const,
    Except.ok.injEq, exists_eq_left']
  simp only [Summary.fields, get_cons, String.reduceEq, ite_true, ite_false, Value.int?, Value.str?,
    Option.some.injEq, decide_eq_true_eq, true_and, exists_eq_left', Except.ok.injEq, dictOf_period,
    countOf_natCast, numberOf_real, optionalOf_realOrNone]
  simp only [summarize, hrs, hsource, hparsed, isoDate_dateString, hempty, hwin, hloss, hnotesOk,
    isSome_average, beq_self_eq_true, true_and, and_true, Except.ok.injEq, exists_eq_left',
    exists_const, hcounts, winRate_bounds, winRate_near, profitFactor_nonneg,
    rounded_nonneg (maxDrawdown_nonneg rs)]
  exact and_congr_right fun _ => ⟨fun ⟨_, h, _⟩ => h, fun h => ⟨(), h, rfl⟩⟩

/-! ## The rows -/

section Rows

variable {index index' : ℕ} {rows rows' : List Value} {trades : List Trade}

theorem rounded_of_readTrade {fields : List (String × Value)} {trade : Trade}
    (h : readTrade py fields = .ok trade) : Grid.OnGrid 10000 trade.r := by
  unfold readTrade at h
  simp only [bind_eq_ok] at h
  obtain ⟨closed, -, opened, -, -, -, r, -, heq⟩ := h
  obtain rfl := Except.ok.inj heq
  exact Grid.onGrid_roundHalfEven 10000 r

theorem opened_le_of_readTrade {fields : List (String × Value)} {trade : Trade}
    (h : readTrade py fields = .ok trade) : trade.opened.instant ≤ trade.closed.instant := by
  unfold readTrade at h
  simp only [bind_eq_ok, require_eq_ok, decide_eq_true_eq] at h
  obtain ⟨closed, -, opened, -, -, hle, r, -, heq⟩ := h
  obtain rfl := Except.ok.inj heq
  exact hle

/-- A row that was read at one index is read at every other. -/
theorem readRow_eq_ok {row : Value} {trade : Option Trade} :
    readRow py index row = .ok trade ↔ ∃ fields, row = .dict fields ∧
      if normalizeSymbol py (get fields "symbol") = symbol then
        (readTrade py fields).map some = .ok trade else trade = none := by
  unfold readRow
  cases row with
  | dict fields =>
    dsimp only
    split_ifs with hsymbol
    · rw [mapError_eq_ok]
      exact ⟨fun h => ⟨fields, rfl, by rwa [if_pos hsymbol]⟩, fun ⟨_, heq, h⟩ => by
        obtain rfl := Value.dict.inj heq
        rwa [if_pos hsymbol] at h⟩
    · exact ⟨fun h => ⟨fields, rfl, by rw [if_neg hsymbol]; exact (Except.ok.inj h).symm⟩,
        fun ⟨_, heq, h⟩ => by
          obtain rfl := Value.dict.inj heq
          rw [if_neg hsymbol] at h
          rw [h]⟩
  | _ => exact ⟨fun h => (nomatch h), fun ⟨_, heq, _⟩ => (nomatch heq)⟩

theorem readRow_index {row : Value} {trade : Option Trade} (h : readRow py index row = .ok trade) :
    readRow py index' row = .ok trade := readRow_eq_ok.mpr (readRow_eq_ok.mp h)

theorem readRows_cons {row : Value} :
    readRows py index (row :: rows) = .ok trades ↔ ∃ trade, readRow py index row = .ok trade ∧
      ∃ rest, readRows py (index + 1) rows = .ok rest ∧ trades = trade.toList ++ rest := by
  simp only [readRows, bind_eq_ok]
  refine exists_congr fun trade => and_congr_right fun _ => exists_congr fun rest =>
    and_congr_right fun _ => ?_
  exact ⟨fun h => (Except.ok.inj h).symm, fun h => congrArg Except.ok h.symm⟩

/-- What holds of every row that is read. -/
theorem forall_of_readRows {P : Trade → Prop}
    (hP : ∀ fields trade, readTrade py fields = .ok trade → P trade)
    (h : readRows py index rows = .ok trades) : ∀ trade ∈ trades, P trade := by
  induction rows generalizing index trades with
  | nil =>
    obtain rfl := Except.ok.inj h
    exact fun trade htrade => nomatch htrade
  | cons row rows ih =>
    obtain ⟨trade, hrow, rest, hrest, rfl⟩ := readRows_cons.mp h
    rw [List.forall_mem_append]
    refine ⟨fun t ht => ?_, ih hrest⟩
    obtain ⟨fields, -, hread⟩ := readRow_eq_ok.mp hrow
    split_ifs at hread with hsymbol
    · cases hfields : readTrade py fields with
      | error e =>
        rw [hfields] at hread
        cases hread
      | ok read =>
        rw [hfields] at hread
        obtain rfl := Except.ok.inj hread
        obtain rfl : t = read := by simpa using ht
        exact hP fields t hfields
    · subst hread
      exact nomatch ht

theorem readRows_index (h : readRows py index rows = .ok trades) :
    readRows py index' rows = .ok trades := by
  induction rows generalizing index index' trades with
  | nil => exact h
  | cons row rows ih =>
    obtain ⟨trade, hrow, rest, hrest, rfl⟩ := readRows_cons.mp h
    exact readRows_cons.mpr ⟨trade, readRow_index hrow, rest, ih hrest, rfl⟩

/-- The rows in another order are the same trades in another order. -/
theorem readRows_perm (hperm : rows.Perm rows') (h : readRows py index rows = .ok trades) :
    ∃ trades', readRows py index' rows' = .ok trades' ∧ trades.Perm trades' := by
  induction hperm generalizing index index' trades with
  | nil => exact ⟨trades, h, .refl _⟩
  | cons row _ ih =>
    obtain ⟨trade, hrow, rest, hrest, rfl⟩ := readRows_cons.mp h
    obtain ⟨rest', hrest', hperm'⟩ : ∃ rest', readRows py (index' + 1) _ = .ok rest' ∧
        rest.Perm rest' := ih hrest
    exact ⟨_, readRows_cons.mpr ⟨trade, readRow_index hrow, rest', hrest', rfl⟩,
      hperm'.append_left _⟩
  | swap first second rows =>
    obtain ⟨trade, hrow, rest, hrest, rfl⟩ := readRows_cons.mp h
    obtain ⟨trade', hrow', rest', hrest', rfl⟩ := readRows_cons.mp hrest
    refine ⟨trade'.toList ++ (trade.toList ++ rest'), ?_, ?_⟩
    · exact readRows_cons.mpr ⟨trade', readRow_index hrow', _,
        readRows_cons.mpr ⟨trade, readRow_index hrow, rest', readRows_index hrest', rfl⟩, rfl⟩
    · rw [← List.append_assoc, ← List.append_assoc]
      exact List.perm_append_comm.append_right rest'
  | trans _ _ ih ih' =>
    obtain ⟨middle, hmiddle, hperm⟩ : ∃ middle, readRows py index _ = .ok middle ∧
        trades.Perm middle := ih h
    obtain ⟨trades', htrades', hperm'⟩ := ih' hmiddle
    exact ⟨trades', htrades', hperm.trans hperm'⟩

end Rows

/-! ## The order of the trades -/

theorem byClosing_eq (trades : List Trade) :
    byClosing trades = sortedView (fun t => t.closed.instant) (fun _ => true) trades := by
  rw [sortedView, List.filter_true]
  rfl

theorem mem_byClosing {trades : List Trade} {t : Trade} : t ∈ byClosing trades ↔ t ∈ trades :=
  List.mem_insertionSort _

/-- Trades that close at distinct instants have one order. -/
theorem byClosing_perm {trades trades' : List Trade} (hperm : trades.Perm trades')
    (hdistinct : (trades.map fun t => t.closed.instant).Nodup) :
    byClosing trades = byClosing trades' := by
  rw [byClosing_eq, byClosing_eq]
  exact sortedView_eq hdistinct ((hperm.map _).nodup_iff.mp hdistinct) fun t _ => hperm.mem_iff

/-! ## Rows of one offset and of moderate results -/

theorem earliest_le_first (best : Stamp) (times : List Stamp) :
    (earliest best times).instant ≤ best.instant := by
  unfold earliest
  induction times generalizing best with
  | nil => exact le_rfl
  | cons time times ih =>
    rw [List.foldl_cons]
    refine (ih _).trans ?_
    split_ifs with hlt
    · exact hlt.le
    · exact le_rfl

theorem earliest_mem (best : Stamp) (times : List Stamp) : earliest best times ∈ best :: times := by
  unfold earliest
  induction times generalizing best with
  | nil => exact List.mem_cons_self
  | cons time times ih =>
    rw [List.foldl_cons]
    have hmem := ih (if time.instant < best.instant then time else best)
    split_ifs at hmem ⊢ with hlt
    · exact List.mem_cons_of_mem _ hmem
    · cases List.mem_cons.mp hmem with
      | inl heq => rw [heq]; exact List.mem_cons_self
      | inr hrest => exact List.mem_cons_of_mem _ (List.mem_cons_of_mem _ hrest)

/-- On one calendar an opening has no later date than a closing that follows it. -/
theorem datesInOrder_of_offset {trades : List Trade} {o : ℤ}
    (hoffset : ∀ t ∈ trades, t.opened.offset = some o ∧ t.closed.offset = some o)
    (hopened : ∀ t ∈ trades, t.opened.instant ≤ t.closed.instant)
    (hsorted : trades.Pairwise fun t u => t.closed.instant ≤ u.closed.instant) :
    DatesInOrder trades := by
  cases trades with
  | nil => exact trivial
  | cons trade rest =>
    have hfirst := earliest_le_first trade.opened (rest.map Trade.opened)
    have hmem := earliest_mem trade.opened (rest.map Trade.opened)
    have hlastMem : rest.getLastD trade ∈ trade :: rest := List.getLastD_mem_cons
    have hlast : trade.closed.instant ≤ (rest.getLastD trade).closed.instant := by
      cases List.mem_cons.mp hlastMem with
      | inl heq => rw [heq]
      | inr hrest => exact (List.pairwise_cons.mp hsorted).1 _ hrest
    have hopen := hopened trade List.mem_cons_self
    have hfirstOffset : (earliest trade.opened (rest.map Trade.opened)).offset = some o := by
      rw [← List.map_cons] at hmem
      obtain ⟨t, ht, heq⟩ := List.mem_map.mp hmem
      rw [← heq]
      exact (hoffset t ht).1
    have hlastOffset := (hoffset _ hlastMem).2
    show (earliest trade.opened (rest.map Trade.opened)).day ≤ (rest.getLastD trade).closed.day
    unfold Stamp.instant at *
    unfold Stamp.day
    rw [hfirstOffset] at hfirst
    rw [hlastOffset] at hlast
    simp only [Option.getD_some] at hfirst hlast
    omega

theorem perm_winners_append_losers {rs : List ℚ}
    (h : (winners rs).length + (losers rs).length = rs.length) :
    rs.Perm (winners rs ++ losers rs) := by
  have hsplit := @List.length_eq_length_filter_add _ rs (fun r => decide (0 < r))
  have hsublist : (losers rs).Sublist (rs.filter fun r => !decide (0 < r)) := by
    refine List.monotone_filter_right rs fun r hr => ?_
    simp only [decide_eq_true_eq] at hr
    simpa using hr.le
  have hlosers : losers rs = rs.filter fun r => !decide (0 < r) := by
    refine hsublist.eq_of_length ?_
    unfold winners at h
    omega
  rw [hlosers]
  exact (List.filter_append_perm (fun r => decide (0 < r)) rs).symm

/-- Averages that are not a thousand R apart explain the expectancy after they are rounded. -/
theorem roundingKept_of_spread {rs : List ℚ} (h : mean (winners rs) - mean (losers rs) ≤ 998) :
    RoundingKept rs := by
  intro hwinners hlosers hall
  have hne : rs ≠ [] := by
    rintro rfl
    exact hwinners rfl
  have hmix := mean_eq_mix (perm_winners_append_losers hall) hwinners hlosers
  have hgain : 0 ≤ mean (winners rs) :=
    le_mean hwinners fun r hr => (of_decide_eq_true (List.mem_filter.mp hr).2).le
  have hloss : mean (losers rs) ≤ 0 :=
    mean_le hlosers fun r hr => (of_decide_eq_true (List.mem_filter.mp hr).2).le
  obtain ⟨hlow, hhigh⟩ := rate_bounds hne
  have herror := abs_sub_mix_le hmix (abs_rounded_sub_le _) (abs_rounded_sub_le _)
    (abs_rounded_sub_le _) (abs_rounded_sub_le _) hlow hhigh
  rw [abs_of_nonneg (by linarith : 0 ≤ mean (winners rs) - mean (losers rs))] at herror
  refine herror.trans ?_
  unfold expectancyTolerance
  linarith

/-! ## The builder and the loader -/

variable (py) in
/-- The trades of the rows, if they can be read, have their dates in order and survive rounding. -/
def Presentable (rows : List Value) : Prop :=
  ∀ trades, readRows py 1 rows = .ok trades →
    DatesInOrder (byClosing trades) ∧ RoundingKept ((byClosing trades).map Trade.r)

variable (py) in
/-- No two rows that count close at one instant. -/
def DistinctClosings (rows : List Value) : Prop :=
  ∀ trades, readRows py 1 rows = .ok trades → (trades.map fun t => t.closed.instant).Nodup

theorem buildSummary_eq_ok (hsource : known source = true) {rows : List Value} {data : Value} :
    buildSummary py rows source notes now = .ok data ↔ ∃ trades, readRows py 1 rows = .ok trades ∧
      data = .dict (summarize (byClosing trades) source notes now).fields := by
  unfold buildSummary
  simp only [bind_eq_ok, require_eq_ok, hsource, exists_const, true_and]
  refine exists_congr fun trades => and_congr_right fun _ => ?_
  exact ⟨fun h => (Except.ok.inj h).symm, fun h => congrArg Except.ok h.symm⟩

theorem rounded_byClosing {rows : List Value} {trades : List Trade}
    (h : readRows py 1 rows = .ok trades) : Rounded ((byClosing trades).map Trade.r) := by
  intro r hr
  obtain ⟨t, ht, rfl⟩ := List.mem_map.mp hr
  exact forall_of_readRows (fun _ _ => rounded_of_readTrade) h t (mem_byClosing.mp ht)

/-- Another order of rows that close at distinct instants gives the same summary. -/
theorem buildSummary_perm (hsource : known source = true) {rows rows' : List Value} {data : Value}
    (hperm : rows.Perm rows') (hdistinct : DistinctClosings py rows)
    (h : buildSummary py rows source notes now = .ok data) :
    buildSummary py rows' source notes now = .ok data := by
  obtain ⟨trades, hread, rfl⟩ := (buildSummary_eq_ok hsource).mp h
  obtain ⟨trades', hread', htrades⟩ : ∃ trades', readRows py 1 rows' = .ok trades' ∧
      trades.Perm trades' := readRows_perm hperm hread
  refine (buildSummary_eq_ok hsource).mpr ⟨trades', hread', ?_⟩
  rw [byClosing_perm htrades (hdistinct trades hread)]

/-- Rows of one offset, whose wins and losses are not a thousand R apart, are presentable. -/
theorem presentable_of_offset {rows : List Value} {o : ℤ}
    (hoffset : ∀ trades, readRows py 1 rows = .ok trades →
      ∀ t ∈ trades, t.opened.offset = some o ∧ t.closed.offset = some o)
    (hspread : ∀ trades, readRows py 1 rows = .ok trades →
      mean (winners ((byClosing trades).map Trade.r)) -
        mean (losers ((byClosing trades).map Trade.r)) ≤ 998) :
    Presentable py rows := by
  intro trades hread
  have hopened := forall_of_readRows (fun _ _ => opened_le_of_readTrade) hread
  refine ⟨datesInOrder_of_offset (fun t ht => hoffset trades hread t (mem_byClosing.mp ht))
    (fun t ht => hopened t (mem_byClosing.mp ht)) ?_, roundingKept_of_spread (hspread trades hread)⟩
  rw [byClosing_eq]
  exact sortedView_pairwise_le _ trades

/-- What the loader accepts of every summary is presentable. -/
theorem presentable_of_accepted (hsource : known source = true)
    (hnotes : notesAllowed py notes = true) (hnow : Representable now.instant) {rows : List Value}
    (h : ∀ data, buildSummary py rows source notes now = .ok data →
      validateBaseline py data source = .ok data) : Presentable py rows := by
  intro trades hread
  have hbuilt : buildSummary py rows source notes now =
      .ok (.dict (summarize (byClosing trades) source notes now).fields) :=
    (buildSummary_eq_ok hsource).mpr ⟨trades, hread, rfl⟩
  exact (validate_summarize hsource hnotes hnow (rounded_byClosing hread)).mp (h _ hbuilt)

/-- The loader accepts what the builder writes, whatever the order of the rows, just where the
rows are presentable. -/
theorem builder_accepted_iff (py : Texts) {source notes : String} {now : Stamp}
    (hsource : known source = true) (hnotes : notesAllowed py notes = true)
    (hnow : Representable now.instant) (rows : List Value) :
    ((∀ data, buildSummary py rows source notes now = .ok data →
        validateBaseline py data source = .ok data) ∧
      ∀ rows' data, rows.Perm rows' → DistinctClosings py rows →
        buildSummary py rows source notes now = .ok data →
        buildSummary py rows' source notes now = .ok data) ↔
      Presentable py rows := by
  constructor
  · exact fun h => presentable_of_accepted hsource hnotes hnow h.1
  · intro hpresentable
    refine ⟨fun data hbuilt => ?_, fun rows' data => buildSummary_perm hsource⟩
    obtain ⟨trades, hread, rfl⟩ := (buildSummary_eq_ok hsource).mp hbuilt
    exact (validate_summarize hsource hnotes hnow (rounded_byClosing hread)).mpr
      (hpresentable trades hread)

/-! ### Rows -/

instance (trades : List Trade) : Decidable (DatesInOrder trades) :=
  match trades with
  | [] => .isTrue trivial
  | _ :: _ => Nat.decLe _ _

instance (rs : List ℚ) : Decidable (RoundingKept rs) := inferInstanceAs (Decidable (_ → _ → _ → _ ≤ _))

instance (py : Texts) (rows : List Value) : Decidable (Presentable py rows) :=
  match h : readRows py 1 rows with
  | .error _ => .isTrue fun trades hread => by
      rw [h] at hread
      cases hread
  | .ok trades => decidable_of_iff
      (DatesInOrder (byClosing trades) ∧ RoundingKept ((byClosing trades).map Trade.r))
      ⟨fun hkept trades' hread => by
        rw [h] at hread
        obtain rfl := Except.ok.inj hread
        exact hkept, fun hpresentable => hpresentable trades h⟩

/-- A library that reads the extended format of times and decimal numerals. -/
def plainTexts : Texts where
  float s := (NumberText.readDecimal s.toList).map NumberText.Decimal.value
  fromisoformat s := readStamp s.toList
  dateFromisoformat s := wholeDate s.toList
  upper s := String.ofList (s.toList.map Char.toUpper)
  strip s := String.ofList
    ((s.toList.dropWhile Char.isWhitespace).reverse.dropWhile Char.isWhitespace).reverse
  isprintable s := s.toList.all (fun c => decide (32 ≤ c.toNat ∧ c.toNat ≠ 127))
  fromisoformat_utc := by
    intro t ht
    rw [String.toList_ofList, readStamp_utc ht]
    rfl
  dateFromisoformat_dateText := by
    intro n hn
    rw [String.toList_ofList, wholeDate_dateText hn]

/-- 2 January 2026, 03:04:05 UTC. -/
def sampleNow : Stamp := .inUtc 1767323045000000 (by decide)

/-- A result that is given, one over its risk, and one from prices. -/
def sampleRows : List Value :=
  [.dict [("symbol", .str "EURUSD"), ("opened_at", .str "2024-01-02T09:00:00+00:00"),
      ("closed_at", .str "2024-01-02T12:00:00"), ("r_multiple", .str "1.5")],
    .dict [("symbol", .str "eur/usd"), ("closed_at", .str "2024-01-01T10:00:00Z"),
      ("pnl", .int (-30)), ("initial_risk", .int 40)],
    .dict [("symbol", .str "XAUUSD")],
    .dict [("symbol", .str "EUR_USD"), ("closed_at", .str "2024-01-03T10:00:00.250000+01:00"),
      ("side", .str "sell"), ("entry", .str "1.1000"), ("stop", .str "1.1020"),
      ("exit", .str "1.0960")]]

theorem builder_accepted_iff_sample :
    (∀ data, buildSummary plainTexts sampleRows "paper" "demo" sampleNow = .ok data →
        validateBaseline plainTexts data "paper" = .ok data) ∧
      ∀ rows' data, sampleRows.Perm rows' → DistinctClosings plainTexts sampleRows →
        buildSummary plainTexts sampleRows "paper" "demo" sampleNow = .ok data →
        buildSummary plainTexts rows' "paper" "demo" sampleNow = .ok data :=
  (builder_accepted_iff plainTexts (by decide) (by decide +kernel) (by decide) sampleRows).mpr
    (by decide +kernel)

/-- Opened at one in the morning of the second on a clock three hours ahead, and closed an hour
later, at eleven in the evening of the first in UTC. -/
def aheadRows : List Value :=
  [.dict [("symbol", .str "EURUSD"), ("opened_at", .str "2024-01-02T01:00:00+03:00"),
    ("closed_at", .str "2024-01-01T23:00:00+00:00"), ("r_multiple", .real (3 / 2))]]

/-- The period of a summary that was built may end before it begins. -/
theorem period_ends_before_it_begins :
    ¬∀ (py : Texts) (source notes : String) (now : Stamp) (rows : List Value),
      known source = true → notesAllowed py notes = true → Representable now.instant →
      ∀ data, buildSummary py rows source notes now = .ok data →
        validateBaseline py data source = .ok data := by
  intro h
  have hahead : ¬Presentable plainTexts aheadRows := by decide +kernel
  have hsource : known "paper" = true := by decide
  have hnotes : notesAllowed plainTexts "" = true := by decide
  have hnow : Representable sampleNow.instant := by decide
  exact hahead (presentable_of_accepted hsource hnotes hnow
    (h plainTexts "paper" "" sampleNow aheadRows hsource hnotes hnow))

/-- One win of a million R beside two losses: a third of it is off by more than the tolerance. -/
example : ¬RoundingKept [1000000, -1, -1] := by decide +kernel

end MarketSystem.Historial
