import MarketSystem.Data.TwelveData

/-!
# What a cached frame is

A frame depends on `as_of` only through the bars of its payload that are closed by then. So a
frame from the cache is the one an instance without a cache would build exactly when no bar of
the payload ends between the two instants.
-/
namespace MarketSystem.TwelveData

open Library FallibleLoop

variable {ticker symbol : String} {timeframe : Timeframe} {asOf asOf' : Instant}

/-! ### The loop over the payload -/

/-- What the loop knows of `seen` and `rows`. -/
structure Read (timeframe : Timeframe) (asOf : Instant) (s : List Instant × List Row) : Prop where
  nodup : (s.2.map (·.timestamp)).Nodup
  seen : ∀ row ∈ s.2, row.timestamp ∈ s.1
  decided : ∀ stamp ∈ s.1,
    stamp ∈ s.2.map (·.timestamp) ↔ stamp + timeframe.duration ≤ asOf
  valid : ∀ row ∈ s.2, row.Valid ∧ row.timeframe = timeframe ∧ row.end_ ≤ asOf

theorem price_eq_ok {reading : Option Reading} {v : ℚ} (h : price reading = .ok v) : 0 < v := by
  unfold price at h
  split at h
  · split_ifs at h with hv
    cases h
    exact not_le.mp hv
  · cases h

theorem volume_eq_ok {reading : Option (Option Reading)} {v : Option ℚ}
    (h : volume reading = .ok v) : ∀ w, v = some w → 0 ≤ w := by
  intro w hw
  subst hw
  unfold volume at h
  split at h
  · cases h
  · split_ifs at h with hv
    cases h
    exact not_lt.mp hv
  · cases h

/-- One round: a new stamp, and its row if the bar is closed. -/
theorem readItem_ok {s s' : List Instant × List Row} {item : Item}
    (h : readItem ticker symbol timeframe asOf s item = .ok s') :
    ∃ stamp, item.stamp = some stamp ∧ stamp ∉ s.1 ∧
      (asOf < stamp + timeframe.duration ∧ s' = (stamp :: s.1, s.2) ∨
        ∃ row : Row, row.timestamp = stamp ∧ row.timeframe = timeframe ∧ row.Valid ∧
          row.end_ ≤ asOf ∧ s' = (stamp :: s.1, s.2 ++ [row])) := by
  unfold readItem at h
  cases hstamp : item.stamp with
  | none =>
    rw [hstamp] at h
    cases h
  | some stamp =>
    simp only [hstamp] at h
    obtain ⟨o, ho, h⟩ := bind_eq_ok.mp h
    obtain ⟨hi, hh, h⟩ := bind_eq_ok.mp h
    obtain ⟨l, hl, h⟩ := bind_eq_ok.mp h
    obtain ⟨c, hc, h⟩ := bind_eq_ok.mp h
    split_ifs at h with hseen hshape hopen
    · cases h
      exact ⟨stamp, rfl, hseen, .inl ⟨hopen, rfl⟩⟩
    · obtain ⟨row, hrow, h⟩ := bind_eq_ok.mp h
      obtain ⟨v, hv, hrow⟩ := bind_eq_ok.mp hrow
      cases h
      cases hrow
      simp only [not_or, not_lt] at hshape
      refine ⟨stamp, rfl, hseen, .inr ⟨⟨stamp, o, hi, l, c, v, symbol, timeframe, ticker⟩, rfl, rfl,
        ?_, not_lt.mp hopen, rfl⟩⟩
      exact ⟨⟨price_eq_ok ho, price_eq_ok hh, price_eq_ok hl, price_eq_ok hc⟩,
        ⟨hshape.1, hshape.2.1⟩, volume_eq_ok hv⟩

theorem Read.readItem {s s' : List Instant × List Row} {item : Item} (hs : Read timeframe asOf s)
    (h : TwelveData.readItem ticker symbol timeframe asOf s item = .ok s') :
    Read timeframe asOf s' := by
  obtain ⟨stamp, -, hnew, ⟨hopen, rfl⟩ | ⟨row, rfl, htimeframe, hvalid, hend, rfl⟩⟩ := readItem_ok h
  · have hno : stamp ∉ s.2.map (·.timestamp) := by
      intro hmem
      obtain ⟨row, hrow, rfl⟩ := List.mem_map.mp hmem
      exact hnew (hs.seen row hrow)
    refine ⟨hs.nodup, fun row hrow => List.mem_cons_of_mem _ (hs.seen row hrow), ?_, hs.valid⟩
    intro t ht
    cases List.mem_cons.mp ht with
    | inl hself =>
      subst hself
      exact iff_of_false hno (not_le.mpr hopen)
    | inr hold => exact hs.decided t hold
  · have hno : row.timestamp ∉ s.2.map (·.timestamp) := by
      intro hmem
      obtain ⟨row', hrow', heq⟩ := List.mem_map.mp hmem
      exact hnew (heq ▸ hs.seen row' hrow')
    refine ⟨?_, ?_, ?_, ?_⟩
    · rw [List.map_append, List.map_cons, List.map_nil]
      exact List.nodup_append.mpr ⟨hs.nodup, List.nodup_singleton _, fun a ha b hb =>
        fun heq => hno ((List.mem_singleton.mp hb) ▸ heq ▸ ha)⟩
    · intro row' hrow'
      cases List.mem_append.mp hrow' with
      | inl hold => exact List.mem_cons_of_mem _ (hs.seen row' hold)
      | inr hself => exact (List.mem_singleton.mp hself) ▸ List.mem_cons_self
    · intro t ht
      rw [List.map_append, List.mem_append]
      cases List.mem_cons.mp ht with
      | inl hself =>
        subst hself
        refine iff_of_true (.inr List.mem_cons_self) ?_
        rw [← htimeframe]
        exact hend
      | inr hold =>
        rw [← hs.decided t hold]
        constructor
        · rintro (hmem | hself)
          · exact hmem
          · obtain rfl : t = row.timestamp := List.mem_singleton.mp hself
            exact absurd hold hnew
        · exact fun hmem => .inl hmem
    · intro row' hrow'
      cases List.mem_append.mp hrow' with
      | inl hold => exact hs.valid row' hold
      | inr hself =>
        obtain rfl := List.mem_singleton.mp hself
        exact ⟨hvalid, htimeframe, hend⟩

/-- Every entry the loop has read has a stamp that it has seen. -/
theorem seen_of_loop {items : List Item} {s s' : List Instant × List Row}
    (h : items.foldlM (readItem ticker symbol timeframe asOf) s = .ok s') :
    (∀ stamp ∈ s.1, stamp ∈ s'.1) ∧
      ∀ item ∈ items, ∃ stamp, item.stamp = some stamp ∧ stamp ∈ s'.1 := by
  induction items generalizing s with
  | nil =>
    rw [foldlM_nil_ok.mp h]
    exact ⟨fun _ hs => hs, fun item hitem => absurd hitem List.not_mem_nil⟩
  | cons item items ih =>
    obtain ⟨m, hround, hrest⟩ := foldlM_cons_ok.mp h
    obtain ⟨hkeeps, hitems⟩ := ih hrest
    obtain ⟨stamp, hstamp, -, hnext⟩ := readItem_ok hround
    have hm : m.1 = stamp :: s.1 := by
      obtain ⟨-, rfl⟩ | ⟨row, -, -, -, -, rfl⟩ := hnext <;> rfl
    refine ⟨fun t ht => hkeeps t (hm ▸ List.mem_cons_of_mem _ ht), ?_⟩
    intro item' hitem'
    cases List.mem_cons.mp hitem' with
    | inl hself => exact ⟨stamp, hself ▸ hstamp, hkeeps stamp (hm ▸ List.mem_cons_self)⟩
    | inr hlater => exact hitems item' hlater

/-! ### One payload at two instants -/

/-- No bar of the payload ends after one of the instants and by the other. -/
def NothingBetween (timeframe : Timeframe) (payload : Payload) (asOf asOf' : Instant) : Prop :=
  ∀ item ∈ payload.values.getD [], ∀ stamp, item.stamp = some stamp →
    (stamp + timeframe.duration ≤ asOf ↔ stamp + timeframe.duration ≤ asOf')

theorem readItem_congr {item : Item}
    (h : ∀ stamp, item.stamp = some stamp →
      (stamp + timeframe.duration ≤ asOf ↔ stamp + timeframe.duration ≤ asOf'))
    (s : List Instant × List Row) :
    readItem ticker symbol timeframe asOf s item = readItem ticker symbol timeframe asOf' s item := by
  unfold readItem
  cases hstamp : item.stamp with
  | none => rfl
  | some stamp =>
    have hsame : (asOf < stamp + timeframe.duration) = (asOf' < stamp + timeframe.duration) := by
      rw [← not_le, ← not_le]
      exact congrArg Not (propext (h stamp hstamp))
    simp only [hsame]

theorem frameOf_congr {payload : Payload} (h : NothingBetween timeframe payload asOf asOf') :
    frameOf ticker symbol timeframe asOf payload = frameOf ticker symbol timeframe asOf' payload := by
  unfold frameOf
  cases hvalues : payload.values with
  | none => rfl
  | some values =>
    have hloop : ∀ s, values.foldlM (readItem ticker symbol timeframe asOf) s =
        values.foldlM (readItem ticker symbol timeframe asOf') s := by
      have hall : ∀ item ∈ values, ∀ stamp, item.stamp = some stamp →
          (stamp + timeframe.duration ≤ asOf ↔ stamp + timeframe.duration ≤ asOf') := by
        intro item hitem
        exact h item (by rw [hvalues]; exact hitem)
      clear hvalues
      induction values with
      | nil => exact fun s => rfl
      | cons item items ih =>
        intro s
        rw [List.foldlM_cons, List.foldlM_cons, readItem_congr (hall item List.mem_cons_self)]
        exact congrArg _ (funext (ih (fun item' h' => hall item' (List.mem_cons_of_mem _ h'))))
    simp only [hloop]

/-- What a frame without a cache is. -/
structure Built (timeframe : Timeframe) (asOf : Instant) (payload : Payload) (frame : Frame) :
    Prop where
  increasing : (frame.map (·.timestamp)).Pairwise (· < ·)
  valid : ∀ row ∈ frame, row.Valid
  closed : ∀ row ∈ frame, row.timestamp + timeframe.duration ≤ asOf
  /-- It has the bars of the payload that are closed. -/
  decided : ∀ item ∈ payload.values.getD [], ∀ stamp, item.stamp = some stamp →
    (stamp ∈ frame.map (·.timestamp) ↔ stamp + timeframe.duration ≤ asOf)

theorem built_of_frameOf {payload : Payload} {frame : Frame}
    (h : frameOf ticker symbol timeframe asOf payload = .ok frame) :
    Built timeframe asOf payload frame := by
  unfold frameOf at h
  split_ifs at h
  cases hvalues : payload.values with
  | none =>
    rw [hvalues] at h
    cases h
  | some values =>
    simp only [hvalues] at h
    obtain ⟨s, hloop, h⟩ := bind_eq_ok.mp h
    cases h
    have hstart : Read timeframe asOf ([], []) :=
      ⟨List.nodup_nil, fun _ h => absurd h List.not_mem_nil,
        fun _ h => absurd h List.not_mem_nil, fun _ h => absurd h List.not_mem_nil⟩
    have hread : Read timeframe asOf s :=
      foldlM_induction (fun _ _ _ _ hs hround => hs.readItem hround) hstart hloop
    have hperm := List.perm_insertionSort (fun a b : Row => a.timestamp ≤ b.timestamp) s.2
    have hsorted : ((s.2.insertionSort (fun a b => a.timestamp ≤ b.timestamp)).map
        (·.timestamp)).Pairwise (· ≤ ·) :=
      List.pairwise_map.mpr (List.pairwise_insertionSort _ _)
    have hnodup : ((s.2.insertionSort (fun a b => a.timestamp ≤ b.timestamp)).map
        (·.timestamp)).Nodup := (hperm.map _).nodup_iff.mpr hread.nodup
    refine ⟨?_, fun row hrow => (hread.valid row (hperm.mem_iff.mp hrow)).1, ?_, ?_⟩
    · exact hsorted.imp₂ (fun _ _ hle hne => lt_of_le_of_ne hle hne) hnodup
    · intro row hrow
      obtain ⟨-, htimeframe, hend⟩ := hread.valid row (hperm.mem_iff.mp hrow)
      rw [← htimeframe]
      exact hend
    · intro item hitem stamp hstamp
      rw [hvalues] at hitem
      obtain ⟨stamp', hstamp', hseen⟩ := (seen_of_loop hloop).2 item hitem
      obtain rfl := Option.some.inj (hstamp.symm.trans hstamp')
      rw [(hperm.map _).mem_iff]
      exact hread.decided stamp hseen

/-- A frame that was built at one instant is right at another exactly when no bar of its payload
ends between them. -/
theorem exact_iff {payload : Payload} {frame : Frame}
    (h : frameOf ticker symbol timeframe asOf' payload = .ok frame) :
    ((∀ row ∈ frame, row.timestamp + timeframe.duration ≤ asOf) ∧
        frameOf ticker symbol timeframe asOf payload = .ok frame) ↔
      NothingBetween timeframe payload asOf asOf' := by
  constructor
  · rintro ⟨-, hsame⟩ item hitem stamp hstamp
    have hthere := (built_of_frameOf hsame).decided item hitem stamp hstamp
    have hhere := (built_of_frameOf h).decided item hitem stamp hstamp
    exact hthere.symm.trans hhere
  · intro hnothing
    have hsame : frameOf ticker symbol timeframe asOf payload = .ok frame :=
      (frameOf_congr hnothing).trans h
    exact ⟨(built_of_frameOf hsame).closed, hsame⟩

/-! ### The grid -/

/-- A bar of the grid is closed at an instant when it starts by the expected start. -/
theorem closed_iff_expectedStart {stamp : Instant} (hgrid : timeframe.duration ∣ stamp)
    (hpositive : 0 ≤ asOf) :
    stamp + timeframe.duration ≤ asOf ↔ stamp ≤ expectedStart timeframe asOf := by
  obtain ⟨k, rfl⟩ := hgrid
  obtain ⟨d, hd, hduration⟩ : ∃ d : ℤ, 0 < d ∧ timeframe.duration = d * 1000000 := by
    cases timeframe
    exacts [⟨3600, by decide, rfl⟩, ⟨900, by decide, rfl⟩, ⟨300, by decide, rfl⟩]
  have hunit : 0 < d * 1000000 := by positivity
  unfold expectedStart
  rw [Int.tdiv_eq_ediv_of_nonneg hpositive, hduration, Int.mul_ediv_cancel d (by decide)]
  calc d * 1000000 * k + d * 1000000 ≤ asOf ↔ (k + 1) * d * 1000000 ≤ asOf := by
        rw [show d * 1000000 * k + d * 1000000 = (k + 1) * d * 1000000 by ring]
    _ ↔ (k + 1) * d ≤ asOf / 1000000 := (Int.le_ediv_iff_mul_le (by decide)).symm
    _ ↔ k * d ≤ asOf / 1000000 - d := by
        rw [le_sub_iff_add_le, add_mul, one_mul]
    _ ↔ k ≤ (asOf / 1000000 - d) / d := (Int.le_ediv_iff_mul_le hd).symm
    _ ↔ d * 1000000 * k ≤ (asOf / 1000000 - d) / d * d * 1000000 := by
        rw [mul_assoc ((asOf / 1000000 - d) / d), mul_comm _ (d * 1000000)]
        exact (mul_le_mul_iff_right₀ hunit).symm

/-- Within one bucket no bar of the grid ends between two instants. -/
theorem nothingBetween_of_grid {payload : Payload} (hpositive : 0 ≤ asOf) (hpositive' : 0 ≤ asOf')
    (hbucket : expectedStart timeframe asOf' = expectedStart timeframe asOf)
    (hgrid : ∀ item ∈ payload.values.getD [], ∀ stamp, item.stamp = some stamp →
      timeframe.duration ∣ stamp) :
    NothingBetween timeframe payload asOf asOf' := by
  intro item hitem stamp hstamp
  have honGrid := hgrid item hitem stamp hstamp
  rw [closed_iff_expectedStart honGrid hpositive, closed_iff_expectedStart honGrid hpositive',
    hbucket]

/-! ### Runs -/

/-- The entry was built for this bucket. -/
structure Served (ticker symbol : String) (timeframe : Timeframe) (asOf : Instant)
    (entry : Entry) : Prop where
  built : frameOf ticker symbol timeframe entry.asOf entry.payload = .ok entry.frame
  bucket : expectedStart timeframe entry.asOf = expectedStart timeframe asOf

/-- Every frame kept was built for its key. -/
def Sound (p : Provider) : Prop :=
  ∀ key entry, p.cache key = some entry → ∀ ticker assetClass,
    symbols key.symbol = some (ticker, assetClass) →
    frameOf ticker key.symbol key.timeframe entry.asOf entry.payload = .ok entry.frame ∧
      expectedStart key.timeframe entry.asOf = key.expectedStart

theorem Sound.setHealth {p : Provider} (hp : Sound p) (assetClass health : String) :
    Sound (p.setHealth assetClass health) := hp

theorem Sound.barsImpl {p : Provider} (hp : Sound p) {assetClass : String}
    (timeframe : Timeframe) (asOf : Instant) (hsymbol : symbols symbol = some (ticker, assetClass)) (response : Except String Payload) :
    Sound (p.barsImpl ticker symbol timeframe asOf assetClass response).2 ∧
      ∀ entry, (p.barsImpl ticker symbol timeframe asOf assetClass response).1 = .ok entry →
        Served ticker symbol timeframe asOf entry := by
  unfold Provider.barsImpl
  cases hhit : p.cache ⟨symbol, timeframe, expectedStart timeframe asOf⟩ with
  | some entry =>
    simp only [hhit]
    refine ⟨hp, fun e he => ?_⟩
    cases he
    obtain ⟨hbuilt, hbucket⟩ := hp _ _ hhit ticker assetClass hsymbol
    exact ⟨hbuilt, hbucket⟩
  | none =>
    simp only [hhit]
    cases response with
    | error kind => exact ⟨hp, fun e he => nomatch he⟩
    | ok payload =>
      cases hframe : frameOf ticker symbol timeframe asOf payload with
      | error kind =>
        simp only [hframe]
        exact ⟨hp, fun e he => nomatch he⟩
      | ok frame =>
        have hserved : Served ticker symbol timeframe asOf ⟨frame, payload, asOf⟩ := ⟨hframe, rfl⟩
        cases hlatest : frame.getLast? with
        | none =>
          simp only [hframe, hlatest]
          exact ⟨hp.setHealth _ _, fun e he => Except.ok.inj he ▸ hserved⟩
        | some latest =>
          simp only [hframe, hlatest]
          by_cases hfresh : expectedStart timeframe asOf ≤ latest.timestamp
          · simp only [if_pos hfresh]
            refine ⟨?_, fun e he => Except.ok.inj he ▸ hserved⟩
            intro key entry hkept ticker' assetClass' hsymbol'
            have hentry : Function.update p.cache ⟨symbol, timeframe, expectedStart timeframe asOf⟩
              (some ⟨frame, payload, asOf⟩) key = some entry := hkept
            by_cases hkey : key = ⟨symbol, timeframe, expectedStart timeframe asOf⟩
            · subst hkey
              rw [Function.update_self] at hentry
              obtain rfl := Option.some.inj hentry
              obtain ⟨rfl, -⟩ := Prod.mk.inj (Option.some.inj (hsymbol.symm.trans hsymbol'))
              exact ⟨hframe, rfl⟩
            · rw [Function.update_of_ne hkey] at hentry
              exact hp key entry hentry ticker' assetClass' hsymbol'
          · simp only [if_neg hfresh]
            exact ⟨hp.setHealth _ _, fun e he => Except.ok.inj he ▸ hserved⟩

theorem Sound.bars {p : Provider} (hp : Sound p) {assetClass : String}
    (timeframe : Timeframe) (asOf : Instant) (hsymbol : symbols symbol = some (ticker, assetClass)) (response : Except String Payload) :
    Sound (p.bars ticker symbol timeframe asOf assetClass response).2 ∧
      ∀ entry, (p.bars ticker symbol timeframe asOf assetClass response).1 = .ok entry →
        Served ticker symbol timeframe asOf entry := by
  have himpl := hp.barsImpl timeframe asOf hsymbol response
  unfold Provider.bars
  generalize p.barsImpl ticker symbol timeframe asOf assetClass response = r at himpl ⊢
  obtain ⟨result, p'⟩ := r
  cases result with
  | error kind => exact ⟨himpl.1.setHealth _ _, fun e he => nomatch he⟩
  | ok entry => exact himpl

theorem Sound.barsOf {p : Provider} (hp : Sound p) {assetClass : String}
    (asOf : Instant) (hsymbol : symbols symbol = some (ticker, assetClass))
    (responses : Timeframe → Except String Payload) (timeframes : List Timeframe) :
    Sound (Provider.barsOf ticker symbol asOf assetClass responses timeframes p).2 ∧
      ∀ entries, (Provider.barsOf ticker symbol asOf assetClass responses timeframes p).1
        = .ok entries → ∀ timeframe entry, (timeframe, entry) ∈ entries →
          Served ticker symbol timeframe asOf entry := by
  induction timeframes generalizing p with
  | nil =>
    refine ⟨hp, fun entries he timeframe entry hmem => ?_⟩
    cases he
    exact absurd hmem List.not_mem_nil
  | cons first rest ih =>
    have hfirst := hp.bars first asOf hsymbol (responses first)
    unfold Provider.barsOf
    generalize p.bars ticker symbol first asOf assetClass (responses first) = r at hfirst ⊢
    obtain ⟨result, p'⟩ := r
    cases result with
    | error kind => exact ⟨hfirst.1, fun e he => nomatch he⟩
    | ok entry =>
      have hrest := ih hfirst.1
      simp only
      generalize Provider.barsOf ticker symbol asOf assetClass responses rest p' = r at hrest ⊢
      obtain ⟨result', p''⟩ := r
      cases result' with
      | error kind => exact ⟨hrest.1, fun e he => nomatch he⟩
      | ok entries =>
        refine ⟨hrest.1, fun all hall timeframe e hmem => ?_⟩
        cases hall
        cases List.mem_cons.mp hmem with
        | inl hself =>
          obtain ⟨rfl, rfl⟩ := Prod.mk.inj hself
          exact hfirst.2 e rfl
        | inr hlater => exact hrest.2 entries rfl timeframe e hlater

theorem Sound.loadSnapshot {p : Provider} (hp : Sound p) (call : Call) :
    Sound (p.loadSnapshot call).2 ∧
      ∀ entries, (p.loadSnapshot call).1 = .ok entries →
        ∃ ticker assetClass, symbols call.symbol = some (ticker, assetClass) ∧
          ∀ timeframe entry, (timeframe, entry) ∈ entries →
            Served ticker call.symbol timeframe call.asOf entry := by
  unfold Provider.loadSnapshot
  cases hsymbol : symbols call.symbol with
  | none => exact ⟨hp, fun e he => nomatch he⟩
  | some names =>
    obtain ⟨ticker, assetClass⟩ := names
    obtain ⟨hsound, hserved⟩ := hp.barsOf call.asOf hsymbol call.responses TIMEFRAMES
    exact ⟨hsound, fun entries he => ⟨ticker, assetClass, rfl, hserved entries he⟩⟩

theorem sound_after (calls : List Call) : Sound (Provider.after calls) := by
  have hrun : ∀ p, Sound p →
      Sound (calls.foldl (fun p call => (p.loadSnapshot call).2) p) := by
    induction calls with
    | nil => exact fun p hp => hp
    | cons call calls ih => exact fun p hp => ih _ (hp.loadSnapshot call).1
  exact hrun {} (fun _ _ h => nomatch h)

/-- Every frame of every snapshot has increasing starts and valid bars. It is closed at the
`as_of` of its call, and the one an instance without a cache builds, exactly when no bar of its
payload ends between that and the `as_of` it was built for; on the grid it always is. -/
theorem snapshot_exact_iff (calls : List Call) (call : Call) {entries : List (Timeframe × Entry)}
    (h : ((Provider.after calls).loadSnapshot call).1 = .ok entries) {timeframe : Timeframe}
    {entry : Entry} (hmem : (timeframe, entry) ∈ entries) :
    ∃ ticker assetClass, symbols call.symbol = some (ticker, assetClass) ∧
      (entry.frame.map (·.timestamp)).Pairwise (· < ·) ∧ (∀ row ∈ entry.frame, row.Valid) ∧
      (((∀ row ∈ entry.frame, row.timestamp + timeframe.duration ≤ call.asOf) ∧
          frameOf ticker call.symbol timeframe call.asOf entry.payload = .ok entry.frame) ↔
        NothingBetween timeframe entry.payload call.asOf entry.asOf) ∧
      (0 ≤ call.asOf → 0 ≤ entry.asOf → (∀ item ∈ entry.payload.values.getD [], ∀ stamp,
          item.stamp = some stamp → timeframe.duration ∣ stamp) →
        NothingBetween timeframe entry.payload call.asOf entry.asOf) := by
  obtain ⟨ticker, assetClass, hsymbol, hserved⟩ :=
    ((sound_after calls).loadSnapshot call).2 entries h
  have hthis := hserved timeframe entry hmem
  have hbuilt := built_of_frameOf hthis.built
  refine ⟨ticker, assetClass, hsymbol, hbuilt.increasing, hbuilt.valid, exact_iff hthis.built, ?_⟩
  intro hpositive hpositive' hgrid
  exact nothingBetween_of_grid hpositive hpositive' hthis.bucket hgrid

section Runs

private def flat (start : Instant) : Item :=
  ⟨some start, some (.finite 1), some (.finite 1), some (.finite 1), some (.finite 1), none⟩

/-- Five minute bars from the epoch and from `start`; nothing on the other timeframes. -/
private def answers (start : Instant) (timeframe : Timeframe) : Except String Payload :=
  .ok ⟨some "ok", some (some "EUR/USD", some (interval timeframe)),
    some (if timeframe = .m5 then [flat 0, flat start] else [])⟩

/-- A call `seconds` after the epoch. -/
private def callAt (start : Instant) (seconds : ℤ) : Call :=
  ⟨"EURUSD", seconds * 1000000, answers start⟩

private def rowAt (start : Instant) : Row :=
  ⟨start, 1, 1, 1, 1, none, "EURUSD", .m5, "EUR/USD"⟩

/-- At nine minutes, then at six: both bars of the grid, one of them not yet closed. -/
theorem snapshot_exact_iff_on_grid : ∃ entry : Entry,
    ((Provider.after [callAt 300000000 540]).loadSnapshot (callAt 300000000 360)).1.map
      (·.map (fun e => (e.1, e.2.frame))) = .ok [(.h1, []), (.m15, []), (.m5, [rowAt 0])] ∧
    frameOf "EUR/USD" "EURUSD" .m5 360000000 entry.payload = .ok entry.frame ∧
    entry.frame = [rowAt 0] := by
  have hframes : ((Provider.after [callAt 300000000 540]).loadSnapshot
      (callAt 300000000 360)).1.map (·.map (fun e => (e.1, e.2.frame))) =
      .ok [(.h1, []), (.m15, []), (.m5, [rowAt 0])] := by decide +kernel
  have hsources : ((Provider.after [callAt 300000000 540]).loadSnapshot
      (callAt 300000000 360)).1.map (·.map (fun e => (e.2.payload.values, e.2.asOf))) =
      .ok [(some [], 360000000), (some [], 360000000), (some [flat 0, flat 300000000], 540000000)] := by
    decide +kernel
  have hshown := hframes
  cases h : ((Provider.after [callAt 300000000 540]).loadSnapshot (callAt 300000000 360)).1 with
  | error kind =>
    rw [h] at hframes
    cases hframes
  | ok entries =>
    rw [h] at hframes hsources
    match entries with
    | [a, b, (timeframe, entry)] =>
      simp only [Except.map, List.map_cons, List.map_nil, Except.ok.injEq, List.cons.injEq,
        Prod.mk.injEq, and_true] at hframes hsources
      obtain ⟨-, -, rfl, hframe⟩ := hframes
      obtain ⟨-, -, hvalues, hasOf⟩ := hsources
      obtain ⟨ticker, assetClass, hsymbol, -, -, hiff, hgrid⟩ :=
        snapshot_exact_iff [callAt 300000000 540] (callAt 300000000 360) h
          (show (Timeframe.m5, entry) ∈ [a, b, (Timeframe.m5, entry)] by simp)
      have hticker : symbols "EURUSD" = some ("EUR/USD", "FOREX") := rfl
      obtain ⟨rfl, -⟩ := Prod.mk.inj (Option.some.inj (hticker.symm.trans hsymbol))
      have hnothing := hgrid (by decide) (by rw [hasOf]; decide) (by
        rw [hvalues]
        intro item hitem stamp hstamp
        have hall : ∀ i ∈ [flat 0, flat 300000000], ∀ s ∈ i.stamp, Timeframe.m5.duration ∣ s := by
          decide +kernel
        exact hall item hitem stamp hstamp)
      exact ⟨entry, h ▸ hshown, (hiff.mpr hnothing).2, hframe⟩

/-- A bar that starts after three minutes ends after eight. The frame of minute nine has it, and
a call for minute six is served that frame. -/
theorem cached_frame_looks_ahead :
    ((Provider.after [callAt 180000000 540]).loadSnapshot (callAt 180000000 360)).1.map
        (·.map (fun e => (e.1, e.2.frame))) =
      .ok [(.h1, []), (.m15, []), (.m5, [rowAt 0, rowAt 180000000])] ∧
    (rowAt 180000000).end_ = 480000000 ∧ (callAt 180000000 360).asOf = 360000000 ∧
    (Provider.loadSnapshot {} (callAt 180000000 360)).1.map
        (·.map (fun e => (e.1, e.2.frame))) =
      .ok [(.h1, []), (.m15, []), (.m5, [rowAt 0])] :=
  ⟨by decide +kernel, rfl, rfl, by decide +kernel⟩

end Runs

end MarketSystem.TwelveData
