import MarketSystem.Execution.TradeDuration
import MarketSystem.Library.Loop
import MarketSystem.Library.WallClock

/-!
# The weekend in New York time

From the Friday flatten to the reopening on Sunday 17:00 no entry is allowed. The
boundaries of a hold, the expiry of a limit and the window of the router each search
the calendar for themselves; all of them keep out of that interval.

The zone database is a parameter. Both sides of a comparison are instants here: the
source compares wall-clock times where both sides are in New York, on days on which
the two orders agree.
-/
namespace MarketSystem.WeekendRule

open Library Library.WallClock TradeDuration

def FRIDAY : ℤ := 4
def SUNDAY : ℤ := 6

/-- `NY_CLOSE`. -/
def NY_CLOSE : ℤ := 17 * HOUR

/-- Wall-clock times that New York neither skips nor repeats: its clocks have never been
changed on a Friday or late on a Sunday. -/
def Plain (wall : ℤ) : Prop :=
  weekday (date wall) = FRIDAY ∨ weekday (date wall) = SUNDAY ∧ NY_CLOSE ≤ time wall

/-- `ZoneInfo("America/New_York")`: four to five hours behind UTC. -/
structure NewYork extends Zone where
  behind : ∀ t, -(5 * HOUR) ≤ offset t ∧ offset t ≤ -(4 * HOUR)
  utc_behind : ∀ wall f, wall + 4 * HOUR ≤ utc wall f ∧ utc wall f ≤ wall + 5 * HOUR
  steady : ∀ wall f t, Plain wall → (t < utc wall f ↔ toZone.wall t < wall)

/-- What the module reads from the environment at import. -/
structure Config where
  /-- `FRIDAY_FLATTEN_NY`, in minutes of the day. -/
  flattenMinutes : ℤ := 16 * 60 + 45
  /-- `MAX_HOLD_TRADING_DAYS`. -/
  maxHoldTradingDays : ℕ := 5
  /-- `DAY1_RULE`. -/
  day1Rule : Bool := false
  flatten_range : 13 * 60 ≤ flattenMinutes ∧ flattenMinutes ≤ 16 * 60 + 55 := by norm_num
  hold_range : 1 ≤ maxHoldTradingDays ∧ maxHoldTradingDays ≤ 20 := by norm_num

namespace Config

variable (c : Config)

def fridayFlattenNy : ℤ := c.flattenMinutes * MINUTE

/-- `FRIDAY_FLATTEN_LEAD_MINUTES`. -/
def fridayFlattenLeadMinutes : ℤ := 17 * 60 - c.flattenMinutes

theorem fridayFlattenNy_range :
    13 * HOUR ≤ c.fridayFlattenNy ∧ c.fridayFlattenNy ≤ 17 * HOUR - 5 * MINUTE := by
  have := c.flatten_range
  unfold fridayFlattenNy HOUR MINUTE
  omega

end Config

/-! ## The calendar functions -/

/-- `entries_blocked`. -/
def entriesBlocked (ny : NewYork) (c : Config) (t : Instant) : Bool :=
  let wall := ny.wall t
  let day := date wall
  if weekday day = FRIDAY then decide (combine day c.fridayFlattenNy ≤ wall)
  else decide (weekday day = FRIDAY + 1 ∨ (weekday day = SUNDAY ∧ time wall < NY_CLOSE))

/-- The loop of `friday_flatten_after` and `ny_close_after` leaves at this day. -/
def found (ny : NewYork) (wanted : ℤ → Bool) (tod t day : ℤ) : Bool :=
  wanted day && decide (t < ny.utc (combine day tod) false)

/-- A day that comes every week is found. -/
theorem exists_found (ny : NewYork) {wanted : ℤ → Bool}
    (hweekly : ∀ day, ∃ k, day ≤ k ∧ k < day + 7 ∧ wanted k = true) {tod : ℤ} (htod : 0 ≤ tod)
    (t : ℤ) : ∃ n, found ny wanted tod t ((· + 1)^[n] (date (ny.wall t))) = true := by
  obtain ⟨k, hk, -, hwanted⟩ := hweekly (date (ny.wall t) + 2)
  have hfound : found ny wanted tod t k = true := by
    have hutc := (ny.utc_behind (combine k tod) false).1
    have hbehind := (ny.behind t).1
    have hafter : t < ny.utc (combine k tod) false := by
      unfold Zone.wall date combine DAY HOUR at *
      omega
    simp [found, hwanted, hafter]
  refine exists_stop _ (I := fun day => day ≤ k) (fun day => (k - day).toNat) ?_ (by omega)
  intro day hle hgoes
  have hne : day ≠ k := by
    rintro rfl
    rw [hfound] at hgoes
    cases hgoes
  omega

def isFriday (day : ℤ) : Bool := decide (weekday day = FRIDAY)

def isWeekday (day : ℤ) : Bool := decide (weekday day < 5)

theorem friday_weekly (day : ℤ) : ∃ k, day ≤ k ∧ k < day + 7 ∧ isFriday k = true := by
  refine ⟨day + (4 - weekday day) % 7, ?_⟩
  unfold isFriday weekday FRIDAY
  simp only [decide_eq_true_eq]
  omega

theorem weekday_weekly (day : ℤ) : ∃ k, day ≤ k ∧ k < day + 7 ∧ isWeekday k = true := by
  obtain ⟨k, hle, hlt, hfriday⟩ := friday_weekly day
  refine ⟨k, hle, hlt, ?_⟩
  simp only [isFriday, decide_eq_true_eq] at hfriday
  simp only [isWeekday, hfriday, decide_eq_true_eq]
  decide

theorem Config.fridayFlattenNy_nonneg (c : Config) : 0 ≤ c.fridayFlattenNy := by
  have := c.fridayFlattenNy_range.1
  unfold HOUR at this
  omega

/-- `friday_flatten_after`: the first Friday flatten strictly after an instant. -/
def fridayFlattenAfter (ny : NewYork) (c : Config) (t : Instant) : Instant :=
  ny.utc (combine (loopUntil (· + 1) (found ny isFriday c.fridayFlattenNy t) (date (ny.wall t))
    (exists_found ny friday_weekly c.fridayFlattenNy_nonneg t)) c.fridayFlattenNy) false

/-- `ny_close_after`: the first weekday 17:00 strictly after an instant. -/
def nyCloseAfter (ny : NewYork) (t : Instant) : Instant :=
  ny.utc (combine (loopUntil (· + 1) (found ny isWeekday NY_CLOSE t) (date (ny.wall t))
    (exists_found ny weekday_weekly (by decide) t)) NY_CLOSE) false

/-- One round of `add_trading_days`. -/
def countDay (s : ℤ × ℕ) : ℤ × ℕ :=
  (s.1 + 1, if weekday (s.1 + 1) < 5 then s.2 + 1 else s.2)

theorem exists_counted (days : ℕ) (start : ℤ) :
    ∃ n, decide (days ≤ (countDay^[n] (start, 0)).2) = true := by
  -- three rounds a day are enough, and a weekend takes away the rounds it needs
  refine exists_stop (fun s => decide (days ≤ s.2)) (I := fun _ => True)
    (fun s : ℤ × ℕ =>
      3 * (days - s.2) + (if weekday s.1 = 4 then 3 else if weekday s.1 = 5 then 2 else 1))
    ?_ trivial
  rintro ⟨day, counted⟩ - hgoes
  simp only [decide_eq_false_iff_not, not_le] at hgoes
  refine ⟨trivial, ?_⟩
  unfold countDay weekday
  dsimp only
  split_ifs <;> omega

/-- `add_trading_days`. -/
def addTradingDays (ny : NewYork) (days : ℕ) (t : Instant) : Instant :=
  let wall := ny.wall t
  let result := loopUntil countDay (fun s => decide (days ≤ s.2)) (date wall, 0)
    (exists_counted days (date wall))
  ny.utc (combine result.1 (time wall)) (ny.fold t)

/-- The calendar that the trade-duration rule asks. -/
def NewYork.calendar (ny : NewYork) (c : Config) : Calendar where
  entriesBlocked := entriesBlocked ny c
  fridayFlattenAfter := fridayFlattenAfter ny c
  addTradingDays := addTradingDays ny c.maxHoldTradingDays
  nyCloseAfter := nyCloseAfter ny
  day1Rule := c.day1Rule

/-- `LIMIT_TTL`. -/
def LIMIT_TTL : Instant := 24 * HOUR

/-- `limit_expiry`: 24 hours, capped by the next Friday flatten. -/
def limitExpiry (ny : NewYork) (c : Config) (submitted : Instant) : Instant :=
  let horizon := submitted + LIMIT_TTL
  if entriesBlocked ny c submitted then submitted
  else
    let cap := fridayFlattenAfter ny c submitted
    if horizon ≤ cap then horizon else cap

inductive Window
  | open
  | preflatten
  | closed
  deriving DecidableEq, Repr

def MIN_MINUTES : ℤ := 5
def MAX_MINUTES : ℤ := 240

/-- `friday_window`. -/
def fridayWindow (ny : NewYork) (now : Instant) (minutes : ℤ) : Except String Window :=
  if ¬ (MIN_MINUTES ≤ minutes ∧ minutes ≤ MAX_MINUTES) then
    .error "minutes must be an int in [5, 240]"
  else
    let wall := ny.wall now
    let day := date wall
    if weekday day = FRIDAY then
      let close := combine day NY_CLOSE
      if close ≤ wall then .ok .closed
      else if close - minutes * MINUTE ≤ wall then .ok .preflatten
      else .ok .open
    else if weekday day = FRIDAY + 1 ∨ (weekday day = SUNDAY ∧ time wall < NY_CLOSE) then
      .ok .closed
    else .ok .open

/-! ## Weeks -/

/-- The reopening that begins week `k`. -/
def sundayOpen (k : ℤ) : ℤ := combine (7 * k + 3) NY_CLOSE

/-- The flatten that ends week `k`. -/
def fridayFlatten (c : Config) (k : ℤ) : ℤ := combine (7 * k + 8) c.fridayFlattenNy

theorem plain_sundayOpen (k : ℤ) : Plain (sundayOpen k) := by
  refine .inr ⟨?_, ?_⟩
  · rw [sundayOpen, date_combine (by decide) (by decide)]
    unfold weekday SUNDAY
    omega
  · rw [sundayOpen, time_combine (by decide) (by decide)]

section Weeks

variable (ny : NewYork) (c : Config)

theorem fridayFlattenNy_lt_day : c.fridayFlattenNy < DAY := by
  have := c.fridayFlattenNy_range.2
  unfold HOUR MINUTE at this
  unfold DAY
  omega

theorem plain_friday {day tod : ℤ} (hday : weekday day = FRIDAY) (h0 : 0 ≤ tod)
    (h1 : tod < DAY) : Plain (combine day tod) := by
  refine .inl ?_
  rw [date_combine h0 h1]
  exact hday

theorem weekday_friday (k : ℤ) : weekday (7 * k + 8) = FRIDAY := by
  unfold weekday FRIDAY
  omega

theorem plain_fridayFlatten (k : ℤ) : Plain (fridayFlatten c k) :=
  plain_friday (weekday_friday k) c.fridayFlattenNy_nonneg (fridayFlattenNy_lt_day c)

/-- What the clocks show outside the weekend lies in one week. -/
theorem entriesBlocked_eq_false {t : ℤ} : entriesBlocked ny c t = false ↔
    ∃ k, sundayOpen k ≤ ny.wall t ∧ ny.wall t < fridayFlatten c k := by
  have hrange := c.fridayFlattenNy_range
  have hwall := combine_date_time (ny.wall t)
  have h0 := time_nonneg (ny.wall t)
  have h1 := time_lt (ny.wall t)
  unfold entriesBlocked sundayOpen fridayFlatten
  dsimp only
  generalize ny.wall t = wall at *
  generalize date wall = day at *
  generalize time wall = tod at *
  generalize c.fridayFlattenNy = flatten at *
  unfold combine weekday FRIDAY SUNDAY NY_CLOSE HOUR MINUTE DAY at *
  constructor
  · intro h
    refine ⟨(day - 3) / 7, ?_⟩
    split_ifs at h with hday
    · simp only [decide_eq_false_iff_not] at h
      omega
    · simp only [decide_eq_false_iff_not] at h
      omega
  · rintro ⟨k, hopen, hflatten⟩
    split_ifs with hday
    · simp only [decide_eq_false_iff_not]
      omega
    · simp only [decide_eq_false_iff_not]
      omega

variable {t : ℤ} {k : ℤ}

/-- Nothing from a moment of the week up to its flatten is blocked. -/
theorem not_blocked_until (hopen : sundayOpen k ≤ ny.wall t) {s : ℤ} (hts : t ≤ s)
    (hs : s < ny.utc (fridayFlatten c k) false) : entriesBlocked ny c s = false := by
  refine (entriesBlocked_eq_false ny c).mpr ⟨k, ?_, (ny.steady _ _ s (plain_fridayFlatten c k)).mp hs⟩
  by_contra hbefore
  have hs' := (ny.steady _ false s (plain_sundayOpen k)).mpr (not_le.mp hbefore)
  have ht := (ny.steady _ false t (plain_sundayOpen k)).mp (lt_of_le_of_lt hts hs')
  omega

/-- In week `k` the search for the flatten ends with the Friday of that week. -/
theorem fridayFlattenAfter_eq (hopen : sundayOpen k ≤ ny.wall t)
    (hflatten : ny.wall t < fridayFlatten c k) :
    fridayFlattenAfter ny c t = ny.utc (fridayFlatten c k) false := by
  have hfound : found ny isFriday c.fridayFlattenNy t (7 * k + 8) = true := by
    have hafter : t < ny.utc (combine (7 * k + 8) c.fridayFlattenNy) false :=
      (ny.steady _ false t (plain_fridayFlatten c k)).mpr hflatten
    simp [found, isFriday, weekday_friday, hafter]
  have hexists := exists_found ny friday_weekly c.fridayFlattenNy_nonneg t
  have hstop := stop_loopUntil _ hexists
  have hwithin : date (ny.wall t) ≤ _ ∧ _ ≤ 7 * k + 8 :=
    loopUntil_induction _ (I := fun day => date (ny.wall t) ≤ day ∧ day ≤ 7 * k + 8)
      (fun day hday hgoes => by
        have hne : day ≠ 7 * k + 8 := by
          rintro rfl
          rw [hfound] at hgoes
          cases hgoes
        omega)
      (by
        have := c.fridayFlattenNy_range.2
        unfold fridayFlatten combine at hflatten
        unfold date DAY HOUR MINUTE at *
        omega) hexists
  unfold fridayFlattenAfter
  generalize loopUntil (· + 1) (found ny isFriday c.fridayFlattenNy t) (date (ny.wall t)) hexists =
    day at hstop hwithin ⊢
  have hfriday : weekday day = FRIDAY := by
    simp only [found, isFriday, Bool.and_eq_true, decide_eq_true_eq] at hstop
    exact hstop.1
  have hday : day = 7 * k + 8 := by
    unfold weekday FRIDAY at hfriday
    unfold sundayOpen combine at hopen
    unfold date DAY NY_CLOSE HOUR at *
    omega
  rw [hday]
  rfl

/-- The weekdays up to a day, from some day on. -/
def weekdays (day : ℤ) : ℤ := 5 * ((day + 3) / 7) + min (weekday day + 1) 5

/-- `add_trading_days` ends on the weekday with that many weekdays passed, at the same time. -/
theorem addTradingDays_eq {days : ℕ} (hdays : 1 ≤ days) :
    ∃ day, date (ny.wall t) < day ∧ weekday day < 5 ∧
      weekdays day = weekdays (date (ny.wall t)) + days ∧
      addTradingDays ny days t = ny.utc (combine day (time (ny.wall t))) (ny.fold t) := by
  have hexists := exists_counted days (date (ny.wall t))
  have hstop := stop_loopUntil (fun s : ℤ × ℕ => decide (days ≤ s.2)) hexists
  have hinv := loopUntil_induction (fun s : ℤ × ℕ => decide (days ≤ s.2))
    (I := fun s : ℤ × ℕ => weekdays s.1 = weekdays (date (ny.wall t)) + s.2 ∧ s.2 ≤ days ∧
      (s.2 = 0 ∨ date (ny.wall t) < s.1) ∧ (s.2 = days → weekday s.1 < 5))
    (s := (date (ny.wall t), 0)) ?_ ?_ hexists
  · obtain ⟨hcount, hle, hlater, hweekday⟩ := hinv
    simp only [decide_eq_true_eq] at hstop
    refine ⟨_, ?_, hweekday (by omega), ?_, rfl⟩
    · omega
    · rw [hcount]
      omega
  · rintro ⟨day, counted⟩ ⟨hcount, hle, hlater, -⟩ hgoes
    simp only [decide_eq_false_iff_not, not_le] at hgoes
    unfold countDay weekdays weekday at *
    dsimp only at *
    split_ifs with hwd
    · refine ⟨?_, ?_, ?_, ?_⟩ <;> omega
    · refine ⟨?_, ?_, ?_, ?_⟩ <;> omega
  · refine ⟨by simp, by omega, .inl rfl, ?_⟩
    intro h
    omega

/-- The clocks of a Friday lie where they were put. -/
theorem le_wall_utc {wall : ℤ} (hplain : Plain wall) (f : Bool) : wall ≤ ny.wall (ny.utc wall f) := by
  by_contra h
  exact lt_irrefl _ ((ny.steady wall f _ hplain).mpr (not_le.mp h))

/-- Some trading days later is later, whatever the clocks did in between. -/
theorem lt_addTradingDays {days : ℕ} (hdays : 1 ≤ days) (t : ℤ) : t < addTradingDays ny days t := by
  obtain ⟨day, hday, -, -, he⟩ := addTradingDays_eq ny (t := t) hdays
  have hutc := (ny.utc_behind (combine day (time (ny.wall t))) (ny.fold t)).1
  have hbehind := (ny.behind t).1
  have hsplit := combine_date_time (ny.wall t)
  have hwall : ny.wall t = t + ny.offset t := rfl
  have hlater : date (ny.wall t) + 1 ≤ day := hday
  rw [he]
  unfold combine DAY HOUR at *
  omega

/-- The fifth trading day ends after the flatten of its week. -/
theorem flatten_le_five_days (hopen : sundayOpen k ≤ ny.wall t) :
    ny.utc (fridayFlatten c k) false ≤ addTradingDays ny 5 t := by
  obtain ⟨day, -, hweekday, hcount, he⟩ := addTradingDays_eq ny (t := t) (show 1 ≤ 5 by omega)
  have hrange := c.fridayFlattenNy_range
  have hsplit := combine_date_time (ny.wall t)
  have h0 := time_nonneg (ny.wall t)
  have h1 := time_lt (ny.wall t)
  rw [he]
  by_cases hsunday : date (ny.wall t) = 7 * k + 3
  · -- from a Sunday evening the count ends on the Friday evening, after the flatten
    have hday : day = 7 * k + 8 := by
      rw [hsunday] at hcount
      unfold weekdays weekday at *
      omega
    have hplain : Plain (combine day (time (ny.wall t))) :=
      plain_friday (hday ▸ weekday_friday k) h0 h1
    have hevening : fridayFlatten c k ≤ combine day (time (ny.wall t)) := by
      rw [hsunday] at hsplit
      rw [hday]
      unfold sundayOpen fridayFlatten combine NY_CLOSE HOUR MINUTE DAY at *
      omega
    by_contra hbefore
    have hwall := (ny.steady _ false _ (plain_fridayFlatten c k)).mp (not_le.mp hbefore)
    have := le_wall_utc ny hplain (ny.fold t)
    omega
  · -- from a weekday it ends on the same weekday, more than two days after the flatten
    have hday : 7 * k + 11 ≤ day := by
      have hdate : 7 * k + 4 ≤ date (ny.wall t) := by
        unfold sundayOpen combine NY_CLOSE HOUR DAY at *
        omega
      unfold weekdays weekday at *
      omega
    have hutc := (ny.utc_behind (fridayFlatten c k) false).2
    have hutc' := (ny.utc_behind (combine day (time (ny.wall t))) (ny.fold t)).1
    unfold fridayFlatten combine HOUR MINUTE DAY at *
    omega

end Weeks

/-- The windows of the router and the rule agree. -/
theorem fridayWindow_default (ny : NewYork) (c : Config) (t : Instant) :
    ∃ window, fridayWindow ny t c.fridayFlattenLeadMinutes = .ok window ∧
      (entriesBlocked ny c t = true ↔ window ≠ .open) := by
  have hrange := c.flatten_range
  have hminutes : MIN_MINUTES ≤ c.fridayFlattenLeadMinutes ∧
      c.fridayFlattenLeadMinutes ≤ MAX_MINUTES := by
    unfold MIN_MINUTES MAX_MINUTES Config.fridayFlattenLeadMinutes
    omega
  have hsame : ∀ day, combine day NY_CLOSE - c.fridayFlattenLeadMinutes * MINUTE =
      combine day c.fridayFlattenNy := by
    intro day
    unfold combine NY_CLOSE Config.fridayFlattenLeadMinutes Config.fridayFlattenNy HOUR MINUTE
    omega
  have horder : ∀ day, combine day c.fridayFlattenNy ≤ combine day NY_CLOSE := by
    intro day
    unfold combine NY_CLOSE Config.fridayFlattenNy HOUR MINUTE
    omega
  unfold fridayWindow entriesBlocked
  rw [if_neg (not_not.mpr hminutes)]
  dsimp only
  rw [hsame]
  by_cases hfriday : weekday (date (ny.wall t)) = FRIDAY
  · simp only [if_pos hfriday, decide_eq_true_eq]
    by_cases hclose : combine (date (ny.wall t)) NY_CLOSE ≤ ny.wall t
    · rw [if_pos hclose]
      exact ⟨.closed, rfl, by simp [(horder _).trans hclose]⟩
    · rw [if_neg hclose]
      by_cases hflatten : combine (date (ny.wall t)) c.fridayFlattenNy ≤ ny.wall t
      · rw [if_pos hflatten]
        exact ⟨.preflatten, rfl, by simp [hflatten]⟩
      · rw [if_neg hflatten]
        exact ⟨.open, rfl, by simp [hflatten]⟩
  · simp only [if_neg hfriday, decide_eq_true_eq]
    by_cases hweekend : weekday (date (ny.wall t)) = FRIDAY + 1 ∨
        (weekday (date (ny.wall t)) = SUNDAY ∧ time (ny.wall t) < NY_CLOSE)
    · rw [if_pos hweekend]
      exact ⟨.closed, rfl, by simp [hweekend]⟩
    · rw [if_neg hweekend]
      exact ⟨.open, rfl, by simp [hweekend]⟩

/-- Nothing from `t` up to `b` is blocked. -/
def Clear (ny : NewYork) (c : Config) (t b : Instant) : Prop :=
  ∀ s, t ≤ s → s < b → entriesBlocked ny c s = false

/-- The boundary of a hold that begins in week `k` is no later than the flatten of the week. -/
theorem holdBoundary_of_week (ny : NewYork) (c : Config) {t k : ℤ}
    (hopen : sundayOpen k ≤ ny.wall t) (hflatten : ny.wall t < fridayFlatten c k) :
    t < (holdBoundary (ny.calendar c) t).1 ∧ Clear ny c t (holdBoundary (ny.calendar c) t).1 := by
  have hfree := (entriesBlocked_eq_false ny c).mpr ⟨k, hopen, hflatten⟩
  have hfriday := fridayFlattenAfter_eq ny c hopen hflatten
  have hclear : Clear ny c t (ny.utc (fridayFlatten c k) false) :=
    fun s hts hs => not_blocked_until ny c hopen hts hs
  have hlater := lt_addTradingDays ny c.hold_range.1 t
  unfold holdBoundary NewYork.calendar
  simp only [hfree, hfriday, Bool.false_eq_true, if_false]
  by_cases hle : ny.utc (fridayFlatten c k) false ≤ addTradingDays ny c.maxHoldTradingDays t
  · rw [if_pos hle]
    exact ⟨(ny.steady _ _ t (plain_fridayFlatten c k)).mpr hflatten, hclear⟩
  · rw [if_neg hle]
    exact ⟨hlater, fun s hts hs => hclear s hts (hs.trans (not_le.mp hle))⟩

theorem holdBoundary_of_blocked (ny : NewYork) (c : Config) {t : Instant}
    (h : entriesBlocked ny c t = true) : holdBoundary (ny.calendar c) t = (t, closeFriday) := by
  unfold holdBoundary NewYork.calendar
  rw [if_pos h]

/-- With five trading days the Friday ends every hold. -/
theorem holdBoundary_five_days (ny : NewYork) {c : Config} (hfive : c.maxHoldTradingDays = 5)
    (t : Instant) : (holdBoundary (ny.calendar c) t).2 = closeFriday := by
  cases hblocked : entriesBlocked ny c t with
  | true => rw [holdBoundary_of_blocked ny c hblocked]
  | false =>
    obtain ⟨k, hopen, hflatten⟩ := (entriesBlocked_eq_false ny c).mp hblocked
    have hle := flatten_le_five_days ny c hopen
    unfold holdBoundary NewYork.calendar
    simp only [hblocked, fridayFlattenAfter_eq ny c hopen hflatten, hfive, Bool.false_eq_true,
      if_false]
    rw [if_pos hle]

theorem limitExpiry_clear (ny : NewYork) (c : Config) (t : Instant) :
    limitExpiry ny c t ≤ t + 24 * HOUR ∧ Clear ny c t (limitExpiry ny c t) := by
  unfold limitExpiry
  dsimp only
  cases hblocked : entriesBlocked ny c t with
  | true =>
    rw [if_pos rfl]
    refine ⟨by unfold HOUR; simp, fun s hts hs => ?_⟩
    exact absurd hs (not_lt.mpr hts)
  | false =>
    obtain ⟨k, hopen, hflatten⟩ := (entriesBlocked_eq_false ny c).mp hblocked
    have hclear : Clear ny c t (fridayFlattenAfter ny c t) := by
      rw [fridayFlattenAfter_eq ny c hopen hflatten]
      exact fun s hts hs => not_blocked_until ny c hopen hts hs
    rw [if_neg Bool.false_ne_true]
    by_cases hle : t + LIMIT_TTL ≤ fridayFlattenAfter ny c t
    · rw [if_pos hle]
      exact ⟨le_rfl, fun s hts hs => hclear s hts (hs.trans_le hle)⟩
    · rw [if_neg hle]
      exact ⟨(not_le.mp hle).le, hclear⟩

/-- A hold ends at once exactly in the weekend, and otherwise later, at a moment up to which
nothing is blocked; so does a limit, after 24 hours at most. With five trading days it is the
Friday that ends a hold. The router is closed exactly when entries are blocked. -/
theorem weekend_never_crossed (ny : NewYork) (c : Config) (t : Instant) :
    ((holdBoundary (ny.calendar c) t).1 = t ↔ entriesBlocked ny c t = true) ∧
    (entriesBlocked ny c t = false → t < (holdBoundary (ny.calendar c) t).1 ∧
      Clear ny c t (holdBoundary (ny.calendar c) t).1) ∧
    (c.maxHoldTradingDays = 5 → (holdBoundary (ny.calendar c) t).2 = closeFriday) ∧
    limitExpiry ny c t ≤ t + 24 * HOUR ∧ Clear ny c t (limitExpiry ny c t) ∧
    ∃ window, fridayWindow ny t c.fridayFlattenLeadMinutes = .ok window ∧
      (entriesBlocked ny c t = true ↔ window ≠ .open) := by
  have hlater : entriesBlocked ny c t = false → t < (holdBoundary (ny.calendar c) t).1 ∧
      Clear ny c t (holdBoundary (ny.calendar c) t).1 := by
    intro hblocked
    obtain ⟨k, hopen, hflatten⟩ := (entriesBlocked_eq_false ny c).mp hblocked
    exact holdBoundary_of_week ny c hopen hflatten
  refine ⟨⟨fun hself => ?_, fun hblocked => ?_⟩, hlater,
    fun hfive => holdBoundary_five_days ny hfive t, (limitExpiry_clear ny c t).1,
    (limitExpiry_clear ny c t).2, fridayWindow_default ny c t⟩
  · by_contra hfree
    have := (hlater (by simpa using hfree)).1
    rw [hself] at this
    exact lt_irrefl _ this
  · rw [holdBoundary_of_blocked ny c hblocked]

/-! ## New York in 2026 -/

/-- 2026-03-08 02:00 EST and 2026-11-01 02:00 EDT, as instants. -/
def springForward : ℤ := combine 20520 (7 * HOUR)
def fallBack : ℤ := combine 20758 (6 * HOUR)

/-- The clocks of New York from November 2025 to March 2027. -/
def newYork2026 : NewYork where
  offset t := if springForward ≤ t ∧ t < fallBack then -(4 * HOUR) else -(5 * HOUR)
  fold t := decide (fallBack ≤ t ∧ t < fallBack + HOUR)
  utc wall f :=
    if wall < springForward - 5 * HOUR then wall + 5 * HOUR
    else if wall < springForward - 4 * HOUR then (if f then wall + 4 * HOUR else wall + 5 * HOUR)
    else if wall < fallBack - 5 * HOUR then wall + 4 * HOUR
    else if wall < fallBack - 4 * HOUR then (if f then wall + 5 * HOUR else wall + 4 * HOUR)
    else wall + 5 * HOUR
  behind t := by
    unfold HOUR
    split_ifs <;> omega
  utc_behind wall f := by
    unfold HOUR
    split_ifs <;> omega
  steady wall f t hplain := by
    unfold Plain Zone.wall weekday date time NY_CLOSE FRIDAY SUNDAY springForward fallBack combine
      HOUR DAY at *
    dsimp only
    split_ifs <;> omega

/-- Monday 2026-03-02 12:00 UTC: the limit of that day expires a day later, and the hold ends on
Friday 16:45, which is 21:45 UTC. -/
example : entriesBlocked newYork2026 {} (combine 20514 (12 * HOUR)) = false ∧
    entriesBlocked newYork2026 {} (combine 20518 (21 * HOUR + 45 * MINUTE)) = true := by
  decide

end MarketSystem.WeekendRule
