import MarketSystem.Execution.DailyLossLimit
import MarketSystem.Execution.WeekendRule
import Mathlib.Data.Int.LeastGreatest

/-!
# The days of the daily summary

A trading day ends at 17:00 in New York and has the date of its end. Its window begins where the
one before ends, so the windows tile the time whatever the length of a day.
-/
namespace MarketSystem.DailySummary

open Library.WallClock (combine weekday HOUR DAY)
open DailyLossLimit (dayKey)
open WeekendRule (NewYork NY_CLOSE)

def maxCatchUp : ℕ := 5

variable (zone : NewYork)

/-- `trading_day` -/
def tradingDay (at_ : Instant) : ℤ := dayKey zone.offset at_

/-- `summary_day`: a Saturday or a Sunday goes back to the Friday. -/
def summaryDay (at_ : Instant) : ℤ :=
  let day := tradingDay zone at_
  if 5 ≤ weekday day then day - (weekday day - 4) else day

/-- The days after one up to another. -/
def daysAfter (day latest : ℤ) : List ℤ :=
  (List.range (latest - day).toNat).map (fun (n : ℕ) => day + 1 + (n : ℤ))

/-- `pending_summary_days` -/
def pendingSummaryDays (lastSent : Option ℤ) (at_ : Instant) : List ℤ :=
  let latest := summaryDay zone at_
  match lastSent with
  | none => [latest]
  | some day =>
    let days := (daysAfter day latest).filter (fun d => decide (weekday d < 5))
    days.drop (days.length - maxCatchUp)

/-- 17:00 in New York. -/
def instant (day : ℤ) : Instant := zone.utc (combine day NY_CLOSE) false

/-- `summary_window`, its two bounds. -/
def summaryWindow (day : ℤ) : Instant × Instant := (instant zone (day - 1), instant zone day)

/-! ### The pending days -/

section Pending

variable {zone} {lastSent : Option ℤ} {at_ : Instant} {d : ℤ}

theorem weekday_summaryDay : weekday (summaryDay zone at_) < 5 := by
  unfold summaryDay
  by_cases hweekend : 5 ≤ weekday (tradingDay zone at_)
  · rw [if_pos hweekend]
    unfold weekday at *
    omega
  · rw [if_neg hweekend]
    omega

theorem mem_daysAfter {day latest : ℤ} (h : d ∈ daysAfter day latest) : day < d := by
  obtain ⟨n, -, rfl⟩ := List.mem_map.mp h
  omega

theorem daysAfter_increasing (day latest : ℤ) : (daysAfter day latest).Pairwise (· < ·) := by
  unfold daysAfter
  rw [List.pairwise_map]
  exact List.pairwise_lt_range.imp (fun hlt => by omega)

/-- Every pending day is a weekday after the last one. -/
theorem mem_pending (h : d ∈ pendingSummaryDays zone lastSent at_) :
    weekday d < 5 ∧ ∀ last, lastSent = some last → last < d := by
  unfold pendingSummaryDays at h
  cases lastSent with
  | none =>
    obtain rfl := List.mem_singleton.mp h
    exact ⟨weekday_summaryDay, fun last hlast => by cases hlast⟩
  | some day =>
    obtain ⟨hafter, hweekday⟩ := List.mem_filter.mp (List.mem_of_mem_drop h)
    refine ⟨of_decide_eq_true hweekday, fun last hlast => ?_⟩
    obtain rfl := Option.some.inj hlast
    exact mem_daysAfter hafter

theorem pending_increasing : (pendingSummaryDays zone lastSent at_).Pairwise (· < ·) := by
  unfold pendingSummaryDays
  cases lastSent with
  | none => exact List.pairwise_singleton _ _
  | some day => exact ((daysAfter_increasing _ _).filter _).sublist (List.drop_sublist _ _)

end Pending

/-! ### The windows -/

section Windows


/-- A day has 23, 24 or 25 hours. -/
theorem day_length (day : ℤ) :
    23 * HOUR ≤ instant zone (day + 1) - instant zone day ∧
      instant zone (day + 1) - instant zone day ≤ 25 * HOUR := by
  obtain ⟨hlow, hhigh⟩ := zone.utc_behind (combine day NY_CLOSE) false
  obtain ⟨hlow', hhigh'⟩ := zone.utc_behind (combine (day + 1) NY_CLOSE) false
  have hnext : combine (day + 1) NY_CLOSE = combine day NY_CLOSE + DAY := by
    unfold combine
    ring
  unfold instant
  rw [hnext] at hlow' hhigh' ⊢
  unfold DAY HOUR at *
  constructor <;> linarith

theorem instant_add (day : ℤ) (n : ℕ) : instant zone day + n ≤ instant zone (day + n) := by
  induction n with
  | zero => simp
  | succ n ih =>
    obtain ⟨hlow, -⟩ := day_length zone (day + n)
    have hstep : day + ((n + 1 : ℕ) : ℤ) = day + n + 1 := by
      push_cast
      ring
    have hhour : (1 : ℤ) ≤ 23 * HOUR := by decide
    rw [hstep]
    push_cast
    linarith

theorem instant_strictMono : StrictMono (instant zone) := by
  intro a b hab
  have hgap := instant_add zone a (b - a).toNat
  have htarget : a + ((b - a).toNat : ℤ) = b := by omega
  rw [htarget] at hgap
  have hpositive : (0 : ℤ) < ((b - a).toNat : ℤ) := by omega
  linarith

theorem windows_disjoint {a b : ℤ} (hab : a < b) :
    (summaryWindow zone a).2 ≤ (summaryWindow zone b).1 :=
  (instant_strictMono zone).monotone (Int.le_sub_one_of_lt hab)

/-- Every instant is in exactly one window. -/
theorem windows_tile (t : Instant) :
    ∃! day, (summaryWindow zone day).1 ≤ t ∧ t < (summaryWindow zone day).2 := by
  have hbounded : ∃ b, ∀ z, (summaryWindow zone z).1 ≤ t → z ≤ b := by
    obtain ⟨gap, hgap⟩ : ∃ gap : ℤ, t - instant zone 0 = gap := ⟨_, rfl⟩
    refine ⟨gap.toNat + 1, fun z hz => ?_⟩
    by_contra hlate
    have hfar := instant_add zone 0 (z - 1).toNat
    have htarget : 0 + ((z - 1).toNat : ℤ) = z - 1 := by omega
    rw [htarget] at hfar
    change instant zone (z - 1) ≤ t at hz
    have hlong : gap < z - 1 := by omega
    linarith
  have hinhabited : ∃ z, (summaryWindow zone z).1 ≤ t := by
    have hfar := instant_add zone (-((instant zone 0 - t).toNat : ℤ))
      (instant zone 0 - t).toNat
    refine ⟨-((instant zone 0 - t).toNat : ℤ) + 1, ?_⟩
    rw [neg_add_cancel] at hfar
    show instant zone (-((instant zone 0 - t).toNat : ℤ) + 1 - 1) ≤ t
    rw [add_sub_cancel_right]
    have hlong : instant zone 0 - t ≤ ((instant zone 0 - t).toNat : ℤ) := Int.self_le_toNat _
    linarith
  obtain ⟨day, hday, hlast⟩ := Int.exists_greatest_of_bdd hbounded hinhabited
  refine ⟨day, ⟨hday, ?_⟩, ?_⟩
  · by_contra hafter
    have hnext : (summaryWindow zone (day + 1)).1 ≤ t := by
      show instant zone (day + 1 - 1) ≤ t
      rw [add_sub_cancel_right]
      exact not_lt.mp hafter
    exact absurd (hlast (day + 1) hnext) (by omega)
  · rintro other ⟨hother, hbefore⟩
    refine le_antisymm (hlast other hother) ?_
    by_contra hearlier
    have hdisjoint := windows_disjoint zone (not_le.mp hearlier)
    exact absurd (hdisjoint.trans hday) (not_le.mpr hbefore)

end Windows

end MarketSystem.DailySummary
