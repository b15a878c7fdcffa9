import Mathlib.Data.Int.Order.Basic
import Mathlib.Tactic.Ring

/-!
# Wall-clock time

Instants and wall-clock times are numbers of microseconds since 1970-01-01 00:00, the
first in UTC, the second as the clocks of a zone show it. A wall-clock time is a day
and a time of the day; weekdays count from Monday.
-/
namespace Library.WallClock

def MINUTE : ℤ := 60000000
def HOUR : ℤ := 3600000000
def DAY : ℤ := 86400000000

/-- `date()`. -/
def date (wall : ℤ) : ℤ := wall / DAY

/-- `time()`. -/
def time (wall : ℤ) : ℤ := wall % DAY

/-- `combine(day, time)`. -/
def combine (day time : ℤ) : ℤ := day * DAY + time

/-- `weekday()`: 1970-01-01 was a Thursday. -/
def weekday (day : ℤ) : ℤ := (day + 3) % 7

theorem combine_date_time (wall : ℤ) : combine (date wall) (time wall) = wall := by
  unfold combine date time DAY
  omega

theorem time_nonneg (wall : ℤ) : 0 ≤ time wall := by
  unfold time DAY
  omega

theorem time_lt (wall : ℤ) : time wall < DAY := by
  unfold time DAY
  omega

theorem date_combine {day time : ℤ} (h0 : 0 ≤ time) (h1 : time < DAY) :
    date (combine day time) = day := by
  unfold date combine DAY at *
  omega

theorem time_combine {day t : ℤ} (h0 : 0 ≤ t) (h1 : t < DAY) : time (combine day t) = t := by
  unfold time combine DAY at *
  omega

/-- A zone as a zone database gives it. -/
structure Zone where
  /-- `utcoffset` at an instant. -/
  offset : ℤ → ℤ
  /-- The second of two instants with one wall-clock time. -/
  fold : ℤ → Bool
  /-- The instant of a wall-clock time and a fold. -/
  utc : ℤ → Bool → ℤ

/-- `astimezone`: what the clocks show at an instant. -/
def Zone.wall (zone : Zone) (at_ : ℤ) : ℤ := at_ + zone.offset at_

end Library.WallClock
