import Mathlib.Data.Char
import Mathlib.Data.List.Lex
import Mathlib.Data.Nat.Find
import Mathlib.Order.Monotone.Basic
import Mathlib.Tactic.IntervalCases
import Mathlib.Tactic.NormNum

/-!
# Times as text

`isoformat` of an instant in UTC: the date of the Gregorian calendar, the time of the day, and its
microseconds where there are any. Every field has its width, so that the order of the texts is the
order of the instants.
-/
namespace Library.IsoTime

/-! ### Fields -/

def digit (d : ℕ) : Char := Char.ofNat (48 + d)

/-- A number with zeros before it. -/
def padded : ℕ → ℕ → List Char
  | 0, _ => []
  | width + 1, n => digit (n / 10 ^ width) :: padded width (n % 10 ^ width)

theorem digit_lt {a b : ℕ} (hab : a < b) (hb : b < 10) : digit a < digit b := by
  interval_cases b <;> interval_cases a <;> decide

/-- A quotient grows, or it stays and the remainder grows. -/
theorem div_lt_or (q : ℕ) {a b : ℕ} (hab : a < b) : a / q < b / q ∨ a / q = b / q ∧ a % q < b % q := by
  have hle : a / q ≤ b / q := Nat.div_le_div_right hab.le
  cases hle.lt_or_eq with
  | inl hlt => exact .inl hlt
  | inr heq =>
    have ha := Nat.div_add_mod a q
    have hb := Nat.div_add_mod b q
    rw [heq] at ha
    exact .inr ⟨heq, by omega⟩

theorem padded_lt {width a b : ℕ} (hab : a < b) (hb : b < 10 ^ width) (u v : List Char) :
    padded width a ++ u < padded width b ++ v := by
  induction width generalizing a b with
  | zero => omega
  | succ width ih =>
    have hpower : 0 < 10 ^ width := Nat.pow_pos (by decide)
    have hquotient : b / 10 ^ width < 10 := by
      rw [Nat.div_lt_iff_lt_mul hpower]
      rwa [pow_succ, mul_comm] at hb
    show digit _ :: (padded width _ ++ u) < digit _ :: (padded width _ ++ v)
    rw [List.cons_lt_cons_iff]
    cases div_lt_or (10 ^ width) hab with
    | inl hlt => exact .inl (digit_lt hlt hquotient)
    | inr hsame => exact .inr ⟨by rw [hsame.1], ih hsame.2 (Nat.mod_lt _ hpower)⟩

/-- A text that begins with a field of a fixed width. -/
theorem field_lt {width a b : ℕ} {u v : List Char} (h : a < b ∨ a = b ∧ u < v)
    (hb : b < 10 ^ width) : padded width a ++ u < padded width b ++ v := by
  cases h with
  | inl hlt => exact padded_lt hlt hb u v
  | inr hsame =>
    obtain ⟨rfl, huv⟩ := hsame
    exact List.append_left_lt huv

theorem separated_lt (c : Char) {u v : List Char} (h : u < v) : c :: u < c :: v :=
  List.cons_lt_cons_iff.mpr (.inr ⟨rfl, h⟩)

/-! ### The calendar -/

/-- The last index that begins at or before a number, when the indices begin at `f`. -/
def indexOf (f : ℕ → ℕ) (last n : ℕ) : ℕ := Nat.findGreatest (fun i => f i ≤ n) last

section Index

variable {f : ℕ → ℕ} {last a b : ℕ}

theorem index_le : indexOf f last a ≤ last := Nat.findGreatest_le last

theorem begins_le (h0 : f 0 = 0) : f (indexOf f last a) ≤ a :=
  @Nat.findGreatest_spec 0 (fun i => f i ≤ a) _ last (Nat.zero_le last) (by simp [h0])

theorem lt_next (hlast : a < f (last + 1)) : a < f (indexOf f last a + 1) := by
  by_cases hend : indexOf f last a = last
  · rw [hend]
    exact hlast
  · have hle : indexOf f last a ≤ last := index_le
    have hnext : indexOf f last a < indexOf f last a + 1 := Nat.lt_succ_self _
    have hreached : indexOf f last a + 1 ≤ last := by omega
    exact not_le.mp (Nat.findGreatest_is_greatest (P := fun i => f i ≤ a) hnext hreached)

theorem index_lt_or (h0 : f 0 = 0) (hab : a < b) :
    indexOf f last a < indexOf f last b ∨ indexOf f last a = indexOf f last b ∧
      a - f (indexOf f last a) < b - f (indexOf f last b) := by
  have hle : indexOf f last a ≤ indexOf f last b :=
    Nat.findGreatest_mono_left (fun _ hi => hi.trans hab.le) last
  cases hle.lt_or_eq with
  | inl hlt => exact .inl hlt
  | inr heq =>
    have hbegin := @begins_le f last a h0
    rw [heq] at hbegin
    exact .inr ⟨heq, by rw [heq]; omega⟩

end Index

/-- The days before a year; the first year is that of index zero. -/
def daysBeforeYear (y : ℕ) : ℕ := 365 * y + y / 4 - y / 100 + y / 400

def isLeap (y : ℕ) : Bool := y % 4 = 3 && (y % 100 ≠ 99 || y % 400 = 399)

/-- The days of a year before a month; January has the index zero. -/
def daysBeforeMonth (leap : Bool) (m : ℕ) : ℕ :=
  [0, 31, 59, 90, 120, 151, 181, 212, 243, 273, 304, 334].getD m 366 +
    if leap && 2 ≤ m && m < 12 then 1 else 0

def lastYear : ℕ := 9998

def yearOf (n : ℕ) : ℕ := indexOf daysBeforeYear lastYear n

def dayOfYear (n : ℕ) : ℕ := n - daysBeforeYear (yearOf n)

def monthOf (leap : Bool) (d : ℕ) : ℕ := indexOf (daysBeforeMonth leap) 11 d

def dayOfMonth (leap : Bool) (d : ℕ) : ℕ := d - daysBeforeMonth leap (monthOf leap d)

/-- The month and the day of a day of the year. -/
def monthText (leap : Bool) (d : ℕ) : List Char :=
  padded 2 (monthOf leap d + 1) ++ '-' :: padded 2 (dayOfMonth leap d + 1)

/-- `date.isoformat`; the days are counted from the first of the first year. -/
def dateText (n : ℕ) : List Char :=
  padded 4 (yearOf n + 1) ++ '-' :: monthText (isLeap (yearOf n)) (dayOfYear n)

theorem year_length (y : ℕ) : daysBeforeYear (y + 1) ≤ daysBeforeYear y + 366 := by
  unfold daysBeforeYear
  omega

theorem month_length (leap : Bool) {m : ℕ} (hm : m ≤ 11) :
    daysBeforeMonth leap (m + 1) ≤ daysBeforeMonth leap m + 32 := by
  cases leap <;> interval_cases m <;> decide

/-- The days a `date` can hold. -/
def DAYS : ℕ := daysBeforeYear (lastYear + 1)

theorem dayOfYear_lt {n : ℕ} (hn : n < DAYS) : dayOfYear n < 366 := by
  have hnext : n < daysBeforeYear (yearOf n + 1) := lt_next hn
  have hlength := year_length (yearOf n)
  unfold dayOfYear
  omega

theorem dayOfMonth_lt (leap : Bool) {d : ℕ} (hd : d < 366) : dayOfMonth leap d < 32 := by
  have hlast : d < daysBeforeMonth leap (11 + 1) := hd.trans_le (by cases leap <;> decide)
  have hnext : d < daysBeforeMonth leap (monthOf leap d + 1) := lt_next hlast
  have hlength : daysBeforeMonth leap (monthOf leap d + 1) ≤
      daysBeforeMonth leap (monthOf leap d) + 32 := month_length leap index_le
  unfold dayOfMonth
  omega

theorem monthText_lt (leap : Bool) {a b : ℕ} (hab : a < b) (hb : b < 366) (u v : List Char) :
    monthText leap a ++ u < monthText leap b ++ v := by
  have hmonth : monthOf leap b ≤ 11 := index_le
  have hday := dayOfMonth_lt leap hb
  have h0 : daysBeforeMonth leap 0 = 0 := by cases leap <;> rfl
  unfold monthText
  rw [List.append_assoc, List.append_assoc]
  refine field_lt ?_ (by norm_num; omega)
  cases @index_lt_or _ 11 a b h0 hab with
  | inl hlt => exact .inl (Nat.succ_lt_succ hlt)
  | inr hsame =>
    refine .inr ⟨congrArg (· + 1) hsame.1, separated_lt '-' ?_⟩
    have hlater : dayOfMonth leap a < dayOfMonth leap b := hsame.2
    exact padded_lt (Nat.succ_lt_succ hlater) (by norm_num; omega) u v

/-- The order of dates, whatever is written after them. -/
theorem dateText_lt {a b : ℕ} (hab : a < b) (hb : b < DAYS) (u v : List Char) :
    dateText a ++ u < dateText b ++ v := by
  have hyear : yearOf b ≤ 9998 := index_le
  unfold dateText
  rw [List.append_assoc, List.append_assoc]
  refine field_lt ?_ (by norm_num; omega)
  cases @index_lt_or daysBeforeYear lastYear a b rfl hab with
  | inl hlt => exact .inl (Nat.succ_lt_succ hlt)
  | inr hsame =>
    have hy : yearOf a = yearOf b := hsame.1
    have hd : dayOfYear a < dayOfYear b := hsame.2
    refine .inr ⟨congrArg (· + 1) hy, separated_lt '-' ?_⟩
    rw [hy]
    exact monthText_lt _ hd (dayOfYear_lt hb) u v

/-! ### The time of the day -/

/-- The microseconds, where there are any, and the offset. -/
def fraction (us : ℕ) : List Char :=
  (if us = 0 then [] else '.' :: padded 6 us) ++ ['+', '0', '0', ':', '0', '0']

/-- The microseconds of a day as hours, minutes, seconds and a fraction. -/
def timeText (us : ℕ) : List Char :=
  padded 2 (us / 3600000000) ++ ':' :: (padded 2 (us % 3600000000 / 60000000) ++
    ':' :: (padded 2 (us % 3600000000 % 60000000 / 1000000) ++
      fraction (us % 3600000000 % 60000000 % 1000000)))

theorem fraction_lt {a b : ℕ} (hab : a < b) (hb : b < 1000000) : fraction a < fraction b := by
  unfold fraction
  rw [if_neg (by omega : b ≠ 0)]
  by_cases ha : a = 0
  · rw [if_pos ha]
    exact List.cons_lt_cons_iff.mpr (.inl (by decide))
  · rw [if_neg ha]
    exact separated_lt '.' (padded_lt hab hb _ _)

theorem timeText_lt {a b : ℕ} (hab : a < b) (hb : b < 86400000000) : timeText a < timeText b := by
  unfold timeText
  refine field_lt ?_ (by norm_num; omega)
  refine (div_lt_or 3600000000 hab).imp_right (fun hours => ⟨hours.1, separated_lt ':' ?_⟩)
  refine field_lt ?_ (by norm_num; omega)
  refine (div_lt_or 60000000 hours.2).imp_right (fun minutes => ⟨minutes.1, separated_lt ':' ?_⟩)
  refine field_lt ?_ (by norm_num; omega)
  refine (div_lt_or 1000000 minutes.2).imp_right (fun seconds => ⟨seconds.1, ?_⟩)
  exact fraction_lt seconds.2 (Nat.mod_lt _ (by decide))

/-! ### Instants -/

/-- The days before 1970. -/
def EPOCH : ℤ := 719162

/-- An instant a `datetime` can hold. -/
def Representable (t : ℤ) : Prop := 0 ≤ t / 86400000000 + EPOCH ∧ t / 86400000000 + EPOCH < DAYS

/-- `astimezone(utc).isoformat()` -/
def utc (t : ℤ) : List Char :=
  dateText (t / 86400000000 + EPOCH).toNat ++ 'T' :: timeText (t % 86400000000).toNat

theorem utc_lt {a b : ℤ} (hab : a < b) (ha : Representable a) (hb : Representable b) :
    utc a < utc b := by
  obtain ⟨ha0, -⟩ := ha
  obtain ⟨hb0, hb1⟩ := hb
  have hle : a / 86400000000 ≤ b / 86400000000 := Int.ediv_le_ediv (by decide) hab.le
  unfold utc
  cases hle.lt_or_eq with
  | inl hlt => exact dateText_lt (by omega) (by omega) _ _
  | inr heq =>
    rw [heq]
    refine List.append_left_lt (separated_lt 'T' ?_)
    exact timeText_lt (by omega) (by omega)

/-- Texts are ordered as the instants are. -/
theorem utc_lt_utc {a b : ℤ} (ha : Representable a) (hb : Representable b) :
    utc a < utc b ↔ a < b := by
  constructor
  · intro h
    by_contra hge
    cases (not_lt.mp hge).lt_or_eq with
    | inl hlt => exact absurd (utc_lt hlt hb ha) (not_lt.mpr h.le)
    | inr heq => exact absurd (congrArg utc heq) h.ne'
  · exact fun h => utc_lt h ha hb

theorem utc_le_utc {a b : ℤ} (ha : Representable a) (hb : Representable b) :
    utc a ≤ utc b ↔ a ≤ b := by
  rw [← not_lt, ← not_lt, utc_lt_utc hb ha]

theorem utc_inj {a b : ℤ} (ha : Representable a) (hb : Representable b) :
    utc a = utc b ↔ a = b := by
  rw [le_antisymm_iff, utc_le_utc ha hb, utc_le_utc hb ha, ← le_antisymm_iff]

example : utc 1709209845500000 = "2024-02-29T12:30:45.500000+00:00".toList := by decide +kernel

end Library.IsoTime
