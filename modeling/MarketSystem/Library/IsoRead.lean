import MarketSystem.Library.IsoTime

/-!
# Reading times

The reader of the extended format: a date, a time of the day with microseconds or without, and an
offset where there is one. It reads every text that `isoformat` writes.
-/
namespace Library.IsoTime

/-- A `datetime`: what the clock on the wall shows, and how far it is ahead of UTC. A naive one has
no offset. -/
structure Stamp where
  wall : ℤ
  offset : Option ℤ
  representable : Representable wall
  bounded : ∀ o ∈ offset, -86400000000 < o ∧ o < 86400000000
  deriving DecidableEq

namespace Stamp

/-- The instant, where the wall is that of UTC unless an offset says otherwise. -/
def instant (s : Stamp) : ℤ := s.wall - s.offset.getD 0

/-- `date()`, as the days from the first of the first year. -/
def day (s : Stamp) : ℕ := (s.wall / 86400000000 + EPOCH).toNat

/-- `parsed if parsed.tzinfo else parsed.replace(tzinfo=timezone.utc)` -/
def aware (s : Stamp) : Stamp :=
  { s with
    offset := some (s.offset.getD 0)
    bounded := by
      intro o ho
      obtain rfl := Option.some.inj ho
      cases h : s.offset with
      | none => exact ⟨by decide, by decide⟩
      | some o => exact s.bounded o h }

@[simp] theorem aware_instant (s : Stamp) : s.aware.instant = s.instant := rfl

theorem day_lt (s : Stamp) : s.day < DAYS := by
  obtain ⟨hlow, hhigh⟩ := s.representable
  unfold day
  omega

end Stamp

instance (t : ℤ) : Decidable (Representable t) := inferInstanceAs (Decidable (_ ∧ _))

/-! ### Fields -/

def readDigit (c : Char) : Option ℕ := if c.isDigit then some (c.toNat - 48) else none

/-- A field of so many digits. -/
def readPadded : ℕ → List Char → Option (ℕ × List Char)
  | 0, cs => some (0, cs)
  | _ + 1, [] => none
  | width + 1, c :: cs =>
    match readDigit c, readPadded width cs with
    | some d, some (n, rest) => some (d * 10 ^ width + n, rest)
    | _, _ => none

def expect (c : Char) : List Char → Option (List Char)
  | [] => none
  | x :: cs => if x = c then some cs else none

theorem readDigit_digit {d : ℕ} (hd : d < 10) : readDigit (digit d) = some d := by
  revert d
  decide

theorem readPadded_padded {width n : ℕ} (hn : n < 10 ^ width) (rest : List Char) :
    readPadded width (padded width n ++ rest) = some (n, rest) := by
  induction width generalizing n with
  | zero =>
    have h0 : n = 0 := by omega
    subst h0
    rfl
  | succ width ih =>
    have hpower : 0 < 10 ^ width := Nat.pow_pos (by decide)
    have hdigit : n / 10 ^ width < 10 := by
      rw [Nat.div_lt_iff_lt_mul hpower]
      rwa [pow_succ, mul_comm] at hn
    show readPadded (width + 1) (digit _ :: (padded width _ ++ rest)) = _
    unfold readPadded
    rw [readDigit_digit hdigit, ih (Nat.mod_lt _ hpower)]
    have hsplit : n / 10 ^ width * 10 ^ width + n % 10 ^ width = n := by
      rw [mul_comm]
      exact Nat.div_add_mod n (10 ^ width)
    simp only [hsplit]

theorem expect_cons (c : Char) (cs : List Char) : expect c (c :: cs) = some cs := if_pos rfl

theorem length_padded (width n : ℕ) : (padded width n).length = width := by
  induction width generalizing n with
  | zero => rfl
  | succ width ih => rw [padded, List.length_cons, ih]

theorem isDigit_padded {width n : ℕ} (hn : n < 10 ^ width) : ∀ c ∈ padded width n, c.isDigit = true := by
  have hdigits : ∀ d < 10, (digit d).isDigit = true := by decide
  induction width generalizing n with
  | zero => exact fun c hc => nomatch hc
  | succ width ih =>
    have hpower : 0 < 10 ^ width := Nat.pow_pos (by decide)
    rw [padded, List.forall_mem_cons]
    refine ⟨hdigits _ ?_, ih (Nat.mod_lt _ hpower)⟩
    rw [Nat.div_lt_iff_lt_mul hpower]
    rwa [pow_succ, mul_comm] at hn

/-! ### Dates -/

/-- The days of a month; January has the index zero. -/
def daysInMonth (leap : Bool) (m : ℕ) : ℕ :=
  if m = 11 then 31 else daysBeforeMonth leap (m + 1) - daysBeforeMonth leap m

/-- The number of a date; `none` where there is no such date. -/
def dateNumber (y m d : ℕ) : Option ℕ :=
  if 1 ≤ y ∧ y ≤ 9999 ∧ 1 ≤ m ∧ m ≤ 12 ∧ 1 ≤ d ∧ d ≤ daysInMonth (isLeap (y - 1)) (m - 1) then
    some (daysBeforeYear (y - 1) + daysBeforeMonth (isLeap (y - 1)) (m - 1) + (d - 1))
  else none

/-- A date at the front. -/
def readDate (cs : List Char) : Option (ℕ × List Char) := do
  let (y, cs) ← readPadded 4 cs
  let cs ← expect '-' cs
  let (m, cs) ← readPadded 2 cs
  let cs ← expect '-' cs
  let (d, cs) ← readPadded 2 cs
  let n ← dateNumber y m d
  return (n, cs)

/-- `date.fromisoformat` -/
def wholeDate (cs : List Char) : Option ℕ :=
  match readDate cs with
  | some (n, []) => some n
  | _ => none

/-- Where a year ends. -/
theorem daysBeforeYear_succ (y : ℕ) :
    daysBeforeYear (y + 1) = daysBeforeYear y + if isLeap y then 366 else 365 := by
  have h4 : (y + 1) / 4 = y / 4 + if y % 4 = 3 then 1 else 0 := by split_ifs <;> omega
  have h100 : (y + 1) / 100 = y / 100 + if y % 100 = 99 then 1 else 0 := by split_ifs <;> omega
  have h400 : (y + 1) / 400 = y / 400 + if y % 400 = 399 then 1 else 0 := by split_ifs <;> omega
  have hcentury : y % 100 = 99 → y % 4 = 3 := by omega
  have hfour : y % 400 = 399 → y % 100 = 99 := by omega
  have hmore : y / 100 ≤ y / 4 := Nat.div_le_div_left (by decide) (by decide)
  have hleap : isLeap y = true ↔ y % 4 = 3 ∧ (y % 100 ≠ 99 ∨ y % 400 = 399) := by simp [isLeap]
  unfold daysBeforeYear
  rw [h4, h100, h400]
  generalize y / 4 = a, y / 100 = b, y / 400 = c at *
  by_cases hy : y % 4 = 3
  · by_cases hh : y % 100 = 99
    · by_cases hf : y % 400 = 399
      · rw [if_pos hy, if_pos hh, if_pos hf, if_pos (hleap.mpr ⟨hy, .inr hf⟩)]
        omega
      · rw [if_pos hy, if_pos hh, if_neg hf, if_neg (fun h => (hleap.mp h).2.elim (· hh) hf)]
        omega
    · rw [if_pos hy, if_neg hh, if_neg (fun hf => hh (hfour hf)), if_pos (hleap.mpr ⟨hy, .inl hh⟩)]
      omega
  · rw [if_neg hy, if_neg (fun hh => hy (hcentury hh)),
      if_neg (fun hf => hy (hcentury (hfour hf))), if_neg (fun h => hy (hleap.mp h).1)]
    omega

section Date

variable {n d : ℕ} {leap : Bool}

theorem dayOfYear_lt_length (hn : n < DAYS) :
    dayOfYear n < if isLeap (yearOf n) then 366 else 365 := by
  have hnext : n < daysBeforeYear (yearOf n + 1) := lt_next hn
  have hbegin : daysBeforeYear (yearOf n) ≤ n := begins_le rfl
  rw [daysBeforeYear_succ] at hnext
  unfold dayOfYear
  omega

theorem daysBeforeMonth_monthOf_le (leap : Bool) (d : ℕ) : daysBeforeMonth leap (monthOf leap d) ≤ d :=
  begins_le (by cases leap <;> rfl)

theorem dayOfMonth_lt_length (hd : d < if leap then 366 else 365) :
    dayOfMonth leap d < daysInMonth leap (monthOf leap d) := by
  have hbegin := daysBeforeMonth_monthOf_le leap d
  have hyear : d < daysBeforeMonth leap (11 + 1) := by
    refine hd.trans_le ?_
    cases leap <;> decide
  have hnext : d < daysBeforeMonth leap (monthOf leap d + 1) := lt_next hyear
  unfold dayOfMonth daysInMonth
  split_ifs with hlast
  · rw [hlast] at hbegin ⊢
    have hdecember : daysBeforeMonth leap 11 + 31 = if leap then 366 else 365 := by
      cases leap <;> rfl
    omega
  · omega

theorem dateNumber_eq (hn : n < DAYS) :
    dateNumber (yearOf n + 1) (monthOf (isLeap (yearOf n)) (dayOfYear n) + 1)
      (dayOfMonth (isLeap (yearOf n)) (dayOfYear n) + 1) = some n := by
  have hyear : yearOf n ≤ 9998 := index_le
  have hmonth : monthOf (isLeap (yearOf n)) (dayOfYear n) ≤ 11 := index_le
  have hday := dayOfMonth_lt_length (dayOfYear_lt_length hn)
  have hbegin : daysBeforeYear (yearOf n) ≤ n := begins_le rfl
  have hbeginMonth := daysBeforeMonth_monthOf_le (isLeap (yearOf n)) (dayOfYear n)
  unfold dateNumber
  rw [Nat.add_sub_cancel, Nat.add_sub_cancel, Nat.add_sub_cancel]
  rw [if_pos ⟨by omega, by omega, by omega, by omega, by omega, by omega⟩]
  have hsplit : n = daysBeforeYear (yearOf n) + dayOfYear n := by
    unfold dayOfYear
    omega
  unfold dayOfMonth
  exact congrArg some (by omega)

/-- A date that was written is read. -/
theorem readDate_dateText (hn : n < DAYS) (rest : List Char) :
    readDate (dateText n ++ rest) = some (n, rest) := by
  have hyear : yearOf n ≤ 9998 := index_le
  have hmonth : monthOf (isLeap (yearOf n)) (dayOfYear n) ≤ 11 := index_le
  have hday := dayOfMonth_lt (isLeap (yearOf n)) (dayOfYear_lt hn)
  unfold readDate dateText monthText
  simp only [List.append_assoc, List.cons_append]
  rw [readPadded_padded (by norm_num; omega)]
  simp only [Option.bind_eq_bind, Option.bind_some, expect_cons]
  rw [readPadded_padded (by norm_num; omega)]
  simp only [Option.bind_some, expect_cons]
  rw [readPadded_padded (by norm_num; omega)]
  simp only [Option.bind_some, dateNumber_eq hn]
  rfl

theorem wholeDate_dateText (hn : n < DAYS) : wholeDate (dateText n) = some n := by
  have hread := readDate_dateText hn []
  rw [List.append_nil] at hread
  rw [wholeDate, hread]

theorem length_dateText (n : ℕ) : (dateText n).length = 10 := by
  unfold dateText monthText
  simp only [List.length_append, List.length_cons, length_padded]

end Date

/-! ### Times of the day -/

def readFraction : List Char → Option (ℕ × List Char)
  | '.' :: cs => readPadded 6 cs
  | cs => some (0, cs)

/-- The microseconds of a time of the day at the front. -/
def readTime (cs : List Char) : Option (ℕ × List Char) := do
  let (h, cs) ← readPadded 2 cs
  let cs ← expect ':' cs
  let (m, cs) ← readPadded 2 cs
  let cs ← expect ':' cs
  let (s, cs) ← readPadded 2 cs
  let (us, cs) ← readFraction cs
  if h < 24 ∧ m < 60 ∧ s < 60 then some (((h * 60 + m) * 60 + s) * 1000000 + us, cs) else none

/-- The minutes of an offset. -/
def readMinutes (cs : List Char) : Option ℤ := do
  let (h, cs) ← readPadded 2 cs
  let cs ← expect ':' cs
  let (m, cs) ← readPadded 2 cs
  if h < 24 ∧ m < 60 ∧ cs = [] then some (h * 60 + m) else none

/-- The offset at the end, when there is one, in microseconds. -/
def readOffset : List Char → Option (Option ℤ)
  | [] => some none
  | '+' :: cs => (readMinutes cs).map (fun m => some (m * 60000000))
  | '-' :: cs => (readMinutes cs).map (fun m => some (-(m * 60000000)))
  | _ => none

/-- The offset of UTC as it is written. -/
def utcOffset : List Char := ['+', '0', '0', ':', '0', '0']

theorem readFraction_fraction {us : ℕ} (hus : us < 1000000) :
    readFraction (fraction us) = some (us, utcOffset) := by
  unfold fraction
  split_ifs with h0
  · subst h0
    rfl
  · exact readPadded_padded hus utcOffset

theorem readTime_timeText {us : ℕ} (hus : us < 86400000000) :
    readTime (timeText us) = some (us, utcOffset) := by
  have hhours : us / 3600000000 < 24 := by omega
  have hminutes : us % 3600000000 / 60000000 < 60 := by omega
  have hseconds : us % 3600000000 % 60000000 / 1000000 < 60 := by omega
  unfold readTime timeText
  rw [readPadded_padded (by norm_num; omega)]
  simp only [Option.bind_eq_bind, Option.bind_some, expect_cons]
  rw [readPadded_padded (by norm_num; omega)]
  simp only [Option.bind_some, expect_cons]
  rw [readPadded_padded (by norm_num; omega)]
  simp only [Option.bind_some]
  rw [readFraction_fraction (Nat.mod_lt _ (by decide))]
  simp only [Option.bind_some]
  rw [if_pos ⟨hhours, hminutes, hseconds⟩]
  exact congrArg some (Prod.ext (by dsimp only; omega) rfl)

/-! ### Instants -/

def Stamp.of? (wall : ℤ) (offset : Option ℤ) : Option Stamp :=
  if h : Representable wall ∧ ∀ o ∈ offset, -86400000000 < o ∧ o < 86400000000 then
    some ⟨wall, offset, h.1, h.2⟩
  else none

/-- `datetime.fromisoformat` of the extended format with seconds. -/
def readStamp (cs : List Char) : Option Stamp := do
  let (n, cs) ← readDate cs
  let cs ← expect 'T' cs
  let (us, cs) ← readTime cs
  let offset ← readOffset cs
  Stamp.of? (((n : ℤ) - EPOCH) * 86400000000 + us) offset

/-- An instant as UTC shows it. -/
def Stamp.inUtc (t : ℤ) (ht : Representable t) : Stamp where
  wall := t
  offset := some 0
  representable := ht
  bounded := by
    intro o ho
    obtain rfl := Option.some.inj ho
    exact ⟨by decide, by decide⟩

/-- What was written is read. -/
theorem readStamp_utc {t : ℤ} (ht : Representable t) : readStamp (utc t) = some (Stamp.inUtc t ht) := by
  have hbounds := ht
  obtain ⟨hlow, hhigh⟩ := hbounds
  have hwall : (((t / 86400000000 + EPOCH).toNat : ℤ) - EPOCH) * 86400000000 +
      (t % 86400000000).toNat = t := by
    omega
  have hoffset : readOffset utcOffset = some (some 0) := by decide
  unfold readStamp utc
  rw [readDate_dateText (by omega)]
  simp only [Option.bind_eq_bind, Option.bind_some, expect_cons]
  rw [readTime_timeText (by omega)]
  simp only [Option.bind_some, hoffset, hwall]
  exact dif_pos ⟨ht, (Stamp.inUtc t ht).bounded⟩

theorem length_utc_le (t : ℤ) : (utc t).length ≤ 32 := by
  have hfraction : ∀ us, (fraction us).length ≤ 13 := by
    intro us
    unfold fraction
    split_ifs
    · simp
    · simp [length_padded]
  have hlength := hfraction ((t % 86400000000).toNat % 3600000000 % 60000000 % 1000000)
  unfold utc timeText
  simp only [List.length_append, List.length_cons, length_padded, length_dateText]
  omega

/-- A character of these texts. -/
def Written (c : Char) : Prop := c.isDigit = true ∨ c ∈ ['-', 'T', ':', '.', '+']

instance (c : Char) : Decidable (Written c) := inferInstanceAs (Decidable (_ ∨ _))

theorem written_padded {width n : ℕ} (hn : n < 10 ^ width) : ∀ c ∈ padded width n, Written c :=
  fun c hc => .inl (isDigit_padded hn c hc)

theorem written_dateText {n : ℕ} (hn : n < DAYS) : ∀ c ∈ dateText n, Written c := by
  have hyear : yearOf n ≤ 9998 := index_le
  have hmonth : monthOf (isLeap (yearOf n)) (dayOfYear n) ≤ 11 := index_le
  have hday := dayOfMonth_lt (isLeap (yearOf n)) (dayOfYear_lt hn)
  have hdash : Written '-' := .inr (by decide)
  unfold dateText monthText
  simp only [List.forall_mem_append, List.forall_mem_cons]
  exact ⟨written_padded (by norm_num; omega), hdash, written_padded (by norm_num; omega), hdash,
    written_padded (by norm_num; omega)⟩

theorem written_timeText {us : ℕ} (hus : us < 86400000000) : ∀ c ∈ timeText us, Written c := by
  have hcolon : Written ':' := .inr (by decide)
  have hfraction : ∀ c ∈ fraction (us % 3600000000 % 60000000 % 1000000), Written c := by
    have hoffset : ∀ c ∈ utcOffset, Written c := by
      intro c hc
      simp only [utcOffset, List.mem_cons, List.not_mem_nil, or_false] at hc
      obtain rfl | rfl | rfl | rfl | rfl | rfl := hc <;> decide
    unfold fraction
    rw [List.forall_mem_append]
    refine ⟨?_, hoffset⟩
    split_ifs
    · exact fun c hc => nomatch hc
    · rw [List.forall_mem_cons]
      exact ⟨.inr (by decide), written_padded (Nat.mod_lt _ (by decide))⟩
  unfold timeText
  simp only [List.forall_mem_append, List.forall_mem_cons]
  exact ⟨written_padded (by norm_num; omega), hcolon, written_padded (by norm_num; omega), hcolon,
    written_padded (by norm_num; omega), hfraction⟩

theorem written_utc {t : ℤ} (ht : Representable t) : ∀ c ∈ utc t, Written c := by
  obtain ⟨hlow, hhigh⟩ := ht
  unfold utc
  rw [List.forall_mem_append, List.forall_mem_cons]
  exact ⟨written_dateText (by omega), .inr (by decide), written_timeText (by omega)⟩

example : (readStamp "2024-02-29T12:30:45.500000+00:00".toList).map Stamp.instant =
    some 1709209845500000 := by decide +kernel

end Library.IsoTime
