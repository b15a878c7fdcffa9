import MarketSystem.Library.Binary64
import MarketSystem.Library.JsonText

/-!
# Numbers as text

Hexadecimal texts of binary numbers, and the scientific texts of decimal numbers. Each reader gives
back the number whose text it reads, with its sign, its digits and its exponent.
-/
namespace Library.NumberText

open JsonText (hexValue parseNat)

/-! ## Signs and exponents -/

/-- A minus, or nothing. -/
def minus (negative : Bool) : List Char := if negative then ['-'] else []

/-- The sign at the front; `true` for a minus. -/
def readSign : List Char → Bool × List Char
  | '-' :: rest => (true, rest)
  | '+' :: rest => (false, rest)
  | rest => (false, rest)

/-- An exponent with its sign, `%+d`. -/
def signed (n : ℤ) : List Char := (if n < 0 then '-' else '+') :: Nat.toDigits 10 n.natAbs

/-- A whole text as an integer. -/
def readInt (cs : List Char) : Option ℤ :=
  match parseNat (readSign cs).2 with
  | some (n, []) => some (if (readSign cs).1 then -(n : ℤ) else n)
  | _ => none

/-- A text that begins with a digit. -/
def StartsWithDigit (cs : List Char) : Prop := ∃ c rest, cs = c :: rest ∧ c.isDigit = true

theorem readSign_minus (negative : Bool) {cs : List Char} (h : StartsWithDigit cs) :
    readSign (minus negative ++ cs) = (negative, cs) := by
  obtain ⟨c, rest, rfl, hc⟩ := h
  cases negative with
  | true => rfl
  | false =>
    show readSign (c :: rest) = (false, c :: rest)
    unfold readSign
    split
    · next heq =>
      obtain ⟨rfl, -⟩ := List.cons.inj heq
      exact absurd hc (by decide)
    · next heq =>
      obtain ⟨rfl, -⟩ := List.cons.inj heq
      exact absurd hc (by decide)
    · rfl

theorem readInt_signed (n : ℤ) : readInt (signed n) = some n := by
  have hend : JsonText.NoDigit [] := fun c hc => nomatch hc
  have hdigits := JsonText.parseNat_digits n.natAbs hend
  rw [List.append_nil] at hdigits
  unfold signed
  split_ifs with hneg
  · have hsign : readSign ('-' :: Nat.toDigits 10 n.natAbs) = (true, Nat.toDigits 10 n.natAbs) := rfl
    rw [readInt, hsign, hdigits]
    simp only [if_true, Option.some.injEq]
    omega
  · have hsign : readSign ('+' :: Nat.toDigits 10 n.natAbs) = (false, Nat.toDigits 10 n.natAbs) := rfl
    rw [readInt, hsign, hdigits]
    simp only [Bool.false_eq_true, if_false, Option.some.injEq]
    omega

/-! ## Digits with a point -/

section Digits

variable (isDigit : Char → Bool)

/-- The digits at the front, those after a point, and what follows them. -/
def readDigits (cs : List Char) : List Char × List Char × List Char :=
  match cs.dropWhile isDigit with
  | '.' :: rest => (cs.takeWhile isDigit, rest.takeWhile isDigit, rest.dropWhile isDigit)
  | rest => (cs.takeWhile isDigit, [], rest)

variable {isDigit}

theorem takeWhile_append {digits rest : List Char} (hdigits : ∀ c ∈ digits, isDigit c = true)
    (hrest : ∀ c ∈ rest.head?, isDigit c = false) :
    (digits ++ rest).takeWhile isDigit = digits ∧ (digits ++ rest).dropWhile isDigit = rest := by
  rw [List.takeWhile_append_of_pos hdigits, List.dropWhile_append_of_pos hdigits]
  cases rest with
  | nil => simp
  | cons c rest =>
    have hc : isDigit c = false := hrest c rfl
    simp [hc]

theorem readDigits_whole {digits rest : List Char} (hdigits : ∀ c ∈ digits, isDigit c = true)
    (hrest : ∀ c ∈ rest.head?, isDigit c = false ∧ c ≠ '.') :
    readDigits isDigit (digits ++ rest) = (digits, [], rest) := by
  obtain ⟨htake, hdrop⟩ := takeWhile_append hdigits (fun c hc => (hrest c hc).1)
  unfold readDigits
  rw [htake, hdrop]
  split
  · exact absurd rfl (hrest '.' rfl).2
  · rfl

theorem readDigits_point {digits after rest : List Char} (hpoint : isDigit '.' = false)
    (hdigits : ∀ c ∈ digits, isDigit c = true) (hafter : ∀ c ∈ after, isDigit c = true)
    (hrest : ∀ c ∈ rest.head?, isDigit c = false) :
    readDigits isDigit (digits ++ '.' :: (after ++ rest)) = (digits, after, rest) := by
  obtain ⟨htake, hdrop⟩ := @takeWhile_append isDigit digits ('.' :: (after ++ rest)) hdigits (fun c hc => by
    obtain rfl := Option.some.inj hc
    exact hpoint)
  obtain ⟨htake', hdrop'⟩ := takeWhile_append hafter hrest
  unfold readDigits
  rw [htake, hdrop]
  simp only [htake', hdrop']

end Digits

/-! ## Hexadecimal -/

/-- So many hexadecimal digits of a number. -/
def hexDigits : ℕ → ℕ → List Char
  | 0, _ => []
  | width + 1, n => Nat.digitChar (n / 16 ^ width) :: hexDigits width (n % 16 ^ width)

def isHex (c : Char) : Bool := (hexValue c).isSome

/-- The number of which these are the digits. -/
def ofHex (digits : List Char) : ℕ := digits.foldl (fun n c => 16 * n + (hexValue c).getD 0) 0

theorem hexValue_digitChar {d : ℕ} (hd : d < 16) : hexValue (Nat.digitChar d) = some d := by
  revert d
  decide

theorem isHex_hexDigits {width n : ℕ} (hn : n < 16 ^ width) : ∀ c ∈ hexDigits width n, isHex c = true := by
  induction width generalizing n with
  | zero => exact fun c hc => nomatch hc
  | succ width ih =>
    have hpower : 0 < 16 ^ width := Nat.pow_pos (by decide)
    have hdigit : n / 16 ^ width < 16 := by
      rw [Nat.div_lt_iff_lt_mul hpower]
      rwa [pow_succ, mul_comm] at hn
    rw [hexDigits, List.forall_mem_cons]
    refine ⟨?_, ih (Nat.mod_lt _ hpower)⟩
    rw [isHex, hexValue_digitChar hdigit]
    rfl

theorem length_hexDigits (width n : ℕ) : (hexDigits width n).length = width := by
  induction width generalizing n with
  | zero => rfl
  | succ width ih => rw [hexDigits, List.length_cons, ih]

theorem foldl_hexDigits {width n : ℕ} (hn : n < 16 ^ width) (start : ℕ) :
    (hexDigits width n).foldl (fun n c => 16 * n + (hexValue c).getD 0) start =
      start * 16 ^ width + n := by
  induction width generalizing n start with
  | zero => rw [hexDigits, List.foldl_nil, pow_zero]; omega
  | succ width ih =>
    have hpower : 0 < 16 ^ width := Nat.pow_pos (by decide)
    have hdigit : n / 16 ^ width < 16 := by
      rw [Nat.div_lt_iff_lt_mul hpower]
      rwa [pow_succ, mul_comm] at hn
    rw [hexDigits, List.foldl_cons, ih (Nat.mod_lt _ hpower), hexValue_digitChar hdigit]
    have hsplit := Nat.div_add_mod n (16 ^ width)
    rw [Option.getD_some, pow_succ]
    generalize 16 ^ width = power at *
    calc (16 * start + n / power) * power + n % power
        = start * (power * 16) + (power * (n / power) + n % power) := by ring
      _ = start * (power * 16) + n := by rw [hsplit]

/-- `float.hex` -/
def hex (x : Binary64) : List Char :=
  minus x.negative ++
    if x.exponent.val = 0 then
      if x.fraction.val = 0 then ['0', 'x', '0', '.', '0', 'p', '+', '0']
      else '0' :: 'x' :: '0' :: '.' :: (hexDigits 13 x.fraction.val ++ 'p' :: signed (-1022))
    else '0' :: 'x' :: '1' :: '.' ::
      (hexDigits 13 x.fraction.val ++ 'p' :: signed ((x.exponent.val : ℤ) - 1023))

/-- The prefix of a hexadecimal text, which may be left out. -/
def dropPrefix : List Char → List Char
  | '0' :: 'x' :: rest => rest
  | '0' :: 'X' :: rest => rest
  | rest => rest

/-- The exponent after a mark; without a mark it is zero. -/
def readExponent (lower upper : Char) : List Char → Option ℤ
  | [] => some 0
  | c :: rest => if c = lower ∨ c = upper then readInt rest else none

/-- `float.fromhex`, of the texts of finite numbers without blanks; `none` where it raises. -/
def fromHex (cs : List Char) : Option Binary64 :=
  let (whole, after, rest) := readDigits isHex (dropPrefix (readSign cs).2)
  if whole ++ after = [] then none
  else
    match readExponent 'p' 'P' rest with
    | none => none
    | some e => Binary64.rounded (readSign cs).1
        (ofHex (whole ++ after) * 2 ^ (e - 4 * (after.length : ℤ)))

/-- A text of one digit before the point and thirteen after it. -/
theorem fromHex_digits (negative : Bool) {d : Char} (hd : isHex d = true) {n : ℕ} (hn : n < 2 ^ 52)
    (e : ℤ) :
    fromHex (minus negative ++ '0' :: 'x' :: d :: '.' :: (hexDigits 13 n ++ 'p' :: signed e)) =
      Binary64.rounded negative
        (((hexValue d).getD 0 * 2 ^ 52 + n : ℕ) * 2 ^ (e - 52)) := by
  have hpower : n < 16 ^ 13 := by norm_num at hn ⊢; exact hn
  have hstart : StartsWithDigit ('0' :: 'x' :: d :: '.' :: (hexDigits 13 n ++ 'p' :: signed e)) :=
    ⟨'0', _, rfl, rfl⟩
  have hsign := readSign_minus negative hstart
  have hdigits := @readDigits_point isHex [d] (hexDigits 13 n) ('p' :: signed e) (by decide)
    (by simpa using hd) (isHex_hexDigits hpower)
    (fun c hc => by obtain rfl := Option.some.inj hc; decide)
  have hvalue : ofHex (d :: hexDigits 13 n) = (hexValue d).getD 0 * 2 ^ 52 + n := by
    rw [ofHex, List.foldl_cons, foldl_hexDigits hpower]
    norm_num
  rw [List.singleton_append] at hdigits
  unfold fromHex
  rw [hsign]
  simp only [dropPrefix, hdigits, List.singleton_append, reduceCtorEq, if_false, readExponent,
    true_or, if_true, readInt_signed, hvalue, length_hexDigits]
  norm_num

theorem fromHex_zero (negative : Bool) :
    fromHex (minus negative ++ ['0', 'x', '0', '.', '0', 'p', '+', '0']) =
      some ⟨negative, 0, 0⟩ := by
  have hstart : StartsWithDigit ['0', 'x', '0', '.', '0', 'p', '+', '0'] := ⟨'0', _, rfl, rfl⟩
  have hsign := readSign_minus negative hstart
  have hdigits : readDigits isHex ['0', '.', '0', 'p', '+', '0'] = (['0'], ['0'], ['p', '+', '0']) := by
    decide
  have hvalue : ofHex ['0', '0'] = 0 := by decide
  have hexponent : readExponent 'p' 'P' ['p', '+', '0'] = some 0 := by decide
  unfold fromHex
  rw [hsign]
  simp only [dropPrefix, hdigits, List.singleton_append, reduceCtorEq, if_false, hexponent, hvalue,
    Nat.cast_zero, zero_mul]
  exact Binary64.rounded_zero negative

/-- Reading the text of a number gives it back. -/
theorem fromHex_hex (x : Binary64) : fromHex (hex x) = some x := by
  have hrounded := Binary64.rounded_magnitude x
  obtain ⟨negative, ⟨e, he⟩, ⟨f, hf⟩⟩ := x
  unfold hex
  simp only
  split_ifs with hexp hfraction
  · subst hexp hfraction
    exact fromHex_zero negative
  · subst hexp
    have hleading : (hexValue '0').getD 0 * 2 ^ 52 + f = f := by
      rw [show (hexValue '0').getD 0 = 0 from by decide, zero_mul, zero_add]
    rw [fromHex_digits negative (by decide) hf, hleading]
    exact hrounded
  · rw [fromHex_digits negative (by decide) hf, ← hrounded]
    have hquantum : Binary64.quantum ⟨negative, ⟨e, he⟩, ⟨f, hf⟩⟩ = (e : ℤ) - 1023 - 52 := by
      simp only [Binary64.quantum]
      omega
    rw [Binary64.magnitude, hquantum, Binary64.significand, if_neg hexp]
    rfl

/-! ## Decimals -/

/-- A finite decimal number: its sign, its digits as a number, and its exponent. -/
structure Decimal where
  negative : Bool
  coefficient : ℕ
  exponent : ℤ
  deriving DecidableEq

def Decimal.value (d : Decimal) : ℚ :=
  (if d.negative then -(d.coefficient : ℚ) else d.coefficient) * 10 ^ d.exponent

/-- The digits before the point and after it, and the exponent that is written. -/
def Decimal.layout (d : Decimal) : List Char × List Char × Option ℤ :=
  let digits := Nat.toDigits 10 d.coefficient
  let left := d.exponent + digits.length
  let place := if d.exponent ≤ 0 ∧ -6 < left then left else 1
  let written := if left = place then none else some (left - place)
  if place ≤ 0 then (['0'], List.replicate (-place).toNat '0' ++ digits, written)
  else if digits.length ≤ place then
    (digits ++ List.replicate (place.toNat - digits.length) '0', [], written)
  else (digits.take place.toNat, digits.drop place.toNat, written)

/-- `str` -/
def Decimal.text (d : Decimal) : List Char :=
  let (whole, after, written) := d.layout
  minus d.negative ++ (whole ++ ((if after = [] then [] else '.' :: after) ++
    match written with
    | none => []
    | some e => 'E' :: signed e))

/-- `Decimal(text)`, of the texts of finite numbers without blanks; `none` where it raises. -/
def readDecimal (cs : List Char) : Option Decimal :=
  let (whole, after, rest) := readDigits Char.isDigit (readSign cs).2
  if whole ++ after = [] then none
  else
    match readExponent 'e' 'E' rest with
    | none => none
    | some e => some
        { negative := (readSign cs).1
          coefficient := Nat.ofDigitChars 10 (whole ++ after) 0
          exponent := e - after.length }

theorem ofDigitChars_zeros (n : ℕ) (cs : List Char) :
    Nat.ofDigitChars 10 (List.replicate n '0' ++ cs) 0 = Nat.ofDigitChars 10 cs 0 := by
  induction n with
  | zero => rfl
  | succ n ih =>
    rw [List.replicate_succ, List.cons_append, Nat.ofDigitChars_cons]
    exact ih

theorem isDigit_toDigits (n : ℕ) : ∀ c ∈ Nat.toDigits 10 n, c.isDigit = true :=
  fun c hc => Nat.isDigit_of_mem_toDigits (by decide) (by decide) hc

/-- The exponent as it is written, where it is. -/
def exponentText : Option ℤ → List Char
  | none => []
  | some e => 'E' :: signed e

theorem readExponent_text (written : Option ℤ) :
    readExponent 'e' 'E' (exponentText written) = some (written.getD 0) := by
  cases written with
  | none => rfl
  | some e =>
    show (if 'E' = 'e' ∨ 'E' = 'E' then readInt (signed e) else none) = some e
    rw [if_pos (Or.inr rfl), readInt_signed]

/-- A text is read as the digits before and after its point. -/
theorem readDigits_text {whole after : List Char} (written : Option ℤ)
    (hwhole : ∀ c ∈ whole, c.isDigit = true) (hafter : ∀ c ∈ after, c.isDigit = true) :
    readDigits Char.isDigit (whole ++ ((if after = [] then [] else '.' :: after) ++
      exponentText written)) = (whole, after, exponentText written) := by
  have hrest : ∀ c ∈ (exponentText written).head?, c.isDigit = false ∧ c ≠ '.' := by
    intro c hc
    cases written with
    | none => cases hc
    | some e =>
      obtain rfl := Option.some.inj hc
      exact ⟨by decide, by decide⟩
  by_cases hnil : after = []
  · subst hnil
    exact readDigits_whole hwhole hrest
  · rw [if_neg hnil, List.cons_append]
    exact readDigits_point (by decide) hwhole hafter fun c hc => (hrest c hc).1

/-- What is laid out: a text of digits that stand for the coefficient, and an exponent that counts
the digits after the point. -/
structure Decimal.Laid (d : Decimal) (whole after : List Char) (written : Option ℤ) : Prop where
  starts : StartsWithDigit whole
  isDigit_whole : ∀ c ∈ whole, c.isDigit = true
  isDigit_after : ∀ c ∈ after, c.isDigit = true
  coefficient : Nat.ofDigitChars 10 (whole ++ after) 0 = d.coefficient
  exponent : written.getD 0 - (after.length : ℤ) = d.exponent

theorem startsWithDigit_append {digits : List Char} (h0 : digits ≠ [])
    (hdigits : ∀ c ∈ digits, c.isDigit = true) (rest : List Char) :
    StartsWithDigit (digits ++ rest) := by
  cases digits with
  | nil => exact absurd rfl h0
  | cons c cs => exact ⟨c, cs ++ rest, rfl, hdigits c List.mem_cons_self⟩

theorem StartsWithDigit.ne_nil {cs : List Char} (h : StartsWithDigit cs) : cs ≠ [] := by
  obtain ⟨c, rest, rfl, -⟩ := h
  exact List.cons_ne_nil c rest

theorem isDigit_zeros (n : ℕ) : ∀ c ∈ List.replicate n '0', c.isDigit = true := by
  intro c hc
  rw [List.eq_of_mem_replicate hc]
  decide

theorem Decimal.layout_laid (d : Decimal) : d.Laid d.layout.1 d.layout.2.1 d.layout.2.2 := by
  obtain ⟨negative, coefficient, e⟩ := d
  have hdigits := isDigit_toDigits coefficient
  have hvalue : Nat.ofDigitChars 10 (Nat.toDigits 10 coefficient) 0 = coefficient :=
    Nat.ofDigitChars_ten_toDigits
  have hnil : Nat.toDigits 10 coefficient ≠ [] := Nat.toDigits_ne_nil
  unfold layout
  simp only
  generalize Nat.toDigits 10 coefficient = digits at *
  have hlength : 0 < digits.length := List.length_pos_of_ne_nil hnil
  -- the place of the point is that of the exponent, or one
  have hplace : (if e ≤ 0 ∧ -6 < e + digits.length then e + (digits.length : ℤ) else 1) =
      e + digits.length ∧ e ≤ 0 ∨
      (if e ≤ 0 ∧ -6 < e + digits.length then e + (digits.length : ℤ) else 1) = 1 := by
    split_ifs with h
    · exact .inl ⟨rfl, h.1⟩
    · exact .inr rfl
  generalize (if e ≤ 0 ∧ -6 < e + digits.length then e + (digits.length : ℤ) else 1) = place at *
  have hwritten : (if e + (digits.length : ℤ) = place then none
      else some (e + (digits.length : ℤ) - place)).getD 0 = e + digits.length - place := by
    split_ifs with h
    · show (0 : ℤ) = _
      omega
    · rfl
  generalize (if e + (digits.length : ℤ) = place then none
      else some (e + (digits.length : ℤ) - place)) = written at *
  split_ifs with hbefore hafter
  · refine ⟨⟨'0', [], rfl, rfl⟩, by simp, ?_, ?_, ?_⟩
    · rw [List.forall_mem_append]
      exact ⟨isDigit_zeros _, hdigits⟩
    · show Nat.ofDigitChars 10 (List.replicate (-place).toNat '0' ++ digits) 0 = coefficient
      rw [ofDigitChars_zeros, hvalue]
    · show written.getD 0 - _ = e
      simp only [List.length_append, List.length_replicate]
      omega
  · -- no digit is added: the point is after the last one
    have hzeros : place.toNat - digits.length = 0 := by omega
    simp only [hzeros, List.replicate_zero, List.append_nil]
    have hnone : ∀ c ∈ ([] : List Char), c.isDigit = true := fun c hc => nomatch hc
    refine ⟨?_, hdigits, hnone, ?_, ?_⟩
    · rw [← List.append_nil digits]
      exact startsWithDigit_append hnil hdigits []
    · rw [List.append_nil, hvalue]
    · show written.getD 0 - 0 = e
      omega
  · have hsplit : digits.take place.toNat ++ digits.drop place.toNat = digits :=
      List.take_append_drop _ _
    refine ⟨?_, fun c hc => hdigits c (List.mem_of_mem_take hc),
      fun c hc => hdigits c (List.mem_of_mem_drop hc), ?_, ?_⟩
    · have htake : digits.take place.toNat ≠ [] := by
        rw [Ne, List.take_eq_nil_iff, not_or]
        exact ⟨by omega, hnil⟩
      rw [← List.append_nil (digits.take place.toNat)]
      exact startsWithDigit_append htake (fun c hc => hdigits c (List.mem_of_mem_take hc)) []
    · rw [hsplit, hvalue]
    · show written.getD 0 - _ = e
      rw [List.length_drop]
      omega

/-- Reading the text of a number gives it back. -/
theorem readDecimal_text (d : Decimal) : readDecimal d.text = some d := by
  obtain ⟨hstarts, hwhole, hafter, hcoefficient, hexponent⟩ := d.layout_laid
  have htext : d.text = minus d.negative ++ (d.layout.1 ++
      ((if d.layout.2.1 = [] then [] else '.' :: d.layout.2.1) ++ exponentText d.layout.2.2)) := by
    unfold Decimal.text
    generalize d.layout = laid
    obtain ⟨whole, after, written⟩ := laid
    cases written <;> rfl
  have hsign := readSign_minus d.negative (startsWithDigit_append hstarts.ne_nil hwhole
    ((if d.layout.2.1 = [] then [] else '.' :: d.layout.2.1) ++ exponentText d.layout.2.2))
  have hnonempty : d.layout.1 ++ d.layout.2.1 ≠ [] :=
    List.append_ne_nil_of_left_ne_nil hstarts.ne_nil _
  rw [htext]
  unfold readDecimal
  rw [hsign]
  simp only [readDigits_text _ hwhole hafter, if_neg hnonempty, readExponent_text, hcoefficient,
    hexponent]

end Library.NumberText
