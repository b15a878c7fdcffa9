import MarketSystem.Library.SortedView
import Mathlib.Data.String.Basic

/-!
# JSON text

The text that a serializer writes for a value, without blanks and with every character
outside the control range kept, and a reader for such text. Reading what was written gives
the value back, so the text determines the value. With the keys of every object sorted the
text is canonical: it does not depend on the order of the fields.
-/
namespace Library.JsonText

/-- Values without fractional numbers. -/
inductive Value
  | null
  | bool (b : Bool)
  | int (n : ℤ)
  | str (s : String)
  | arr (items : List Value)
  | obj (fields : List (String × Value))

/-! ## Strings -/

/-- The quotation mark. -/
def quote : Char := '\x22'

def backslash : Char := '\x5c'

/-- One character inside of a string. -/
def escape (c : Char) : List Char :=
  if c = quote ∨ c = backslash then [backslash, c]
  else if c = '\n' then [backslash, 'n']
  else if c = '\r' then [backslash, 'r']
  else if c = '\t' then [backslash, 't']
  else if c.toNat = 8 then [backslash, 'b']
  else if c.toNat = 12 then [backslash, 'f']
  else if c.toNat < 32 then
    [backslash, 'u', '0', '0', Nat.digitChar (c.toNat / 16), Nat.digitChar (c.toNat % 16)]
  else [c]

def renderString (s : String) : List Char := quote :: (s.toList.flatMap escape ++ [quote])

/-- The value of a hexadecimal digit. -/
def hexValue (c : Char) : Option ℕ :=
  if c.isDigit then some (c.toNat - 48)
  else if 97 ≤ c.toNat ∧ c.toNat ≤ 102 then some (c.toNat - 87)
  else if 65 ≤ c.toNat ∧ c.toNat ≤ 70 then some (c.toNat - 55)
  else none

/-- The character of four hexadecimal digits, unless they are half of a surrogate pair. -/
def hexChar (a b c d : Char) : Option Char :=
  match hexValue a, hexValue b, hexValue c, hexValue d with
  | some a, some b, some c, some d =>
      let n := ((a * 16 + b) * 16 + c) * 16 + d
      if n.isValidChar then some (Char.ofNat n) else none
  | _, _, _, _ => none

/-- What follows a backslash, when it is one character. -/
def unescape (c : Char) : Option Char :=
  if c = quote ∨ c = backslash ∨ c = '/' then some c
  else if c = 'n' then some '\n'
  else if c = 'r' then some '\r'
  else if c = 't' then some '\t'
  else if c = 'b' then some (Char.ofNat 8)
  else if c = 'f' then some (Char.ofNat 12)
  else none

/-- The characters up to the closing quotation mark, and what follows it. -/
def parseChars : List Char → Option (List Char × List Char)
  | [] => none
  | c :: rest =>
      if c = quote then some ([], rest)
      else if c = backslash then
        match rest with
        | 'u' :: h₁ :: h₂ :: h₃ :: h₄ :: rest =>
            match hexChar h₁ h₂ h₃ h₄ with
            | some c => (parseChars rest).map (fun r => (c :: r.1, r.2))
            | none => none
        | e :: rest =>
            match unescape e with
            | some c => (parseChars rest).map (fun r => (c :: r.1, r.2))
            | none => none
        | [] => none
      else if c.toNat < 32 then none
      else (parseChars rest).map (fun r => (c :: r.1, r.2))

theorem parseChars_quote (rest : List Char) : parseChars (quote :: rest) = some ([], rest) := by
  unfold parseChars
  rw [if_pos rfl]

/-- The hexadecimal escape of a control character names it. -/
theorem hexChar_control {n : ℕ} (h : n < 32) :
    hexChar '0' '0' (Nat.digitChar (n / 16)) (Nat.digitChar (n % 16)) = some (Char.ofNat n) := by
  revert n
  decide

theorem parseChars_escape (c : Char) (rest : List Char) :
    parseChars (escape c ++ rest) = (parseChars rest).map (fun r => (c :: r.1, r.2)) := by
  have hquote : quote ≠ backslash := by decide
  unfold escape
  split_ifs with hself hn hr ht hb hf hcontrol
  · rcases hself with rfl | rfl
    · rfl
    · rfl
  · subst hn
    rfl
  · subst hr
    rfl
  · subst ht
    rfl
  · have hc : c = Char.ofNat 8 := by rw [← hb, Char.ofNat_toNat]
    subst hc
    rfl
  · have hc : c = Char.ofNat 12 := by rw [← hf, Char.ofNat_toNat]
    subst hc
    rfl
  · simp only [List.cons_append, List.nil_append]
    rw [parseChars, if_neg (Ne.symm hquote), if_pos rfl, hexChar_control hcontrol,
      Char.ofNat_toNat]
  · rw [not_or] at hself
    rw [List.cons_append, List.nil_append]
    conv_lhs => unfold parseChars
    rw [if_neg hself.1, if_neg hself.2, if_neg hcontrol]

theorem parseChars_escaped (cs rest : List Char) :
    parseChars (cs.flatMap escape ++ quote :: rest) = some (cs, rest) := by
  induction cs with
  | nil => exact parseChars_quote rest
  | cons c cs ih =>
    rw [List.flatMap_cons, List.append_assoc, parseChars_escape, ih]
    rfl

/-! ## Numbers -/

def renderInt (n : ℤ) : List Char :=
  if n < 0 then '-' :: Nat.toDigits 10 n.natAbs else Nat.toDigits 10 n.natAbs

/-- No digit follows. -/
def NoDigit (rest : List Char) : Prop := ∀ c ∈ rest.head?, c.isDigit = false

/-- The digits at the front as a number. -/
def parseNat (cs : List Char) : Option (ℕ × List Char) :=
  match cs.takeWhile Char.isDigit with
  | [] => none
  | digits => some (Nat.ofDigitChars 10 digits 0, cs.dropWhile Char.isDigit)

theorem takeWhile_digits (n : ℕ) {rest : List Char} (h : NoDigit rest) :
    (Nat.toDigits 10 n ++ rest).takeWhile Char.isDigit = Nat.toDigits 10 n ∧
      (Nat.toDigits 10 n ++ rest).dropWhile Char.isDigit = rest := by
  have hdigits : ∀ c ∈ Nat.toDigits 10 n, c.isDigit = true :=
    fun c hc => Nat.isDigit_of_mem_toDigits (by decide) (by decide) hc
  rw [List.takeWhile_append_of_pos hdigits, List.dropWhile_append_of_pos hdigits]
  cases rest with
  | nil => simp
  | cons c rest =>
    have hc : c.isDigit = false := h c rfl
    simp [hc]

theorem parseNat_digits (n : ℕ) {rest : List Char} (h : NoDigit rest) :
    parseNat (Nat.toDigits 10 n ++ rest) = some (n, rest) := by
  obtain ⟨htake, hdrop⟩ := takeWhile_digits n h
  unfold parseNat
  rw [htake, hdrop]
  split
  · next hnil => exact absurd hnil Nat.toDigits_ne_nil
  · rw [Nat.ofDigitChars_ten_toDigits]

def parseInt (cs : List Char) : Option (ℤ × List Char) :=
  match cs with
  | '-' :: rest => (parseNat rest).map (fun r => (-(r.1 : ℤ), r.2))
  | _ => (parseNat cs).map (fun r => ((r.1 : ℤ), r.2))

theorem parseInt_render (n : ℤ) {rest : List Char} (h : NoDigit rest) :
    parseInt (renderInt n ++ rest) = some (n, rest) := by
  unfold renderInt
  split_ifs with hneg
  · rw [List.cons_append, parseInt, parseNat_digits _ h]
    simp only [Option.map_some, Option.some.injEq, Prod.mk.injEq, and_true]
    omega
  · have hdigit : ∀ c ∈ (Nat.toDigits 10 n.natAbs ++ rest).head?, c ≠ '-' := by
      intro c hc
      rw [List.head?_append_of_ne_nil _ Nat.toDigits_ne_nil] at hc
      have hisDigit := Nat.isDigit_of_mem_toDigits (by decide) (by decide) (List.mem_of_mem_head? hc)
      rintro rfl
      exact absurd hisDigit (by decide)
    unfold parseInt
    split
    · next rest' heq =>
      rw [heq] at hdigit
      exact absurd rfl (hdigit '-' rfl)
    · rw [parseNat_digits _ h]
      simp only [Option.map_some, Option.some.injEq, Prod.mk.injEq, and_true]
      omega

/-! ## Values -/

def openBrace : Char := '\x7b'

def closeBrace : Char := '\x7d'

mutual

/-- The text of a value. -/
def render : Value → List Char
  | .null => ['n', 'u', 'l', 'l']
  | .bool true => ['t', 'r', 'u', 'e']
  | .bool false => ['f', 'a', 'l', 's', 'e']
  | .int n => renderInt n
  | .str s => renderString s
  | .arr [] => ['[', ']']
  | .arr (v :: vs) => '[' :: (render v ++ renderItems vs)
  | .obj [] => [openBrace, closeBrace]
  | .obj (f :: fs) => openBrace :: (renderField f ++ renderFields fs)

/-- The items after the first, and the end of the array. -/
def renderItems : List Value → List Char
  | [] => [']']
  | v :: vs => ',' :: (render v ++ renderItems vs)

def renderField : String × Value → List Char
  | (key, v) => renderString key ++ ':' :: render v

def renderFields : List (String × Value) → List Char
  | [] => [closeBrace]
  | f :: fs => ',' :: (renderField f ++ renderFields fs)

end

/-- `json.dumps` with the separators `,` and `:`. -/
def dumps (v : Value) : String := String.ofList (render v)

/-- A word at the front. -/
def word (w : List Char) (v : Value) (cs : List Char) : Option (Value × List Char) :=
  if w <+: cs then some (v, cs.drop w.length) else none

mutual

/-- A value at the front of a text, within so many steps. -/
def parseValue : ℕ → List Char → Option (Value × List Char)
  | 0, _ => none
  | fuel + 1, cs =>
      match cs with
      | [] => none
      | c :: rest =>
          if c = quote then (parseChars rest).map (fun r => (.str (String.ofList r.1), r.2))
          else if c = '[' then
            if rest.head? = some ']' then some (.arr [], rest.tail)
            else
              match parseValue fuel rest with
              | some (v, rest) => (parseItems fuel rest).map (fun r => (.arr (v :: r.1), r.2))
              | none => none
          else if c = openBrace then
            if rest.head? = some closeBrace then some (.obj [], rest.tail)
            else
              match parseField fuel rest with
              | some (f, rest) => (parseFields fuel rest).map (fun r => (.obj (f :: r.1), r.2))
              | none => none
          else if c = 'n' then word ['n', 'u', 'l', 'l'] .null cs
          else if c = 't' then word ['t', 'r', 'u', 'e'] (.bool true) cs
          else if c = 'f' then word ['f', 'a', 'l', 's', 'e'] (.bool false) cs
          else (parseInt cs).map (fun r => (.int r.1, r.2))

def parseItems : ℕ → List Char → Option (List Value × List Char)
  | 0, _ => none
  | fuel + 1, cs =>
      match cs with
      | [] => none
      | c :: rest =>
          if c = ']' then some ([], rest)
          else if c = ',' then
            match parseValue fuel rest with
            | some (v, rest) => (parseItems fuel rest).map (fun r => (v :: r.1, r.2))
            | none => none
          else none

def parseField : ℕ → List Char → Option ((String × Value) × List Char)
  | 0, _ => none
  | fuel + 1, cs =>
      if cs.head? = some quote then
        match parseChars cs.tail with
        | some (key, rest) =>
            if rest.head? = some ':' then
              (parseValue fuel rest.tail).map (fun r => ((String.ofList key, r.1), r.2))
            else none
        | none => none
      else none

def parseFields : ℕ → List Char → Option (List (String × Value) × List Char)
  | 0, _ => none
  | fuel + 1, cs =>
      match cs with
      | [] => none
      | c :: rest =>
          if c = closeBrace then some ([], rest)
          else if c = ',' then
            match parseField fuel rest with
            | some (f, rest) => (parseFields fuel rest).map (fun r => (f :: r.1, r.2))
            | none => none
          else none

end

/-- `json.loads`, of a text without blanks and without fractions. -/
def loads (s : String) : Option Value :=
  match parseValue (s.length + 1) s.toList with
  | some (v, []) => some v
  | _ => none

theorem word_append (w : List Char) (v : Value) (rest : List Char) :
    word w v (w ++ rest) = some (v, rest) := by
  unfold word
  rw [if_pos (List.prefix_append w rest), List.drop_left]

/-- The text of a number begins with a digit or a sign. -/
theorem renderInt_eq (n : ℤ) : ∃ c cs, renderInt n = c :: cs ∧ (c = '-' ∨ c.isDigit = true) := by
  unfold renderInt
  split_ifs
  · exact ⟨'-', _, rfl, .inl rfl⟩
  · cases hdigits : Nat.toDigits 10 n.natAbs with
    | nil => exact absurd hdigits Nat.toDigits_ne_nil
    | cons c cs =>
      have hmem : c ∈ Nat.toDigits 10 n.natAbs := by
        rw [hdigits]
        exact List.mem_cons_self
      exact ⟨c, cs, rfl, .inr (Nat.isDigit_of_mem_toDigits (by decide) (by decide) hmem)⟩

theorem ne_of_number {c d : Char} (h : c = '-' ∨ c.isDigit = true) (hsign : '-' ≠ d)
    (hdigit : d.isDigit = false) : c ≠ d := by
  rcases h with rfl | h
  · exact hsign
  · rintro rfl
    rw [hdigit] at h
    cases h

/-- No text of a value begins with the end of an array. -/
theorem render_head (v : Value) : ∃ c cs, render v = c :: cs ∧ c ≠ ']' := by
  cases v with
  | null => exact ⟨_, _, rfl, by decide⟩
  | bool b => cases b <;> exact ⟨_, _, rfl, by decide⟩
  | int n =>
    obtain ⟨c, cs, heq, hc⟩ := renderInt_eq n
    exact ⟨c, cs, heq, ne_of_number hc (by decide) (by decide)⟩
  | str s => exact ⟨_, _, rfl, by decide⟩
  | arr items => cases items <;> exact ⟨_, _, rfl, by decide⟩
  | obj fields => cases fields <;> exact ⟨_, _, rfl, by decide⟩

theorem noDigit_renderItems (vs : List Value) (rest : List Char) :
    NoDigit (renderItems vs ++ rest) := by
  cases vs <;> · intro c hc; obtain rfl := Option.some.inj hc; decide

theorem noDigit_renderFields (fs : List (String × Value)) (rest : List Char) :
    NoDigit (renderFields fs ++ rest) := by
  cases fs <;> · intro c hc; obtain rfl := Option.some.inj hc; decide

theorem parseValue_int (fuel : ℕ) (n : ℤ) {rest : List Char} (h : NoDigit rest) :
    parseValue (fuel + 1) (renderInt n ++ rest) = some (.int n, rest) := by
  have hparse := parseInt_render n h
  obtain ⟨c, cs, heq, hc⟩ := renderInt_eq n
  rw [heq, List.cons_append] at hparse ⊢
  unfold parseValue
  dsimp only
  rw [if_neg (ne_of_number hc (by decide) (by decide)),
    if_neg (ne_of_number hc (by decide) (by decide)),
    if_neg (ne_of_number hc (by decide) (by decide)),
    if_neg (ne_of_number hc (by decide) (by decide)),
    if_neg (ne_of_number hc (by decide) (by decide)),
    if_neg (ne_of_number hc (by decide) (by decide)), hparse]
  rfl

mutual

/-- Reading the text of a value gives it back, whatever text follows that no number could
go on with. -/
theorem parseValue_render : ∀ (v : Value) (fuel : ℕ) (rest : List Char),
    (render v).length ≤ fuel → NoDigit rest → parseValue fuel (render v ++ rest) = some (v, rest)
  | v, 0, rest, hfuel, _ => by
    obtain ⟨c, cs, heq, -⟩ := render_head v
    rw [heq, List.length_cons] at hfuel
    omega
  | .null, fuel + 1, rest, _, _ => by
    unfold render parseValue
    exact word_append ['n', 'u', 'l', 'l'] .null rest
  | .bool true, fuel + 1, rest, _, _ => by
    unfold render parseValue
    exact word_append ['t', 'r', 'u', 'e'] (.bool true) rest
  | .bool false, fuel + 1, rest, _, _ => by
    unfold render parseValue
    exact word_append ['f', 'a', 'l', 's', 'e'] (.bool false) rest
  | .int n, fuel + 1, rest, _, hrest => by
    rw [render]
    exact parseValue_int fuel n hrest
  | .str s, fuel + 1, rest, _, _ => by
    have hchars := parseChars_escaped s.toList rest
    rw [render, renderString, List.cons_append, List.append_assoc, List.singleton_append]
    unfold parseValue
    dsimp only
    rw [if_pos rfl, hchars, Option.map_some, String.ofList_toList]
  | .arr [], fuel + 1, rest, _, _ => by
    unfold render parseValue
    rfl
  | .arr (v :: vs), fuel + 1, rest, hfuel, hrest => by
    rw [render, List.length_cons, List.length_append] at hfuel
    have hv := parseValue_render v fuel (renderItems vs ++ rest) (by omega)
      (noDigit_renderItems vs rest)
    have hvs := parseItems_render vs fuel rest (by omega)
    obtain ⟨c, cs, heq, hc⟩ := render_head v
    rw [render, List.cons_append, List.append_assoc]
    unfold parseValue
    dsimp only
    rw [if_neg (by decide), if_pos rfl, if_neg, hv]
    · dsimp only
      rw [hvs]
      rfl
    · rw [heq]
      exact fun hhead => hc (Option.some.inj hhead)
  | .obj [], fuel + 1, rest, _, _ => by
    unfold render parseValue
    rfl
  | .obj (f :: fs), fuel + 1, rest, hfuel, hrest => by
    rw [render, List.length_cons, List.length_append] at hfuel
    have hf := parseField_render f fuel (renderFields fs ++ rest) (by omega)
      (noDigit_renderFields fs rest)
    have hfs := parseFields_render fs fuel rest (by omega)
    rw [render, List.cons_append, List.append_assoc]
    unfold parseValue
    dsimp only
    rw [if_neg (by decide), if_neg (by decide), if_pos rfl, if_neg, hf]
    · dsimp only
      rw [hfs]
      rfl
    · obtain ⟨key, v⟩ := f
      rw [renderField, renderString]
      exact fun hhead => absurd (Option.some.inj hhead) (by decide)

theorem parseItems_render : ∀ (vs : List Value) (fuel : ℕ) (rest : List Char),
    (renderItems vs).length ≤ fuel → parseItems fuel (renderItems vs ++ rest) = some (vs, rest)
  | vs, 0, rest, hfuel => by
    cases vs <;> simp [renderItems] at hfuel
  | [], fuel + 1, rest, _ => by
    unfold renderItems parseItems
    rfl
  | v :: vs, fuel + 1, rest, hfuel => by
    rw [renderItems, List.length_cons, List.length_append] at hfuel
    have hv := parseValue_render v fuel (renderItems vs ++ rest) (by omega)
      (noDigit_renderItems vs rest)
    have hvs := parseItems_render vs fuel rest (by omega)
    rw [renderItems, List.cons_append, List.append_assoc]
    unfold parseItems
    dsimp only
    rw [if_neg (by decide), if_pos rfl, hv]
    dsimp only
    rw [hvs]
    rfl

theorem parseField_render : ∀ (f : String × Value) (fuel : ℕ) (rest : List Char),
    (renderField f).length ≤ fuel → NoDigit rest →
      parseField fuel (renderField f ++ rest) = some (f, rest)
  | (key, v), 0, rest, hfuel, _ => by
    simp [renderField, renderString] at hfuel
  | (key, v), fuel + 1, rest, hfuel, hrest => by
    rw [renderField, List.length_append, List.length_cons] at hfuel
    have hv := parseValue_render v fuel rest (by omega) hrest
    have hchars := parseChars_escaped key.toList (':' :: (render v ++ rest))
    rw [renderField, renderString, List.cons_append, List.cons_append, List.append_assoc,
      List.append_assoc, List.singleton_append, List.cons_append]
    unfold parseField
    rw [List.head?_cons, if_pos rfl, List.tail_cons, hchars]
    dsimp only
    rw [List.head?_cons, if_pos rfl, List.tail_cons, hv, Option.map_some, String.ofList_toList]

theorem parseFields_render : ∀ (fs : List (String × Value)) (fuel : ℕ) (rest : List Char),
    (renderFields fs).length ≤ fuel → parseFields fuel (renderFields fs ++ rest) = some (fs, rest)
  | fs, 0, rest, hfuel => by
    cases fs <;> simp [renderFields] at hfuel
  | [], fuel + 1, rest, _ => by
    unfold renderFields parseFields
    rfl
  | f :: fs, fuel + 1, rest, hfuel => by
    rw [renderFields, List.length_cons, List.length_append] at hfuel
    have hf := parseField_render f fuel (renderFields fs ++ rest) (by omega)
      (noDigit_renderFields fs rest)
    have hfs := parseFields_render fs fuel rest (by omega)
    rw [renderFields, List.cons_append, List.append_assoc]
    unfold parseFields
    dsimp only
    rw [if_neg (by decide), if_pos rfl, hf]
    dsimp only
    rw [hfs]
    rfl

end

theorem loads_dumps (v : Value) : loads (dumps v) = some v := by
  have hparse := parseValue_render v ((render v).length + 1) [] (by omega) (fun c hc => nomatch hc)
  rw [List.append_nil] at hparse
  unfold loads dumps
  rw [String.length_ofList, String.toList_ofList, hparse]

/-- The text determines the value. -/
theorem dumps_injective : Function.Injective dumps := by
  intro v w h
  have hv := loads_dumps v
  rw [h, loads_dumps w] at hv
  exact (Option.some.inj hv).symm

/-! ## One value a line -/

theorem newline_not_mem_escape (c : Char) : '\n' ∉ escape c := by
  have hdigits : ∀ n < 32,
      '\n' ≠ Nat.digitChar (n / 16) ∧ '\n' ≠ Nat.digitChar (n % 16) := by decide
  unfold escape
  split_ifs with hself hn hr ht hb hf hcontrol
  · rcases hself with rfl | rfl <;> decide
  · decide
  · decide
  · decide
  · decide
  · decide
  · obtain ⟨hhigh, hlow⟩ := hdigits c.toNat hcontrol
    simp only [List.mem_cons, List.not_mem_nil, or_false, not_or]
    exact ⟨by decide, by decide, by decide, by decide, hhigh, hlow⟩
  · simp only [List.mem_singleton]
    exact fun h => hn h.symm

theorem newline_not_mem_renderString (s : String) : '\n' ∉ renderString s := by
  unfold renderString
  simp only [List.mem_cons, List.mem_append, List.mem_flatMap, List.not_mem_nil, or_false, not_or,
    not_exists, not_and]
  exact ⟨by decide, fun c _ => newline_not_mem_escape c, by decide⟩

theorem newline_not_mem_renderInt (n : ℤ) : '\n' ∉ renderInt n := by
  have hdigits : '\n' ∉ Nat.toDigits 10 n.natAbs := by
    intro h
    exact absurd (Nat.isDigit_of_mem_toDigits (by decide) (by decide) h) (by decide)
  unfold renderInt
  split_ifs
  · rw [List.mem_cons, not_or]
    exact ⟨by decide, hdigits⟩
  · exact hdigits

mutual

/-- The text of a value is one line. -/
theorem newline_not_mem_render : ∀ v : Value, '\n' ∉ render v
  | .null => by unfold render; decide
  | .bool true => by unfold render; decide
  | .bool false => by unfold render; decide
  | .int n => by
    unfold render
    exact newline_not_mem_renderInt n
  | .str s => by
    unfold render
    exact newline_not_mem_renderString s
  | .arr [] => by unfold render; decide
  | .arr (v :: vs) => by
    unfold render
    rw [List.mem_cons, List.mem_append, not_or, not_or]
    exact ⟨by decide, newline_not_mem_render v, newline_not_mem_renderItems vs⟩
  | .obj [] => by unfold render; decide
  | .obj (f :: fs) => by
    unfold render
    rw [List.mem_cons, List.mem_append, not_or, not_or]
    exact ⟨by decide, newline_not_mem_renderField f, newline_not_mem_renderFields fs⟩

theorem newline_not_mem_renderItems : ∀ vs : List Value, '\n' ∉ renderItems vs
  | [] => by unfold renderItems; decide
  | v :: vs => by
    unfold renderItems
    rw [List.mem_cons, List.mem_append, not_or, not_or]
    exact ⟨by decide, newline_not_mem_render v, newline_not_mem_renderItems vs⟩

theorem newline_not_mem_renderField : ∀ f : String × Value, '\n' ∉ renderField f
  | (key, v) => by
    unfold renderField
    rw [List.mem_append, List.mem_cons, not_or, not_or]
    exact ⟨newline_not_mem_renderString key, by decide, newline_not_mem_render v⟩

theorem newline_not_mem_renderFields : ∀ fs : List (String × Value), '\n' ∉ renderFields fs
  | [] => by unfold renderFields; decide
  | f :: fs => by
    unfold renderFields
    rw [List.mem_cons, List.mem_append, not_or, not_or]
    exact ⟨by decide, newline_not_mem_renderField f, newline_not_mem_renderFields fs⟩

end

/-- So many values, one a line, are determined by the text of all lines. -/
theorem lines_injective {vs ws : List Value} (hlength : vs.length = ws.length)
    (h : "\n".intercalate (vs.map dumps) = "\n".intercalate (ws.map dumps)) : vs = ws := by
  have hlines : ∀ us : List Value, us ≠ [] →
      ("\n".intercalate (us.map dumps)).toList.splitOn '\n' = us.map render := by
    intro us hus
    rw [String.toList_intercalate, List.map_map]
    have htexts : us.map (String.toList ∘ dumps) = us.map render :=
      List.map_congr_left fun v _ => String.toList_ofList
    rw [htexts]
    refine List.splitOn_intercalate '\n' ?_ (by simpa using hus)
    intro line hline
    obtain ⟨v, -, rfl⟩ := List.mem_map.mp hline
    exact newline_not_mem_render v
  have hrender : Function.Injective render :=
    fun v w heq => dumps_injective (congrArg String.ofList heq)
  cases vs with
  | nil => exact (List.eq_nil_of_length_eq_zero hlength.symm).symm
  | cons v vs =>
    have hws : ws ≠ [] := by
      rintro rfl
      exact absurd hlength (by simp)
    have hsplit := hlines (v :: vs) (List.cons_ne_nil v vs)
    rw [h, hlines ws hws] at hsplit
    exact (List.map_injective_iff.mpr hrender hsplit).symm

/-! ## Sorted keys -/

/-- The fields of an object in the order of their keys. -/
def sortFields (fields : List (String × Value)) : List (String × Value) :=
  sortedView Prod.fst (fun _ => true) fields

mutual

/-- The value with the keys of every object sorted. -/
def sortKeys : Value → Value
  | .arr items => .arr (sortKeysItems items)
  | .obj fields => .obj (sortFields (sortKeysFields fields))
  | v => v

def sortKeysItems : List Value → List Value
  | [] => []
  | v :: vs => sortKeys v :: sortKeysItems vs

def sortKeysFields : List (String × Value) → List (String × Value)
  | [] => []
  | (key, v) :: fs => (key, sortKeys v) :: sortKeysFields fs

end

theorem sortKeysItems_eq {vs : List Value} (h : ∀ v ∈ vs, sortKeys v = v) :
    sortKeysItems vs = vs := by
  induction vs with
  | nil => rfl
  | cons v vs ih =>
    rw [List.forall_mem_cons] at h
    rw [sortKeysItems, h.1, ih h.2]

theorem sortKeysFields_eq {fs : List (String × Value)} (h : ∀ f ∈ fs, sortKeys f.2 = f.2) :
    sortKeysFields fs = fs := by
  induction fs with
  | nil => rfl
  | cons f fs ih =>
    obtain ⟨key, v⟩ := f
    rw [List.forall_mem_cons] at h
    rw [sortKeysFields, h.1, ih h.2]

end Library.JsonText
