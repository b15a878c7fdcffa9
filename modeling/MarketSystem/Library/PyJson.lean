import MarketSystem.Library.JsonText
import Mathlib.Data.List.Infix
import Mathlib.Data.Rat.Defs

/-!
# Decoded JSON values

What Python's reader makes of a JSON text: numbers with and without a fraction, the constants
`NaN` and `Infinity`, strings of code points that may be lone surrogates, and dictionaries.
Comparison is Python's `==`. A value is plain when the writer can store it as it is: it is
finite, it can be encoded, and no key of it names a secret.

The finite numbers with a fraction are a type `F` with their exact values.
-/
namespace Library

/-- A Python string: its code points. -/
abbrev Text := List ℕ

/-- A string literal. -/
def text (s : String) : Text := s.toList.map Char.toNat

inductive PyJson (F : Type)
  | null
  | bool (b : Bool)
  | int (n : ℤ)
  | float (x : F)
  | nan
  | infinity (negative : Bool)
  | str (s : Text)
  | arr (items : List (PyJson F))
  | obj (fields : List (Text × PyJson F))

namespace PyJson

variable {F : Type}

/-- A dictionary. -/
abbrev Dict (F : Type) := List (Text × PyJson F)

/-- `data.get(key)`. -/
def get (data : Dict F) (key : String) : PyJson F := (data.lookup (text key)).getD null

/-! ## Comparison -/

/-- The value of a number; `True` is one. -/
def number? (value : F → ℚ) : PyJson F → Option ℚ
  | bool b => some (if b then 1 else 0)
  | int n => some n
  | float x => some (value x)
  | _ => none

mutual

/-- Equal, or one object: the members of containers are compared like this, and the reader
makes one object of every `NaN`. -/
def same (value : F → ℚ) : PyJson F → PyJson F → Bool
  | null, w => match w with
      | null => true
      | _ => false
  | nan, w => match w with
      | nan => true
      | _ => false
  | infinity a, w => match w with
      | infinity b => a == b
      | _ => false
  | str s, w => match w with
      | str t => s == t
      | _ => false
  | arr vs, w => match w with
      | arr ws => sameItems value vs ws
      | _ => false
  | obj fs, w => match w with
      | obj gs => fs.length == gs.length && sameFields value fs gs
      | _ => false
  | bool b, w => number? value w == some (if b then 1 else 0)
  | int n, w => number? value w == some (n : ℚ)
  | float x, w => number? value w == some (value x)

def sameItems (value : F → ℚ) : List (PyJson F) → List (PyJson F) → Bool
  | [], [] => true
  | v :: vs, w :: ws => same value v w && sameItems value vs ws
  | _, _ => false

/-- Every field has an equal in the other dictionary. -/
def sameFields (value : F → ℚ) : Dict F → Dict F → Bool
  | [], _ => true
  | (key, v) :: fs, gs =>
      (match gs.lookup key with
        | some w => same value v w
        | none => false) && sameFields value fs gs

end

/-- `v == w`. -/
def eq (value : F → ℚ) (v w : PyJson F) : Bool :=
  match v with
  | nan => false
  | _ => same value v w

def isStr : PyJson F → Bool
  | str _ => true
  | _ => false

def isBool : PyJson F → Bool
  | bool _ => true
  | _ => false

def isArr : PyJson F → Bool
  | arr _ => true
  | _ => false

/-! ## Storing a value -/

/-- Lower case, as far as an ASCII letter comes of it. -/
def lower (c : ℕ) : List ℕ :=
  if 65 ≤ c ∧ c ≤ 90 then [c + 32]
  else if c = 0x212A then [107]
  else if c = 0x130 then [105, 0x307]
  else [c]

/-- One of the words occurs in the key, whatever its case. -/
def names (words : List String) (key : Text) : Bool :=
  words.any (fun word => decide (text word <:+: key.flatMap lower))

/-- Every code point is a character: there is no lone surrogate. -/
def encodes (s : Text) : Bool := s.all (fun c => decide (c.isValidChar))

mutual

/-- The value without the fields that name a secret; `none` where a number is not finite. -/
def sanitize (secrets : List String) : PyJson F → Option (PyJson F)
  | nan => none
  | infinity _ => none
  | arr items => (sanitizeItems secrets items).map arr
  | obj fields => (sanitizeFields secrets fields).map obj
  | v => some v

def sanitizeItems (secrets : List String) : List (PyJson F) → Option (List (PyJson F))
  | [] => some []
  | v :: vs =>
      match sanitize secrets v, sanitizeItems secrets vs with
      | some v, some vs => some (v :: vs)
      | _, _ => none

def sanitizeFields (secrets : List String) : Dict F → Option (Dict F)
  | [] => some []
  | (key, v) :: fs =>
      if names secrets key = true then sanitizeFields secrets fs
      else
        match sanitize secrets v, sanitizeFields secrets fs with
        | some v, some fs => some ((key, v) :: fs)
        | _, _ => none

end

mutual

/-- The text of the value can be stored as UTF-8. -/
def encodable : PyJson F → Bool
  | str s => encodes s
  | arr items => encodableItems items
  | obj fields => encodableFields fields
  | _ => true

def encodableItems : List (PyJson F) → Bool
  | [] => true
  | v :: vs => encodable v && encodableItems vs

def encodableFields : Dict F → Bool
  | [] => true
  | (key, v) :: fs => encodes key && encodable v && encodableFields fs

end

mutual

/-- Stored as it is. -/
def plain (secrets : List String) : PyJson F → Bool
  | nan => false
  | infinity _ => false
  | str s => encodes s
  | arr items => plainItems secrets items
  | obj fields => plainFields secrets fields
  | _ => true

def plainItems (secrets : List String) : List (PyJson F) → Bool
  | [] => true
  | v :: vs => plain secrets v && plainItems secrets vs

def plainFields (secrets : List String) : Dict F → Bool
  | [] => true
  | (key, v) :: fs =>
      !names secrets key && encodes key && plain secrets v && plainFields secrets fs

end

mutual

/-- No dictionary has a key twice. -/
def keyed : PyJson F → Bool
  | arr items => keyedItems items
  | obj fields => decide (fields.map Prod.fst).Nodup && keyedFields fields
  | _ => true

def keyedItems : List (PyJson F) → Bool
  | [] => true
  | v :: vs => keyed v && keyedItems vs

def keyedFields : Dict F → Bool
  | [] => true
  | (_, v) :: fs => keyed v && keyedFields fs

end

/-! ## Plain values -/

variable {value : F → ℚ} {secrets : List String}

mutual

theorem sanitize_of_plain : ∀ {v : PyJson F}, plain secrets v = true → sanitize secrets v = some v
  | null, _ => rfl
  | bool _, _ => rfl
  | int _, _ => rfl
  | float _, _ => rfl
  | nan, h => by simp [plain] at h
  | infinity _, h => by simp [plain] at h
  | str _, _ => rfl
  | arr items, h => by
    rw [plain] at h
    rw [sanitize, sanitizeItems_of_plain h]
    rfl
  | obj fields, h => by
    rw [plain] at h
    rw [sanitize, sanitizeFields_of_plain h]
    rfl

theorem sanitizeItems_of_plain : ∀ {vs : List (PyJson F)}, plainItems secrets vs = true →
    sanitizeItems secrets vs = some vs
  | [], _ => rfl
  | v :: vs, h => by
    rw [plainItems, Bool.and_eq_true] at h
    rw [sanitizeItems, sanitize_of_plain h.1, sanitizeItems_of_plain h.2]

theorem sanitizeFields_of_plain : ∀ {fs : Dict F}, plainFields secrets fs = true →
    sanitizeFields secrets fs = some fs
  | [], _ => rfl
  | (key, v) :: fs, h => by
    simp only [plainFields, Bool.and_eq_true, Bool.not_eq_true'] at h
    rw [sanitizeFields, if_neg (by rw [h.1.1.1]; exact Bool.false_ne_true),
      sanitize_of_plain h.1.2, sanitizeFields_of_plain h.2]

end

mutual

theorem encodable_of_plain : ∀ {v : PyJson F}, plain secrets v = true → encodable v = true
  | null, _ => rfl
  | bool _, _ => rfl
  | int _, _ => rfl
  | float _, _ => rfl
  | nan, _ => rfl
  | infinity _, _ => rfl
  | str _, h => by rwa [plain] at h
  | arr items, h => by
    rw [plain] at h
    rw [encodable, encodableItems_of_plain h]
  | obj fields, h => by
    rw [plain] at h
    rw [encodable, encodableFields_of_plain h]

theorem encodableItems_of_plain : ∀ {vs : List (PyJson F)}, plainItems secrets vs = true →
    encodableItems vs = true
  | [], _ => rfl
  | v :: vs, h => by
    rw [plainItems, Bool.and_eq_true] at h
    rw [encodableItems, encodable_of_plain h.1, encodableItems_of_plain h.2, Bool.and_true]

theorem encodableFields_of_plain : ∀ {fs : Dict F}, plainFields secrets fs = true →
    encodableFields fs = true
  | [], _ => rfl
  | (key, v) :: fs, h => by
    simp only [plainFields, Bool.and_eq_true] at h
    rw [encodableFields, h.1.1.2, encodable_of_plain h.1.2, encodableFields_of_plain h.2,
      Bool.and_true, Bool.and_true]

end

mutual

/-- A value is the same as itself, when its dictionaries have no key twice. -/
theorem same_self : ∀ {v : PyJson F}, keyed v = true → same value v v = true
  | null, _ => rfl
  | bool b, _ => by simp [same, number?]
  | int n, _ => by simp [same, number?]
  | float x, _ => by simp [same, number?]
  | nan, _ => rfl
  | infinity _, _ => by simp [same]
  | str _, _ => by simp [same]
  | arr items, h => by
    rw [keyed] at h
    rw [same, sameItems_self h]
  | obj fields, h => by
    rw [keyed, Bool.and_eq_true, decide_eq_true_eq] at h
    rw [same, beq_self_eq_true, Bool.true_and]
    exact sameFields_self h.2 fun key v hv => (mem_iff_lookup h.1).mp hv

theorem sameItems_self : ∀ {vs : List (PyJson F)}, keyedItems vs = true →
    sameItems value vs vs = true
  | [], _ => rfl
  | v :: vs, h => by
    rw [keyedItems, Bool.and_eq_true] at h
    rw [sameItems, same_self h.1, sameItems_self h.2, Bool.and_true]

theorem sameFields_self : ∀ {fs gs : Dict F}, keyedFields fs = true →
    (∀ key v, (key, v) ∈ fs → gs.lookup key = some v) → sameFields value fs gs = true
  | [], _, _, _ => rfl
  | (key, v) :: fs, gs, h, hgs => by
    rw [keyedFields, Bool.and_eq_true] at h
    have hrest : ∀ k w, (k, w) ∈ fs → gs.lookup k = some w :=
      fun k w hw => hgs k w (List.mem_cons_of_mem _ hw)
    rw [sameFields, hgs key v List.mem_cons_self]
    dsimp only
    rw [same_self h.1, sameFields_self h.2 hrest, Bool.and_true]

end

theorem length_sanitizeFields_le {fs gs : Dict F} (h : sanitizeFields secrets fs = some gs) :
    gs.length ≤ fs.length := by
  induction fs generalizing gs with
  | nil => simp_all [sanitizeFields]
  | cons f fs ih =>
    obtain ⟨key, v⟩ := f
    rw [sanitizeFields] at h
    split_ifs at h with hsecret
    · have := ih h
      rw [List.length_cons]
      omega
    · split at h
      · next w rest hv hrest =>
        obtain rfl := Option.some.inj h
        have := ih hrest
        rw [List.length_cons, List.length_cons]
        omega
      · cases h

mutual

/-- A value that is stored and still the same was plain. -/
theorem plain_of_same : ∀ {v w : PyJson F}, keyed v = true → sanitize secrets v = some w →
    encodable w = true → same value w v = true → plain secrets v = true
  | null, _, _, _, _, _ => rfl
  | bool _, _, _, _, _, _ => rfl
  | int _, _, _, _, _, _ => rfl
  | float _, _, _, _, _, _ => rfl
  | nan, _, _, h, _, _ => by simp [sanitize] at h
  | infinity _, _, _, h, _, _ => by simp [sanitize] at h
  | str s, w, _, h, hencodable, _ => by
    have hstr : sanitize secrets (str s : PyJson F) = some (str s) := rfl
    rw [hstr, Option.some.injEq] at h
    subst h
    rw [encodable] at hencodable
    rw [plain, hencodable]
  | arr items, w, hkeyed, h, hencodable, hsame => by
    rw [keyed] at hkeyed
    rw [sanitize, Option.map_eq_some_iff] at h
    obtain ⟨ws, hws, rfl⟩ := h
    rw [encodable] at hencodable
    rw [same] at hsame
    rw [plain]
    exact plainItems_of_same hkeyed hws hencodable hsame
  | obj fields, w, hkeyed, h, hencodable, hsame => by
    rw [keyed, Bool.and_eq_true, decide_eq_true_eq] at hkeyed
    rw [sanitize, Option.map_eq_some_iff] at h
    obtain ⟨gs, hgs, rfl⟩ := h
    rw [encodable] at hencodable
    rw [same, Bool.and_eq_true, beq_iff_eq] at hsame
    rw [plain]
    exact plainFields_of_same hkeyed.2 hgs hsame.1 hencodable hsame.2
      fun key v hv => (mem_iff_lookup hkeyed.1).mp hv

theorem plainItems_of_same : ∀ {vs ws : List (PyJson F)}, keyedItems vs = true →
    sanitizeItems secrets vs = some ws → encodableItems ws = true →
    sameItems value ws vs = true → plainItems secrets vs = true
  | [], _, _, _, _, _ => rfl
  | v :: vs, ws, hkeyed, h, hencodable, hsame => by
    rw [keyedItems, Bool.and_eq_true] at hkeyed
    rw [sanitizeItems] at h
    split at h
    · next w rest hw hrest =>
      obtain rfl := Option.some.inj h
      rw [encodableItems, Bool.and_eq_true] at hencodable
      rw [sameItems, Bool.and_eq_true] at hsame
      rw [plainItems, plain_of_same hkeyed.1 hw hencodable.1 hsame.1,
        plainItems_of_same hkeyed.2 hrest hencodable.2 hsame.2, Bool.and_true]
    · cases h

theorem plainFields_of_same : ∀ {fs gs all : Dict F}, keyedFields fs = true →
    sanitizeFields secrets fs = some gs → gs.length = fs.length → encodableFields gs = true →
    sameFields value gs all = true →
    (∀ key v, (key, v) ∈ fs → all.lookup key = some v) → plainFields secrets fs = true
  | [], _, _, _, _, _, _, _, _ => rfl
  | (key, v) :: fs, gs, all, hkeyed, h, hlength, hencodable, hsame, hall => by
    rw [keyedFields, Bool.and_eq_true] at hkeyed
    rw [sanitizeFields] at h
    split_ifs at h with hsecret
    · have hle := length_sanitizeFields_le h
      rw [List.length_cons] at hlength
      omega
    · split at h
      · next w rest hw hrest =>
        obtain rfl := Option.some.inj h
        rw [List.length_cons, List.length_cons, Nat.add_right_cancel_iff] at hlength
        simp only [encodableFields, Bool.and_eq_true] at hencodable
        rw [sameFields, hall key v List.mem_cons_self, Bool.and_eq_true] at hsame
        have htail := plainFields_of_same hkeyed.2 hrest hlength hencodable.2 hsame.2
          fun k u hu => hall k u (List.mem_cons_of_mem _ hu)
        have hpublic : names secrets key = false := by simpa using hsecret
        rw [plainFields, hpublic, hencodable.1.1,
          plain_of_same hkeyed.1 hw hencodable.1.2 hsame.1, htail]
        rfl
      · cases h

end

/-- The plain values are those that are stored and then equal to what they were. -/
theorem stored_eq_iff {v : PyJson F} (hkeyed : keyed v = true) :
    (∃ w, sanitize secrets v = some w ∧ encodable w = true ∧ eq value w v = true) ↔
      plain secrets v = true := by
  constructor
  · rintro ⟨w, hw, hencodable, heq⟩
    have hsame : same value w v = true := by
      cases w with
      | nan => cases heq
      | _ => exact heq
    exact plain_of_same hkeyed hw hencodable hsame
  · intro h
    refine ⟨v, sanitize_of_plain h, encodable_of_plain h, ?_⟩
    cases v with
    | nan => simp [plain] at h
    | _ => exact same_self hkeyed

theorem keyed_of_mem {fields : Dict F} (h : keyedFields fields = true) {key : Text} {v : PyJson F}
    (hv : (key, v) ∈ fields) : keyed v = true := by
  induction fields with
  | nil => cases hv
  | cons f fields ih =>
    obtain ⟨k, w⟩ := f
    rw [keyedFields, Bool.and_eq_true] at h
    rcases List.mem_cons.mp hv with heq | hv
    · obtain ⟨rfl, rfl⟩ := Prod.mk.injEq .. ▸ heq
      exact h.1
    · exact ih h.2 hv

theorem keyed_get {data : Dict F} (h : keyed (obj data) = true) (key : String) :
    keyed (get data key) = true := by
  rw [keyed, Bool.and_eq_true, decide_eq_true_eq] at h
  unfold get
  cases hlookup : data.lookup (text key) with
  | none => rfl
  | some v => exact keyed_of_mem h.2 ((mem_iff_lookup h.1).mpr hlookup)

theorem keys_sanitizeFields {fs gs : Dict F} (h : sanitizeFields secrets fs = some gs) :
    (gs.map Prod.fst).Sublist (fs.map Prod.fst) := by
  induction fs generalizing gs with
  | nil =>
    rw [sanitizeFields, Option.some.injEq] at h
    subst h
    exact List.Sublist.refl _
  | cons f fs ih =>
    obtain ⟨key, v⟩ := f
    rw [sanitizeFields] at h
    split_ifs at h with hsecret
    · exact (ih h).cons _
    · split at h
      · next w rest hv hrest =>
        obtain rfl := Option.some.inj h
        exact (ih hrest).cons_cons _
      · cases h

mutual

/-- What is stored has every key once. -/
theorem keyed_sanitize : ∀ {v w : PyJson F}, keyed v = true → sanitize secrets v = some w →
    keyed w = true
  | null, w, _, h => by obtain rfl := Option.some.inj h; rfl
  | bool _, w, _, h => by obtain rfl := Option.some.inj h; rfl
  | int _, w, _, h => by obtain rfl := Option.some.inj h; rfl
  | float _, w, _, h => by obtain rfl := Option.some.inj h; rfl
  | nan, w, _, h => by simp [sanitize] at h
  | infinity _, w, _, h => by simp [sanitize] at h
  | str _, w, _, h => by obtain rfl := Option.some.inj h; rfl
  | arr items, w, hkeyed, h => by
    rw [keyed] at hkeyed
    rw [sanitize, Option.map_eq_some_iff] at h
    obtain ⟨ws, hws, rfl⟩ := h
    rw [keyed]
    exact keyedItems_sanitize hkeyed hws
  | obj fields, w, hkeyed, h => by
    rw [keyed, Bool.and_eq_true, decide_eq_true_eq] at hkeyed
    rw [sanitize, Option.map_eq_some_iff] at h
    obtain ⟨gs, hgs, rfl⟩ := h
    rw [keyed, Bool.and_eq_true, decide_eq_true_eq]
    exact ⟨hkeyed.1.sublist (keys_sanitizeFields hgs), keyedFields_sanitize hkeyed.2 hgs⟩

theorem keyedItems_sanitize : ∀ {vs ws : List (PyJson F)}, keyedItems vs = true →
    sanitizeItems secrets vs = some ws → keyedItems ws = true
  | [], ws, _, h => by obtain rfl := Option.some.inj h; rfl
  | v :: vs, ws, hkeyed, h => by
    rw [keyedItems, Bool.and_eq_true] at hkeyed
    rw [sanitizeItems] at h
    split at h
    · next w rest hw hrest =>
      obtain rfl := Option.some.inj h
      rw [keyedItems, keyed_sanitize hkeyed.1 hw, keyedItems_sanitize hkeyed.2 hrest,
        Bool.and_true]
    · cases h

theorem keyedFields_sanitize : ∀ {fs gs : Dict F}, keyedFields fs = true →
    sanitizeFields secrets fs = some gs → keyedFields gs = true
  | [], gs, _, h => by obtain rfl := Option.some.inj h; rfl
  | (key, v) :: fs, gs, hkeyed, h => by
    rw [keyedFields, Bool.and_eq_true] at hkeyed
    rw [sanitizeFields] at h
    split_ifs at h with hsecret
    · exact keyedFields_sanitize hkeyed.2 h
    · split at h
      · next w rest hw hrest =>
        obtain rfl := Option.some.inj h
        rw [keyedFields, keyed_sanitize hkeyed.1 hw, keyedFields_sanitize hkeyed.2 hrest,
          Bool.and_true]
      · cases h

end

mutual

/-- What is stored is plain, if it can be encoded. -/
theorem plain_sanitize : ∀ {v w : PyJson F}, sanitize secrets v = some w → encodable w = true →
    plain secrets w = true
  | null, w, h, _ => by obtain rfl := Option.some.inj h; rfl
  | bool _, w, h, _ => by obtain rfl := Option.some.inj h; rfl
  | int _, w, h, _ => by obtain rfl := Option.some.inj h; rfl
  | float _, w, h, _ => by obtain rfl := Option.some.inj h; rfl
  | nan, w, h, _ => by simp [sanitize] at h
  | infinity _, w, h, _ => by simp [sanitize] at h
  | str _, w, h, hencodable => by
    obtain rfl := Option.some.inj h
    rw [encodable] at hencodable
    rw [plain, hencodable]
  | arr items, w, h, hencodable => by
    rw [sanitize, Option.map_eq_some_iff] at h
    obtain ⟨ws, hws, rfl⟩ := h
    rw [encodable] at hencodable
    rw [plain]
    exact plainItems_sanitize hws hencodable
  | obj fields, w, h, hencodable => by
    rw [sanitize, Option.map_eq_some_iff] at h
    obtain ⟨gs, hgs, rfl⟩ := h
    rw [encodable] at hencodable
    rw [plain]
    exact plainFields_sanitize hgs hencodable

theorem plainItems_sanitize : ∀ {vs ws : List (PyJson F)},
    sanitizeItems secrets vs = some ws → encodableItems ws = true → plainItems secrets ws = true
  | [], ws, h, _ => by obtain rfl := Option.some.inj h; rfl
  | v :: vs, ws, h, hencodable => by
    rw [sanitizeItems] at h
    split at h
    · next w rest hw hrest =>
      obtain rfl := Option.some.inj h
      rw [encodableItems, Bool.and_eq_true] at hencodable
      rw [plainItems, plain_sanitize hw hencodable.1, plainItems_sanitize hrest hencodable.2,
        Bool.and_true]
    · cases h

theorem plainFields_sanitize : ∀ {fs gs : Dict F},
    sanitizeFields secrets fs = some gs → encodableFields gs = true → plainFields secrets gs = true
  | [], gs, h, _ => by obtain rfl := Option.some.inj h; rfl
  | (key, v) :: fs, gs, h, hencodable => by
    rw [sanitizeFields] at h
    split_ifs at h with hsecret
    · exact plainFields_sanitize h hencodable
    · split at h
      · next w rest hw hrest =>
        obtain rfl := Option.some.inj h
        simp only [encodableFields, Bool.and_eq_true] at hencodable
        have hpublic : names secrets key = false := by simpa using hsecret
        rw [plainFields, hpublic, hencodable.1.1, plain_sanitize hw hencodable.1.2,
          plainFields_sanitize hrest hencodable.2]
        rfl
      · cases h

end

/-! ## Values without fractions as texts -/

/-- A string of characters. -/
def ofText (s : Text) : String := String.ofList (s.map Char.ofNat)

theorem ofText_text (s : String) : ofText (text s) = s := by
  unfold ofText text
  rw [List.map_map]
  have hid : s.toList.map (Char.ofNat ∘ Char.toNat) = s.toList :=
    List.map_id'' (fun c => Char.ofNat_toNat c) _
  rw [hid, String.ofList_toList]

theorem text_ofText {s : Text} (h : encodes s = true) : text (ofText s) = s := by
  unfold encodes at h
  rw [List.all_eq_true] at h
  unfold text ofText
  rw [String.toList_ofList, List.map_map]
  induction s with
  | nil => rfl
  | cons c s ih =>
    rw [List.forall_mem_cons, decide_eq_true_eq] at h
    have hc : (Char.ofNat c).toNat = c := by
      unfold Char.ofNat
      rw [dif_pos h.1]
      rfl
    rw [List.map_cons, ih h.2, Function.comp_apply, hc]

mutual

def ofValue : JsonText.Value → PyJson Empty
  | .null => null
  | .bool b => bool b
  | .int n => int n
  | .str s => str (text s)
  | .arr items => arr (ofItems items)
  | .obj fields => obj (ofFields fields)

def ofItems : List JsonText.Value → List (PyJson Empty)
  | [] => []
  | v :: vs => ofValue v :: ofItems vs

def ofFields : List (String × JsonText.Value) → Dict Empty
  | [] => []
  | (key, v) :: fs => (text key, ofValue v) :: ofFields fs

end

mutual

def toValue : PyJson Empty → JsonText.Value
  | bool b => .bool b
  | int n => .int n
  | str s => .str (ofText s)
  | arr items => .arr (toItems items)
  | obj fields => .obj (toFields fields)
  | _ => .null

def toItems : List (PyJson Empty) → List JsonText.Value
  | [] => []
  | v :: vs => toValue v :: toItems vs

def toFields : Dict Empty → List (String × JsonText.Value)
  | [] => []
  | (key, v) :: fs => (ofText key, toValue v) :: toFields fs

end

mutual

theorem ofValue_toValue : ∀ {v : PyJson Empty}, plain secrets v = true → ofValue (toValue v) = v
  | null, _ => rfl
  | bool _, _ => rfl
  | int _, _ => rfl
  | float x, _ => nomatch x
  | nan, h => by simp [plain] at h
  | infinity _, h => by simp [plain] at h
  | str s, h => by
    rw [plain] at h
    rw [toValue, ofValue, text_ofText h]
  | arr items, h => by
    rw [plain] at h
    rw [toValue, ofValue, ofItems_toItems h]
  | obj fields, h => by
    rw [plain] at h
    rw [toValue, ofValue, ofFields_toFields h]

theorem ofItems_toItems : ∀ {vs : List (PyJson Empty)}, plainItems secrets vs = true →
    ofItems (toItems vs) = vs
  | [], _ => rfl
  | v :: vs, h => by
    rw [plainItems, Bool.and_eq_true] at h
    rw [toItems, ofItems, ofValue_toValue h.1, ofItems_toItems h.2]

theorem ofFields_toFields : ∀ {fs : Dict Empty}, plainFields secrets fs = true →
    ofFields (toFields fs) = fs
  | [], _ => rfl
  | (key, v) :: fs, h => by
    simp only [plainFields, Bool.and_eq_true] at h
    rw [toFields, ofFields, text_ofText h.1.1.2, ofValue_toValue h.1.2, ofFields_toFields h.2]

end

/-- The value of a text in which no dictionary repeats a key. -/
def readText (t : String) : Option (PyJson Empty) :=
  ((JsonText.loads t).map ofValue).filter keyed

def writeText (v : PyJson Empty) : String := JsonText.dumps (toValue v)

theorem keyed_of_readText {t : String} {v : PyJson Empty} (h : readText t = some v) :
    keyed v = true := by
  unfold readText at h
  exact (Option.filter_eq_some_iff.mp h).2

theorem readText_writeText {v : PyJson Empty} (hkeyed : keyed v = true)
    (hplain : plain secrets v = true) : readText (writeText v) = some v := by
  unfold readText writeText
  rw [JsonText.loads_dumps, Option.map_some, ofValue_toValue hplain]
  exact Option.filter_eq_some_iff.mpr ⟨rfl, hkeyed⟩

end PyJson

end Library
