import MarketSystem.Library.IsoRead
import MarketSystem.Library.NumberText
import MarketSystem.Storage.EconomicDigest

/-!
# The encoding of run evidence

`rex_encode` writes an observed value as JSON with its types: a number that is not an integer, a
decimal and a time are objects with one key that begins with a dollar sign, a dataclass is one with
its fields beside its name. The journal keeps the canonical text of it and a digest of the text.
-/
namespace MarketSystem.Rex

open Library Library.JsonText Library.NumberText Library.IsoTime
open MarketSystem.EconomicDigest (cj hashed digestOf)

def rexVersion : String := "V2REX/1"

def rexMaxBytes : ℕ := 2000000

/-- A real number that is neither an integer nor a decimal. -/
inductive Real
  | float (x : Binary64)
  /-- Not a number, or an infinity. -/
  | notFinite
  | fraction (q : ℚ)
  deriving DecidableEq

/-- A key of a dictionary. -/
inductive Key
  | str (s : String)
  | other

/-- The values that are recorded. -/
inductive Value
  | none
  | bool (b : Bool)
  | str (s : String)
  | integral (n : ℤ)
  | decimal (d : Decimal)
  | specialDecimal
  | real (r : Real)
  | datetime (t : Stamp)
  | dataclass (name : String) (fields : List (String × Value))
  | list (items : List Value)
  | tuple (items : List Value)
  | dict (entries : List (Key × Value))
  /-- An `_Encoded`: a value that was encoded when it was observed. -/
  | encoded (form : JsonText.Value)
  | other (typeName : String)

/-- What is raised. -/
inductive Failure
  | value (message : String)
  | type (message : String)
  | overflow
  | rex (message : String)
  deriving DecidableEq

/-- An object that wraps a text with its type. -/
def typed (key : String) (text : List Char) : JsonText.Value :=
  .obj [(key, .str (String.ofList text))]

def encodeReal : Real → Except Failure JsonText.Value
  | .float x => .ok (typed "$f" (hex x))
  | .notFinite => .error (.value "non-finite REAL")
  | .fraction q =>
      match Binary64.nearest q with
      | some x => .ok (typed "$f" (hex x))
      | none => .error .overflow

def encodeDatetime (t : Stamp) : Except Failure JsonText.Value :=
  match t.offset with
  | none => .error (.value "naive datetime")
  | some _ =>
      if Representable t.instant then .ok (typed "$t" (utc t.instant)) else .error .overflow

/-- A key as it is written. -/
def keyText : Key → Except Failure String
  | .str s =>
      if s.toList.head? = some '$' then
        .error (.value "REX object keys must be strings not starting with '$'")
      else .ok s
  | .other => .error (.value "REX object keys must be strings not starting with '$'")

mutual

/-- `rex_encode` -/
def rexEncode : Value → Except Failure JsonText.Value
  | .encoded form => .ok form
  | .none => .ok .null
  | .bool b => .ok (.bool b)
  | .str s => .ok (.str s)
  | .integral n => .ok (.int n)
  | .decimal d => .ok (typed "$d" d.text)
  | .specialDecimal => .error (.value "non-finite Decimal")
  | .real r => encodeReal r
  | .datetime t => encodeDatetime t
  | .dataclass name fields =>
      match encodeFields fields with
      | .ok encoded => .ok (.obj (("$type", .str name) :: encoded))
      | .error e => .error e
  | .list items =>
      match encodeItems items with
      | .ok encoded => .ok (.arr encoded)
      | .error e => .error e
  | .tuple items =>
      match encodeItems items with
      | .ok encoded => .ok (.arr encoded)
      | .error e => .error e
  | .dict entries =>
      match encodeEntries entries with
      | .ok encoded => .ok (.obj encoded)
      | .error e => .error e
  | .other typeName => .error (.type ("unsupported REX value: " ++ typeName))

def encodeItems : List Value → Except Failure (List JsonText.Value)
  | [] => .ok []
  | v :: vs =>
      match rexEncode v with
      | .error e => .error e
      | .ok j =>
          match encodeItems vs with
          | .ok js => .ok (j :: js)
          | .error e => .error e

def encodeFields : List (String × Value) → Except Failure (List (String × JsonText.Value))
  | [] => .ok []
  | (name, v) :: fs =>
      match rexEncode v with
      | .error e => .error e
      | .ok j =>
          match encodeFields fs with
          | .ok js => .ok ((name, j) :: js)
          | .error e => .error e

def encodeEntries : List (Key × Value) → Except Failure (List (String × JsonText.Value))
  | [] => .ok []
  | (key, v) :: es =>
      match keyText key with
      | .error e => .error e
      | .ok text =>
          match rexEncode v with
          | .error e => .error e
          | .ok j =>
              match encodeEntries es with
              | .ok js => .ok ((text, j) :: js)
              | .error e => .error e

end

/-- The payload of a row of the journal. -/
structure Payload where
  rex : String
  rexDigest : String
  deriving DecidableEq

/-- `rex_payload` -/
def rexPayload (sha256 : String → String) (record : Value) : Except Failure Payload :=
  match rexEncode record with
  | .error e => .error e
  | .ok form =>
      if rexMaxBytes < (cj form).utf8ByteSize then
        .error (.rex "REX payload above REX_MAX_BYTES")
      else .ok ⟨cj form, digestOf sha256 rexVersion (cj form)⟩

theorem rexPayload_ok {sha256 : String → String} {record : Value} {p : Payload}
    (h : rexPayload sha256 record = .ok p) :
    ∃ form, rexEncode record = .ok form ∧ p.rexDigest = sha256 (hashed rexVersion (cj form)) := by
  unfold rexPayload at h
  cases hform : rexEncode record with
  | error e =>
    rw [hform] at h
    cases h
  | ok form =>
    rw [hform] at h
    dsimp only at h
    split_ifs at h
    obtain rfl := Except.ok.inj h
    exact ⟨form, rfl, rfl⟩

/-! ## Inversion -/

section Inversion

variable {j : JsonText.Value}

theorem encodeReal_ok {r : Real} (h : encodeReal r = .ok j) :
    ∃ x, j = typed "$f" (hex x) ∧ (r = .float x ∨ ∃ q, r = .fraction q ∧ Binary64.nearest q = some x) := by
  cases r with
  | float x =>
    obtain rfl := Except.ok.inj h
    exact ⟨x, rfl, .inl rfl⟩
  | notFinite => cases h
  | fraction q =>
    unfold encodeReal at h
    dsimp only at h
    cases hx : Binary64.nearest q with
    | none =>
      rw [hx] at h
      cases h
    | some x =>
      rw [hx] at h
      obtain rfl := Except.ok.inj h
      exact ⟨x, rfl, .inr ⟨q, rfl, hx⟩⟩

theorem encodeDatetime_ok {t : Stamp} (h : encodeDatetime t = .ok j) :
    Representable t.instant ∧ j = typed "$t" (utc t.instant) := by
  unfold encodeDatetime at h
  cases ho : t.offset with
  | none =>
    rw [ho] at h
    cases h
  | some o =>
    rw [ho] at h
    dsimp only at h
    split_ifs at h with hrepresentable
    exact ⟨hrepresentable, (Except.ok.inj h).symm⟩

theorem keyText_ok {key : Key} {text : String} (h : keyText key = .ok text) :
    key = .str text ∧ text.toList.head? ≠ some '$' := by
  cases key with
  | str s =>
    unfold keyText at h
    dsimp only at h
    split_ifs at h with hdollar
    obtain rfl := Except.ok.inj h
    exact ⟨rfl, hdollar⟩
  | other => cases h

theorem encodeItems_cons {v : Value} {vs : List Value} {js : List JsonText.Value}
    (h : encodeItems (v :: vs) = .ok js) :
    ∃ j rest, js = j :: rest ∧ rexEncode v = .ok j ∧ encodeItems vs = .ok rest := by
  unfold encodeItems at h
  cases hv : rexEncode v with
  | error e =>
    rw [hv] at h
    cases h
  | ok j =>
    cases hvs : encodeItems vs with
    | error e =>
      rw [hv, hvs] at h
      cases h
    | ok rest =>
      rw [hv, hvs] at h
      exact ⟨j, rest, (Except.ok.inj h).symm, rfl, rfl⟩

theorem encodeFields_cons {name : String} {v : Value} {fs : List (String × Value)}
    {js : List (String × JsonText.Value)} (h : encodeFields ((name, v) :: fs) = .ok js) :
    ∃ j rest, js = (name, j) :: rest ∧ rexEncode v = .ok j ∧ encodeFields fs = .ok rest := by
  unfold encodeFields at h
  cases hv : rexEncode v with
  | error e =>
    rw [hv] at h
    cases h
  | ok j =>
    cases hfs : encodeFields fs with
    | error e =>
      rw [hv, hfs] at h
      cases h
    | ok rest =>
      rw [hv, hfs] at h
      exact ⟨j, rest, (Except.ok.inj h).symm, rfl, rfl⟩

theorem encodeEntries_cons {key : Key} {v : Value} {es : List (Key × Value)}
    {js : List (String × JsonText.Value)} (h : encodeEntries ((key, v) :: es) = .ok js) :
    ∃ text j rest, js = (text, j) :: rest ∧ keyText key = .ok text ∧ rexEncode v = .ok j ∧
      encodeEntries es = .ok rest := by
  unfold encodeEntries at h
  cases hkey : keyText key with
  | error e =>
    rw [hkey] at h
    cases h
  | ok text =>
    cases hv : rexEncode v with
    | error e =>
      rw [hkey, hv] at h
      cases h
    | ok j =>
      cases hes : encodeEntries es with
      | error e =>
        rw [hkey, hv, hes] at h
        cases h
      | ok rest =>
        rw [hkey, hv, hes] at h
        exact ⟨text, j, rest, (Except.ok.inj h).symm, rfl, rfl, rfl⟩

end Inversion

end MarketSystem.Rex
