import MarketSystem.Runtime.Rex

/-!
# Reading run evidence back

`decode` turns the JSON of a record into values again. What it gives back is the observation that
was recorded: a tuple is a list, a dataclass a dictionary with its type, a time the instant in UTC,
and the entries of a dictionary have no order. A fraction is recorded as the float that is nearest
to it, so it is given back where a float equals it.
-/
namespace MarketSystem.Rex

open Library Library.JsonText Library.NumberText Library.IsoTime
open MarketSystem.EconomicDigest (cj hashed hashed_inj)

/-- The values that the reader has. The entries of a dictionary are in the order of their keys. -/
inductive Decoded
  | none
  | bool (b : Bool)
  | str (s : String)
  | int (n : ℤ)
  | decimal (d : Decimal)
  | real (r : Real)
  /-- A time of UTC. -/
  | time (t : ℤ)
  | list (items : List Decoded)
  | dict (entries : List (String × Decoded))

/-- The one field of an object whose only key is this one. -/
def wrapped (key : String) : List (String × JsonText.Value) → Option JsonText.Value
  | [(k, v)] => if k = key then some v else none
  | _ => none

def textOf : JsonText.Value → Option (List Char)
  | .str s => some s.toList
  | _ => none

/-- `parse_time` -/
def parseTime (cs : List Char) : Option ℤ :=
  match readStamp cs with
  | none => none
  | some t =>
      match t.offset with
      | none => none
      | some _ => if Representable t.instant then some t.instant else none

mutual

/-- `decode`, of texts of finite numbers; `none` where it raises. -/
def decode : JsonText.Value → Option Decoded
  | .null => some .none
  | .bool b => some (.bool b)
  | .int n => some (.int n)
  | .str s => some (.str s)
  | .arr items => (decodeItems items).map .list
  | .obj fields =>
      match wrapped "$f" fields with
      | some v => ((textOf v).bind fromHex).map fun x => .real (.float x)
      | none =>
          match wrapped "$d" fields with
          | some v => ((textOf v).bind readDecimal).map .decimal
          | none =>
              match wrapped "$t" fields with
              | some v => ((textOf v).bind parseTime).map .time
              | none => (decodeFields fields).map .dict

def decodeItems : List JsonText.Value → Option (List Decoded)
  | [] => some []
  | v :: vs =>
      match decode v, decodeItems vs with
      | some d, some ds => some (d :: ds)
      | _, _ => none

def decodeFields : List (String × JsonText.Value) → Option (List (String × Decoded))
  | [] => some []
  | (key, v) :: fs =>
      match decode v, decodeFields fs with
      | some d, some ds => some ((key, d) :: ds)
      | _, _ => none

end

/-! ## Observations -/

/-- A fraction that a float equals is that float. -/
def Real.reduced : Real → Real
  | .fraction q =>
      match Binary64.nearest q with
      | some x => if x.value = q then .float x else .fraction q
      | none => .fraction q
  | r => r

def entriesOf (entries : List (String × Decoded)) : Decoded :=
  .dict (sortedView Prod.fst (fun _ => true) entries)

mutual

/-- What is observed of a value. An encoded part was observed before: it is what it decodes to. -/
def observe : Value → Decoded
  | .none => .none
  | .bool b => .bool b
  | .str s => .str s
  | .integral n => .int n
  | .decimal d => .decimal d
  | .real r => .real r.reduced
  | .datetime t => .time t.instant
  | .dataclass name fields => entriesOf (("$type", .str name) :: observeFields fields)
  | .list items => .list (observeItems items)
  | .tuple items => .list (observeItems items)
  | .dict entries => entriesOf (observeEntries entries)
  | .encoded form => (decode (sortKeys form)).getD .none
  | .specialDecimal => .none
  | .other _ => .none

def observeItems : List Value → List Decoded
  | [] => []
  | v :: vs => observe v :: observeItems vs

def observeFields : List (String × Value) → List (String × Decoded)
  | [] => []
  | (name, v) :: fs => (name, observe v) :: observeFields fs

def observeEntries : List (Key × Value) → List (String × Decoded)
  | [] => []
  | (.str key, v) :: es => (key, observe v) :: observeEntries es
  | (.other, _) :: es => observeEntries es

end

/-- A float equals the number. -/
def Real.Exact : Real → Prop
  | .fraction q => ∃ x, Binary64.nearest q = some x ∧ x.value = q
  | _ => True

mutual

/-- Every real number in a value is that of a float, and what was encoded before can be read. -/
def Value.Exact : Value → Prop
  | .real r => r.Exact
  | .encoded form => (decode (sortKeys form)).isSome = true
  | .dataclass _ fields => ExactFields fields
  | .list items => ExactItems items
  | .tuple items => ExactItems items
  | .dict entries => ExactEntries entries
  | _ => True

def ExactItems : List Value → Prop
  | [] => True
  | v :: vs => v.Exact ∧ ExactItems vs

def ExactFields : List (String × Value) → Prop
  | [] => True
  | (_, v) :: fs => v.Exact ∧ ExactFields fs

def ExactEntries : List (Key × Value) → Prop
  | [] => True
  | (_, v) :: es => v.Exact ∧ ExactEntries es

end

/-! ## Wrapped texts -/

theorem wrapped_singleton (key k : String) (v : JsonText.Value) :
    wrapped key [(k, v)] = if k = key then some v else none := rfl

theorem decode_float (x : Binary64) : decode (typed "$f" (hex x)) = some (.real (.float x)) := by
  unfold typed decode
  rw [wrapped_singleton, if_pos rfl]
  simp only [textOf, String.toList_ofList, Option.bind_some, fromHex_hex, Option.map_some]

theorem decode_decimal (d : Decimal) : decode (typed "$d" d.text) = some (.decimal d) := by
  unfold typed decode
  rw [wrapped_singleton, if_neg (by decide), wrapped_singleton, if_pos rfl]
  simp only [textOf, String.toList_ofList, Option.bind_some, readDecimal_text, Option.map_some]

theorem parseTime_utc {t : ℤ} (ht : Representable t) : parseTime (utc t) = some t := by
  unfold parseTime
  rw [readStamp_utc ht]
  show (if Representable (t - 0) then some (t - 0) else none) = some t
  rw [Int.sub_zero, if_pos ht]

theorem decode_time {t : ℤ} (ht : Representable t) :
    decode (typed "$t" (utc t)) = some (.time t) := by
  unfold typed decode
  rw [wrapped_singleton, if_neg (by decide), wrapped_singleton, if_neg (by decide),
    wrapped_singleton, if_pos rfl]
  simp only [textOf, String.toList_ofList, Option.bind_some, parseTime_utc ht, Option.map_some]

/-- An object with one key is its own sorted form. -/
theorem sortKeys_typed (key : String) (text : List Char) :
    sortKeys (typed key text) = typed key text := by
  unfold typed
  simp only [sortKeys, sortKeysFields]
  rfl

/-! ## Objects -/

theorem wrapped_eq_none {key : String} {fields : List (String × JsonText.Value)}
    (h : key ∉ fields.map Prod.fst) : wrapped key fields = none := by
  unfold wrapped
  split
  · next k v =>
    refine if_neg ?_
    rintro rfl
    exact h (List.mem_singleton.mpr rfl)
  · rfl

/-- An object without a marked key is read field by field. -/
theorem decode_obj {fields : List (String × JsonText.Value)}
    (h : ∀ key ∈ ["$f", "$d", "$t"], wrapped key fields = none) :
    decode (.obj fields) = (decodeFields fields).map .dict := by
  rw [decode, h "$f" (by decide), h "$d" (by decide), h "$t" (by decide)]

theorem decodeItems_cons {v : JsonText.Value} {vs : List JsonText.Value} {d : Decoded}
    {ds : List Decoded} (hv : decode v = some d) (hvs : decodeItems vs = some ds) :
    decodeItems (v :: vs) = some (d :: ds) := by
  rw [decodeItems, hv, hvs]

theorem decodeFields_cons {key : String} {v : JsonText.Value} {fs : List (String × JsonText.Value)}
    {d : Decoded} {ds : List (String × Decoded)} (hv : decode v = some d)
    (hfs : decodeFields fs = some ds) :
    decodeFields ((key, v) :: fs) = some ((key, d) :: ds) := by
  rw [decodeFields, hv, hfs]

/-- A field is read under its key. -/
def Reads (f : String × JsonText.Value) (d : String × Decoded) : Prop :=
  f.1 = d.1 ∧ decode f.2 = some d.2

theorem decodeFields_iff {fs : List (String × JsonText.Value)} {ds : List (String × Decoded)} :
    decodeFields fs = some ds ↔ List.Forall₂ Reads fs ds := by
  constructor
  · intro h
    induction fs generalizing ds with
    | nil =>
      unfold decodeFields at h
      obtain rfl := Option.some.inj h
      exact .nil
    | cons f fs ih =>
      obtain ⟨key, v⟩ := f
      unfold decodeFields at h
      cases hv : decode v with
      | none =>
        rw [hv] at h
        cases h
      | some d =>
        cases hfs : decodeFields fs with
        | none =>
          rw [hv, hfs] at h
          cases h
        | some rest =>
          rw [hv, hfs] at h
          obtain rfl := Option.some.inj h
          exact .cons ⟨rfl, hv⟩ (ih hfs)
  · intro h
    induction h with
    | nil => rfl
    | @cons f d fs ds hfd _ ih =>
      obtain ⟨key, v⟩ := f
      obtain ⟨key', d⟩ := d
      obtain ⟨rfl, hv⟩ := hfd
      exact decodeFields_cons hv ih

/-- Fields in the order of their keys are read in that order. -/
theorem decodeFields_sortFields {fs : List (String × JsonText.Value)} {ds : List (String × Decoded)}
    (h : decodeFields fs = some ds) :
    decodeFields (sortFields fs) = some (sortedView Prod.fst (fun _ => true) ds) :=
  decodeFields_iff.mpr (forall₂_sortedView (fun _ _ hfd => hfd.1) (decodeFields_iff.mp h))

theorem mem_keys_sortFields {key : String} {fs : List (String × JsonText.Value)} :
    key ∈ (sortFields fs).map Prod.fst ↔ key ∈ fs.map Prod.fst := by
  simp only [sortFields, List.mem_map, mem_sortedView, and_true]

theorem keys_sortKeysFields (fs : List (String × JsonText.Value)) :
    (sortKeysFields fs).map Prod.fst = fs.map Prod.fst := by
  induction fs with
  | nil => rfl
  | cons f fs ih =>
    obtain ⟨key, v⟩ := f
    rw [sortKeysFields, List.map_cons, List.map_cons, ih]

theorem decode_sorted {fs : List (String × JsonText.Value)} {ds : List (String × Decoded)}
    (hwrapped : ∀ key ∈ ["$f", "$d", "$t"], wrapped key (sortFields (sortKeysFields fs)) = none)
    (h : decodeFields (sortKeysFields fs) = some ds) :
    decode (sortKeys (.obj fs)) = some (entriesOf ds) := by
  rw [sortKeys, decode_obj hwrapped, decodeFields_sortFields h]
  rfl

/-- A key that begins with a dollar sign is none of a dictionary. -/
theorem keys_encodeEntries {es : List (Key × Value)} {js : List (String × JsonText.Value)}
    (h : encodeEntries es = .ok js) : ∀ key ∈ js.map Prod.fst, key.toList.head? ≠ some '$' := by
  induction es generalizing js with
  | nil =>
    unfold encodeEntries at h
    obtain rfl := Except.ok.inj h
    exact fun key hkey => absurd hkey List.not_mem_nil
  | cons e es ih =>
    obtain ⟨key, v⟩ := e
    obtain ⟨text, j, rest, rfl, hkey, -, hrest⟩ := encodeEntries_cons h
    rw [List.map_cons, List.forall_mem_cons]
    exact ⟨(keyText_ok hkey).2, ih hrest⟩

theorem wrapped_entries {es : List (Key × Value)} {js : List (String × JsonText.Value)}
    (h : encodeEntries es = .ok js) :
    ∀ key ∈ ["$f", "$d", "$t"], wrapped key (sortFields (sortKeysFields js)) = none := by
  intro key hmarked
  have hdollar : key.toList.head? = some '$' := by
    simp only [List.mem_cons, List.not_mem_nil, or_false] at hmarked
    obtain rfl | rfl | rfl := hmarked <;> decide
  refine wrapped_eq_none ?_
  rw [mem_keys_sortFields, keys_sortKeysFields]
  exact fun hmem => keys_encodeEntries h key hmem hdollar

/-- The name of the type stands beside every field of a dataclass. -/
theorem wrapped_dataclass (name : JsonText.Value) (js : List (String × JsonText.Value)) :
    ∀ key ∈ ["$f", "$d", "$t"],
      wrapped key (sortFields (sortKeysFields (("$type", name) :: js))) = none := by
  intro key hmarked
  have hne : key ≠ "$type" := by
    rintro rfl
    exact absurd hmarked (by decide)
  have htype : "$type" ∈ (sortFields (sortKeysFields (("$type", name) :: js))).map Prod.fst := by
    rw [mem_keys_sortFields, keys_sortKeysFields]
    exact List.mem_cons_self
  unfold wrapped
  split
  · next k v heq =>
    rw [heq] at htype
    refine if_neg fun hk => hne ?_
    rw [← hk]
    exact (List.mem_singleton.mp htype).symm
  · rfl

/-! ## Round trip -/

theorem reduced_of_exact {r : Real} (hexact : r.Exact) {x : Binary64}
    (h : r = .float x ∨ ∃ q, r = .fraction q ∧ Binary64.nearest q = some x) :
    r.reduced = .float x := by
  rcases h with rfl | ⟨q, rfl, hx⟩
  · rfl
  · obtain ⟨y, hy, hvalue⟩ := hexact
    obtain rfl := Option.some.inj (hx.symm.trans hy)
    unfold Real.reduced
    dsimp only
    rw [hx]
    exact if_pos hvalue

mutual

/-- Decoding an encoded value with its keys sorted gives what was observed of it. -/
theorem decode_rexEncode : ∀ (v : Value) {j : JsonText.Value}, v.Exact → rexEncode v = .ok j →
    decode (sortKeys j) = some (observe v)
  | .encoded form, j, hexact, h => by
    unfold rexEncode at h
    obtain rfl := Except.ok.inj h
    unfold Value.Exact at hexact
    unfold observe
    obtain ⟨d, hd⟩ := Option.isSome_iff_exists.mp hexact
    rw [hd, Option.getD_some]
  | .none, j, _, h => by
    unfold rexEncode at h
    obtain rfl := Except.ok.inj h
    rfl
  | .bool b, j, _, h => by
    unfold rexEncode at h
    obtain rfl := Except.ok.inj h
    rfl
  | .str s, j, _, h => by
    unfold rexEncode at h
    obtain rfl := Except.ok.inj h
    rfl
  | .integral n, j, _, h => by
    unfold rexEncode at h
    obtain rfl := Except.ok.inj h
    rfl
  | .decimal d, j, _, h => by
    unfold rexEncode at h
    obtain rfl := Except.ok.inj h
    rw [sortKeys_typed]
    exact decode_decimal d
  | .specialDecimal, j, _, h => by
    unfold rexEncode at h
    cases h
  | .real r, j, hexact, h => by
    unfold rexEncode at h
    obtain ⟨x, rfl, hr⟩ := encodeReal_ok h
    unfold Value.Exact at hexact
    unfold observe
    rw [sortKeys_typed, decode_float, reduced_of_exact hexact hr]
  | .datetime t, j, _, h => by
    unfold rexEncode at h
    obtain ⟨ht, rfl⟩ := encodeDatetime_ok h
    rw [sortKeys_typed]
    exact decode_time ht
  | .dataclass name fields, j, hexact, h => by
    unfold rexEncode at h
    cases hfields : encodeFields fields with
    | error e =>
      rw [hfields] at h
      cases h
    | ok js =>
      rw [hfields] at h
      obtain rfl := Except.ok.inj h
      unfold Value.Exact at hexact
      have hrest := decodeFields_encodeFields fields hexact hfields
      unfold observe
      refine decode_sorted (wrapped_dataclass _ js) ?_
      rw [sortKeysFields]
      exact decodeFields_cons rfl hrest
  | .list items, j, hexact, h => by
    unfold rexEncode at h
    cases hitems : encodeItems items with
    | error e =>
      rw [hitems] at h
      cases h
    | ok js =>
      rw [hitems] at h
      obtain rfl := Except.ok.inj h
      unfold Value.Exact at hexact
      unfold observe
      rw [sortKeys, decode, decodeItems_encodeItems items hexact hitems, Option.map_some]
  | .tuple items, j, hexact, h => by
    unfold rexEncode at h
    cases hitems : encodeItems items with
    | error e =>
      rw [hitems] at h
      cases h
    | ok js =>
      rw [hitems] at h
      obtain rfl := Except.ok.inj h
      unfold Value.Exact at hexact
      unfold observe
      rw [sortKeys, decode, decodeItems_encodeItems items hexact hitems, Option.map_some]
  | .dict entries, j, hexact, h => by
    unfold rexEncode at h
    cases hentries : encodeEntries entries with
    | error e =>
      rw [hentries] at h
      cases h
    | ok js =>
      rw [hentries] at h
      obtain rfl := Except.ok.inj h
      unfold Value.Exact at hexact
      unfold observe
      exact decode_sorted (wrapped_entries hentries)
        (decodeFields_encodeEntries entries hexact hentries)
  | .other typeName, j, _, h => by
    unfold rexEncode at h
    cases h

theorem decodeItems_encodeItems : ∀ (vs : List Value) {js : List JsonText.Value}, ExactItems vs →
    encodeItems vs = .ok js → decodeItems (sortKeysItems js) = some (observeItems vs)
  | [], js, _, h => by
    unfold encodeItems at h
    obtain rfl := Except.ok.inj h
    rfl
  | v :: vs, js, hexact, h => by
    obtain ⟨j, rest, rfl, hv, hvs⟩ := encodeItems_cons h
    unfold ExactItems at hexact
    rw [sortKeysItems, observeItems]
    exact decodeItems_cons (decode_rexEncode v hexact.1 hv)
      (decodeItems_encodeItems vs hexact.2 hvs)

theorem decodeFields_encodeFields : ∀ (fs : List (String × Value))
    {js : List (String × JsonText.Value)}, ExactFields fs → encodeFields fs = .ok js →
      decodeFields (sortKeysFields js) = some (observeFields fs)
  | [], js, _, h => by
    unfold encodeFields at h
    obtain rfl := Except.ok.inj h
    rfl
  | (name, v) :: fs, js, hexact, h => by
    obtain ⟨j, rest, rfl, hv, hfs⟩ := encodeFields_cons h
    unfold ExactFields at hexact
    rw [sortKeysFields, observeFields]
    exact decodeFields_cons (decode_rexEncode v hexact.1 hv)
      (decodeFields_encodeFields fs hexact.2 hfs)

theorem decodeFields_encodeEntries : ∀ (es : List (Key × Value))
    {js : List (String × JsonText.Value)}, ExactEntries es → encodeEntries es = .ok js →
      decodeFields (sortKeysFields js) = some (observeEntries es)
  | [], js, _, h => by
    unfold encodeEntries at h
    obtain rfl := Except.ok.inj h
    rfl
  | (key, v) :: es, js, hexact, h => by
    obtain ⟨text, j, rest, rfl, hkey, hv, hes⟩ := encodeEntries_cons h
    obtain ⟨rfl, -⟩ := keyText_ok hkey
    unfold ExactEntries at hexact
    rw [sortKeysFields, observeEntries]
    exact decodeFields_cons (decode_rexEncode v hexact.1 hv)
      (decodeFields_encodeEntries es hexact.2 hes)

end

/-- The text of an encoded value is read back as what was observed of it. -/
theorem decode_text {v : Value} {j : JsonText.Value} (hexact : v.Exact) (hj : rexEncode v = .ok j) :
    (loads (cj j)).bind decode = some (observe v) := by
  unfold cj
  rw [loads_dumps, Option.bind_some]
  exact decode_rexEncode v hexact hj

theorem observe_eq_of_text {v w : Value} {j k : JsonText.Value} (hv : v.Exact) (hw : w.Exact)
    (hj : rexEncode v = .ok j) (hk : rexEncode w = .ok k) (h : cj j = cj k) :
    observe v = observe w := by
  have hdecoded := decode_text hv hj
  rw [h, decode_text hw hk] at hdecoded
  exact (Option.some.inj hdecoded).symm

/-- An accepted value whose real numbers are those of floats is read back from its text. Two of them
with one text, or with one digest where SHA-256 does not collide on what is hashed, were observed
alike. -/
theorem rex_lossless (sha256 : String → String) {v w : Value} {j k : JsonText.Value} (hv : v.Exact)
    (hw : w.Exact) (hj : rexEncode v = .ok j) (hk : rexEncode w = .ok k)
    (hsha : Set.InjOn sha256 {hashed rexVersion (cj j), hashed rexVersion (cj k)}) :
    (loads (cj j)).bind decode = some (observe v) ∧
      (cj j = cj k → observe v = observe w) ∧
      ∀ p q, rexPayload sha256 v = .ok p → rexPayload sha256 w = .ok q →
        p.rexDigest = q.rexDigest → observe v = observe w := by
  refine ⟨decode_text hv hj, observe_eq_of_text hv hw hj hk, ?_⟩
  intro p q hp hq hdigest
  obtain ⟨j', hj', hpDigest⟩ := rexPayload_ok hp
  obtain ⟨k', hk', hqDigest⟩ := rexPayload_ok hq
  obtain rfl := Except.ok.inj (hj.symm.trans hj')
  obtain rfl := Except.ok.inj (hk.symm.trans hk')
  have htexts : hashed rexVersion (cj j) = hashed rexVersion (cj k) :=
    hsha (.inl rfl) (.inr rfl) (hpDigest.symm.trans (hdigest.trans hqDigest))
  exact observe_eq_of_text hv hw hj hk (hashed_inj.mp htexts)

/-- A quote with the time it was taken, its price and its volumes. -/
def quote (volumes : List Value → Value) : Value :=
  .dataclass "Quote"
    [("taken_at", .datetime (Stamp.inUtc 1709209845500000 (by decide))),
      ("price", .decimal ⟨false, 108500, -5⟩),
      ("volumes",
        volumes [.real (.float ⟨false, ⟨1023, by decide⟩, ⟨0, by decide⟩⟩), .integral 1, .none])]

/-- A tuple and a list are observed alike, under a hash that is its own text. -/
theorem rex_lossless_quote :
    ∃ j, (loads (cj j)).bind decode = some (observe (quote .tuple)) ∧
      (cj j = cj j → observe (quote .tuple) = observe (quote .list)) ∧
      ∀ p q, rexPayload id (quote .tuple) = .ok p → rexPayload id (quote .list) = .ok q →
        p.rexDigest = q.rexDigest → observe (quote .tuple) = observe (quote .list) :=
  ⟨_, @rex_lossless id (quote .tuple) (quote .list) _ _
    ⟨trivial, trivial, ⟨trivial, trivial, trivial, trivial⟩, trivial⟩
    ⟨trivial, trivial, ⟨trivial, trivial, trivial, trivial⟩, trivial⟩ rfl rfl (Set.injOn_id _)⟩

/-- The float that is nearest to a third. -/
def third : Binary64 := ⟨false, ⟨1021, by decide⟩, ⟨1501199875790165, by decide⟩⟩

/-- A third is recorded as a float that it does not equal, with the text of that float. -/
theorem third_not_given_back : ∃ j, rexEncode (.real (.fraction (1 / 3))) = .ok j ∧
    rexEncode (.real (.float third)) = .ok j ∧
    (loads (cj j)).bind decode ≠ some (observe (.real (.fraction (1 / 3)))) ∧
    observe (.real (.fraction (1 / 3))) ≠ observe (.real (.float third)) := by
  have hnearest : Binary64.nearest (1 / 3) = some third := by decide +kernel
  have hvalue : third.value ≠ 1 / 3 := by decide +kernel
  have hj : rexEncode (.real (.fraction (1 / 3))) = .ok (typed "$f" (hex third)) := by
    unfold rexEncode encodeReal
    dsimp only
    rw [hnearest]
  have hk : rexEncode (.real (.float third)) = .ok (typed "$f" (hex third)) := rfl
  have hobserved : observe (.real (.fraction (1 / 3))) = .real (.fraction (1 / 3)) := by
    unfold observe Real.reduced
    dsimp only
    rw [hnearest]
    dsimp only
    rw [if_neg hvalue]
  have hfloat : observe (.real (.float third)) = .real (.float third) := rfl
  have hne : (Decoded.real (.fraction (1 / 3))) ≠ .real (.float third) := by
    intro h
    cases h
  refine ⟨_, hj, hk, ?_, ?_⟩
  · rw [@decode_text (.real (.float third)) _ trivial hk, hobserved, hfloat]
    exact fun h => hne (Option.some.inj h).symm
  · rw [hobserved, hfloat]
    exact hne

end MarketSystem.Rex
