import MarketSystem.Library.Images
import MarketSystem.Storage.Codec

/-!
# Payloads are read back
-/
namespace MarketSystem.Codec

open Library
open Library.IsoTime (Stamp Representable utc)
open MarketSystem.Database (encodeAccount paperState)

/-! ## Arguments of a payload -/

section Omitted

variable {opt : List String} {args : Args} {name : String}

theorem lookup_omits (h : name ∉ opt) :
    (args.filter (fun field => !omits opt field)).lookup name = args.lookup name := by
  induction args with
  | nil => rfl
  | cons field args ih =>
    obtain ⟨key, value⟩ := field
    by_cases hkey : key = name
    · subst hkey
      have hkept : omits opt (key, value) = false := by
        cases value <;> simp [omits, h]
      simp [hkept]
    · have hne : (name == key) = false := by simpa using Ne.symm hkey
      by_cases hkept : omits opt (key, value) = true
      · simp [hkept, List.lookup_cons, hne, ih]
      · simp [hkept, List.lookup_cons, hne, ih]

theorem lookup_eq_none_of_names (h : name ∉ args.map Prod.fst) : args.lookup name = none := by
  induction args with
  | nil => rfl
  | cons field args ih =>
    rw [List.map_cons, List.mem_cons, not_or] at h
    have hne : (name == field.1) = false := by simpa using h.1
    rw [List.lookup_cons, hne]
    exact ih h.2

theorem optional_omits (hnodup : (args.map Prod.fst).Nodup) :
    optional (args.filter (fun field => !omits opt field)) name = optional args name := by
  induction args with
  | nil => rfl
  | cons field args ih =>
    obtain ⟨key, value⟩ := field
    obtain ⟨hfirst, hrest⟩ := List.nodup_cons.mp hnodup
    have hrest := ih hrest
    unfold optional at hrest ⊢
    by_cases hkey : name = key
    · subst hkey
      by_cases homitted : omits opt (name, value) = true
      · have hvalue : value = .none := by
          cases value <;> simp [omits] at homitted ⊢
        have hnone : args.lookup name = none := lookup_eq_none_of_names hfirst
        rw [List.filter_cons_of_neg (by simp [homitted]), hrest, hnone]
        simp [hvalue]
      · simp [homitted]
    · have hne : (name == key) = false := by simpa using hkey
      by_cases homitted : omits opt (key, value) = true
      · simp [homitted, List.lookup_cons, hne, hrest]
      · simp [homitted, List.lookup_cons, hne, hrest]

end Omitted

theorem orNone_number (o : Option ℚ) : orNone asNumber (ofOption .number o) = .ok o := by
  cases o <;> rfl

theorem orNone_text (o : Option String) : orNone asText (ofOption .text o) = .ok o := by
  cases o <;> rfl

theorem orNone_time (o : Option Instant) : orNone asTime (ofOption .time o) = .ok o := by
  cases o <;> rfl

theorem asSide_text (side : Side) : asSide (.text (sideText side)) = .ok side := by
  cases side <;> rfl

theorem asOrderStatus_text (status : OrderStatus) :
    asOrderStatus (.text (orderStatus status)) = .ok status := by
  cases status <;> rfl

theorem asPositionStatus_text (status : PositionStatus) :
    asPositionStatus (.text (positionStatus status)) = .ok status := by
  cases status <;> rfl

/-! ## The constructors -/

section Construct

theorem construct_account {account : PaperAccount} (h : 0 < account.startingEquity) :
    paperAccount.construct ((paperAccount.args account).filter
      (fun field => !omits paperAccount.optional field)) = .ok (encodeAccount account) := by
  have hfull : paperAccount.construct (paperAccount.args account) =
      .ok (encodeAccount account) := by
    simp [paperAccount, required, List.lookup_cons, asText, asNumber, bind, Except.bind, pure,
      Except.pure, require, h, encodeAccount]
  rw [← hfull]
  simp only [paperAccount]
  simp (disch := decide) only [required, lookup_omits]

theorem construct_order (order : PaperOrder) :
    paperOrder.construct ((paperOrder.args order).filter
      (fun field => !omits paperOrder.optional field)) = .ok order := by
  have hnames : (paperOrder.args order).map Prod.fst = paperOrder.fields := rfl
  have hnodup : ((paperOrder.args order).map Prod.fst).Nodup := hnames ▸ (by decide)
  have hfull : paperOrder.construct (paperOrder.args order) = .ok order := by
    simp [paperOrder, required, optional, List.lookup_cons, asText, asNumber, orNone_number,
      orNone_text, orNone_time, asSide_text, asOrderStatus_text, bind, Except.bind, pure,
      Except.pure]
  rw [← hfull]
  simp only [paperOrder] at hnodup ⊢
  simp (disch := first | decide | exact hnodup) only [required, lookup_omits, optional_omits]

theorem construct_fill (fill : PaperFill) :
    paperFill.construct ((paperFill.args fill).filter
      (fun field => !omits paperFill.optional field)) = .ok fill := by
  have hfull : paperFill.construct (paperFill.args fill) = .ok fill := by
    simp [paperFill, required, List.lookup_cons, asText, asNumber, asTime, asSide_text, bind,
      Except.bind, pure, Except.pure]
  rw [← hfull]
  simp only [paperFill]
  simp (disch := decide) only [required, lookup_omits]

theorem construct_position (position : PaperPosition) :
    paperPosition.construct ((paperPosition.args position).filter
      (fun field => !omits paperPosition.optional field)) = .ok position := by
  have hnames : (paperPosition.args position).map Prod.fst = paperPosition.fields := rfl
  have hnodup : ((paperPosition.args position).map Prod.fst).Nodup := hnames ▸ (by decide)
  have hfull : paperPosition.construct (paperPosition.args position) = .ok position := by
    simp [paperPosition, required, optional, List.lookup_cons, asText, asNumber, asTime, orNone_number,
      orNone_text, orNone_time, asSide_text, asPositionStatus_text, bind, Except.bind, pure,
      Except.pure]
  rw [← hfull]
  simp only [paperPosition] at hnodup ⊢
  simp (disch := first | decide | exact hnodup) only [required, lookup_omits, optional_omits]

theorem construct_trade (trade : ClosedTrade) :
    closedTrade.construct ((closedTrade.args trade).filter
      (fun field => !omits closedTrade.optional field)) = .ok trade := by
  have hfull : closedTrade.construct (closedTrade.args trade) = .ok trade := by
    simp [closedTrade, required, List.lookup_cons, asText, asNumber, asTime, asSide_text, bind,
      Except.bind, pure, Except.pure]
  rw [← hfull]
  simp only [closedTrade]
  simp (disch := decide) only [required, lookup_omits]

end Construct

/-! ## Reading back the fields -/

/-- A time stands under the name of a time, and nothing else does. -/
def Placed (field : String × Value) : Prop :=
  match field.2 with
  | .none => True
  | .time _ => field.1 ∈ TIME_FIELDS
  | _ => field.1 ∉ TIME_FIELDS

section Fields

variable (json : Json)

/-- Only an instant in the calendar's years has a text. -/
theorem toJson_time {t : Instant} {stored : PyJson ℚ} (h : toJson (.time t) = .ok stored) :
    Representable t ∧ stored = .str (text (String.ofList (utc t))) := by
  have hif : (if Representable t then
      (pure (PyJson.str (text (String.ofList (utc t)))) : Except String (PyJson ℚ))
      else .error "date value out of range") = .ok stored := h
  by_cases ht : Representable t
  · rw [if_pos ht] at hif
    exact ⟨ht, (Except.ok.inj hif).symm⟩
  · rw [if_neg ht] at hif
    exact absurd hif (by simp)

theorem toArg_toJson {name : String} {value : Value} {stored : PyJson ℚ}
    (hplaced : Placed (name, value)) (h : toJson value = .ok stored) :
    toArg json name stored = .ok value := by
  cases value with
  | none =>
    obtain rfl : PyJson.null = stored := Except.ok.inj h
    rfl
  | text s =>
    obtain rfl : PyJson.str (text s) = stored := Except.ok.inj h
    have hname : name ∉ TIME_FIELDS := hplaced
    simp [toArg, ofJson, PyJson.ofText_text, hname, bind, Except.bind, pure, Except.pure]
  | number q =>
    obtain rfl : PyJson.float q = stored := Except.ok.inj h
    have hname : name ∉ TIME_FIELDS := hplaced
    simp [toArg, ofJson, hname, bind, Except.bind, pure, Except.pure]
  | time t =>
    have hname : name ∈ TIME_FIELDS := hplaced
    obtain ⟨ht, rfl⟩ := toJson_time h
    have hread : parseUtc json (.text (String.ofList (utc t))) = .ok (.time t) := by
      simp [parseUtc, json.fromIso_utc t ht, Stamp.inUtc, Stamp.instant, ht, pure, Except.pure]
    simp [toArg, ofJson, PyJson.ofText_text, hname, hread, bind, Except.bind, pure, Except.pure]

theorem toDict_cons {name : String} {value : Value} {rest : Args} {payload : PyJson.Dict ℚ}
    (h : toDict ((name, value) :: rest) = .ok payload) :
    ∃ stored tail, toJson value = .ok stored ∧ toDict rest = .ok tail ∧
      payload = (text name, stored) :: tail := by
  obtain ⟨stored, hstored, h⟩ := bind_eq_ok.mp h
  obtain ⟨tail, htail, h⟩ := bind_eq_ok.mp h
  exact ⟨stored, tail, hstored, htail, (Except.ok.inj h).symm⟩

/-- What is written of the fields reads as the fields. -/
theorem ofDict_toDict {args : Args} {payload : PyJson.Dict ℚ}
    (hplaced : ∀ field ∈ args, Placed field) (h : toDict args = .ok payload) :
    ofDict json payload = .ok args := by
  induction args generalizing payload with
  | nil =>
    obtain rfl : [] = payload := Except.ok.inj h
    rfl
  | cons field args ih =>
    obtain ⟨name, value⟩ := field
    obtain ⟨stored, tail, hstored, htail, rfl⟩ := toDict_cons h
    have hfirst := toArg_toJson json (hplaced _ List.mem_cons_self) hstored
    have hrest := ih (fun field hfield => hplaced field (List.mem_cons_of_mem _ hfield)) htail
    simp [ofDict, PyJson.ofText_text, hfirst, hrest, bind, Except.bind, pure, Except.pure]

theorem keys_toDict {args : Args} {payload : PyJson.Dict ℚ} (h : toDict args = .ok payload) :
    payload.map Prod.fst = (args.map Prod.fst).map text := by
  induction args generalizing payload with
  | nil =>
    obtain rfl : [] = payload := Except.ok.inj h
    rfl
  | cons field args ih =>
    obtain ⟨stored, tail, -, htail, rfl⟩ := toDict_cons h
    simp [ih htail]

theorem encodes_text (s : String) : PyJson.encodes (text s) = true := by
  unfold PyJson.encodes text
  rw [List.all_eq_true]
  intro n hn
  obtain ⟨c, -, rfl⟩ := List.mem_map.mp hn
  rw [decide_eq_true_eq]
  exact c.valid

/-- A field is a text, a number or nothing: the writer stores it as it is. -/
theorem plain_toJson {value : Value} {stored : PyJson ℚ} (h : toJson value = .ok stored) :
    stored.plain secrets = true ∧ stored.keyed = true := by
  cases value with
  | none =>
    obtain rfl : PyJson.null = stored := Except.ok.inj h
    exact ⟨by simp [PyJson.plain], by simp [PyJson.keyed]⟩
  | text s =>
    obtain rfl : PyJson.str (text s) = stored := Except.ok.inj h
    exact ⟨by simp [PyJson.plain, encodes_text], by simp [PyJson.keyed]⟩
  | number q =>
    obtain rfl : PyJson.float q = stored := Except.ok.inj h
    exact ⟨by simp [PyJson.plain], by simp [PyJson.keyed]⟩
  | time t =>
    obtain ⟨-, rfl⟩ := toJson_time h
    exact ⟨by simp [PyJson.plain, encodes_text], by simp [PyJson.keyed]⟩

/-- No name of a field has a secret's word in it. -/
def Public (args : Args) : Prop := ∀ field ∈ args, PyJson.names secrets (text field.1) = false

theorem plain_toDict {args : Args} {payload : PyJson.Dict ℚ} (hpublic : Public args)
    (h : toDict args = .ok payload) :
    PyJson.plainFields secrets payload = true ∧ PyJson.keyedFields payload = true := by
  induction args generalizing payload with
  | nil =>
    obtain rfl : [] = payload := Except.ok.inj h
    exact ⟨by simp [PyJson.plainFields], by simp [PyJson.keyedFields]⟩
  | cons field args ih =>
    obtain ⟨name, value⟩ := field
    obtain ⟨stored, tail, hstored, htail, rfl⟩ := toDict_cons h
    obtain ⟨hplain, hkeyed⟩ := plain_toJson hstored
    have hname : PyJson.names secrets (text name) = false :=
      hpublic (name, value) List.mem_cons_self
    have hrest := ih (fun field hfield => hpublic field (List.mem_cons_of_mem _ hfield)) htail
    exact ⟨by simp [PyJson.plainFields, hname, encodes_text, hplain, hrest.1],
      by simp [PyJson.keyedFields, hkeyed, hrest.2]⟩

end Fields

/-! ## A class whose payloads are read back -/

theorem text_inj {a b : String} (h : text a = text b) : a = b := by
  rw [← PyJson.ofText_text a, h, PyJson.ofText_text]

/-- What the fields of a class promise: they are its names, each once, none is a secret, and a time
stands under the name of one. -/
structure Declared {α : Type} (cls : PaperType α) (obj : α) : Prop where
  names : ∀ field ∈ cls.args obj, field.1 ∈ cls.fields
  nodup : ((cls.args obj).map Prod.fst).Nodup
  isPublic : Public (cls.args obj)
  placed : ∀ field ∈ cls.args obj, Placed field

section Class

variable {α : Type} (json : Json) {cls : PaperType α} {obj stored : α}

/-- `paper_decode` of a payload that `paper_encode` wrote. -/
theorem paperDecode_paperEncode (hdeclared : Declared cls obj)
    (hconstruct : cls.construct ((cls.args obj).filter
      (fun field => !omits cls.optional field)) = .ok stored)
    {payload : String} (h : paperEncode json cls obj = .ok payload) :
    paperDecode json cls payload = .ok stored := by
  obtain ⟨fields, hfields, h⟩ := bind_eq_ok.mp h
  have hsub : ∀ field ∈ (cls.args obj).filter (fun field => !omits cls.optional field),
      field ∈ cls.args obj := fun field hfield => (List.mem_filter.mp hfield).1
  obtain ⟨hplain, hkeyed⟩ := plain_toDict
    (fun field hfield => hdeclared.isPublic field (hsub field hfield)) hfields
  have hkeys := keys_toDict hfields
  have hplainObj : (PyJson.obj fields).plain secrets = true := by
    rw [PyJson.plain, hplain]
  have hnodup : (fields.map Prod.fst).Nodup := by
    have hkept : (((cls.args obj).filter
        (fun field => !omits cls.optional field)).map Prod.fst).Nodup :=
      hdeclared.nodup.sublist (List.filter_sublist.map Prod.fst)
    rw [hkeys]
    exact hkept.map (fun _ _ hab => text_inj hab)
  have hkeyedObj : (PyJson.obj fields).keyed = true := by
    rw [PyJson.keyed, hkeyed, Bool.and_true, decide_eq_true_eq]
    exact hnodup
  rw [PyJson.sanitize_of_plain hplainObj] at h
  obtain rfl : json.dumps (.obj fields) = payload := Except.ok.inj h
  have hallowed : fields.all (fun field => decide (PyJson.ofText field.1 ∈ cls.fields)) = true := by
    rw [List.all_eq_true]
    intro field hfield
    have hkey : field.1 ∈ fields.map Prod.fst := List.mem_map_of_mem hfield
    rw [hkeys] at hkey
    obtain ⟨name, hname, heq⟩ := List.mem_map.mp hkey
    obtain ⟨arg, harg, rfl⟩ := List.mem_map.mp hname
    rw [decide_eq_true_eq, ← heq, PyJson.ofText_text]
    exact hdeclared.names arg (hsub arg harg)
  have hargs := ofDict_toDict json
    (fun field hfield => hdeclared.placed field (hsub field hfield)) hfields
  unfold paperDecode
  rw [json.loads_dumps _ hkeyedObj hplainObj]
  simp [hallowed, require, hargs, hconstruct, bind, Except.bind]

end Class

/-! ## The five classes -/

section Classes

/-- The stored fields are the first of the class. -/
theorem declared_of_first {α : Type} {cls : PaperType α} {obj : α}
    (hfirst : (cls.args obj).map Prod.fst <+: cls.fields) (hnodup : cls.fields.Nodup)
    (hpublic : ∀ name ∈ cls.fields, PyJson.names secrets (text name) = false)
    (hplaced : ∀ field ∈ cls.args obj, Placed field) : Declared cls obj where
  names _ hfield := hfirst.subset (List.mem_map_of_mem hfield)
  nodup := hnodup.sublist hfirst.sublist
  isPublic _ hfield := hpublic _ (hfirst.subset (List.mem_map_of_mem hfield))
  placed := hplaced

section Place

variable {name : String}

theorem placed_text (h : name ∉ TIME_FIELDS) (s : String) : Placed (name, .text s) := h

theorem placed_number (h : name ∉ TIME_FIELDS) (q : ℚ) : Placed (name, .number q) := h

theorem placed_time (h : name ∈ TIME_FIELDS) (t : Instant) : Placed (name, .time t) := h

theorem placed_optionText (h : name ∉ TIME_FIELDS) (o : Option String) :
    Placed (name, ofOption .text o) := by
  cases o with
  | none => exact trivial
  | some s => exact placed_text h s

theorem placed_optionNumber (h : name ∉ TIME_FIELDS) (o : Option ℚ) :
    Placed (name, ofOption .number o) := by
  cases o with
  | none => exact trivial
  | some q => exact placed_number h q

theorem placed_optionTime (h : name ∈ TIME_FIELDS) (o : Option Instant) :
    Placed (name, ofOption .time o) := by
  cases o with
  | none => exact trivial
  | some t => exact placed_time h t

end Place

theorem declared_account (account : PaperAccount) : Declared paperAccount account := by
  apply declared_of_first ⟨["open_positions", "closed_trades"], rfl⟩
  · decide
  · decide +kernel
  · simp (disch := decide) only [paperAccount, List.forall_mem_cons, placed_text, placed_number,
      true_and]
    exact List.forall_mem_nil _

theorem declared_order (order : PaperOrder) : Declared paperOrder order := by
  apply declared_of_first ⟨[], rfl⟩
  · decide
  · decide +kernel
  · simp (disch := decide) only [paperOrder, List.forall_mem_cons, placed_text, placed_number,
      placed_optionText, placed_optionNumber, placed_optionTime, true_and]
    exact List.forall_mem_nil _

theorem declared_fill (fill : PaperFill) : Declared paperFill fill := by
  apply declared_of_first ⟨[], rfl⟩
  · decide
  · decide +kernel
  · simp (disch := decide) only [paperFill, List.forall_mem_cons, placed_text, placed_number,
      placed_time, true_and]
    exact List.forall_mem_nil _

theorem declared_position (position : PaperPosition) : Declared paperPosition position := by
  apply declared_of_first ⟨[], rfl⟩
  · decide
  · decide +kernel
  · simp (disch := decide) only [paperPosition, List.forall_mem_cons, placed_text, placed_number,
      placed_time, placed_optionText, placed_optionNumber, placed_optionTime, true_and]
    exact List.forall_mem_nil _

theorem declared_trade (trade : ClosedTrade) : Declared closedTrade trade := by
  apply declared_of_first ⟨[], rfl⟩
  · decide
  · decide +kernel
  · simp (disch := decide) only [closedTrade, List.forall_mem_cons, placed_text, placed_number,
      placed_time, true_and]
    exact List.forall_mem_nil _

end Classes

/-! ## The state -/

section State

variable (json : Json) {payload : String}

theorem decode_account {account : PaperAccount} (h : 0 < account.startingEquity)
    (hencode : paperEncode json paperAccount account = .ok payload) :
    paperDecode json paperAccount payload = .ok (encodeAccount account) :=
  paperDecode_paperEncode json (declared_account account) (construct_account h) hencode

theorem decode_order (order : PaperOrder) (payload : String)
    (hencode : paperEncode json paperOrder order = .ok payload) :
    paperDecode json paperOrder payload = .ok order :=
  paperDecode_paperEncode json (declared_order order) (construct_order order) hencode

theorem decode_fill (fill : PaperFill) (payload : String)
    (hencode : paperEncode json paperFill fill = .ok payload) :
    paperDecode json paperFill payload = .ok fill :=
  paperDecode_paperEncode json (declared_fill fill) (construct_fill fill) hencode

theorem decode_position (position : PaperPosition) (payload : String)
    (hencode : paperEncode json paperPosition position = .ok payload) :
    paperDecode json paperPosition payload = .ok position :=
  paperDecode_paperEncode json (declared_position position) (construct_position position) hencode

theorem decode_trade (trade : ClosedTrade) (payload : String)
    (hencode : paperEncode json closedTrade trade = .ok payload) :
    paperDecode json closedTrade payload = .ok trade :=
  paperDecode_paperEncode json (declared_trade trade) (construct_trade trade) hencode

/-- The sorted texts of two collections are the same when the collections are. -/
theorem encodedAll_eq_iff {α : Type} {cls : PaperType α}
    (hback : ∀ x payload, paperEncode json cls x = .ok payload →
      paperDecode json cls payload = .ok x) {items items' : List α} {texts texts' : List String}
    (h : encodedAll json cls items = .ok texts) (h' : encodedAll json cls items' = .ok texts') :
    texts = texts' ↔ (items : Multiset α) = (items' : Multiset α) := by
  obtain ⟨written, hwritten, h⟩ := bind_eq_ok.mp h
  obtain ⟨written', hwritten', h'⟩ := bind_eq_ok.mp h'
  obtain rfl := Except.ok.inj h
  obtain rfl := Except.ok.inj h'
  rw [Multiset.coe_eq_coe]
  exact sorted_images_eq_iff hback hwritten hwritten'

theorem ofAccount_some {a : PaperAccount} {accountText : Option String}
    (h : ofAccount (some a) none (fun a => (paperEncode json paperAccount a).map some) =
      .ok accountText) :
    ∃ payload, paperEncode json paperAccount a = .ok payload ∧ accountText = some payload := by
  have hmap : (paperEncode json paperAccount a).map some = .ok accountText := h
  cases hencode : paperEncode json paperAccount a with
  | error e =>
    rw [hencode] at hmap
    cases hmap
  | ok payload =>
    rw [hencode] at hmap
    exact ⟨payload, rfl, (Except.ok.inj hmap).symm⟩

/-- Each part of the state is written. -/
theorem stateTexts_eq_ok {account : Option PaperAccount} {orders : Orders} {fills : Fills}
    {texts : StateTexts} (h : stateTexts json account orders fills = .ok texts) :
    encodedAll json paperOrder orders.rows = .ok texts.orders ∧
    encodedAll json paperFill fills.rows = .ok texts.fills ∧
    ofAccount account none (fun a => (paperEncode json paperAccount a).map some) =
      .ok texts.account ∧
    ofAccount account [] (fun a => encodedAll json paperPosition a.openPositions.rows) =
      .ok texts.positions ∧
    ofAccount account [] (fun a => encodedAll json closedTrade a.closedTrades) =
      .ok texts.trades := by
  obtain ⟨accountText, haccount, h⟩ := bind_eq_ok.mp h
  obtain ⟨positions, hpositions, h⟩ := bind_eq_ok.mp h
  obtain ⟨trades, htrades, h⟩ := bind_eq_ok.mp h
  obtain ⟨orderTexts, horders, h⟩ := bind_eq_ok.mp h
  obtain ⟨fillTexts, hfills, h⟩ := bind_eq_ok.mp h
  obtain rfl := Except.ok.inj h
  exact ⟨horders, hfills, haccount, hpositions, htrades⟩

/-- Two accounts have one text when they are one account but for their positions and trades. -/
theorem accountText_eq_iff {a a' : PaperAccount} {payload payload' : String}
    (ha : 0 < a.startingEquity) (ha' : 0 < a'.startingEquity)
    (h : paperEncode json paperAccount a = .ok payload)
    (h' : paperEncode json paperAccount a' = .ok payload') :
    payload = payload' ↔ encodeAccount a = encodeAccount a' := by
  constructor
  · intro heq
    have hread := decode_account json ha h
    rw [heq, decode_account json ha' h'] at hread
    exact (Except.ok.inj hread).symm
  · intro heq
    have hsame : paperEncode json paperAccount (encodeAccount a) =
        paperEncode json paperAccount (encodeAccount a') := by
      rw [heq]
    have hencode : paperEncode json paperAccount a = paperEncode json paperAccount a' := hsame
    rw [h, h'] at hencode
    exact Except.ok.inj hencode

/-- The comparison of texts is the comparison of states. -/
theorem stateTexts_eq_iff {account account' : Option PaperAccount} {orders orders' : Orders}
    {fills fills' : Fills} {texts texts' : StateTexts}
    (hpositive : ∀ a, account = some a → 0 < a.startingEquity)
    (hpositive' : ∀ a, account' = some a → 0 < a.startingEquity)
    (h : stateTexts json account orders fills = .ok texts)
    (h' : stateTexts json account' orders' fills' = .ok texts') :
    texts = texts' ↔ paperState account orders fills = paperState account' orders' fills' := by
  obtain ⟨horders, hfills, haccount, hpositions, htrades⟩ := stateTexts_eq_ok json h
  obtain ⟨horders', hfills', haccount', hpositions', htrades'⟩ := stateTexts_eq_ok json h'
  have hsameOrders := encodedAll_eq_iff json (decode_order json) horders horders'
  have hsameFills := encodedAll_eq_iff json (decode_fill json) hfills hfills'
  have hparts : texts = texts' ↔ texts.account = texts'.account ∧
      texts.positions = texts'.positions ∧ texts.trades = texts'.trades ∧
      texts.orders = texts'.orders ∧ texts.fills = texts'.fills := by
    cases texts
    cases texts'
    simp
  rw [hparts, hsameOrders, hsameFills]
  cases account with
  | none =>
    have habsent : texts.account = none := (Except.ok.inj haccount).symm
    cases account' with
    | none =>
      have habsent' : texts'.account = none := (Except.ok.inj haccount').symm
      have hempty : texts.positions = texts'.positions :=
        (Except.ok.inj hpositions).symm.trans (Except.ok.inj hpositions')
      have hempty' : texts.trades = texts'.trades :=
        (Except.ok.inj htrades).symm.trans (Except.ok.inj htrades')
      simp [habsent, habsent', hempty, hempty', paperState]
    | some a' =>
      obtain ⟨payload', -, heq'⟩ := ofAccount_some json haccount'
      simp [habsent, heq', paperState]
  | some a =>
    obtain ⟨payload, hpayload, heq⟩ := ofAccount_some json haccount
    cases account' with
    | none =>
      have habsent' : texts'.account = none := (Except.ok.inj haccount').symm
      simp [habsent', heq, paperState]
    | some a' =>
      obtain ⟨payload', hpayload', heq'⟩ := ofAccount_some json haccount'
      have hsameAccount := accountText_eq_iff json (hpositive a rfl) (hpositive' a' rfl)
        hpayload hpayload'
      have hsamePositions := encodedAll_eq_iff json (decode_position json) hpositions hpositions'
      have hsameTrades := encodedAll_eq_iff json (decode_trade json) htrades htrades'
      rw [heq, heq', Option.some.injEq, hsameAccount, hsamePositions, hsameTrades]
      simp [paperState]

end State

end MarketSystem.Codec
