import MarketSystem.Replay.RexOracle
import MarketSystem.Storage.PaperStore

/-!
# Recorded states

The oracle compares two recorded states up to the ids a write has drawn. A recorded state is the
state of a sound account when it has the same items; an `apply` of the oracle answers for a write of
the runtime when the states it accepts are those of the results of that write.
-/
namespace MarketSystem.RexOracle

open Library
open MarketSystem.Database (encodeAccount stateOf paperState)

/-! ## A part of a state -/

section Parts

variable {ρ : Type} {part : Part ρ} {expected got : Table part.key} {w : ρ}

/-- The items whose id is new. -/
def createdIn (part : Part ρ) (expected got : Table part.key) : List ρ :=
  got.rows.filter (fun item => (expected.get? (part.key item)).isNone)

theorem mem_createdIn {x : ρ} :
    x ∈ createdIn part expected got ↔ x ∈ got ∧ ∀ y ∈ expected, part.key y ≠ part.key x := by
  simp [createdIn, Table.mem_def, Table.get?_eq_none]

variable [DecidableEq ρ]

theorem compareItem_eq_nil {item : ρ} : compareItem part got item = [] ↔ item ∈ got := by
  unfold compareItem
  cases hfound : got.get? (part.key item) with
  | none =>
    have hnot : item ∉ got := fun hmem => Table.get?_eq_none.mp hfound item hmem rfl
    simp [hnot]
  | some found =>
    obtain ⟨hmem, hkey⟩ := Table.get?_eq_some.mp hfound
    by_cases heq : found = item
    · simp [heq ▸ hmem, heq]
    · have hnot : item ∉ got := fun hitem => heq (Table.eq_of_key hmem hitem hkey)
      simp [heq, hnot]

theorem comparePart_eq_nil {wanted : List ρ} :
    comparePart part expected wanted got = [] ↔
      (∀ x ∈ expected, x ∈ got) ∧ (createdIn part expected got).length = wanted.length ∧
      ∀ want ∈ wanted, compareNew part (createdIn part expected got) want = [] := by
  have hfirst : expected.rows.flatMap (compareItem part got) = [] ↔ ∀ x ∈ expected, x ∈ got := by
    simp only [List.flatMap_eq_nil_iff, compareItem_eq_nil]
    exact Iff.rfl
  have hsecond : (if (createdIn part expected got).length ≠ wanted.length
        then [Problem.created part.name]
        else wanted.flatMap (compareNew part (createdIn part expected got))) = [] ↔
      (createdIn part expected got).length = wanted.length ∧
      ∀ want ∈ wanted, compareNew part (createdIn part expected got) want = [] := by
    by_cases hlength : (createdIn part expected got).length = wanted.length
    · simp [hlength]
    · simp [hlength]
  rw [← hfirst, ← hsecond]
  exact List.append_eq_nil_iff

/-- Where nothing new is expected the part is the same. -/
theorem comparePart_nil : comparePart part expected [] got = [] ↔ ∀ x, x ∈ got ↔ x ∈ expected := by
  rw [comparePart_eq_nil]
  constructor
  · rintro ⟨hall, hlength, -⟩ x
    refine ⟨fun hx => ?_, hall x⟩
    by_contra hnot
    have hmem : x ∈ createdIn part expected got := mem_createdIn.mpr ⟨hx, fun y hy hkey =>
      hnot (Table.eq_of_key (hall y hy) hx hkey ▸ hy)⟩
    rw [List.length_eq_zero_iff.mp hlength] at hmem
    cases hmem
  · intro hsame
    refine ⟨fun x hx => (hsame x).mpr hx, ?_, by simp⟩
    have hnone : createdIn part expected got = [] := by
      rw [List.eq_nil_iff_forall_not_mem]
      intro x hx
      obtain ⟨hgot, hnew⟩ := mem_createdIn.mp hx
      exact hnew x ((hsame x).mp hgot) rfl
    simp [hnone]

/-- Where one entity is expected the part has one more, under a new id. -/
theorem comparePart_one : comparePart part expected [w] got = [] ↔
    ∃ id, (∀ x ∈ expected, part.key x ≠ id) ∧
      ∀ x, x ∈ got ↔ x ∈ expected ∨ x = part.withKey id w := by
  rw [comparePart_eq_nil]
  constructor
  · rintro ⟨hall, hlength, hnew⟩
    obtain ⟨found, hcreated⟩ := List.length_eq_one_iff.mp hlength
    have hmem : found ∈ createdIn part expected got := hcreated ▸ List.mem_cons_self
    have hfound := mem_createdIn.mp hmem
    have hwant := hnew w List.mem_cons_self
    rw [hcreated] at hwant
    unfold compareNew at hwant
    by_cases howner : part.owner found = part.owner w
    · rw [List.filter_cons_of_pos (by simpa using howner), List.filter_nil] at hwant
      dsimp only at hwant
      have hbare : part.withKey "" found = part.withKey "" w := by
        by_contra hne
        rw [if_neg hne] at hwant
        cases hwant
      have heq : found = part.withKey (part.key found) w := by
        calc found = part.withKey (part.key found) found := (part.withKey_key found).symm
          _ = part.withKey (part.key found) (part.withKey "" found) :=
            (part.withKey_withKey _ _ _).symm
          _ = part.withKey (part.key found) (part.withKey "" w) := by rw [hbare]
          _ = part.withKey (part.key found) w := part.withKey_withKey _ _ _
      refine ⟨part.key found, hfound.2, fun x => ⟨fun hx => ?_, ?_⟩⟩
      · by_cases hold : x ∈ expected
        · exact .inl hold
        · have hmem : x ∈ createdIn part expected got := mem_createdIn.mpr ⟨hx, fun y hy hkey =>
            hold (Table.eq_of_key (hall y hy) hx hkey ▸ hy)⟩
          rw [hcreated, List.mem_singleton] at hmem
          exact .inr (hmem.trans heq)
      · rintro (hx | rfl)
        · exact hall x hx
        · exact heq ▸ hfound.1
    · rw [List.filter_cons_of_neg (by simpa using howner), List.filter_nil] at hwant
      cases hwant
  · rintro ⟨id, hfresh, hsame⟩
    have hcreated : createdIn part expected got = [part.withKey id w] := by
      have hnodup : (createdIn part expected got).Nodup := got.nodup.of_map.filter _
      have hperm : (createdIn part expected got).Perm [part.withKey id w] := by
        rw [List.perm_ext_iff_of_nodup hnodup (List.nodup_singleton _)]
        intro x
        rw [mem_createdIn, hsame, List.mem_singleton]
        constructor
        · rintro ⟨hx | hx, hnew⟩
          · exact absurd rfl (hnew x hx)
          · exact hx
        · rintro rfl
          refine ⟨.inr rfl, fun y hy => ?_⟩
          rw [part.key_withKey]
          exact hfresh y hy
      exact List.perm_singleton.mp hperm
    refine ⟨fun x hx => (hsame x).mpr (.inl hx), by rw [hcreated]; rfl, ?_⟩
    intro want hwant
    obtain rfl := List.mem_singleton.mp hwant
    rw [hcreated]
    unfold compareNew
    rw [List.filter_cons_of_pos (by simp [part.owner_withKey]), List.filter_nil]
    dsimp only
    rw [part.withKey_withKey, if_pos rfl]

end Parts

/-! ## The state of a broker -/

/-- The items of the state are those of the broker. -/
structure Records (state : PaperState) (b : PaperBroker) : Prop where
  account : state.account = some (encodeAccount b.account)
  positions : ∀ p, p ∈ state.positions ↔ p ∈ b.account.openPositions
  closed : ∀ t, t ∈ state.closed ↔ t ∈ b.account.closedTrades
  orders : ∀ o, o ∈ state.orders ↔ o ∈ b.orders
  fills : ∀ f, f ∈ state.fills ↔ f ∈ b.fills

/-- The comparison value that is recorded. -/
def Recorded.value (state : Recorded) : Database.PaperState :=
  ⟨state.account, state.positions, state.closed, state.orders, state.fills⟩

section States

variable {state : PaperState} {recorded : Recorded} {b : PaperBroker}

theorem byId_eq_ok {ρ : Type} {key : ρ → String} {items : List ρ} {table : Table key} :
    byId key items = .ok table ↔ table.rows = items := by
  unfold byId
  constructor
  · intro h
    cases htable : (Table.ofList? items : Option (Table key)) with
    | none => simp [htable] at h
    | some t =>
      simp only [htable, Except.ok.injEq] at h
      exact h ▸ Table.rows_of_ofList? htable
  · rintro rfl
    have hnodup : (table.rows.map key).Nodup := table.nodup
    simp [Table.ofList?, hnodup]

theorem ofRecorded_eq_ok : PaperState.ofRecorded recorded = .ok state ↔
    state.account = recorded.account ∧ state.positions.rows = recorded.positions ∧
    state.closed.rows = recorded.closed ∧ state.orders.rows = recorded.orders ∧
    state.fills.rows = recorded.fills := by
  constructor
  · intro h
    obtain ⟨positions, hpositions, h⟩ := bind_eq_ok.mp h
    obtain ⟨closed, hclosed, h⟩ := bind_eq_ok.mp h
    obtain ⟨orders, horders, h⟩ := bind_eq_ok.mp h
    obtain ⟨fills, hfills, h⟩ := bind_eq_ok.mp h
    obtain rfl := Except.ok.inj h
    exact ⟨rfl, byId_eq_ok.mp hpositions, byId_eq_ok.mp hclosed, byId_eq_ok.mp horders,
      byId_eq_ok.mp hfills⟩
  · rintro ⟨haccount, hpositions, hclosed, horders, hfills⟩
    unfold PaperState.ofRecorded
    rw [byId_eq_ok.mpr hpositions, byId_eq_ok.mpr hclosed, byId_eq_ok.mpr horders,
      byId_eq_ok.mpr hfills, ← haccount]
    rfl

theorem value_eq_iff : recorded.value = stateOf b ↔
    recorded.account = some (encodeAccount b.account) ∧
    recorded.positions.Perm b.account.openPositions.rows ∧
    recorded.closed.Perm b.account.closedTrades ∧ recorded.orders.Perm b.orders.rows ∧
    recorded.fills.Perm b.fills.rows := by
  simp [Recorded.value, stateOf, paperState]

/-- The ids of the open positions and of the closed trades are distinct. -/
structure Distinct (b : PaperBroker) : Prop where
  positions : ∀ p ∈ b.account.openPositions, ∀ q ∈ b.account.openPositions,
    p.positionId = q.positionId → p = q
  closed : (b.account.closedTrades.map ClosedTrade.tradeId).Nodup

theorem Distinct.of_sound (hb : b.Sound) : Distinct b := ⟨hb.identity, hb.trades⟩

/-- The recorded state of an account with distinct ids is one the oracle reads. -/
theorem records_of_value (hb : Distinct b) (h : recorded.value = stateOf b) :
    ∃ state, PaperState.ofRecorded recorded = .ok state ∧ Records state b := by
  obtain ⟨haccount, hpositions, hclosed, horders, hfills⟩ := value_eq_iff.mp h
  have hids : (recorded.positions.map PaperPosition.positionId).Nodup := by
    rw [(hpositions.map _).nodup_iff]
    exact List.Nodup.map_on (fun p hp q hq => hb.positions p hp q hq)
      b.account.openPositions.nodup.of_map
  have htrades : (recorded.closed.map ClosedTrade.tradeId).Nodup :=
    (hclosed.map _).nodup_iff.mpr hb.closed
  have horderIds : (recorded.orders.map PaperOrder.orderId).Nodup :=
    (horders.map _).nodup_iff.mpr b.orders.nodup
  have hfillIds : (recorded.fills.map PaperFill.fillId).Nodup :=
    (hfills.map _).nodup_iff.mpr b.fills.nodup
  refine ⟨⟨recorded.account, ⟨recorded.positions, hids⟩, ⟨recorded.closed, htrades⟩,
    ⟨recorded.orders, horderIds⟩, ⟨recorded.fills, hfillIds⟩⟩,
    ofRecorded_eq_ok.mpr ⟨rfl, rfl, rfl, rfl, rfl⟩, ?_⟩
  exact ⟨haccount, fun p => hpositions.mem_iff, fun t => hclosed.mem_iff,
    fun o => horders.mem_iff, fun f => hfills.mem_iff⟩

/-- A state the oracle read is the recorded state of the account it has the items of. -/
theorem value_of_records (hb : Distinct b) (hread : PaperState.ofRecorded recorded = .ok state)
    (h : Records state b) : recorded.value = stateOf b := by
  obtain ⟨haccount, hpositions, hclosed, horders, hfills⟩ := ofRecorded_eq_ok.mp hread
  refine value_eq_iff.mpr ⟨haccount ▸ h.account, hpositions ▸ ?_, hclosed ▸ ?_, horders ▸ ?_,
    hfills ▸ ?_⟩
  · exact (List.perm_ext_iff_of_nodup state.positions.nodup.of_map
      b.account.openPositions.nodup.of_map).mpr h.positions
  · exact (List.perm_ext_iff_of_nodup state.closed.nodup.of_map hb.closed.of_map).mpr h.closed
  · exact Database.rows_perm h.orders
  · exact Database.rows_perm h.fills

theorem openBySymbol_of_records (h : Records state b) :
    ∃ table, state.openBySymbol = .ok table ∧ ∀ p, p ∈ table ↔ p ∈ b.account.openPositions := by
  have hperm : state.positions.rows.Perm b.account.openPositions.rows :=
    (List.perm_ext_iff_of_nodup state.positions.nodup.of_map
      b.account.openPositions.nodup.of_map).mpr h.positions
  have hsymbols : (state.positions.rows.map PaperPosition.symbol).Nodup :=
    (hperm.map _).nodup_iff.mpr b.account.openPositions.nodup
  refine ⟨⟨state.positions.rows, hsymbols⟩, ?_, h.positions⟩
  unfold PaperState.openBySymbol Table.ofList?
  rw [dif_pos hsymbols]

end States

/-! ## Comparing states -/

section Compared

variable {post : PaperState} {b : PaperBroker}

theorem demand_eq_nil {condition : Bool} {code : String} :
    demand condition code = [] ↔ condition = true := by
  unfold demand
  cases condition with
  | false => simp
  | true => simp

/-- The comparison part by part. -/
theorem compareStates_eq_nil {expected post : PaperState} {new : New} :
    compareStates expected new post = [] ↔ post.account = expected.account ∧
      comparePart positions expected.positions new.positions post.positions = [] ∧
      comparePart closed expected.closed new.closed post.closed = [] ∧
      comparePart orders expected.orders new.orders post.orders = [] ∧
      comparePart fills expected.fills new.fills post.fills = [] := by
  have haccount : (if expected.account ≠ post.account then [Problem.account] else []) = [] ↔
      post.account = expected.account := by
    by_cases h : expected.account = post.account
    · simp [h]
    · simp [h, Ne.symm h]
  unfold compareStates
  rw [List.append_eq_nil_iff, List.append_eq_nil_iff, List.append_eq_nil_iff,
    List.append_eq_nil_iff, haccount]
  tauto

/-- An expected state without new entities is met by the states of the same broker. -/
theorem compare_same {expected : PaperState} (h : Records expected b) :
    compareStates expected {} post = [] ↔ Records post b := by
  rw [compareStates_eq_nil, comparePart_nil, comparePart_nil, comparePart_nil, comparePart_nil,
    h.account]
  constructor
  · rintro ⟨haccount, hpositions, hclosed, horders, hfills⟩
    exact ⟨haccount, fun p => (hpositions p).trans (h.positions p),
      fun t => (hclosed t).trans (h.closed t), fun o => (horders o).trans (h.orders o),
      fun f => (hfills f).trans (h.fills f)⟩
  · intro hpost
    exact ⟨hpost.account, fun p => (hpost.positions p).trans (h.positions p).symm,
      fun t => (hpost.closed t).trans (h.closed t).symm,
      fun o => (hpost.orders o).trans (h.orders o).symm,
      fun f => (hpost.fills f).trans (h.fills f).symm⟩

end Compared

/-! ## The checked write -/

section Accepted

variable {preState postState : Recorded} {b : PaperBroker} {events : List String}

/-- What `apply` has to give for the oracle to accept just the results of a write. -/
structure Foretells (applied : Applied) (Result : PaperBroker → Prop) : Prop where
  failures : ∀ c, Result c → applied.failures = []
  events : ∀ c, Result c → applied.events = c.journal.map (·.eventType)
  states : applied.failures = [] → ∀ post, compareStates applied.state applied.new post = [] ↔
    ∃ c, Result c ∧ Records post c

/-- `apply` raises only where the write has no result. -/
def Answers (answer : Except String Applied) (Result : PaperBroker → Prop) : Prop :=
  match answer with
  | .ok applied => Foretells applied Result
  | .error _ => ∀ c, ¬Result c

/-- A write with one result, that creates nothing. -/
theorem foretells_one {applied : Applied} {Result : PaperBroker → Prop} {c : PaperBroker}
    (hfailures : applied.failures = []) (hnew : applied.new = {})
    (hevents : applied.events = c.journal.map (·.eventType)) (hstate : Records applied.state c)
    (hone : ∀ d, Result d ↔ d = c) : Foretells applied Result where
  failures _ _ := hfailures
  events := by
    intro d hd
    rw [(hone d).mp hd, hevents]
  states _ post := by
    rw [hnew, compare_same hstate]
    constructor
    · intro hpost
      exact ⟨c, (hone c).mpr rfl, hpost⟩
    · rintro ⟨d, hd, hpost⟩
      rwa [(hone d).mp hd] at hpost

/-- The state and the events recorded after a write are those of one of its results. -/
def Wrote (Result : PaperBroker → Prop) (postState : Recorded) (events : List String) : Prop :=
  ∃ c, Result c ∧ postState.value = stateOf c ∧ events = c.journal.map (·.eventType)

/-- A write is accepted when the account after it is one of the results that `apply` foretells. -/
theorem accepted_iff {apply : PaperState → Except String Applied} {Result : PaperBroker → Prop}
    (hb : Distinct b) (hvalue : preState.value = stateOf b)
    (happly : ∀ state, Records state b → Answers (apply state) Result)
    (hdistinct : ∀ c, Result c → Distinct c) :
    checkWriteTransition preState postState apply events = .ok [] ↔
      Wrote Result postState events := by
  obtain ⟨pre, hread, hrecords⟩ := records_of_value hb hvalue
  have hanswers := happly pre hrecords
  constructor
  · intro h
    obtain ⟨pre', hread', h⟩ := bind_eq_ok.mp h
    obtain rfl : pre = pre' := Except.ok.inj (hread.symm.trans hread')
    obtain ⟨post, hpost, h⟩ := bind_eq_ok.mp h
    obtain ⟨applied, happlied, h⟩ := bind_eq_ok.mp h
    rw [happlied] at hanswers
    have hnil := Except.ok.inj h
    rw [List.append_eq_nil_iff, List.append_eq_nil_iff, demand_eq_nil, decide_eq_true_eq] at hnil
    obtain ⟨⟨hfailures, hcompare⟩, hevents⟩ := hnil
    obtain ⟨c, hc, hpostRecords⟩ := (hanswers.states hfailures post).mp hcompare
    exact ⟨c, hc, value_of_records (hdistinct c hc) hpost hpostRecords,
      hevents.trans (hanswers.events c hc)⟩
  · rintro ⟨c, hc, hpostValue, hevents⟩
    obtain ⟨post, hpost, hpostRecords⟩ := records_of_value (hdistinct c hc) hpostValue
    unfold checkWriteTransition
    rw [hread, hpost]
    cases happlied : apply pre with
    | error e =>
      rw [happlied] at hanswers
      exact absurd hc (hanswers c)
    | ok applied =>
      rw [happlied] at hanswers
      have hfailures := hanswers.failures c hc
      have hcompare := (hanswers.states hfailures post).mpr ⟨c, hc, hpostRecords⟩
      have hsame : demand (decide (events = applied.events)) "WRITE_EVENTS_MISMATCH" = [] := by
        rw [demand_eq_nil, decide_eq_true_eq, hevents, hanswers.events c hc]
      simp only [bind, Except.bind, happlied, hfailures, hcompare, hsame, pure, Except.pure,
        List.append_nil]

end Accepted

end MarketSystem.RexOracle
