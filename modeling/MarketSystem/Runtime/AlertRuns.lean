import MarketSystem.Library.Runs
import MarketSystem.Runtime.AlertDispatch

/-!
# Deliveries over whole runs

A row is claimed once, taken over any number of times and completed by the owner of its last
claim. The claims of a row never repeat a time, so the comparison of two times tells whether a
dispatcher is still the current one.
-/
namespace MarketSystem.AlertDispatch

open Library Library.Takeover

variable {ι : Type}

/-- The claims of a row: the newest is the one the row names. -/
def Current (row : Delivery) (claims : List (Claim ι)) : Prop :=
  ∃ c older, claims = c :: older ∧ c.at_ = row.claimedAt ∧ row.reclaims = older.length ∧
    row.recovery = if older.isEmpty then none else some ambiguousRetry

/-- A dispatcher made a claim, and has not completed it. -/
def Holds (s : State ι) (i : ι) (key : Key) (at_ : ℤ) : Prop :=
  (∃ c ∈ s.claims key, c.owner = i ∧ c.at_ = at_) ∧
    ∀ row, s.ledger.deliveries key = some row → row.status ≠ .sending → row.claimedAt ≠ at_

/-- There is a snapshot of an event. -/
def Saved (s : State ι) (eventId : String) : Prop := ∃ e ∈ s.ledger.events, e.eventId = eventId

/-- What one step can do to a row and its claims. -/
inductive Change (cfg : ι → Dispatcher) (s s' : State ι) (key : Key) : Prop
  | same (hrow : s'.ledger.deliveries key = s.ledger.deliveries key)
      (hclaims : s'.claims key = s.claims key)
  | first (i : ι) (at_ : ℤ) (habsent : s.ledger.deliveries key = none)
      (hsaved : Saved s key.1) (hpast : at_ ≤ s.now)
      (hrow : s'.ledger.deliveries key = some { status := .sending, claimedAt := at_ })
      (hclaims : s'.claims key = State.claimOf cfg i at_ :: s.claims key)
  | takeover (i : ι) (at_ : ℤ) (row : Delivery) (hbefore : s.ledger.deliveries key = some row)
      (hsending : row.status = .sending)
      (hstale : (cfg i).staleAfter ≤ ((at_ - row.claimedAt : ℤ) : ℚ)) (hpast : at_ ≤ s.now)
      (hrow : s'.ledger.deliveries key = some { row with
        claimedAt := at_, recovery := some ambiguousRetry, reclaims := row.reclaims + 1 })
      (hclaims : s'.claims key = State.claimOf cfg i at_ :: s.claims key)
  | completed (i : ι) (row row' : Delivery) (hbefore : s.ledger.deliveries key = some row)
      (hsending : row.status = .sending) (hholds : Holds s i key row.claimedAt)
      (hrow : s'.ledger.deliveries key = some row') (hterminal : row'.status ≠ .sending)
      (hsame : row'.claimedAt = row.claimedAt ∧ row'.reclaims = row.reclaims ∧
        row'.recovery = row.recovery)
      (hclaims : s'.claims key = s.claims key) (hidle : s'.phase i = .idle)

/-- What a dispatcher knows where it is. -/
def Knows (cfg : ι → Dispatcher) (s : State ι) (i : ι) : Phase → Prop
  | .idle => True
  | .saved event _ => Saved s event.eventId
  | .stamped event _ at_ => Saved s event.eventId ∧ at_ ≤ s.now
  | .refused _ _ at_ => at_ ≤ s.now
  | .found _ _ at_ seen => at_ ≤ s.now ∧ (cfg i).staleAfter ≤ ((at_ - seen : ℤ) : ℚ)
  | .sending event channel at_ _ => Holds s i (event.eventId, channel) at_
  | .sent event channel at_ _ _ => Holds s i (event.eventId, channel) at_
  | .closing event channel at_ _ _ _ => Holds s i (event.eventId, channel) at_

/-- An attempt is made under a claim, and after the outcome only under one that was superseded
before. -/
def SentUnder (s : State ι) (x : Send ι) : Prop :=
  (∃ c ∈ s.claims x.key, c.owner = x.owner ∧ c.at_ = x.at_) ∧
    ∃ row, x.row = some row ∧ (row.status ≠ .sending → x.at_ < row.claimedAt)

/-- What every run keeps. -/
structure Inv (cfg : ι → Dispatcher) (s : State ι) : Prop where
  absent : ∀ key, s.ledger.deliveries key = none → s.claims key = []
  current : ∀ key row, s.ledger.deliveries key = some row → Current row (s.claims key)
  succession : ∀ key, Succession (s.claims key)
  made : ∀ key, ∀ c ∈ s.claims key, c.patience = (cfg c.owner).staleAfter ∧ c.at_ ≤ s.now
  knows : ∀ i, Knows cfg s i (s.phase i)
  sends : ∀ x ∈ s.sends, SentUnder s x
  snapshot : ∀ key row, s.ledger.deliveries key = some row → Saved s key.1

section Keeps

variable {cfg : ι → Dispatcher} {s s' : State ι} {key : Key}

/-- Two dispatchers never hold one claim. -/
theorem Inv.holder_unique (h : Inv cfg s) {i j : ι} {at_ : ℤ} (hi : Holds s i key at_)
    (hj : Holds s j key at_) : i = j := by
  obtain ⟨⟨c, hc, rfl, hcat⟩, -⟩ := hi
  obtain ⟨⟨c', hc', rfl, hcat'⟩, -⟩ := hj
  rw [(h.succession key).eq_of_at hc hc' (hcat.trans hcat'.symm)]

/-- The claim a dispatcher holds is the current one, or an older one. -/
theorem Inv.holds_le (h : Inv cfg s) {i : ι} {at_ : ℤ} (hi : Holds s i key at_) :
    ∃ row, s.ledger.deliveries key = some row ∧ at_ ≤ row.claimedAt := by
  obtain ⟨⟨c, hc, -, rfl⟩, -⟩ := hi
  cases hrow : s.ledger.deliveries key with
  | none =>
    rw [h.absent key hrow] at hc
    exact absurd hc List.not_mem_nil
  | some row =>
    obtain ⟨head, older, hclaims, hat, -, -⟩ := h.current key row hrow
    have hsuccession := h.succession key
    rw [hclaims] at hc hsuccession
    exact ⟨row, rfl, hat ▸ hsuccession.at_le hc⟩

theorem Change.claims_subset (hchange : Change cfg s s' key) : s.claims key ⊆ s'.claims key := by
  cases hchange with
  | same hrow hclaims => rw [hclaims]; exact List.Subset.refl _
  | first i at_ habsent hsaved hpast hrow hclaims => rw [hclaims]; exact List.subset_cons_self _ _
  | takeover i at_ row hbefore hsending hstale hpast hrow hclaims =>
    rw [hclaims]; exact List.subset_cons_self _ _
  | completed i row row' hbefore hsending hholds hrow hterminal hsame hclaims hidle =>
    rw [hclaims]; exact List.Subset.refl _

/-- A row with an outcome never changes. -/
theorem Change.terminal (hchange : Change cfg s s' key) {row : Delivery}
    (hrow : s.ledger.deliveries key = some row) (hterminal : row.status ≠ .sending) :
    s'.ledger.deliveries key = some row := by
  cases hchange with
  | same hsame hclaims => exact hsame.trans hrow
  | first i at_ habsent hsaved hpast hrow' hclaims =>
    rw [habsent] at hrow
    cases hrow
  | takeover i at_ row' hbefore hsending hstale hpast hrow' hclaims =>
    rw [hbefore] at hrow
    cases hrow
    exact absurd hsending hterminal
  | completed i row' row'' hbefore hsending hholds hrow' hterminal' hsame hclaims hidle =>
    rw [hbefore] at hrow
    cases hrow
    exact absurd hsending hterminal

/-- A step of somebody else does not complete one's claim. -/
theorem Inv.holds_step (h : Inv cfg s) (hchange : Change cfg s s' key) {j : ι} {at_ : ℤ}
    (hbusy : s'.phase j ≠ .idle) (hj : Holds s j key at_) : Holds s' j key at_ := by
  obtain ⟨⟨c, hc, howner, hat⟩, hopen⟩ := hj
  refine ⟨⟨c, hchange.claims_subset hc, howner, hat⟩, fun row hrow hterminal => ?_⟩
  cases hchange with
  | same hsame hclaims => exact hopen row (hsame ▸ hrow) hterminal
  | first i at_' habsent hsaved hpast hrow' hclaims =>
    rw [hrow'] at hrow
    cases hrow
    exact absurd rfl hterminal
  | takeover i at_' row' hbefore hsending hstale hpast hrow' hclaims =>
    rw [hrow'] at hrow
    cases hrow
    exact absurd hsending hterminal
  | completed i row' row'' hbefore hsending hholds hrow' hterminal' hsame hclaims hidle =>
    rw [hrow'] at hrow
    cases hrow
    intro heq
    have hsameHolder : i = j := by
      refine h.holder_unique hholds ⟨⟨c, hc, howner, hat.trans ?_⟩, ?_⟩
      · exact heq.symm.trans hsame.1
      · rw [← hsame.1, heq]
        exact hopen
    exact hbusy (hsameHolder ▸ hidle)

/-- The step lemma, from what the step does to each row. -/
theorem Inv.keep (h : Inv cfg s) (hchange : ∀ key, Change cfg s s' key) (hnow : s.now ≤ s'.now)
    (hevents : ∀ eventId, Saved s eventId → Saved s' eventId)
    (hphase : ∀ j, s'.phase j = s.phase j ∨ Knows cfg s' j (s'.phase j))
    (hsends : ∀ x ∈ s'.sends, x ∈ s.sends ∨ SentUnder s' x) : Inv cfg s' where
  absent key hnone := by
    cases hchange key with
    | same hrow hclaims =>
      rw [hclaims]
      exact h.absent key (hrow ▸ hnone)
    | first i at_ habsent hsaved hpast hrow hclaims => rw [hrow] at hnone; cases hnone
    | takeover i at_ row hbefore hsending hstale hpast hrow hclaims =>
      rw [hrow] at hnone
      cases hnone
    | completed i row row' hbefore hsending hholds hrow hterminal hsame hclaims hidle =>
      rw [hrow] at hnone
      cases hnone
  current key row hrow := by
    cases hchange key with
    | same hsame hclaims =>
      rw [hclaims]
      exact h.current key row (hsame ▸ hrow)
    | first i at_ habsent hsaved hpast hrow' hclaims =>
      rw [hrow'] at hrow
      cases hrow
      rw [hclaims, h.absent key habsent]
      exact ⟨_, [], rfl, rfl, rfl, rfl⟩
    | takeover i at_ row' hbefore hsending hstale hpast hrow' hclaims =>
      rw [hrow'] at hrow
      cases hrow
      obtain ⟨c, older, holder, hat, hreclaims, -⟩ := h.current key row' hbefore
      refine ⟨_, c :: older, by rw [hclaims, holder], rfl, ?_, rfl⟩
      simp [hreclaims]
    | completed i row' row'' hbefore hsending hholds hrow' hterminal hsame hclaims hidle =>
      rw [hrow'] at hrow
      cases hrow
      obtain ⟨hat, hreclaims, hrecovery⟩ := hsame
      have hcurrent := h.current key row' hbefore
      unfold Current at hcurrent ⊢
      rw [hclaims, hat, hreclaims, hrecovery]
      exact hcurrent
  succession key := by
    cases hchange key with
    | same hrow hclaims => rw [hclaims]; exact h.succession key
    | first i at_ habsent hsaved hpast hrow hclaims =>
      rw [hclaims, h.absent key habsent]
      exact Succession.single _
    | takeover i at_ row hbefore hsending hstale hpast hrow hclaims =>
      obtain ⟨c, older, holder, hat, -, -⟩ := h.current key row hbefore
      have hsuccession := h.succession key
      rw [hclaims]
      rw [holder] at hsuccession ⊢
      refine hsuccession.cons ?_
      rw [hat]
      exact hstale
    | completed i row row' hbefore hsending hholds hrow hterminal hsame hclaims hidle =>
      rw [hclaims]
      exact h.succession key
  made key c hc := by
    have hold : c ∈ s.claims key → c.patience = (cfg c.owner).staleAfter ∧ c.at_ ≤ s'.now := by
      intro hmem
      obtain ⟨hpatience, hpast⟩ := h.made key c hmem
      exact ⟨hpatience, hpast.trans hnow⟩
    cases hchange key with
    | same hrow hclaims => exact hold (hclaims ▸ hc)
    | first i at_ habsent hsaved hpast hrow hclaims =>
      rw [hclaims] at hc
      cases List.mem_cons.mp hc with
      | inl heq => subst heq; exact ⟨rfl, hpast.trans hnow⟩
      | inr hmem => exact hold hmem
    | takeover i at_ row hbefore hsending hstale hpast hrow hclaims =>
      rw [hclaims] at hc
      cases List.mem_cons.mp hc with
      | inl heq => subst heq; exact ⟨rfl, hpast.trans hnow⟩
      | inr hmem => exact hold hmem
    | completed i row row' hbefore hsending hholds hrow hterminal hsame hclaims hidle =>
      exact hold (hclaims ▸ hc)
  knows j := by
    cases hphase j with
    | inr hnew => exact hnew
    | inl hsame =>
      have hknows := h.knows j
      rw [← hsame] at hknows
      have hholds : ∀ key at_, s'.phase j ≠ .idle → Holds s j key at_ → Holds s' j key at_ :=
        fun key at_ hbusy => h.holds_step (hchange key) hbusy
      cases hat : s'.phase j with
      | idle => trivial
      | saved event channel =>
        rw [hat] at hknows
        exact hevents _ hknows
      | stamped event channel at_ =>
        rw [hat] at hknows
        exact ⟨hevents _ hknows.1, hknows.2.trans hnow⟩
      | refused event channel at_ =>
        rw [hat] at hknows
        exact le_trans hknows hnow
      | found event channel at_ seen =>
        rw [hat] at hknows
        exact ⟨hknows.1.trans hnow, hknows.2⟩
      | sending event channel at_ attempts =>
        rw [hat] at hknows hholds
        exact hholds _ _ (fun hidle => Phase.noConfusion hidle) hknows
      | sent event channel at_ attempts error =>
        rw [hat] at hknows hholds
        exact hholds _ _ (fun hidle => Phase.noConfusion hidle) hknows
      | closing event channel at_ attempts error stamp =>
        rw [hat] at hknows hholds
        exact hholds _ _ (fun hidle => Phase.noConfusion hidle) hknows
  sends x hx := by
    cases hsends x hx with
    | inr hnew => exact hnew
    | inl hold =>
      obtain ⟨⟨c, hc, howner, hat⟩, hrow⟩ := h.sends x hold
      exact ⟨⟨c, (hchange x.key).claims_subset hc, howner, hat⟩, hrow⟩
  snapshot key row hrow := by
    cases hchange key with
    | same hsame hclaims => exact hevents _ (h.snapshot key row (hsame ▸ hrow))
    | first i at_ habsent hsaved hpast hrow' hclaims => exact hevents _ hsaved
    | takeover i at_ row' hbefore hsending hstale hpast hrow' hclaims =>
      exact hevents _ (h.snapshot key row' hbefore)
    | completed i row' row'' hbefore hsending hholds hrow' hterminal hsame hclaims hidle =>
      exact hevents _ (h.snapshot key row' hbefore)

end Keeps

/-! ### The statements of the ledger -/

namespace Ledger

variable {l l' : Ledger} {key : Key} {at_ seen : ℤ}

theorem update_deliveries (row : Delivery) (key' : Key) :
    (l.update key row).deliveries key' = if key' = key then some row else l.deliveries key' := by
  unfold update
  exact Function.update_apply ..

theorem insertClaim_eq_some (h : l.insertClaim key at_ = some l') :
    l.deliveries key = none ∧ l' = l.update key { status := .sending, claimedAt := at_ } := by
  unfold insertClaim at h
  cases hrow : l.deliveries key with
  | none =>
    rw [hrow] at h
    exact ⟨rfl, (Option.some.inj h).symm⟩
  | some row =>
    rw [hrow] at h
    cases h

theorem staleClaim_eq_some_iff {staleAfter : ℚ} :
    l.staleClaim key at_ staleAfter = some seen ↔
      ∃ row, l.deliveries key = some row ∧ row.status = .sending ∧ row.claimedAt = seen ∧
        staleAfter ≤ ((at_ - seen : ℤ) : ℚ) := by
  unfold staleClaim
  cases hrow : l.deliveries key with
  | none => simp
  | some row =>
    simp only [Option.ite_none_right_eq_some, Option.some.injEq]
    constructor
    · rintro ⟨⟨hsending, hstale⟩, rfl⟩
      exact ⟨row, rfl, hsending, rfl, hstale⟩
    · rintro ⟨row', rfl, hsending, rfl, hstale⟩
      exact ⟨⟨hsending, hstale⟩, rfl⟩

theorem takeOver_eq_some (h : l.takeOver key at_ seen = some l') :
    ∃ row, l.deliveries key = some row ∧ row.status = .sending ∧ row.claimedAt = seen ∧
      l' = l.update key { row with
        claimedAt := at_, recovery := some ambiguousRetry, reclaims := row.reclaims + 1 } := by
  unfold takeOver at h
  cases hrow : l.deliveries key with
  | none =>
    rw [hrow] at h
    cases h
  | some row =>
    simp only [hrow, Option.ite_none_right_eq_some, Option.some.injEq] at h
    obtain ⟨⟨hsending, hseen⟩, rfl⟩ := h
    exact ⟨row, rfl, hsending, hseen, rfl⟩

/-- Completing a claim that is not the current one changes nothing. -/
theorem complete_of_ne {attempts : ℕ} {error : Option String} {stamp : ℤ} {row : Delivery}
    (hrow : l.deliveries key = some row) (hne : row.claimedAt ≠ at_) :
    l.complete key stamp attempts error at_ = l := by
  unfold complete
  simp [hrow, hne]

theorem complete_cases (l : Ledger) (key : Key) (at_ stamp : ℤ) (attempts : ℕ) (error : Option String) :
    l.complete key stamp attempts error at_ = l ∨
      ∃ row row', l.deliveries key = some row ∧ row.status = .sending ∧ row.claimedAt = at_ ∧
        l.complete key stamp attempts error at_ = l.update key row' ∧ row'.status ≠ .sending ∧
        row'.claimedAt = row.claimedAt ∧ row'.reclaims = row.reclaims ∧
        row'.recovery = row.recovery := by
  unfold complete
  cases hrow : l.deliveries key with
  | none => exact .inl rfl
  | some row =>
    by_cases hcurrent : row.status = .sending ∧ row.claimedAt = at_
    · refine .inr ⟨row, _, rfl, hcurrent.1, hcurrent.2, if_pos hcurrent, ?_, rfl, rfl, rfl⟩
      cases error <;> simp
    · exact .inl (if_neg hcurrent)

theorem complete_events (stamp : ℤ) (attempts : ℕ) (error : Option String) :
    (l.complete key stamp attempts error at_).events = l.events := by
  obtain heq | ⟨row, row', -, -, -, heq, -⟩ :=
    l.complete_cases key at_ stamp attempts error
  · rw [heq]
  · rw [heq]
    rfl

theorem mem_save {event e : AlertEvent} (h : e ∈ l.events) : e ∈ (l.save event).events := by
  unfold save
  cases hinsert : l.events.insert? event with
  | none => exact h
  | some events => exact (Table.mem_of_insert? hinsert).mpr (.inl h)

theorem saved_save (event : AlertEvent) : ∃ e ∈ (l.save event).events, e.eventId = event.eventId := by
  unfold save
  cases hinsert : l.events.insert? event with
  | none =>
    obtain ⟨e, he, hid⟩ := Table.insert?_eq_none.mp hinsert
    exact ⟨e, he, hid⟩
  | some events => exact ⟨event, (Table.mem_of_insert? hinsert).mpr (.inr rfl), rfl⟩

end Ledger

/-! ### The steps of a dispatcher -/

section Steps

variable [DecidableEq ι] {cfg : ι → Dispatcher} {s : State ι} {i : ι} {key : Key} {at_ : ℤ}

/-- A step that leaves the rows and the claims alone. -/
theorem Inv.quiet (h : Inv cfg s) (phase : Phase) (hknows : Knows cfg s i phase) :
    Inv cfg (s.setPhase i phase) := by
  refine h.keep (fun key => .same rfl rfl) le_rfl (fun _ hsaved => hsaved) (fun j => ?_)
    (fun x hx => .inl hx)
  by_cases hj : j = i
  · subst hj
    right
    have hphase : (s.setPhase j phase).phase j = phase := Function.update_self ..
    rw [hphase]
    cases phase <;> exact hknows
  · exact .inl (Function.update_of_ne hj _ _)

theorem changes_claimed {event : AlertEvent} {channel : String} {row : Delivery}
    (hchange : Change cfg s (s.claimed cfg i event channel at_
      (s.ledger.update (event.eventId, channel) row)) (event.eventId, channel)) (key : Key) :
    Change cfg s (s.claimed cfg i event channel at_
      (s.ledger.update (event.eventId, channel) row)) key := by
  by_cases hkey : key = (event.eventId, channel)
  · exact hkey ▸ hchange
  · refine .same ?_ (Function.update_of_ne hkey _ _)
    exact (Ledger.update_deliveries row key).trans (if_neg hkey)

/-- A claim, the first one or a takeover, is held by the dispatcher that made it. -/
theorem Inv.claimed (h : Inv cfg s) {event : AlertEvent} {channel : String} {row : Delivery}
    (hsending : row.status = .sending)
    (hchange : Change cfg s (s.claimed cfg i event channel at_
      (s.ledger.update (event.eventId, channel) row)) (event.eventId, channel)) :
    Inv cfg (s.claimed cfg i event channel at_
      (s.ledger.update (event.eventId, channel) row)) := by
  refine h.keep (changes_claimed hchange) le_rfl (fun _ hsaved => hsaved) (fun j => ?_)
    (fun x hx => .inl hx)
  by_cases hj : j = i
  · subst hj
    right
    have hphase : (s.claimed cfg j event channel at_
        (s.ledger.update (event.eventId, channel) row)).phase j =
        .sending event channel at_ 0 := Function.update_self ..
    rw [hphase]
    refine ⟨⟨State.claimOf cfg j at_, ?_, rfl, rfl⟩, fun row' hrow' hterminal => ?_⟩
    · show _ ∈ Function.update s.claims _ _ _
      rw [Function.update_self]
      exact List.mem_cons_self
    · have hrow : some row = some row' :=
        ((Ledger.update_deliveries row _).trans (if_pos rfl)).symm.trans hrow'
      cases hrow
      exact absurd hsending hterminal
  · exact .inl (Function.update_of_ne hj _ _)

theorem change_insertClaim {event : AlertEvent} {channel : String}
    (hknows : Knows cfg s i (.stamped event channel at_))
    (habsent : s.ledger.deliveries (event.eventId, channel) = none) :
    Change cfg s (s.claimed cfg i event channel at_ (s.ledger.update (event.eventId, channel)
      { status := .sending, claimedAt := at_ })) (event.eventId, channel) :=
  .first i at_ habsent hknows.1 hknows.2
    ((Ledger.update_deliveries _ _).trans (if_pos rfl)) (Function.update_self ..)

theorem change_takeOver {event : AlertEvent} {channel : String} {seen : ℤ} {row : Delivery}
    (hknows : Knows cfg s i (.found event channel at_ seen))
    (hrow : s.ledger.deliveries (event.eventId, channel) = some row)
    (hsending : row.status = .sending) (hseen : row.claimedAt = seen) :
    Change cfg s (s.claimed cfg i event channel at_ (s.ledger.update (event.eventId, channel)
      { row with
        claimedAt := at_, recovery := some ambiguousRetry, reclaims := row.reclaims + 1 }))
      (event.eventId, channel) := by
  subst hseen
  exact .takeover i at_ row hrow hsending hknows.2 hknows.1
    ((Ledger.update_deliveries _ _).trans (if_pos rfl)) (Function.update_self ..)

omit [DecidableEq ι] in
/-- An attempt leaves the dispatcher with its claim. -/
theorem knows_attempted {event : AlertEvent} {channel : String} {attempts : ℕ}
    (hholds : Holds s i (event.eventId, channel) at_) (outcome : Option (String × Bool)) :
    Knows cfg s i (State.attempted cfg i event channel at_ attempts outcome) := by
  cases outcome with
  | none => exact hholds
  | some error =>
    obtain ⟨code, retryable⟩ := error
    by_cases hagain : retryable = true ∧ attempts < (cfg i).maxAttempts
    · simp only [State.attempted, if_pos hagain]
      exact hholds
    · simp only [State.attempted, if_neg hagain]
      exact hholds

theorem Inv.attempt (h : Inv cfg s) {event : AlertEvent} {channel : String} {phase : Phase}
    (hholds : Holds s i (event.eventId, channel) at_) (hknows : Knows cfg s i phase) :
    Inv cfg { s.setPhase i phase with
      sends := ⟨(event.eventId, channel), i, at_,
        s.ledger.deliveries (event.eventId, channel)⟩ :: s.sends } := by
  have hquiet := h.quiet phase hknows
  refine hquiet.keep (fun key => .same rfl rfl) le_rfl (fun _ hsaved => hsaved)
    (fun j => .inl rfl) (fun x hx => ?_)
  cases List.mem_cons.mp hx with
  | inr hold => exact .inl hold
  | inl hnew =>
    subst hnew
    obtain ⟨row, hrow, hle⟩ := h.holds_le hholds
    refine .inr ⟨hholds.1, row, hrow, fun hterminal => ?_⟩
    exact lt_of_le_of_ne hle (hholds.2 row hrow hterminal).symm

/-- A completion: of the current claim, or of none. -/
theorem change_complete (cfg : ι → Dispatcher) {event : AlertEvent} {channel : String} (stamp : ℤ) (attempts : ℕ)
    (error : Option String) (hholds : Holds s i (event.eventId, channel) at_) (key : Key) :
    Change cfg s { s.setPhase i .idle with
      ledger := s.ledger.complete (event.eventId, channel) stamp attempts error at_ } key := by
  obtain heq | ⟨row, row', hrow, hsending, hat, heq, hterminal, hsame⟩ :=
    s.ledger.complete_cases (event.eventId, channel) at_ stamp attempts error
  · exact .same (congrFun (congrArg Ledger.deliveries heq) key) rfl
  · have hdeliveries : ∀ key', (s.ledger.complete (event.eventId, channel) stamp attempts error
        at_).deliveries key' =
        if key' = (event.eventId, channel) then some row' else s.ledger.deliveries key' := by
      intro key'
      rw [heq]
      exact Ledger.update_deliveries row' key'
    by_cases hkey : key = (event.eventId, channel)
    · subst hkey
      exact .completed i row row' hrow hsending (hat ▸ hholds)
        ((hdeliveries _).trans (if_pos rfl)) hterminal hsame rfl (Function.update_self ..)
    · exact .same ((hdeliveries key).trans (if_neg hkey)) rfl

/-- One step of a dispatcher: what it does to the rows, and that the invariant stays. -/
theorem Inv.advance (h : Inv cfg s) (i : ι) (outcome : Option (String × Bool)) :
    (∀ key, Change cfg s (s.advance cfg i outcome) key) ∧ Inv cfg (s.advance cfg i outcome) := by
  have hknows := h.knows i
  cases hphase : s.phase i with
  | idle =>
    simp only [State.advance, hphase]
    exact ⟨fun key => .same rfl rfl, h⟩
  | saved event channel =>
    rw [hphase] at hknows
    simp only [State.advance, hphase]
    exact ⟨fun key => .same rfl rfl, h.quiet (.stamped event channel s.now)
      ⟨hknows, le_rfl⟩⟩
  | stamped event channel at_ =>
    rw [hphase] at hknows
    cases hclaim : s.ledger.insertClaim (event.eventId, channel) at_ with
    | some ledger =>
      obtain ⟨habsent, rfl⟩ := Ledger.insertClaim_eq_some hclaim
      have hchange := change_insertClaim hknows habsent
      simp only [State.advance, hphase, hclaim]
      exact ⟨changes_claimed hchange, h.claimed rfl hchange⟩
    | none =>
      simp only [State.advance, hphase, hclaim]
      exact ⟨fun key => .same rfl rfl, h.quiet (.refused event channel at_) hknows.2⟩
  | refused event channel at_ =>
    rw [hphase] at hknows
    cases hclaim : s.ledger.staleClaim (event.eventId, channel) at_ (cfg i).staleAfter with
    | some seen =>
      obtain ⟨row, -, -, -, hstale⟩ := Ledger.staleClaim_eq_some_iff.mp hclaim
      simp only [State.advance, hphase, hclaim]
      exact ⟨fun key => .same rfl rfl, h.quiet (.found event channel at_ seen)
        ⟨hknows, hstale⟩⟩
    | none =>
      simp only [State.advance, hphase, hclaim]
      exact ⟨fun key => .same rfl rfl, h.quiet .idle trivial⟩
  | found event channel at_ seen =>
    rw [hphase] at hknows
    cases hclaim : s.ledger.takeOver (event.eventId, channel) at_ seen with
    | some ledger =>
      obtain ⟨row, hrow, hsending, hseen, rfl⟩ := Ledger.takeOver_eq_some hclaim
      have hchange := change_takeOver hknows hrow hsending hseen
      simp only [State.advance, hphase, hclaim]
      exact ⟨changes_claimed hchange, h.claimed (by exact hsending) hchange⟩
    | none =>
      simp only [State.advance, hphase, hclaim]
      exact ⟨fun key => .same rfl rfl, h.quiet .idle trivial⟩
  | sending event channel at_ attempts =>
    rw [hphase] at hknows
    simp only [State.advance, hphase]
    exact ⟨fun key => .same rfl rfl, h.attempt hknows (knows_attempted hknows outcome)⟩
  | sent event channel at_ attempts error =>
    rw [hphase] at hknows
    simp only [State.advance, hphase]
    exact ⟨fun key => .same rfl rfl, h.quiet (.closing event channel at_ attempts error s.now) hknows⟩
  | closing event channel at_ attempts error stamp =>
    rw [hphase] at hknows
    have hchange := change_complete cfg stamp attempts error hknows
    simp only [State.advance, hphase]
    refine ⟨hchange, h.keep hchange le_rfl ?_ (fun j => ?_) (fun x hx => .inl hx)⟩
    · rintro eventId ⟨e, he, hid⟩
      exact ⟨e, by rw [Ledger.complete_events]; exact he, hid⟩
    · by_cases hj : j = i
      · subst hj
        right
        have hidle : (s.setPhase j .idle).phase j = .idle := Function.update_self ..
        show Knows cfg _ j ((s.setPhase j .idle).phase j)
        rw [hidle]
        trivial
      · exact .inl (Function.update_of_ne hj _ _)

theorem Inv.step (h : Inv cfg s) (e : Event ι) :
    (∀ key, Change cfg s (s.step cfg e) key) ∧ Inv cfg (s.step cfg e) := by
  cases e with
  | tick seconds =>
    refine ⟨fun key => .same rfl rfl, h.keep (fun key => .same rfl rfl) ?_
      (fun _ hsaved => hsaved) (fun j => .inl rfl) (fun x hx => .inl hx)⟩
    show s.now ≤ s.now + seconds
    omega
  | deliver i channel event =>
    unfold State.step
    by_cases hstart : s.phase i = .idle ∧ (cfg i).refusal channel event = none
    · simp only [if_pos hstart]
      refine ⟨fun key => .same rfl rfl, h.keep (fun key => .same rfl rfl) le_rfl ?_ (fun j => ?_)
        (fun x hx => .inl hx)⟩
      · rintro eventId ⟨e, he, hid⟩
        exact ⟨e, Ledger.mem_save he, hid⟩
      · by_cases hj : j = i
        · subst hj
          right
          cases hconfigured : channel.configured with
          | true =>
            simp only [State.setPhase, Function.update_self, if_true]
            exact Ledger.saved_save event
          | false =>
            simp only [State.setPhase, Function.update_self, Bool.false_eq_true, if_false]
            trivial
        · exact .inl (Function.update_of_ne hj _ _)
    · simp only [if_neg hstart]
      exact ⟨fun key => .same rfl rfl, h⟩
  | advance i outcome => exact h.advance i outcome
  | crash i => exact ⟨fun key => .same rfl rfl, h.quiet .idle trivial⟩

omit [DecidableEq ι] in
theorem Inv.start (cfg : ι → Dispatcher) (started : ℤ) : Inv cfg { now := started } where
  absent key _ := rfl
  current key row hrow := by cases hrow
  succession key := List.Pairwise.nil
  made key c hc := absurd hc List.not_mem_nil
  knows i := trivial
  sends x hx := absurd hx List.not_mem_nil
  snapshot key row hrow := by cases hrow

/-- The run lemma. -/
theorem Inv.run (h : Inv cfg s) (events : List (Event ι)) :
    Inv cfg (run (State.step cfg) events s) :=
  run_invariant (fun _ e hs => (hs.step e).2) h

/-- A row with an outcome stays as it is. -/
theorem Inv.terminal_run (h : Inv cfg s) {row : Delivery}
    (hrow : s.ledger.deliveries key = some row) (hterminal : row.status ≠ .sending)
    (events : List (Event ι)) :
    (Library.run (State.step cfg) events s).ledger.deliveries key = some row := by
  have hboth : Inv cfg (Library.run (State.step cfg) events s) ∧
      (Library.run (State.step cfg) events s).ledger.deliveries key = some row :=
    run_invariant (P := fun s' => Inv cfg s' ∧ s'.ledger.deliveries key = some row)
      (fun s' e hs => ⟨(hs.1.step e).2, ((hs.1.step e).1 key).terminal hs.2 hterminal⟩) ⟨h, hrow⟩
  exact hboth.2

/-- A delivery leaves the snapshots alone once it has saved its own. -/
theorem advance_events (outcome : Option (String × Bool)) :
    (s.advance cfg i outcome).ledger.events = s.ledger.events := by
  cases hphase : s.phase i with
  | stamped event channel at_ =>
    cases hclaim : s.ledger.insertClaim (event.eventId, channel) at_ with
    | some ledger =>
      obtain ⟨-, rfl⟩ := Ledger.insertClaim_eq_some hclaim
      simp only [State.advance, hphase, hclaim, State.claimed_ledger, Ledger.update]
    | none => simp only [State.advance, hphase, hclaim, State.setPhase_ledger]
  | refused event channel at_ =>
    cases hclaim : s.ledger.staleClaim (event.eventId, channel) at_ (cfg i).staleAfter <;>
      simp only [State.advance, hphase, hclaim, State.setPhase_ledger]
  | found event channel at_ seen =>
    cases hclaim : s.ledger.takeOver (event.eventId, channel) at_ seen with
    | some ledger =>
      obtain ⟨row, -, -, -, rfl⟩ := Ledger.takeOver_eq_some hclaim
      simp only [State.advance, hphase, hclaim, State.claimed_ledger, Ledger.update]
    | none => simp only [State.advance, hphase, hclaim, State.setPhase_ledger]
  | closing event channel at_ attempts error stamp =>
    simp only [State.advance, hphase, Ledger.complete_events]
  | _ => simp only [State.advance, hphase, State.setPhase_ledger]

theorem mem_events_step {e : AlertEvent} (he : e ∈ s.ledger.events) (event : Event ι) :
    e ∈ (s.step cfg event).ledger.events := by
  cases event with
  | tick seconds => exact he
  | deliver i channel new =>
    unfold State.step
    by_cases hstart : s.phase i = .idle ∧ (cfg i).refusal channel new = none
    · simp only [if_pos hstart]
      exact Ledger.mem_save he
    · simp only [if_neg hstart]
      exact he
  | advance i outcome =>
    show e ∈ (s.advance cfg i outcome).ledger.events
    rw [advance_events]
    exact he
  | crash i => exact he

theorem mem_events_run {e : AlertEvent} (he : e ∈ s.ledger.events) (events : List (Event ι)) :
    e ∈ (Library.run (State.step cfg) events s).ledger.events :=
  run_invariant (P := fun s' : State ι => e ∈ s'.ledger.events)
    (fun _ event hs => mem_events_step hs event) he

end Steps

/-! ### Recovery -/

section Recovery

variable {ledgers : ℕ → Ledger} {channels : List String} {at_ : ℤ} {staleAfter : ℚ}
  {channelFilter : AlertEvent → List String → List String}

/-- What stays stale while the snapshots are read is offered. -/
theorem pending_offers (hgrow : ∀ k, (ledgers k).events.rows ⊆ (ledgers (k + 1)).events.rows)
    {n : ℕ} {offered : List AlertEvent}
    (h : pending ledgers channels at_ staleAfter channelFilter n = some offered)
    {e : AlertEvent} (he : e ∈ (ledgers 0).events) {name : String} {row : Delivery}
    (hname : name ∈ channelFilter e channels)
    (hrow : ∀ k, (ledgers k).deliveries (e.eventId, name) = some row)
    (hsending : row.status = .sending)
    (hstale : staleAfter ≤ ((at_ - row.claimedAt : ℤ) : ℚ)) : e ∈ offered := by
  obtain ⟨visits, hvisits, rfl⟩ := Option.map_eq_some_iff.mp h
  have hkept : ∀ k, e ∈ (ledgers k).events := by
    intro k
    induction k with
    | zero => exact he
    | succ k ih => exact hgrow k ih
  obtain ⟨k, x, hmem, hview, hid⟩ := KeysetScan.visited hgrow hvisits he e.named
  obtain rfl := Table.eq_of_key hview (hkept k) hid
  refine List.mem_map.mpr ⟨(k, x), List.mem_filter.mpr ⟨hmem, ?_⟩, rfl⟩
  refine List.any_eq_true.mpr ⟨name, hname, ?_⟩
  have hclaim : (ledgers (k + 2)).staleClaim (x.eventId, name) at_ staleAfter =
      some row.claimedAt :=
    Ledger.staleClaim_eq_some_iff.mpr ⟨row, hrow (k + 2), hsending, rfl, hstale⟩
  simp [offers, hclaim]

/-- The scan ends when no more snapshots come. -/
theorem pending_ends {bound : List AlertEvent} (hbound : ∀ k, (ledgers k).events.rows ⊆ bound)
    (channels : List String) (at_ : ℤ) (staleAfter : ℚ)
    (channelFilter : AlertEvent → List String → List String) :
    ∃ n offered, pending ledgers channels at_ staleAfter channelFilter n = some offered := by
  have hends : ∃ visits, KeysetScan.scan AlertEvent.eventId (fun k => (ledgers k).events.rows) 3
      ((bound.filter (fun e => decide ("" < e.eventId))).length + 1) 0 "" = some visits :=
    KeysetScan.ends hbound (Nat.lt_succ_self _)
  obtain ⟨visits, hvisits⟩ := hends
  exact ⟨_, _, by rw [pending, hvisits]; rfl⟩

end Recovery

/-! ### Every run -/

section Runs

variable [DecidableEq ι]

/-- The ledger as the readings of a scan find it, each after some more steps. -/
def readings (cfg : ι → Dispatcher) (s : State ι) (more : List (Event ι)) (reading : ℕ → ℕ)
    (k : ℕ) : Ledger :=
  (run (State.step cfg) (more.take (reading k)) s).ledger

theorem readings_grow (cfg : ι → Dispatcher) (s : State ι) (more : List (Event ι))
    {reading : ℕ → ℕ} {a b : ℕ} (h : reading a ≤ reading b) :
    (readings cfg s more reading a).events.rows ⊆ (readings cfg s more reading b).events.rows := by
  intro e he
  have hsplit : more.take (reading b) =
      more.take (reading a) ++ (more.take (reading b)).drop (reading a) := by
    have htake : (more.take (reading b)).take (reading a) = more.take (reading a) := by
      rw [List.take_take, min_eq_left h]
    rw [← htake, List.take_append_drop]
  unfold readings
  rw [hsplit, run_append]
  exact mem_events_run he _

theorem readings_le (cfg : ι → Dispatcher) (s : State ι) (more : List (Event ι)) (reading : ℕ → ℕ)
    (k : ℕ) : (readings cfg s more reading k).events.rows ⊆
      (run (State.step cfg) more s).ledger.events.rows := by
  intro e he
  rw [← List.take_append_drop (reading k) more, run_append]
  exact mem_events_run he _

/-- Alert delivery over every run of any dispatchers on one ledger. -/
theorem alert_deliveries (cfg : ι → Dispatcher) (started : ℤ) (events : List (Event ι)) :
    let s := run (State.step cfg) events { now := started }
    -- a row changes only as `Change` says, and not at all once it has an outcome
    (∀ e key, Change cfg s (s.step cfg e) key) ∧
    (∀ key row, s.ledger.deliveries key = some row → row.status ≠ .sending →
      ∀ more, (run (State.step cfg) more s).ledger.deliveries key = some row) ∧
    -- the claims of a row, the current one first, each made after the patience of its owner
    (∀ key row, s.ledger.deliveries key = some row → Current row (s.claims key)) ∧
    (∀ key, Succession (s.claims key)) ∧
    -- one dispatcher at most holds a claim, and the others complete nothing
    (∀ i j key at_, Holds s i key at_ → Holds s j key at_ → i = j) ∧
    (∀ i event channel at_ attempts error stamp outcome row,
      s.phase i = .closing event channel at_ attempts error stamp →
      s.ledger.deliveries (event.eventId, channel) = some row → row.claimedAt ≠ at_ →
      (s.advance cfg i outcome).ledger = s.ledger) ∧
    -- attempts are made under claims, and after the outcome under superseded ones only
    (∀ x ∈ s.sends, SentUnder s x) ∧
    -- a claim that is left alone is offered by every scan that finds it stale
    ∀ more reading, Monotone reading → ∀ channels at_ staleAfter channelFilter,
      ∃ n offered, pending (readings cfg s more reading) channels at_ staleAfter channelFilter n =
          some offered ∧
        ∀ key row, s.ledger.deliveries key = some row → row.status = .sending →
          staleAfter ≤ ((at_ - row.claimedAt : ℤ) : ℚ) →
          (∀ k, (readings cfg s more reading k).deliveries key = some row) →
          ∃ e ∈ s.ledger.events, e.eventId = key.1 ∧
            (key.2 ∈ channelFilter e channels → e ∈ offered) := by
  intro s
  have h : Inv cfg s := (Inv.start cfg started).run events
  refine ⟨fun e => (h.step e).1, fun key row hrow hterminal => h.terminal_run hrow hterminal,
    h.current, h.succession, fun i j key at_ hi hj => h.holder_unique hi hj, ?_, h.sends, ?_⟩
  · intro i event channel at_ attempts error stamp outcome row hphase hrow hne
    simp only [State.advance, hphase]
    exact Ledger.complete_of_ne hrow hne
  · intro more reading hmono channels at_ staleAfter channelFilter
    obtain ⟨n, offered, hoffered⟩ :=
      pending_ends (readings_le cfg s more reading) channels at_ staleAfter channelFilter
    refine ⟨n, offered, hoffered, fun key row hrow hsending hstale hleft => ?_⟩
    obtain ⟨e, he, hid⟩ := h.snapshot key row hrow
    refine ⟨e, he, hid, fun hname => ?_⟩
    have hgrow : ∀ k, (readings cfg s more reading k).events.rows ⊆
        (readings cfg s more reading (k + 1)).events.rows :=
      fun k => readings_grow cfg s more (hmono (Nat.le_succ k))
    have hkey : (e.eventId, key.2) = key := Prod.ext hid rfl
    exact pending_offers hgrow hoffered (mem_events_run he _) hname
      (fun k => by rw [hkey]; exact hleft k) hsending hstale

end Runs

/-! ### A slow sender -/

def twoDispatchers (_ : ℕ) : Dispatcher where
  maxAttempts := 3
  staleAfter := 300
  attempts_pos := by decide
  attempts_le := by decide
  stale_le := by decide

def opened : AlertEvent := ⟨"evt-1", .positionOpened, by decide⟩

/-- A dispatcher claims and is held up for 300 seconds; a second one takes over and delivers. -/
def slowSender : List (Event ℕ) :=
  [.deliver 0 ⟨"slack", true⟩ opened, .advance 0 none, .advance 0 none, .tick 300,
   .deliver 1 ⟨"slack", true⟩ opened, .advance 1 none, .advance 1 none, .advance 1 none,
   .advance 1 none, .advance 1 none, .advance 1 none, .advance 1 none]

/-- What was delivered is sent again by the dispatcher that was taken over. -/
theorem sent_after_delivered :
    let s := run (State.step twoDispatchers) slowSender { now := 0 }
    (s.ledger.deliveries ("evt-1", "slack")).map (·.status) = some .delivered ∧
      (s.step twoDispatchers (.advance 0 none)).sends.length = s.sends.length + 1 ∧
      (s.step twoDispatchers (.advance 0 none)).sends.head?.map
        (fun x => (x.key, x.row.map (·.status))) =
        some (("evt-1", "slack"), some .delivered) := by
  decide +kernel

end MarketSystem.AlertDispatch
