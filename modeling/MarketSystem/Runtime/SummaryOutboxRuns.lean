import MarketSystem.Library.Runs
import MarketSystem.Runtime.SummaryOutbox

/-!
# The daily summary over whole runs

What a call may leave behind wherever it ends, and what a call that ends well has done: every row
has its event, every event its delivery, and what was new about them went to the sink.
-/
namespace MarketSystem.SummaryOutbox

open Library DailySummary
open Library.WallClock (weekday)

variable {ε : Type}

/-- What every action keeps. -/
structure Inv (r : Runner ε) (w : World ε) : Prop where
  labels : (w.journal.map (·.label)).Pairwise (· < ·)
  weekdays : ∀ row ∈ w.journal, weekday row.label < 5
  last : ∀ row ∈ w.journal, ∃ last, w.lastLabel = some last ∧ row.label ≤ last
  ids : ∀ row ∈ w.journal, row.id < w.nextId
  nodup : (w.journal.map (·.id)).Nodup
  events : ∀ e ∈ w.events, e.eventId = r.eventId e.journalId ∧ ∃ row ∈ w.journal, row.id = e.journalId
  deliveries : ∀ d ∈ w.deliveries, ∃ e ∈ w.events, e.eventId = d.eventId
  once : w.attempts.Nodup
  sent : ∀ a ∈ w.attempts, ∃ d ∈ w.deliveries, d.eventId = a

/-- What may have happened since an earlier moment. -/
structure Since (w₀ w : World ε) : Prop where
  journal : w₀.journal ⊆ w.journal
  events : ∀ e ∈ w₀.events, e ∈ w.events
  deliveries : ∀ d ∈ w₀.deliveries,
    d ∈ w.deliveries ∨ d.status = .claimed ∧ { d with status := .unknown } ∈ w.deliveries
  attempts : ∀ a ∈ w₀.attempts, a ∈ w.attempts
  unsent : ∀ d ∈ w₀.deliveries, d.eventId ∈ w.attempts → d.eventId ∈ w₀.attempts

namespace Since

theorem refl (w : World ε) : Since w w where
  journal := List.Subset.refl _
  events _ he := he
  deliveries _ hd := .inl hd
  attempts _ ha := ha
  unsent _ _ ha := ha

variable {w₀ w w' : World ε}

/-- A delivery stays, perhaps with an unknown outcome. -/
theorem delivery (h : Since w₀ w) {d : Delivery ε} (hd : d ∈ w₀.deliveries) :
    ∃ d' ∈ w.deliveries, d'.eventId = d.eventId := by
  cases h.deliveries d hd with
  | inl hkept => exact ⟨d, hkept, rfl⟩
  | inr hmarked => exact ⟨_, hmarked.2, rfl⟩

theorem trans (h : Since w₀ w) (h' : Since w w') : Since w₀ w' where
  journal := List.Subset.trans h.journal h'.journal
  events e he := h'.events e (h.events e he)
  deliveries d hd := by
    cases h.deliveries d hd with
    | inl hkept => exact h'.deliveries d hkept
    | inr hmarked =>
      obtain ⟨hclaimed, hunknown⟩ := hmarked
      cases h'.deliveries _ hunknown with
      | inl hkept => exact .inr ⟨hclaimed, hkept⟩
      | inr hagain => exact absurd hagain.1 (by simp)
  attempts a ha := h'.attempts a (h.attempts a ha)
  unsent d hd ha := by
    obtain ⟨d', hd', hid⟩ := h.delivery hd
    have hlater := h'.unsent d' hd' (hid ▸ ha)
    exact h.unsent d hd (hid ▸ hlater)

end Since

/-- What a part of a call that ends well has done: what is new was sent. -/
structure Moves (w w' : World ε) : Prop where
  journal : w'.journal = w.journal
  events : ∀ e ∈ w.events, e ∈ w'.events
  kept : ∀ d ∈ w.deliveries, d ∈ w'.deliveries
  attempts : ∀ a ∈ w.attempts, a ∈ w'.attempts
  fresh : ∀ d ∈ w'.deliveries, (∀ d₀ ∈ w.deliveries, d₀.eventId ≠ d.eventId) →
    d.eventId ∈ w'.attempts

namespace Moves

variable {w w' w'' : World ε}

/-- A part that leaves the deliveries alone. -/
theorem of_deliveries (hjournal : w'.journal = w.journal) (hevents : ∀ e ∈ w.events, e ∈ w'.events)
    (hdeliveries : w'.deliveries = w.deliveries) (hattempts : w'.attempts = w.attempts) :
    Moves w w' where
  journal := hjournal
  events := hevents
  kept d hd := by rw [hdeliveries]; exact hd
  attempts a ha := by rw [hattempts]; exact ha
  fresh d hd hnew := by
    rw [hdeliveries] at hd
    exact absurd rfl (hnew d hd)

theorem refl (w : World ε) : Moves w w := of_deliveries rfl (fun _ he => he) rfl rfl

theorem trans (h : Moves w w') (h' : Moves w' w'') : Moves w w'' where
  journal := h'.journal.trans h.journal
  events e he := h'.events e (h.events e he)
  kept d hd := h'.kept d (h.kept d hd)
  attempts a ha := h'.attempts a (h.attempts a ha)
  fresh d hd hnew := by
    by_cases hold : ∃ d' ∈ w'.deliveries, d'.eventId = d.eventId
    · obtain ⟨d', hd', hid⟩ := hold
      obtain rfl := Table.eq_of_key (h'.kept d' hd') hd hid
      exact h'.attempts _ (h.fresh d' hd' hnew)
    · exact h'.fresh d hd (fun d' hd' hid => hold ⟨d', hd', hid⟩)

end Moves

/-! ### The transactions -/

section Transactions

variable [DecidableEq ε] {r : Runner ε} {w₀ w : World ε}

omit [DecidableEq ε] in
/-- The clock was read. -/
theorem Inv.setReads (h : Inv r w) (n : ℕ) : Inv r { w with reads := n } :=
  ⟨h.labels, h.weekdays, h.last, h.ids, h.nodup, h.events, h.deliveries, h.once, h.sent⟩

omit [DecidableEq ε] in
theorem Since.setReads (h : Since w₀ w) (n : ℕ) : Since w₀ { w with reads := n } :=
  ⟨h.journal, h.events, h.deliveries, h.attempts, h.unsent⟩

omit [DecidableEq ε] in
/-- A day after all that are there is added. -/
theorem Inv.addRow (h : Inv r w) {day : ℤ} (hweekday : weekday day < 5)
    (hafter : ∀ last, w.lastLabel = some last → last < day) :
    Inv r { w with
      journal := w.journal ++ [⟨w.nextId, day⟩], nextId := w.nextId + 1, lastLabel := some day } where
  labels := by
    rw [List.map_append, List.pairwise_append]
    refine ⟨h.labels, List.pairwise_singleton _ _, ?_⟩
    intro label hlabel other hother
    obtain ⟨row, hrow, rfl⟩ := List.mem_map.mp hlabel
    obtain rfl := List.mem_singleton.mp hother
    obtain ⟨last, hlast, hle⟩ := h.last row hrow
    exact lt_of_le_of_lt hle (hafter last hlast)
  weekdays row hrow := by
    cases List.mem_append.mp hrow with
    | inl hold => exact h.weekdays row hold
    | inr hnew => exact List.mem_singleton.mp hnew ▸ hweekday
  last row hrow := by
    refine ⟨day, rfl, ?_⟩
    cases List.mem_append.mp hrow with
    | inl hold =>
      obtain ⟨last, hlast, hle⟩ := h.last row hold
      exact hle.trans (hafter last hlast).le
    | inr hnew => exact List.mem_singleton.mp hnew ▸ le_rfl
  ids row hrow := by
    cases List.mem_append.mp hrow with
    | inl hold => exact Nat.lt_succ_of_lt (h.ids row hold)
    | inr hnew =>
      have heq := List.mem_singleton.mp hnew
      subst heq
      exact Nat.lt_succ_self w.nextId
  nodup := by
    rw [List.map_append, List.nodup_append]
    refine ⟨h.nodup, List.nodup_singleton _, ?_⟩
    intro id hid other hother heq
    obtain ⟨row, hrow, rfl⟩ := List.mem_map.mp hid
    obtain rfl := List.mem_singleton.mp hother
    exact absurd (h.ids row hrow) (by simp [heq])
  events e he := by
    obtain ⟨hid, row, hrow, hjournal⟩ := h.events e he
    exact ⟨hid, row, List.mem_append_left _ hrow, hjournal⟩
  deliveries := h.deliveries
  once := h.once
  sent := h.sent

omit [DecidableEq ε] in
theorem persistDays_spec (days : List ℤ) (h : Inv r w) (hdays : days.Pairwise (· < ·))
    (hweekdays : ∀ d ∈ days, weekday d < 5)
    (hafter : ∀ d ∈ days, ∀ last, w.lastLabel = some last → last < d) :
    Inv r (Runner.persistDays days w).2 ∧ w.journal ⊆ (Runner.persistDays days w).2.journal ∧
      (Runner.persistDays days w).2.events = w.events ∧
      (Runner.persistDays days w).2.deliveries = w.deliveries ∧
      (Runner.persistDays days w).2.attempts = w.attempts := by
  induction days generalizing w with
  | nil => exact ⟨h, List.Subset.refl _, rfl, rfl, rfl⟩
  | cons day days ih =>
    obtain ⟨hfirst, hrest⟩ := List.pairwise_cons.mp hdays
    unfold Runner.persistDays
    by_cases hthere : w.journal.any (fun row => decide (row.label = day)) = true
    · rw [if_pos hthere]
      exact ih h hrest (fun d hd => hweekdays d (List.mem_cons_of_mem _ hd))
        (fun d hd => hafter d (List.mem_cons_of_mem _ hd))
    · rw [if_neg hthere]
      obtain ⟨hinv, hjournal, hevents, hdeliveries, hattempts⟩ :=
        ih (h.addRow (hweekdays day List.mem_cons_self) (hafter day List.mem_cons_self)) hrest
          (fun d hd => hweekdays d (List.mem_cons_of_mem _ hd))
          (fun d hd last hlast => Option.some.inj hlast ▸ hfirst d hd)
      exact ⟨hinv, List.Subset.trans (List.subset_append_left _ _) hjournal, hevents, hdeliveries,
        hattempts⟩

/-- An event for each of some rows. -/
theorem captureRows_spec (hinj : Function.Injective r.eventId) (rows : List JournalRow)
    (h : Inv r w) (hrows : ∀ row ∈ rows, row ∈ w.journal) :
    Inv r (r.captureRows rows w).2 ∧ (r.captureRows rows w).2.journal = w.journal ∧
      (∀ e ∈ w.events, e ∈ (r.captureRows rows w).2.events) ∧
      (r.captureRows rows w).2.deliveries = w.deliveries ∧
      (r.captureRows rows w).2.attempts = w.attempts ∧
      (∀ row ∈ rows, ∃ e ∈ (r.captureRows rows w).2.events, e.journalId = row.id) ∧
      ∀ e ∈ (r.captureRows rows w).1, e ∈ (r.captureRows rows w).2.events := by
  induction rows generalizing w with
  | nil =>
    exact ⟨h, rfl, fun _ he => he, rfl, rfl, fun row hrow => absurd hrow List.not_mem_nil,
      fun e he => absurd he List.not_mem_nil⟩
  | cons row rows ih =>
    unfold Runner.captureRows
    cases hinsert : w.events.insert? ⟨r.eventId row.id, row.id, row.label⟩ with
    | none =>
      simp only [hinsert]
      obtain ⟨e, he, hid⟩ := Table.insert?_eq_none.mp hinsert
      have hjournal : e.journalId = row.id := hinj ((h.events e he).1.symm.trans hid)
      obtain ⟨hinv, hsame, hevents, hdeliveries, hattempts, hcaptured, hresult⟩ :=
        ih h (fun x hx => hrows x (List.mem_cons_of_mem _ hx))
      refine ⟨hinv, hsame, hevents, hdeliveries, hattempts, fun x hx => ?_, hresult⟩
      cases List.mem_cons.mp hx with
      | inl hhead => exact ⟨e, hevents e he, hhead ▸ hjournal⟩
      | inr htail => exact hcaptured x htail
    | some events =>
      simp only [hinsert]
      have hmem : ∀ e, e ∈ events ↔ e ∈ w.events ∨ e = ⟨r.eventId row.id, row.id, row.label⟩ :=
        fun e => Table.mem_of_insert? hinsert
      have hnext : Inv r { w with events := events } := by
        refine ⟨h.labels, h.weekdays, h.last, h.ids, h.nodup, fun e he => ?_, fun d hd => ?_,
          h.once, h.sent⟩
        · cases (hmem e).mp he with
          | inl hold => exact h.events e hold
          | inr hnew => exact hnew ▸ ⟨rfl, row, hrows row List.mem_cons_self, rfl⟩
        · obtain ⟨e, he, hid⟩ := h.deliveries d hd
          exact ⟨e, (hmem e).mpr (.inl he), hid⟩
      obtain ⟨hinv, hsame, hevents, hdeliveries, hattempts, hcaptured, hresult⟩ :=
        ih hnext (fun x hx => hrows x (List.mem_cons_of_mem _ hx))
      refine ⟨hinv, hsame, fun e he => hevents e ((hmem e).mpr (.inl he)), hdeliveries, hattempts,
        fun x hx => ?_, fun e he => ?_⟩
      · cases List.mem_cons.mp hx with
        | inl hhead => exact ⟨_, hevents _ ((hmem _).mpr (.inr rfl)), hhead ▸ rfl⟩
        | inr htail => exact hcaptured x htail
      · cases List.mem_cons.mp he with
        | inl hhead => exact hhead ▸ hevents _ ((hmem _).mpr (.inr rfl))
        | inr htail => exact hresult e htail

section Delivering

variable {deliveries : Table (@Delivery.eventId ε)} {new : Delivery ε} {id : ε}

omit [DecidableEq ε] in
/-- An event was claimed. -/
theorem Inv.claim (h : Inv r w) (hnew : ∃ e ∈ w.events, e.eventId = new.eventId)
    (hmem : ∀ d, d ∈ deliveries ↔ d ∈ w.deliveries ∨ d = new) :
    Inv r { w with deliveries := deliveries } := by
  refine ⟨h.labels, h.weekdays, h.last, h.ids, h.nodup, h.events, fun d hd => ?_, h.once,
    fun a ha => ?_⟩
  · cases (hmem d).mp hd with
    | inl hold => exact h.deliveries d hold
    | inr heq => exact heq ▸ hnew
  · obtain ⟨d, hd, hid⟩ := h.sent a ha
    exact ⟨d, (hmem d).mpr (.inl hd), hid⟩

omit [DecidableEq ε] in
theorem Since.claim (h : Since w₀ w)
    (hmem : ∀ d, d ∈ deliveries ↔ d ∈ w.deliveries ∨ d = new) :
    Since w₀ { w with deliveries := deliveries } := by
  refine ⟨h.journal, h.events, fun d hd => ?_, h.attempts, h.unsent⟩
  cases h.deliveries d hd with
  | inl hkept => exact .inl ((hmem d).mpr (.inl hkept))
  | inr hmarked => exact .inr ⟨hmarked.1, (hmem _).mpr (.inl hmarked.2)⟩

omit [DecidableEq ε] in
/-- A claimed event was handed to the sink for the first time. -/
theorem Inv.send (h : Inv r w) (hclaimed : ∃ d ∈ w.deliveries, d.eventId = id)
    (hunsent : id ∉ w.attempts) : Inv r { w with attempts := w.attempts ++ [id] } := by
  refine ⟨h.labels, h.weekdays, h.last, h.ids, h.nodup, h.events, h.deliveries, ?_, fun a ha => ?_⟩
  · exact List.Nodup.append h.once (List.nodup_singleton id) (by simpa using hunsent)
  · cases List.mem_append.mp ha with
    | inl hold => exact h.sent a hold
    | inr hnew => exact List.mem_singleton.mp hnew ▸ hclaimed

omit [DecidableEq ε] in
theorem Since.send (h : Since w₀ w) (hnew : ∀ d ∈ w₀.deliveries, d.eventId ≠ id) :
    Since w₀ { w with attempts := w.attempts ++ [id] } := by
  refine ⟨h.journal, h.events, h.deliveries, fun a ha => List.mem_append_left _ (h.attempts a ha),
    fun d hd ha => ?_⟩
  cases List.mem_append.mp ha with
  | inl hold => exact h.unsent d hd hold
  | inr hsame => exact absurd (List.mem_singleton.mp hsame) (hnew d hd)

omit [DecidableEq ε] in
/-- Deliveries were changed where they stand. -/
theorem Inv.modify (h : Inv r w) {f : Delivery ε → Delivery ε}
    (hf : ∀ d, (f d).eventId = d.eventId) :
    Inv r { w with deliveries := w.deliveries.modify f hf } := by
  refine ⟨h.labels, h.weekdays, h.last, h.ids, h.nodup, h.events, fun d hd => ?_, h.once,
    fun a ha => ?_⟩
  · obtain ⟨d', hd', rfl⟩ := Table.exists_of_mem_modify hf hd
    obtain ⟨e, he, hid⟩ := h.deliveries d' hd'
    exact ⟨e, he, hid.trans (hf d').symm⟩
  · obtain ⟨d, hd, hid⟩ := h.sent a ha
    exact ⟨f d, Table.mem_modify_of_mem hf hd, (hf d).trans hid⟩

omit [DecidableEq ε] in
/-- What does not touch the deliveries that were there leaves them as they were. -/
theorem Since.modify (h : Since w₀ w) {f : Delivery ε → Delivery ε}
    (hf : ∀ d, (f d).eventId = d.eventId)
    (hsame : ∀ d ∈ w.deliveries, (∃ d₀ ∈ w₀.deliveries, d₀.eventId = d.eventId) → f d = d) :
    Since w₀ { w with deliveries := w.deliveries.modify f hf } := by
  have hkeep : ∀ d ∈ w.deliveries, (∃ d₀ ∈ w₀.deliveries, d₀.eventId = d.eventId) →
      d ∈ w.deliveries.modify f hf :=
    fun d hd hold => hsame d hd hold ▸ Table.mem_modify_of_mem hf hd
  refine ⟨h.journal, h.events, fun d hd => ?_, h.attempts, h.unsent⟩
  cases h.deliveries d hd with
  | inl hkept => exact .inl (hkeep d hkept ⟨d, hd, rfl⟩)
  | inr hmarked => exact .inr ⟨hmarked.1, hkeep _ hmarked.2 ⟨d, hd, rfl⟩⟩

theorem completed_of_ne {at_ : Instant} {errorType : Option String} {d : Delivery ε}
    (h : d.eventId ≠ id) : Runner.completed id at_ errorType d = d := by
  unfold Runner.completed
  rw [if_neg (fun hboth => h hboth.1)]

end Delivering

/-! ### The call -/

/-- A call that began at `w₀` and has the store for itself. -/
def calling (r : Runner ε) (w₀ : World ε) : Discipline (World ε) :=
  Discipline.undisturbed (fun w => Inv r w ∧ Since w₀ w)

/-- `_deliver` of one event: it has a delivery afterwards, and if that is new it was sent. -/
theorem deliverOne_spec {e : NotificationEvent ε} (he : e ∈ w.events) :
    (r.deliverOne e).Holds (calling r w₀)
      (fun _ w' => Moves w w' ∧ ∃ d ∈ w'.deliveries, d.eventId = e.eventId) w := by
  refine Program.holds_call (fun h => ?_)
  obtain ⟨hinv, hsince⟩ := h
  cases hinsert : w.deliveries.insert? ⟨e.eventId, .claimed, r.clock w.reads, none, none⟩ with
  | none =>
    simp only [Runner.claim, hinsert]
    refine ⟨⟨hinv.setReads _, hsince.setReads _⟩, Program.holds_pure (fun _ => ?_)⟩
    obtain ⟨d, hd, hid⟩ := Table.insert?_eq_none.mp hinsert
    exact ⟨Moves.of_deliveries rfl (fun _ h => h) rfl rfl, d, hd, hid⟩
  | some deliveries =>
    simp only [Runner.claim, hinsert]
    have hmem : ∀ d, d ∈ deliveries ↔
        d ∈ w.deliveries ∨ d = ⟨e.eventId, .claimed, r.clock w.reads, none, none⟩ :=
      fun d => Table.mem_of_insert? hinsert
    have hnew : ∀ d ∈ w.deliveries, d.eventId ≠ e.eventId := (Table.rows_of_insert? hinsert).2
    have hnew₀ : ∀ d ∈ w₀.deliveries, d.eventId ≠ e.eventId := by
      intro d hd
      obtain ⟨d', hd', hid⟩ := hsince.delivery hd
      exact hid ▸ hnew d' hd'
    have hunsent : e.eventId ∉ w.attempts := by
      intro ha
      obtain ⟨d, hd, hid⟩ := hinv.sent _ ha
      exact hnew d hd hid
    have hclaimed := (hinv.claim ⟨e, he, rfl⟩ hmem).setReads (w.reads + 1)
    have hclaimed₀ := (hsince.claim hmem).setReads (w.reads + 1)
    refine ⟨⟨hclaimed, hclaimed₀⟩, Program.holds_call (fun _ => ?_)⟩
    have hthere : ∃ d ∈ deliveries, d.eventId = e.eventId := ⟨_, (hmem _).mpr (.inr rfl), rfl⟩
    refine ⟨⟨hclaimed.send hthere hunsent, hclaimed₀.send hnew₀⟩, Program.holds_last (fun hsent => ?_)⟩
    refine ⟨⟨(hsent.1.modify (Runner.completed_eventId _ _ _)).setReads _,
      (hsent.2.modify (Runner.completed_eventId _ _ _) ?_).setReads _⟩, ?_, ?_⟩
    · rintro d - ⟨d₀, hd₀, hid⟩
      exact completed_of_ne (hid ▸ hnew₀ d₀ hd₀)
    · refine ⟨rfl, fun _ h => h, fun d hd => ?_, fun a ha => List.mem_append_left _ ha,
        fun d hd hfresh => ?_⟩
      · exact completed_of_ne (hnew d hd) ▸
          Table.mem_modify_of_mem (Runner.completed_eventId _ _ _) ((hmem d).mpr (.inl hd))
      · obtain ⟨d', hd', rfl⟩ := Table.exists_of_mem_modify (Runner.completed_eventId _ _ _) hd
        rw [Runner.completed_eventId] at hfresh ⊢
        cases (hmem d').mp hd' with
        | inl hold => exact absurd rfl (hfresh d' hold)
        | inr heq =>
          subst heq
          exact List.mem_append_right _ (List.mem_singleton_self _)
    · obtain ⟨d, hd, hid⟩ := hthere
      exact ⟨_, Table.mem_modify_of_mem (Runner.completed_eventId _ _ _) hd,
        (Runner.completed_eventId _ _ _ d).trans hid⟩

theorem deliver_spec {events : List (NotificationEvent ε)} (h : Inv r w ∧ Since w₀ w)
    (hevents : ∀ e ∈ events, e ∈ w.events) :
    (r.deliver events).Holds (calling r w₀) (fun _ w' => Moves w w' ∧
      ∀ e ∈ events, ∃ d ∈ w'.deliveries, d.eventId = e.eventId) w := by
  induction events generalizing w with
  | nil =>
    exact Program.holds_pure (fun _ => ⟨Moves.refl w, fun e he => absurd he List.not_mem_nil⟩)
  | cons e events ih =>
    refine Program.Holds.bind ?_ h
    refine (deliverOne_spec (hevents e List.mem_cons_self)).mono ?_
    intro _ w' h' hfirst
    obtain ⟨hmoves, d, hd, hid⟩ := hfirst
    refine (ih h' (fun x hx => hmoves.events x (hevents x (List.mem_cons_of_mem _ hx)))).mono ?_
    intro _ w'' _ hrest
    obtain ⟨hmoves', hall⟩ := hrest
    refine ⟨hmoves.trans hmoves', fun x hx => ?_⟩
    cases List.mem_cons.mp hx with
    | inl hhead => exact ⟨d, hmoves'.kept d hd, hhead ▸ hid⟩
    | inr htail => exact hall x htail

/-- A row has its event. -/
def Captured (w : World ε) (row : JournalRow) : Prop := ∃ e ∈ w.events, e.journalId = row.id

omit [DecidableEq ε] in
theorem Captured.mono {w' : World ε} {row : JournalRow} (h : Captured w row)
    (hevents : ∀ e ∈ w.events, e ∈ w'.events) : Captured w' row := by
  obtain ⟨e, he, hjournal⟩ := h
  exact ⟨e, hevents e he, hjournal⟩

theorem captureAndDeliver_spec (hinj : Function.Injective r.eventId) {labels : List ℤ}
    (h : Inv r w ∧ Since w₀ w) :
    (r.captureAndDeliver labels).Holds (calling r w₀) (fun _ w' => Moves w w' ∧
      ∀ row ∈ w.journal, row.label ∈ labels → Captured w' row) w := by
  induction labels generalizing w with
  | nil =>
    exact Program.holds_pure (fun _ =>
      ⟨Moves.refl w, fun row _ hlabel => absurd hlabel List.not_mem_nil⟩)
  | cons label labels ih =>
    refine Program.holds_call (fun _ => ?_)
    obtain ⟨hinv, hsame, hevents, hdeliveries, hattempts, hcaptured, hresult⟩ :=
      captureRows_spec hinj (w.journal.filter (fun row => decide (row.label = label))) h.1
        (fun row hrow => (List.mem_filter.mp hrow).1)
    have hmoves : Moves w (r.capture label w).2 :=
      Moves.of_deliveries hsame hevents hdeliveries hattempts
    have hsince : Since w₀ (r.capture label w).2 := by
      refine ⟨?_, fun e he => hevents e (h.2.events e he), ?_, ?_, ?_⟩
      · exact hsame ▸ h.2.journal
      · exact hdeliveries ▸ h.2.deliveries
      · exact hattempts ▸ h.2.attempts
      · exact hattempts ▸ h.2.unsent
    refine ⟨⟨hinv, hsince⟩, Program.Holds.bind ?_ ⟨hinv, hsince⟩⟩
    refine (deliver_spec ⟨hinv, hsince⟩ hresult).mono ?_
    intro _ w' h' hdelivered
    obtain ⟨hmoves', -⟩ := hdelivered
    refine (ih h').mono ?_
    intro _ w'' _ hrest
    obtain ⟨hmoves'', hall⟩ := hrest
    have hthrough := hmoves.trans hmoves'
    refine ⟨hthrough.trans hmoves'', fun row hrow hlabel => ?_⟩
    cases List.mem_cons.mp hlabel with
    | inl hhead =>
      have hmine : Captured (r.capture label w).2 row :=
        hcaptured row (List.mem_filter.mpr ⟨hrow, decide_eq_true hhead⟩)
      exact hmine.mono (hmoves'.trans hmoves'').events
    | inr htail => exact hall row (hthrough.journal ▸ hrow) htail

omit [DecidableEq ε] in
theorem expired_cases (at_ : Instant) (d : Delivery ε) :
    Runner.expired at_ d = d ∨
      d.status = .claimed ∧ Runner.expired at_ d = { d with status := .unknown } := by
  unfold Runner.expired
  by_cases hold : d.status = .claimed ∧
      d.attemptedAt / second ≤ (at_ - summaryClaimGrace) / second
  · exact .inr ⟨hold.1, if_pos hold⟩
  · exact .inl (if_neg hold)

omit [DecidableEq ε] in
theorem expired_of_old {at_ : Instant} {d : Delivery ε} (hclaimed : d.status = .claimed)
    (hold : d.attemptedAt ≤ at_ - summaryClaimGrace) :
    Runner.expired at_ d = { d with status := .unknown } := by
  unfold Runner.expired
  have hpositive : (0 : ℤ) < second := by decide
  exact if_pos ⟨hclaimed, Int.ediv_le_ediv hpositive hold⟩

omit [DecidableEq ε] in
/-- Marking what has no outcome is all that happens to the deliveries of before. -/
theorem Since.mark (h : Since w₀ w) (at_ : Instant) : Since w₀ (Runner.markUnknown at_ w).2 := by
  refine ⟨h.journal, h.events, fun d hd => ?_, h.attempts, h.unsent⟩
  have hmark : ∀ x ∈ w.deliveries, Runner.expired at_ x ∈
      w.deliveries.modify (Runner.expired at_) (Runner.expired_eventId at_) :=
    fun x hx => Table.mem_modify_of_mem (Runner.expired_eventId at_) hx
  cases h.deliveries d hd with
  | inl hkept =>
    cases expired_cases at_ d with
    | inl hsame => exact .inl (hsame ▸ hmark d hkept)
    | inr hmarked => exact .inr ⟨hmarked.1, hmarked.2 ▸ hmark d hkept⟩
  | inr hunknown =>
    have hsame : Runner.expired at_ { d with status := .unknown } =
        { d with status := DeliveryStatus.unknown } := by
      cases expired_cases at_ { d with status := DeliveryStatus.unknown } with
      | inl hsame => exact hsame
      | inr hmarked => exact hmarked.2
    exact .inr ⟨hunknown.1, hsame ▸ hmark _ hunknown.2⟩

/-- What a call that ends, or its outbox, has done: every row has a delivery, what is new about
them was sent, and a claim that is too old has an unknown outcome. -/
structure Settled (r : Runner ε) (at_ : Instant) (w w' : World ε) : Prop where
  delivered : ∀ row ∈ w'.journal, ∃ d ∈ w'.deliveries, d.eventId = r.eventId row.id
  attempts : ∀ a ∈ w.attempts, a ∈ w'.attempts
  fresh : ∀ d ∈ w'.deliveries, (∀ d₀ ∈ w.deliveries, d₀.eventId ≠ d.eventId) →
    d.eventId ∈ w'.attempts
  unknown : ∀ d ∈ w.deliveries, d.status = .claimed → d.attemptedAt ≤ at_ - summaryClaimGrace →
    { d with status := .unknown } ∈ w'.deliveries

theorem summaryOutbox_spec (hinj : Function.Injective r.eventId) (at_ : Instant)
    (h : Inv r w ∧ Since w₀ w) :
    (r.summaryOutbox at_).Holds (calling r w₀) (fun _ w' => Settled r at_ w w') w := by
  refine Program.holds_read (fun _ => Program.Holds.bind ?_ h)
  refine (captureAndDeliver_spec hinj h).mono ?_
  intro _ w₁ h₁ hcapture
  obtain ⟨hmoves₁, hcaptured⟩ := hcapture
  have hall : ∀ row ∈ w.journal, Captured w₁ row := by
    intro row hrow
    by_cases hthere : Captured w row
    · exact hthere.mono hmoves₁.events
    · refine hcaptured row hrow (List.mem_map.mpr ⟨row, List.mem_filter.mpr ⟨hrow, ?_⟩, rfl⟩)
      refine List.all_eq_true.mpr (fun e he => decide_eq_true (fun hid => hthere ⟨e, he, hid⟩))
  refine Program.holds_read (fun _ => Program.Holds.bind ?_ h₁)
  have hunclaimed : ∀ e ∈ Runner.unclaimed w₁, e ∈ w₁.events := by
    intro e he
    exact (List.mem_filter.mp ((List.perm_insertionSort _ _).mem_iff.mp he)).1
  refine (deliver_spec h₁ hunclaimed).mono ?_
  intro _ w₂ h₂ hdeliver
  obtain ⟨hmoves₂, hdelivered⟩ := hdeliver
  have hmoves := hmoves₁.trans hmoves₂
  refine Program.holds_last (fun _ => ⟨⟨h₂.1.modify (Runner.expired_eventId at_), h₂.2.mark at_⟩, ?_⟩)
  have hmark : ∀ d ∈ w₂.deliveries, Runner.expired at_ d ∈
      w₂.deliveries.modify (Runner.expired at_) (Runner.expired_eventId at_) :=
    fun d hd => Table.mem_modify_of_mem (Runner.expired_eventId at_) hd
  refine ⟨fun row hrow => ?_, hmoves.attempts, fun d hd hfresh => ?_, fun d hd hclaimed hold => ?_⟩
  · obtain ⟨e, he, hjournal⟩ := hall row (hmoves.journal ▸ hrow)
    have hid : e.eventId = r.eventId row.id := hjournal ▸ (h₁.1.events e he).1
    have hhas : ∃ d ∈ w₂.deliveries, d.eventId = e.eventId := by
      cases hget : w₁.deliveries.get? e.eventId with
      | some d =>
        obtain ⟨hd, hkey⟩ := Table.get?_eq_some.mp hget
        exact ⟨d, hmoves₂.kept d hd, hkey⟩
      | none =>
        refine hdelivered e ((List.perm_insertionSort _ _).mem_iff.mpr ?_)
        exact List.mem_filter.mpr ⟨he, by rw [hget]; rfl⟩
    obtain ⟨d, hd, hkey⟩ := hhas
    exact ⟨_, hmark d hd, (Runner.expired_eventId at_ d).trans (hkey.trans hid)⟩
  · obtain ⟨d', hd', rfl⟩ := Table.exists_of_mem_modify (Runner.expired_eventId at_) hd
    rw [Runner.expired_eventId] at hfresh ⊢
    exact hmoves.fresh d' hd' hfresh
  · exact expired_of_old hclaimed hold ▸ hmark d (hmoves.kept d hd)

omit [DecidableEq ε] in
theorem Since.persisted {w₁ : World ε} (hjournal : w.journal ⊆ w₁.journal)
    (hevents : w₁.events = w.events) (hdeliveries : w₁.deliveries = w.deliveries)
    (hattempts : w₁.attempts = w.attempts) : Since w w₁ where
  journal := hjournal
  events _ he := hevents ▸ he
  deliveries _ hd := .inl (hdeliveries ▸ hd)
  attempts _ ha := hattempts ▸ ha
  unsent _ _ ha := hattempts ▸ ha

/-- A call that ends, on the rows there are and on those it adds. -/
theorem dailySummary_spec (hinj : Function.Injective r.eventId) (at_ : Instant) (h : Inv r w) :
    (r.dailySummary true at_).Holds (calling r w) (fun _ w' => Settled r at_ w w') w := by
  refine Program.holds_call (fun _ => ?_)
  obtain ⟨hinv, hjournal, hevents, hdeliveries, hattempts⟩ :=
    persistDays_spec (pendingSummaryDays r.zone w.lastLabel at_) h pending_increasing
      (fun d hd => (mem_pending hd).1) (fun d hd => (mem_pending hd).2)
  have h₁ : Inv r (r.persist at_ w).2 ∧ Since w (r.persist at_ w).2 :=
    ⟨hinv, Since.persisted hjournal hevents hdeliveries hattempts⟩
  refine ⟨h₁, Program.Holds.bind ?_ h₁⟩
  refine (captureAndDeliver_spec hinj h₁).mono ?_
  intro _ w₂ h₂ hcapture
  obtain ⟨hmoves, -⟩ := hcapture
  refine Program.Holds.bind ?_ h₂
  refine (summaryOutbox_spec hinj at_ h₂).mono ?_
  intro _ w' _ hsettled
  refine Program.holds_pure (fun _ => ⟨hsettled.delivered, ?_, ?_, ?_⟩)
  · intro a ha
    exact hsettled.attempts a (hmoves.attempts a (hattempts ▸ ha))
  · intro d hd hnew
    -- a delivery that is new was made before the outbox or by it
    by_cases hbefore : ∃ d' ∈ w₂.deliveries, d'.eventId = d.eventId
    · obtain ⟨d', hd', hid⟩ := hbefore
      refine hsettled.attempts _ (hid ▸ hmoves.fresh d' hd' (fun d₀ hd₀ => ?_))
      exact hid ▸ hnew d₀ (hdeliveries ▸ hd₀)
    · exact hsettled.fresh d hd (fun d' hd' hid => hbefore ⟨d', hd', hid⟩)
  · intro d hd hclaimed hold
    exact hsettled.unknown d (hmoves.kept d (hdeliveries ▸ hd)) hclaimed hold

/-! ### Whole runs -/

/-- A call keeps the invariant, whether it ends, crashes or is suppressed. -/
theorem after_keeps (hinj : Function.Injective r.eventId) (call : Call) (h : Inv r w) :
    Inv r (r.after w call) ∧ Since w (r.after w call) := by
  have hself : (calling r w).inv w := ⟨h, Since.refl w⟩
  have hspec : (r.dailySummary call.allowed call.at_).Holds (calling r w) (fun _ _ => True) w := by
    cases hallowed : call.allowed with
    | true => exact (dailySummary_spec hinj call.at_ h).mono (fun _ _ _ _ => trivial)
    | false => exact Program.holds_pure (fun _ => trivial)
  unfold Runner.after
  cases call.crash with
  | none => exact (hspec.alone hself).1
  | some n => exact hspec.runFor hself n

theorem run_keeps (hinj : Function.Injective r.eventId) (calls : List Call) (h : Inv r w) :
    Inv r (run r.after calls w) ∧ Since w (run r.after calls w) :=
  run_invariant (P := fun w' => Inv r w' ∧ Since w w')
    (fun _ call hkept =>
      ⟨(after_keeps hinj call hkept.1).1, hkept.2.trans (after_keeps hinj call hkept.1).2⟩)
    ⟨h, Since.refl w⟩

/-- A call that is not suppressed and ends. -/
theorem after_settles (hinj : Function.Injective r.eventId) (at_ : Instant) (h : Inv r w) :
    Settled r at_ w (r.after w ⟨true, at_, none⟩) := by
  have hself : (calling r w).inv w := ⟨h, Since.refl w⟩
  exact ((dailySummary_spec hinj at_ h).alone hself).2

omit [DecidableEq ε] in
theorem inv_initial (r : Runner ε) : Inv r {} where
  labels := List.Pairwise.nil
  weekdays _ hrow := absurd hrow List.not_mem_nil
  last _ hrow := absurd hrow List.not_mem_nil
  ids _ hrow := absurd hrow List.not_mem_nil
  nodup := List.nodup_nil
  events _ he := absurd he Table.not_mem_empty
  deliveries _ hd := absurd hd Table.not_mem_empty
  once := List.nodup_nil
  sent _ ha := absurd ha List.not_mem_nil

end Transactions

/-! ### At most once, and then -/

/-- A row that a crash left without an event, or whose event it left without a claim. -/
def Waiting (w : World ε) (row : JournalRow) : Prop :=
  (∀ e ∈ w.events, e.journalId ≠ row.id) ∨
    ∃ e ∈ w.events, e.journalId = row.id ∧ ∀ d ∈ w.deliveries, d.eventId ≠ e.eventId

/-- One row per day in the order of the days, one event per row, one attempt per event. -/
structure OnceEach [DecidableEq ε] (r : Runner ε) (w : World ε) : Prop where
  increasing : (w.journal.map (·.label)).Pairwise (· < ·)
  weekdays : ∀ row ∈ w.journal, weekday row.label < 5
  events : ∀ row ∈ w.journal, ∀ e ∈ w.events, ∀ e' ∈ w.events,
    e.journalId = row.id → e'.journalId = row.id → e = e'
  attempts : ∀ row ∈ w.journal, w.attempts.count (r.eventId row.id) ≤ 1
  attempted : ∀ a ∈ w.attempts, ∃ row ∈ w.journal, a = r.eventId row.id

section Once

variable [DecidableEq ε] {r : Runner ε} {w w' : World ε} {row : JournalRow}

theorem Inv.onceEach (h : Inv r w) : OnceEach r w where
  increasing := h.labels
  weekdays := h.weekdays
  events row _ e he e' he' hid hid' := by
    have hkey : e.eventId = e'.eventId := by
      rw [(h.events e he).1, (h.events e' he').1, hid, hid']
    exact Table.eq_of_key he he' hkey
  attempts row _ := List.nodup_iff_count_le_one.mp h.once (r.eventId row.id)
  attempted a ha := by
    obtain ⟨d, hd, rfl⟩ := h.sent a ha
    obtain ⟨e, he, hid⟩ := h.deliveries d hd
    obtain ⟨hevent, row, hrow, hjournal⟩ := h.events e he
    exact ⟨row, hrow, by rw [← hid, hevent, hjournal]⟩

omit [DecidableEq ε] in
/-- A waiting row has no delivery. -/
theorem Waiting.not_delivered (hinj : Function.Injective r.eventId) (h : Inv r w)
    (hwaiting : Waiting w row) : ∀ d ∈ w.deliveries, d.eventId ≠ r.eventId row.id := by
  intro d hd hid
  obtain ⟨e, he, hkey⟩ := h.deliveries d hd
  have hevent : e.eventId = r.eventId e.journalId := (h.events e he).1
  have hjournal : e.journalId = row.id := hinj (hevent.symm.trans (hkey.trans hid))
  cases hwaiting with
  | inl huncaptured => exact huncaptured e he hjournal
  | inr hunclaimed =>
    obtain ⟨e', he', hjournal', hfree⟩ := hunclaimed
    have hsame : e = e' := by
      refine Table.eq_of_key he he' ?_
      rw [hevent, (h.events e' he').1, hjournal, hjournal']
    exact hfree d hd (hsame ▸ hkey.symm)

/-- Whatever has a delivery is not sent again. -/
theorem Since.count_eq (hw : Inv r w) (hw' : Inv r w') (h : Since w w') {d : Delivery ε}
    (hd : d ∈ w.deliveries) : w'.attempts.count d.eventId = w.attempts.count d.eventId := by
  have hiff : d.eventId ∈ w'.attempts ↔ d.eventId ∈ w.attempts :=
    ⟨h.unsent d hd, h.attempts d.eventId⟩
  rw [hw'.once.count, hw.once.count]
  simp only [hiff]

/-- Whatever crashes and failures there are, every day has at most one row, one event and one
attempt. A call that the halt gate lets through and that ends attempts what was waiting and gives
up on what was claimed too long ago. Nothing that was claimed is attempted again. -/
theorem daily_summary_once (hinj : Function.Injective r.eventId) (calls : List Call) :
    OnceEach r (run r.after calls {}) ∧
      (∀ a b, a < b → (summaryWindow r.zone a).2 ≤ (summaryWindow r.zone b).1) ∧
      (∀ t, ∃! day, (summaryWindow r.zone day).1 ≤ t ∧ t < (summaryWindow r.zone day).2) ∧
      (∀ at_, ∀ row ∈ (run r.after calls {}).journal, Waiting (run r.after calls {}) row →
        r.eventId row.id ∈ (r.after (run r.after calls {}) ⟨true, at_, none⟩).attempts) ∧
      (∀ at_, ∀ d ∈ (run r.after calls {}).deliveries, d.status = .claimed →
        d.attemptedAt ≤ at_ - summaryClaimGrace →
          { d with status := .unknown } ∈
            (r.after (run r.after calls {}) ⟨true, at_, none⟩).deliveries) ∧
      ∀ later, ∀ d ∈ (run r.after calls {}).deliveries,
        (d.status = .unknown → d ∈ (run r.after (calls ++ later) {}).deliveries) ∧
        (run r.after (calls ++ later) {}).attempts.count d.eventId =
          (run r.after calls {}).attempts.count d.eventId := by
  obtain ⟨hinv, -⟩ := run_keeps hinj calls (inv_initial r)
  refine ⟨hinv.onceEach, fun a b hab => windows_disjoint r.zone hab, windows_tile r.zone, ?_, ?_, ?_⟩
  · intro at_ row hrow hwaiting
    have hsettled := after_settles hinj at_ hinv
    have hkept := (after_keeps hinj ⟨true, at_, none⟩ hinv).2.journal hrow
    obtain ⟨d, hd, hid⟩ := hsettled.delivered row hkept
    refine hid ▸ hsettled.fresh d hd (fun d₀ hd₀ => ?_)
    exact hid ▸ hwaiting.not_delivered hinj hinv d₀ hd₀
  · intro at_ d hd hclaimed hold
    exact (after_settles hinj at_ hinv).unknown d hd hclaimed hold
  · intro later d hd
    obtain ⟨hinv', hsince⟩ := run_keeps hinj later hinv
    rw [run_append]
    refine ⟨fun hunknown => ?_, hsince.count_eq hinv hinv' hd⟩
    cases hsince.deliveries d hd with
    | inl hkept => exact hkept
    | inr hmarked => exact absurd hmarked.1 (by simp [hunknown])

end Once

/-- A runner on the clock of 2026 whose sink takes everything. -/
def demoRunner : Runner ℕ where
  zone := WeekendRule.newYork2026
  clock _ := 0
  sink _ := none
  eventId := id

theorem daily_summary_once_demo :
    OnceEach demoRunner (run demoRunner.after [⟨true, 0, none⟩] {}) :=
  (daily_summary_once Function.injective_id [⟨true, 0, none⟩]).1

/-- The process dies after the first transaction, and the next call is suppressed. -/
theorem suppressed_not_attempted :
    ¬ ∀ (calls : List Call) (call : Call), call.crash = none →
      ∀ row ∈ (run demoRunner.after calls {}).journal,
        Waiting (run demoRunner.after calls {}) row →
          demoRunner.eventId row.id ∈
            (demoRunner.after (run demoRunner.after calls {}) call).attempts := by
  intro hall
  have hattempted := hall [⟨true, 0, some 1⟩] ⟨false, 0, none⟩ rfl
    ⟨1, summaryDay WeekendRule.newYork2026 0⟩ (List.mem_singleton.mpr rfl)
    (.inl (fun e he => absurd he Table.not_mem_empty))
  exact List.not_mem_nil hattempted

end MarketSystem.SummaryOutbox
