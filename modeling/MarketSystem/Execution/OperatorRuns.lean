import MarketSystem.Execution.OperatorRequests

/-!
# Requests of the operator over whole runs

The dashboard and one router act on the store in any order, and each of them may stop between
any two transactions. The requests that were stored are, in their order, those that were
completed and then the one that is pending. A close is sent for an open row with no action in
doubt, and no alert is handed over twice.
-/
namespace MarketSystem.OperatorRequests

open Library RouterState RouterRequests

/-! ## Names -/

/-- A request is named by its trade's client id, its own id and its actor. -/
abbrev Name := Option String × Option String × Option String

def Request.name (r : Request) : Name := (some r.clientId, r.requestId, r.actor)

/-- A malformed text names nothing. -/
def Raw.name : Raw → Name
  | .request r => r.name
  | .malformed _ => (none, none, none)

def Event.name (e : Event) : Name :=
  (e.clientId, (e.detail.lookup "request_id").join, (e.detail.lookup "actor").join)

/-- The requests that were stored. -/
def Desk.requested (s : Desk) : List Name :=
  (s.events.filter (fun e => decide (e.kind = MANUAL_CLOSE_REQUESTED))).map Event.name

/-- The requests that were completed. -/
def Desk.completed (s : Desk) : List Name :=
  (s.events.filter (fun e => decide (e.kind ∈ COMPLETIONS))).map Event.name

/-- The request that is stored. -/
def Desk.pending (s : Desk) : List Name := s.manual.toList.map Raw.name

theorem requested_not_completion : MANUAL_CLOSE_REQUESTED ∉ COMPLETIONS := by decide

section Events

variable {s s' : Desk} {e : Event}

theorem requested_snoc (h : s'.events = s.events ++ [e]) (hkind : e.kind = MANUAL_CLOSE_REQUESTED) :
    s'.requested = s.requested ++ [e.name] := by
  simp [Desk.requested, h, hkind]

theorem completed_snoc (h : s'.events = s.events ++ [e]) (hkind : e.kind ∈ COMPLETIONS) :
    s'.completed = s.completed ++ [e.name] := by
  simp [Desk.completed, h, hkind]

theorem requested_other (h : s'.events = s.events ++ [e])
    (hkind : e.kind ≠ MANUAL_CLOSE_REQUESTED) : s'.requested = s.requested := by
  simp [Desk.requested, h, hkind]

theorem completed_other (h : s'.events = s.events ++ [e]) (hkind : e.kind ∉ COMPLETIONS) :
    s'.completed = s.completed := by
  simp [Desk.completed, h, hkind]

end Events

/-! ## Invariant, rely and guarantee -/

/-- An alert that has left the pending ones. -/
def Left (s : Desk) (eventId : ℕ) : Prop :=
  ∃ a ∈ s.outbox, a.eventId = eventId ∧ a.status ≠ .pending

structure Sound (s : Desk) : Prop where
  paired : s.requested = s.completed ++ s.pending
  wellFormed : ∀ raw ∈ s.manual, ∃ r, raw = .request r ∧ r.clientId ≠ ""
  sent : ∀ stored ∈ s.sent, ∃ row ∈ stored, row.status = .open ∧ ¬ row.Latched
  handed : s.handed.Nodup
  delivered : ∀ eventId ∈ s.handed, Left s eventId

/-- What happens beside the router: its rows and the outbox stay, and so does a request. -/
structure Beside (s s' : Desk) : Prop where
  rows : s'.world.rows = s.world.rows
  manual : ∀ raw ∈ s.manual, raw ∈ s'.manual
  outbox : s'.outbox = s.outbox
  sent : s'.sent = s.sent
  handed : s'.handed = s.handed

theorem Beside.refl (s : Desk) : Beside s s := ⟨rfl, fun _ h => h, rfl, rfl, rfl⟩

theorem Beside.trans {a b c : Desk} (hab : Beside a b) (hbc : Beside b c) : Beside a c where
  rows := hbc.rows.trans hab.rows
  manual raw h := hbc.manual raw (hab.manual raw h)
  outbox := hbc.outbox.trans hab.outbox
  sent := hbc.sent.trans hab.sent
  handed := hbc.handed.trans hab.handed

/-- A step removes a request only with one event that completes it, and completes nothing
else. -/
structure Tracked (s s' : Desk) : Prop where
  removed : ∀ raw ∈ s.manual, raw ∈ s'.manual ∨
    s'.manual = none ∧ ∃ e, s'.events = s.events ++ [e] ∧ e.kind ∈ COMPLETIONS ∧ e.name = raw.name
  completed : s'.completed = s.completed ∨ s.manual ≠ none ∧ s'.manual = none

theorem Tracked.of_same {s s' : Desk} (hmanual : s'.manual = s.manual)
    (hevents : s'.events = s.events) : Tracked s s' := by
  refine ⟨fun raw h => .inl (hmanual ▸ h), .inl ?_⟩
  rw [Desk.completed, hevents, Desk.completed]

/-- An event that is no completion. -/
theorem Tracked.of_event {s s' : Desk} {e : Event} (hmanual : ∀ raw ∈ s.manual, raw ∈ s'.manual)
    (hevents : s'.events = s.events ++ [e]) (hkind : e.kind ∉ COMPLETIONS) : Tracked s s' :=
  ⟨fun raw h => .inl (hmanual raw h), .inl (completed_other hevents hkind)⟩

def tenancy : Tenancy Desk where
  owner :=
    { inv := Sound, rely := Beside, guar := Tracked, rely_refl := Beside.refl,
      rely_trans := Beside.trans, guar_refl := fun _ => Tracked.of_same rfl rfl }
  guest :=
    { inv := Sound, rely := fun _ _ => True, guar := fun s s' => Beside s s' ∧ Tracked s s',
      rely_refl := fun _ => trivial, rely_trans := fun _ _ => trivial,
      guar_refl := fun s => ⟨Beside.refl s, Tracked.of_same rfl rfl⟩ }
  same _ := Iff.rfl
  owner_guest _ _ _ _ := trivial
  guest_owner _ _ _ h := h.1
  guest_guest _ _ _ _ := trivial

/-! ## One transaction -/

/-- What the invariant looks at. -/
theorem Sound.congr {s s' : Desk} (h : Sound s) (hmanual : s'.manual = s.manual)
    (hevents : s'.events = s.events) (houtbox : s'.outbox = s.outbox) (hsent : s'.sent = s.sent)
    (hhanded : s'.handed = s.handed) : Sound s' where
  paired := by
    rw [Desk.requested, Desk.completed, Desk.pending, hevents, hmanual]
    exact h.paired
  wellFormed := by
    rw [hmanual]
    exact h.wellFormed
  sent := by
    rw [hsent]
    exact h.sent
  handed := by
    rw [hhanded]
    exact h.handed
  delivered := by
    unfold Left
    rw [hhanded, houtbox]
    exact h.delivered

theorem Sound.setWorld {s : Desk} (h : Sound s) (w : World) : Sound (s.setWorld w) :=
  h.congr rfl rfl rfl rfl rfl

/-- An event that is neither a request nor a completion. -/
theorem Sound.event {s : Desk} (h : Sound s) {e : Event}
    (hkind : e.kind ∉ MANUAL_CLOSE_REQUESTED :: COMPLETIONS) :
    Sound { s with events := s.events ++ [e] } where
  paired := by
    rw [List.mem_cons, not_or] at hkind
    rw [@requested_other s _ e rfl hkind.1, @completed_other s _ e rfl hkind.2]
    exact h.paired
  wellFormed := h.wellFormed
  sent := h.sent
  handed := h.handed
  delivered := h.delivered

theorem setFlagIfAbsent_step {s : Desk} (h : Sound s) {r : Request} {e : Event}
    (hkind : e.kind = MANUAL_CLOSE_REQUESTED) (hname : e.name = r.name) (hid : r.clientId ≠ "") :
    Sound (setFlagIfAbsent (.request r) e s).2 ∧ Beside s (setFlagIfAbsent (.request r) e s).2 ∧
      Tracked s (setFlagIfAbsent (.request r) e s).2 := by
  have hother : e.kind ∉ COMPLETIONS := hkind ▸ requested_not_completion
  unfold setFlagIfAbsent
  cases hmanual : s.manual with
  | some raw => exact ⟨h, Beside.refl s, Tracked.of_same rfl rfl⟩
  | none =>
    have hnone : ∀ raw ∈ s.manual, raw ∈ some (Raw.request r) := by
      intro raw hraw
      rw [hmanual] at hraw
      simp at hraw
    refine ⟨⟨?_, ?_, h.sent, h.handed, h.delivered⟩, ⟨rfl, hnone, rfl, rfl, rfl⟩,
      Tracked.of_event hnone rfl hother⟩
    · have hpaired := h.paired
      simp only [Desk.pending, hmanual, Option.toList_none, List.map_nil,
        List.append_nil] at hpaired
      rw [@requested_snoc s _ e rfl hkind, @completed_other s _ e rfl hother, hpaired, hname]
      rfl
    · intro raw hraw
      exact ⟨r, (Option.some.inj hraw).symm, hid⟩

/-- The request goes with its completion. -/
theorem completion_step {s s' : Desk} (h : Sound s) {raw : Raw} {e : Event}
    (hmanual : s.manual = some raw) (hkind : e.kind ∈ COMPLETIONS) (hname : e.name = raw.name)
    (hnone : s'.manual = none) (hevents : s'.events = s.events ++ [e]) (hsent : s'.sent = s.sent)
    (hhanded : s'.handed = s.handed) (hleft : ∀ eventId, Left s eventId → Left s' eventId) :
    Sound s' ∧ Tracked s s' := by
  have hother : e.kind ≠ MANUAL_CLOSE_REQUESTED := by
    rintro heq
    exact requested_not_completion (heq ▸ hkind)
  refine ⟨⟨?_, ?_, ?_, ?_, ?_⟩, ⟨?_, .inr ⟨by simp [hmanual], hnone⟩⟩⟩
  · have hpaired := h.paired
    rw [Desk.pending, hmanual] at hpaired
    rw [requested_other hevents hother, completed_snoc hevents hkind, hpaired, Desk.pending, hnone,
      hname]
    simp
  · simp [hnone]
  · rw [hsent]
    exact h.sent
  · rw [hhanded]
    exact h.handed
  · rw [hhanded]
    exact fun eventId hid => hleft eventId (h.delivered eventId hid)
  · intro raw' hraw'
    rw [hmanual] at hraw'
    obtain rfl := Option.some.inj hraw'
    exact .inr ⟨hnone, e, hevents, hkind, hname⟩

theorem consumeFlag_step {s : Desk} (h : Sound s) {raw : Raw} {e : Event} (alerts : Bool)
    (hkind : e.kind ∈ COMPLETIONS) (hname : e.name = raw.name) :
    Sound (consumeFlag raw e alerts s) ∧ Tracked s (consumeFlag raw e alerts s) := by
  have hsame : Sound s ∧ Tracked s s := ⟨h, Tracked.of_same rfl rfl⟩
  unfold consumeFlag
  by_cases hmanual : s.manual = some raw
  · rw [if_pos hmanual]
    cases alerts with
    | false => exact completion_step h hmanual hkind hname rfl rfl rfl rfl (fun _ hl => hl)
    | true =>
      dsimp only
      rw [if_pos rfl]
      split
      · next outbox heq =>
        refine completion_step h hmanual hkind hname rfl rfl rfl rfl ?_
        rintro eventId ⟨a, ha, hid, hstatus⟩
        exact ⟨a, (Table.mem_of_insert? heq).mpr (.inl ha), hid, hstatus⟩
      · exact hsame
  · rw [if_neg hmanual]
    exact hsame

theorem claim_status (now staleBefore : Instant) (a : Alert) :
    (a.claim now staleBefore).status ≠ .pending := by
  unfold Alert.claim
  cases hstatus : a.status with
  | pending => simp
  | claimed =>
    dsimp only
    cases a.attemptedAt with
    | none => simp [hstatus]
    | some attempt =>
      dsimp only
      split_ifs
      · simp
      · simp [hstatus]
  | sent => simp [hstatus]
  | failed => simp [hstatus]
  | unknown => simp [hstatus]

/-- After a claim no alert is pending. -/
theorem left_claimOutbox {s : Desk} (now staleBefore : Instant) {a : Alert} (ha : a ∈ s.outbox) :
    Left (claimOutbox now staleBefore s).2 a.eventId :=
  ⟨a.claim now staleBefore, Table.mem_modify_of_mem (Alert.claim_eventId now staleBefore) ha,
    a.claim_eventId now staleBefore, claim_status now staleBefore a⟩

theorem left_finishOutbox {s : Desk} {eventId : ℕ} {status : AlertStatus}
    (hstatus : status ≠ .pending) {id : ℕ} (h : Left s id) :
    Left (finishOutbox eventId status s) id := by
  obtain ⟨a, ha, hid, hleft⟩ := h
  refine ⟨a.finish eventId status,
    Table.mem_modify_of_mem (Alert.finish_eventId eventId status) ha, ?_, ?_⟩
  · rw [a.finish_eventId, hid]
  · unfold Alert.finish
    split_ifs
    · exact hstatus
    · exact hleft

/-- Changes of the outbox that bring nothing back. -/
theorem Sound.outbox {s s' : Desk} (h : Sound s) (hmanual : s'.manual = s.manual)
    (hevents : s'.events = s.events) (hsent : s'.sent = s.sent) (hhanded : s'.handed = s.handed)
    (hleft : ∀ id, Left s id → Left s' id) : Sound s' where
  paired := by
    rw [Desk.requested, Desk.completed, Desk.pending, hevents, hmanual]
    exact h.paired
  wellFormed := by
    rw [hmanual]
    exact h.wellFormed
  sent := by
    rw [hsent]
    exact h.sent
  handed := by
    rw [hhanded]
    exact h.handed
  delivered := by
    rw [hhanded]
    exact fun id hid => hleft id (h.delivered id hid)

/-! ## Programs of the router -/

/-- Each action keeps the invariant and is tracked, whatever happens beside it. -/
def Works {α : Type} (p : Program Desk α) : Prop :=
  ∀ s, Sound s → p.Holds tenancy.owner (fun _ _ => True) s

theorem works_pure {α : Type} (a : α) : Works (pure a : Program Desk α) :=
  fun _ _ _ _ _ => trivial

theorem Works.bind {α β : Type} {p : Program Desk α} {k : α → Program Desk β} (hp : Works p)
    (hk : ∀ a, Works (k a)) : Works (p >>= k) :=
  fun s hs => Program.Holds.bind ((hp s hs).mono (fun a s hi _ => hk a s hi)) hs

theorem works_read {α β : Type} {f : Desk → β} {k : β → Program Desk α}
    (hk : ∀ b, Works (k b)) : Works (Program.read f >>= k) :=
  fun _ _ => Program.Holds.read_now (fun s' _ hi => hk _ s' hi)

theorem works_call {f : Desk → Unit × Desk}
    (hf : ∀ s, Sound s → Sound (f s).2 ∧ Tracked s (f s).2) : Works (Program.call f) :=
  fun _ _ s' _ hi => ⟨(hf s' hi).1, (hf s' hi).2, fun _ _ _ => trivial⟩

theorem onWorld_works {α : Type} (p : Program World α) : Works (onWorld p) := by
  induction p with
  | pure a => exact works_pure a
  | act step next ih =>
    intro s hs s' hr hi
    exact ⟨hi.setWorld _, Tracked.of_same rfl rfl, ih s'.world _ (hi.setWorld _)⟩

/-- Alerts that are claimed and not yet handed over. -/
def Held (ids : List ℕ) (s : Desk) : Prop :=
  ids.Nodup ∧ ∀ id ∈ ids, id ∉ s.handed ∧ Left s id

theorem Held.beside {ids : List ℕ} {s s' : Desk} (h : Held ids s) (hb : Beside s s') :
    Held ids s' := by
  refine ⟨h.1, fun id hid => ?_⟩
  unfold Left
  rw [hb.handed, hb.outbox]
  exact h.2 id hid

theorem handAlert_holds (d : Drain) {eventId : ℕ} {ids : List ℕ} {s : Desk}
    (hheld : Held (eventId :: ids) s) :
    (handAlert d eventId).Holds tenancy.owner (fun _ s => Held ids s) s := by
  refine Program.Holds.call (fun s' hr hi => ?_)
  obtain ⟨hnodup, hall⟩ := hheld.beside hr
  rw [List.nodup_cons] at hnodup
  have hfirst := hall eventId List.mem_cons_self
  have hrest : Held ids { s' with handed := s'.handed ++ [eventId] } := by
    refine ⟨hnodup.2, fun id hid => ⟨?_, (hall id (List.mem_cons_of_mem _ hid)).2⟩⟩
    rw [List.mem_append, List.mem_singleton, not_or]
    refine ⟨(hall id (List.mem_cons_of_mem _ hid)).1, ?_⟩
    rintro rfl
    exact hnodup.1 hid
  have hsound : Sound { s' with handed := s'.handed ++ [eventId] } := by
    refine ⟨hi.paired, hi.wellFormed, hi.sent, ?_, ?_⟩
    · exact List.nodup_append.mpr ⟨hi.handed, List.nodup_singleton _, fun id hid id' hid' heq =>
        hfirst.1 (by rw [List.mem_singleton.mp hid', ← heq] at *; exact hid)⟩
    · intro id hid
      rcases List.mem_append.mp hid with hid | hid
      · exact hi.delivered id hid
      · rw [List.mem_singleton.mp hid]
        exact hfirst.2
  refine ⟨hsound, Tracked.of_same rfl rfl, ?_⟩
  by_cases hfails : d.finishFails eventId = true
  · rw [if_pos hfails]
    exact fun s'' hr' _ => hrest.beside hr'
  · rw [if_neg hfails]
    intro s'' hr' hi'
    have hstatus : (if d.handFails eventId then AlertStatus.failed else .sent) ≠ .pending := by
      split_ifs <;> simp
    have hheld'' := hrest.beside hr'
    refine ⟨hi'.outbox rfl rfl rfl rfl (fun id => left_finishOutbox hstatus),
      Tracked.of_same rfl rfl, fun s₃ hr₃ _ => Held.beside ⟨hheld''.1, fun id hid => ?_⟩ hr₃⟩
    exact ⟨(hheld''.2 id hid).1, left_finishOutbox hstatus (hheld''.2 id hid).2⟩

theorem handAlerts_holds (d : Drain) {as : List Alert} {s : Desk}
    (hheld : Held (as.map Alert.eventId) s) (hs : Sound s) :
    (handAlerts d as).Holds tenancy.owner (fun _ _ => True) s := by
  induction as generalizing s with
  | nil => exact fun _ _ _ => trivial
  | cons a as ih =>
    refine Program.Holds.bind ((handAlert_holds d hheld).mono (fun _ s' hi h => ?_)) hs
    exact ih h hi

theorem held_claimOutbox {s : Desk} (hs : Sound s) (now staleBefore : Instant) :
    Held ((claimOutbox now staleBefore s).1.map Alert.eventId)
      (claimOutbox now staleBefore s).2 := by
  refine ⟨s.outbox.nodup.sublist (List.filter_sublist.map _), fun id hid => ?_⟩
  obtain ⟨a, ha, rfl⟩ := List.mem_map.mp hid
  obtain ⟨ha, hpending⟩ := List.mem_filter.mp ha
  refine ⟨fun hhanded => ?_, left_claimOutbox now staleBefore ha⟩
  obtain ⟨a', ha', hkey, hstatus⟩ := hs.delivered _ hhanded
  obtain rfl := Table.eq_of_key ha' ha hkey
  exact hstatus (of_decide_eq_true hpending)

theorem drainOutbox_works (onAlert : Bool) (d : Drain) : Works (drainOutbox onAlert d) := by
  unfold drainOutbox
  split_ifs
  · exact works_pure ()
  · intro s hs
    refine Program.Holds.call (fun s' hr hi => ?_)
    have hsound : Sound (claimOutbox d.now (d.now - OUTBOX_CLAIM_GRACE) s').2 := by
      refine hi.outbox rfl rfl rfl rfl ?_
      rintro id ⟨a, ha, rfl, -⟩
      exact left_claimOutbox _ _ ha
    exact ⟨hsound, Tracked.of_same rfl rfl, handAlerts_holds d (held_claimOutbox hi _ _) hsound⟩

section Router

variable {ext : String → String} {t : Tick}

theorem completeManual_works {raw : Raw} {kind : String} {clientId : Option String}
    {detail : Detail} (hkind : kind ∈ COMPLETIONS)
    (hname : Event.name ⟨kind, clientId, detail⟩ = raw.name) :
    Works (completeManual t raw kind clientId detail) :=
  (works_call (fun _ hs => consumeFlag_step hs _ hkind hname)).bind
    (fun _ => drainOutbox_works t.onAlert t.after)

theorem pending_not_tracked : MANUAL_CLOSE_PENDING ∉ MANUAL_CLOSE_REQUESTED :: COMPLETIONS := by
  decide

theorem notePending_works (clientId : String) (detail : Detail) :
    Works (notePending t clientId detail) := by
  unfold notePending
  split_ifs
  · exact works_call (fun s hs => ⟨hs.event pending_not_tracked,
      Tracked.of_event (fun _ h => h) rfl (fun h =>
        pending_not_tracked (List.mem_cons_of_mem _ h))⟩)
  · exact works_pure ()

/-- The close of a row that the store holds, open and with no action in doubt. -/
theorem closeManual_holds {row : Row} {s : Desk}
    (hrow : s.world.rows.get? row.clientId = some row) (hopen : row.status = .open)
    (hlatched : ¬ row.Latched) :
    (closeManual t row).Holds tenancy.owner (fun _ _ => True) s := by
  unfold closeManual
  cases close t.broker row MANUAL_CLOSE with
  | pure outcome => exact fun _ _ _ => trivial
  | act step next =>
    intro s' hr hi
    have hrow' : s'.world.rows.get? row.clientId = some row := hr.rows ▸ hrow
    have hsound : Sound { s'.setWorld (step s'.world) with
        sent := s'.sent ++ [s'.world.rows.get? row.clientId] } := by
      refine ⟨hi.paired, hi.wellFormed, fun stored hstored => ?_, hi.handed, hi.delivered⟩
      rcases List.mem_append.mp hstored with hstored | hstored
      · exact hi.sent stored hstored
      · rw [List.mem_singleton.mp hstored, hrow']
        exact ⟨row, rfl, hopen, hlatched⟩
    exact ⟨hsound, Tracked.of_same rfl rfl, onWorld_works (next s'.world) _ hsound⟩

/-- The detail of a completion ends with what names the request. -/
theorem name_detail (r : Request) (kind : String) {detail : Detail}
    (hid : detail.lookup "request_id" = none) (hactor : detail.lookup "actor" = none) :
    Event.name ⟨kind, some r.clientId, detail ++ r.detail⟩ = (Raw.request r).name := by
  simp [Event.name, Raw.name, Request.name, Request.detail, List.lookup_append, List.lookup_cons,
    hid, hactor]

theorem closeRequested_works (r : Request) : Works (closeRequested t r) := by
  have hcomplete : ∀ (outcome : List (String × String)), ∀ kind ∈ COMPLETIONS, ∀ detail : Detail,
      detail.lookup "request_id" = none → detail.lookup "actor" = none →
      Works (completeManual t (.request r) kind (some r.clientId) (detail ++ r.detail) >>=
        fun _ => pure outcome) :=
    fun outcome kind hkind detail hid hactor =>
      (completeManual_works hkind (name_detail r kind hid hactor)).bind (fun _ => works_pure _)
  intro s hs
  unfold closeRequested
  refine Program.Holds.read_now (fun s' hr hi => ?_)
  cases hrow : s'.world.rows.get? r.clientId with
  | none => exact hcomplete _ _ (by decide) _ rfl rfl s' hi
  | some row =>
    dsimp only
    by_cases hopen : row.status = .open
    · rw [if_neg (not_not.mpr hopen)]
      by_cases htrade : r.tradeId ≠ none ∧ r.tradeId ≠ row.tradeId
      · rw [if_pos htrade]
        exact hcomplete _ _ (by decide) _ rfl rfl s' hi
      · rw [if_neg htrade]
        by_cases hlatched : row.Latched
        · rw [if_pos hlatched]
          exact (notePending_works _ _).bind (fun _ => works_pure _) s' hi
        rw [if_neg hlatched]
        by_cases hdry : t.settings.dryRun = true
        · rw [if_pos hdry]
          exact hcomplete _ _ (by decide) _ rfl rfl s' hi
        rw [if_neg hdry]
        -- The row that was read is stored until the close is sent: only the router writes it.
        obtain ⟨-, hid⟩ := Table.get?_eq_some.mp hrow
        have hclose := @closeManual_holds t row s' (hid ▸ hrow) hopen hlatched
        refine Program.Holds.bind (hclose.mono (fun outcome s₁ hi₁ _ => ?_)) hi
        by_cases hdone : outcome = "CLOSED" ∨ outcome = "CLOSED_AT_BROKER"
        · rw [if_pos hdone]
          exact hcomplete _ _ (by decide) _ rfl rfl s₁ hi₁
        rw [if_neg hdone]
        by_cases hrejected : outcome = "CLOSE_REJECTED"
        · rw [if_pos hrejected]
          exact hcomplete _ _ (by decide) _ rfl rfl s₁ hi₁
        · rw [if_neg hrejected]
          exact works_pure _ s₁ hi₁
    · rw [if_pos hopen]
      by_cases hreason : row.closedReason = some MANUAL_CLOSE
      · rw [if_pos hreason]
        exact hcomplete _ _ (by decide) _ rfl rfl s' hi
      · rw [if_neg hreason]
        exact hcomplete _ _ (by decide) _ rfl rfl s' hi

theorem processManualClose_works (report : Option (List OpenTrade)) :
    Works (processManualClose ext t report) := by
  refine (drainOutbox_works t.onAlert t.before).bind (fun _ s hs => ?_)
  refine Program.Holds.read_now (fun s' hr hi => ?_)
  cases hmanual : s'.manual with
  | none => exact works_pure _ s' hi
  | some raw =>
    obtain ⟨r, rfl, hid⟩ := hi.wellFormed raw hmanual
    dsimp only
    rw [if_neg hid]
    have hnone : Works (do
        notePending t r.clientId (("reason", some "broker_read_failed") :: r.detail)
        pure (([], none) : List (String × String) × Option (List OpenTrade))) :=
      (notePending_works _ _).bind (fun _ => works_pure _)
    have hsome : ∀ trades : List OpenTrade, Works (do
        let outcome ← closeRequested t r
        pure (outcome, some trades)) :=
      fun trades => (closeRequested_works r).bind (fun _ => works_pure _)
    cases report with
    | some trades => exact hsome trades s' hi
    | none =>
      refine (onWorld_works _).bind (fun read => ?_) s' hi
      cases read with
      | none => exact hnone
      | some trades => exact hsome trades

theorem work_works {p : Program Desk (List (String × String))} (h : Work ext p) : Works p := by
  cases h with
  | poll t =>
    refine works_read (fun ⟨flatten, manual⟩ => ?_)
    dsimp only
    split_ifs
    · exact works_pure _
    · exact (onWorld_works _).bind (fun ⟨flattened, report⟩ =>
        (processManualClose_works report).bind (fun _ => works_pure _))
  | tick t rest =>
    exact (onWorld_works _).bind (fun ⟨flattened, report⟩ =>
      (processManualClose_works report).bind (fun ⟨manual, report⟩ => onWorld_works _))
  | other p => exact onWorld_works p

end Router

/-! ## The click and the environment -/

theorem click_name (c : Click) (target : Row) :
    (c.event target).name = (c.request target).name := by
  simp [Event.name, Request.name, Click.event, Click.request, List.lookup_cons]

theorem click_holds {symbol : String → String} {p : Program Desk (Bool × String)}
    (h : Clicks symbol p) (s : Desk) : p.Holds tenancy.guest (fun _ _ => True) s := by
  have hpure : ∀ (b : Bool × String) (s : Desk),
      (pure b : Program Desk (Bool × String)).Holds tenancy.guest (fun _ _ => True) s :=
    fun _ _ _ _ _ => trivial
  obtain ⟨c⟩ := h
  unfold requestManualClose
  cases c.problem with
  | some problem => exact hpure _ s
  | none =>
    dsimp only
    split_ifs with hbad
    · exact hpure _ s
    · refine Program.Holds.read_now (fun s' _ hi => ?_)
      cases manualCloseTarget symbol s'.world with
      | none => exact hpure _ s'
      | some target =>
        dsimp only
        split_ifs
        · exact hpure _ s'
        · exact hpure _ s'
        · refine Program.Holds.call (fun s₁ _ hi₁ => ?_)
          have hid : (c.request target).clientId ≠ "" := fun h => hbad (.inr h)
          obtain ⟨hsound, hbeside, htracked⟩ :=
            setFlagIfAbsent_step hi₁ (rfl : (c.event target).kind = _) (click_name c target) hid
          refine ⟨hsound, ⟨hbeside, htracked⟩, ?_⟩
          split_ifs
          · exact hpure _ _
          · exact Program.Holds.read_now (fun s₂ _ _ => hpure _ s₂)

theorem env_step {s s' : Desk} (hs : Sound s) (h : Env s s') :
    Sound s' ∧ Beside s s' ∧ Tracked s s' := by
  cases h with
  | world w hrows =>
    exact ⟨hs.setWorld w, ⟨hrows, fun _ h => h, rfl, rfl, rfl⟩, Tracked.of_same rfl rfl⟩
  | event e hkind =>
    exact ⟨hs.event hkind, ⟨rfl, fun _ h => h, rfl, rfl, rfl⟩,
      Tracked.of_event (fun _ h => h) rfl (fun h => hkind (List.mem_cons_of_mem _ h))⟩

/-! ## Whole runs -/

/-- Nothing was requested yet. -/
structure Fresh (s : Desk) : Prop where
  manual : s.manual = none
  events : ∀ e ∈ s.events, e.kind ∉ MANUAL_CLOSE_REQUESTED :: COMPLETIONS
  sent : s.sent = []
  handed : s.handed = []

theorem Fresh.sound {s : Desk} (h : Fresh s) : Sound s where
  paired := by
    have hrequested : s.requested = [] := by
      simp only [Desk.requested, List.map_eq_nil_iff, List.filter_eq_nil_iff, decide_eq_true_eq]
      exact fun e he hkind => h.events e he (hkind ▸ List.mem_cons_self)
    have hcompleted : s.completed = [] := by
      simp only [Desk.completed, List.map_eq_nil_iff, List.filter_eq_nil_iff, decide_eq_true_eq]
      exact fun e he hkind => h.events e he (List.mem_cons_of_mem _ hkind)
    rw [hrequested, hcompleted, Desk.pending, h.manual]
    rfl
  wellFormed := by simp [h.manual]
  sent := by simp [h.sent]
  handed := by simp [h.handed]
  delivered := by simp [h.handed]

abbrev Floor := OwnedPool Desk (List (String × String)) (Bool × String)

abbrev FloorStep (ext symbol : String → String) : Floor → Floor → Prop :=
  OwnedStep (Work ext) (Clicks symbol) Env

theorem floor_sound {ext symbol : String → String} {start : Desk} {floor : Floor}
    (hstart : Fresh start)
    (hrun : Relation.ReflTransGen (FloorStep ext symbol) ⟨start, none, []⟩ floor) :
    floor.Sound tenancy (fun _ _ => True) (fun _ _ => True) := by
  refine owned_sound _ _ (fun s s' hi h => ?_) (fun p h s hi => work_works h s hi)
    (fun p h s _ => click_holds h s) hstart.sound hrun
  obtain ⟨hsound, hbeside, -⟩ := env_step hi h
  exact ⟨hsound, hbeside, trivial⟩

theorem floor_tracked {ext symbol : String → String} {start : Desk} {floor floor' : Floor}
    (hstart : Fresh start)
    (hrun : Relation.ReflTransGen (FloorStep ext symbol) ⟨start, none, []⟩ floor)
    (hstep : FloorStep ext symbol floor floor') : Tracked floor.store floor'.store := by
  have hsound := floor_sound hstart hrun
  rcases hsound.guarantees hstep with hsame | henv | howner | hguest
  · rw [hsame]
    exact Tracked.of_same rfl rfl
  · exact (env_step hsound.inv henv).2.2
  · exact howner
  · exact hguest.2

/-- In every state of every run: the requests that were stored are those that were completed,
each by one event, and then the one that is pending; a close was sent only for a row that was
open with no action in doubt; no alert was handed over twice. In every step, a request that is
removed goes with one event that completes it. -/
theorem operator_requests_complete_once {ext symbol : String → String} {start : Desk}
    {floor : Floor} (hstart : Fresh start)
    (hrun : Relation.ReflTransGen (FloorStep ext symbol) ⟨start, none, []⟩ floor) :
    floor.store.requested = floor.store.completed ++ floor.store.pending ∧
      (∀ stored ∈ floor.store.sent, ∃ row ∈ stored, row.status = .open ∧ ¬ row.Latched) ∧
      floor.store.handed.Nodup ∧
      ∀ floor', FloorStep ext symbol floor floor' → Tracked floor.store floor'.store := by
  have hsound := (floor_sound hstart hrun).inv
  exact ⟨hsound.paired, hsound.sent, hsound.handed,
    fun floor' hstep => floor_tracked hstart hrun hstep⟩

/-! ### A run -/

/-- One open trade. -/
def sampleRow : Row where
  clientId := "aif-1"
  units := 1000
  entry := 11 / 10
  stop := 109 / 100
  tradeId := some "7"
  status := .open
  createdAt := 0

def sampleBook : Book where
  orders := []
  trades := [⟨"7", "EUR_USD", 11 / 10, some "aif-1", some (109 / 100), some 0⟩]
  made := fun _ => some "7"
  oneOrder := by simp
  oneTrade := by simp
  apart := by simp
  orderIds := by simp

def sampleDesk : Desk where
  world := { rows := ⟨[sampleRow], by simp⟩, book := sampleBook }

def sampleClick : Click where
  actor := ""
  reason := "news"
  clientId := "aif-1"
  requestId := "r1"
  problem := none
  ts := "2026-03-02T12:00:00+00:00"

def sampleTick : Tick where
  broker := truthful
  settings := ⟨false, false⟩
  episode := "e"
  onAlert := true
  before := ⟨0, false, fun _ => false, fun _ => false⟩
  after := ⟨1, false, fun _ => false, fun _ => false⟩
  noted := true

/-- The store after the click, and after the poll that follows. -/
def sampleClicked : Desk :=
  ((requestManualClose (fun _ => DEMO_SYMBOL) sampleClick).runFor 2 sampleDesk).2

def samplePolled : Desk := ((processOperatorRequests id sampleTick).runFor 40 sampleClicked).2

theorem samplePolled_store : samplePolled.completed = [(some "aif-1", some "r1", some SOURCE)] ∧
    samplePolled.handed = [2] := by
  decide +kernel

/-- The click is stored, the trade is closed, and the alert of the completion is handed over. -/
theorem operator_requests_complete_once_sample :
    ∃ floor : Floor,
      Relation.ReflTransGen (FloorStep id (fun _ => DEMO_SYMBOL)) ⟨sampleDesk, none, []⟩ floor ∧
      floor.store.completed = [(some "aif-1", some "r1", some SOURCE)] ∧
      floor.store.handed = [2] ∧
      floor.store.requested = floor.store.completed ++ floor.store.pending := by
  have hclick : Clicks (fun _ => DEMO_SYMBOL)
      (requestManualClose (fun _ => DEMO_SYMBOL) sampleClick) := .click sampleClick
  have hrun : Relation.ReflTransGen (FloorStep id (fun _ => DEMO_SYMBOL)) ⟨sampleDesk, none, []⟩
      ⟨samplePolled, some ((processOperatorRequests id sampleTick).runFor 40 sampleClicked).1,
        [((requestManualClose (fun _ => DEMO_SYMBOL) sampleClick).runFor 2 sampleDesk).1]⟩ :=
    .head (.arrives hclick) (((guest_runs none [] [] 2 _ _).tail (.begins (.poll sampleTick))).trans
      (owner_runs _ 40 _ _))
  have hstart : Fresh sampleDesk := ⟨rfl, fun e he => by simp [sampleDesk] at he, rfl, rfl⟩
  exact ⟨_, hrun, samplePolled_store.1, samplePolled_store.2,
    (operator_requests_complete_once hstart hrun).1⟩

end MarketSystem.OperatorRequests
