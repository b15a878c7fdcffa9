import MarketSystem.Execution.LossCheck

/-!
# What each function of the tracker can do

One statement for each function, for every subset of accesses failing. They say
what changes, in the state left by a success and in the one left by a failure
half-way; the results about halts and about transfers are derived from them.
-/
namespace MarketSystem.DailyLossLimit

open Library Fallible

variable {w : World}

/-! ## Single actions -/

theorem ensures_flag_bind {α : Type} {f : Flag} {k : Option Value → M α}
    {Q : Except String α → World → Prop} (hfail : Q (.error "OperationalError") w)
    (hok : (k (w.store f)).Ensures w Q) : (flag f >>= k).Ensures w Q :=
  ensures_access_bind hfail hok

theorem ensures_setFlag_bind {α : Type} {f : Flag} {value : Option Value} {k : Unit → M α}
    {Q : Except String α → World → Prop} (hfail : Q (.error "OperationalError") w)
    (hok : (k ()).Ensures (w.write f value) Q) : (setFlag f value >>= k).Ensures w Q :=
  ensures_access_bind hfail hok

theorem ensures_notify_bind {α : Type} {e : Event} {k : Unit → M α}
    {Q : Except String α → World → Prop} (h : (k ()).Ensures (w.report e) Q) :
    (notify e >>= k).Ensures w Q :=
  ensures_modify_bind h

theorem ensures_record_bind {α : Type} {f : World → Trace} {k : Unit → M α}
    {Q : Except String α → World → Prop} (h : (k ()).Ensures (w.retrace (f w)) Q) :
    (record f >>= k).Ensures w Q :=
  ensures_modify_bind h

/-! ## Reading -/

theorem readFlags_ensures (fs : List Flag) (w : World) :
    (readFlags fs).Ensures w (fun r w' => w' = w ∧
      ∀ state, r = .ok state → ∀ f ∈ fs, state f = w.store f) := by
  induction fs with
  | nil => exact ensures_pure ⟨rfl, fun state _ f hf => absurd hf List.not_mem_nil⟩
  | cons g fs ih =>
    refine ensures_access_bind ⟨rfl, fun state h => by cases h⟩ ?_
    refine Ensures.bind (ih.mono fun r w' hr => ?_)
    obtain ⟨rfl, hstate⟩ := hr
    cases r with
    | error e => exact ⟨rfl, fun state h => by cases h⟩
    | ok rest =>
      refine ensures_pure ⟨rfl, fun state h f hf => ?_⟩
      cases h
      by_cases hfg : f = g
      · rw [hfg, Function.update_self]
      · rw [Function.update_of_ne hfg]
        exact hstate rest rfl f ((List.mem_cons.mp hf).resolve_left hfg)

/-- Flags as they were read agree with the store. -/
def Agrees (state store : Flags) : Prop := ∀ f ∈ stateFlags, state f = store f

/-- What `_state` makes sure of. -/
structure Sane (store : Flags) : Prop where
  e0 : ∀ v, store .dlE0 = some v → (positive (dec (some v))).isSome
  transfers : ∀ v, store .dlTransfers = some v → (dec (some v)).isSome
  day : ∀ v, store .dlDay = some v → (store .dlE0).isSome ∧ (store .dlTransfers).isSome

theorem checkState_ok {state state' : Flags} (h : checkState state = .ok state') :
    state' = state ∧ Sane state := by
  unfold checkState at h
  split_ifs at h with he0 hdd htr hddtr hday
  cases h
  refine ⟨rfl, fun v hv => ?_, fun v hv => ?_, fun v hv => ⟨?_, ?_⟩⟩
  · rw [hv] at he0
    simpa [Option.isSome_iff_ne_none] using he0
  · rw [hv] at htr
    simpa [Option.isSome_iff_ne_none] using htr
  · simp only [hv, Option.isSome_some, true_and, not_or] at hday
    exact Option.isSome_iff_ne_none.mpr hday.1
  · simp only [hv, Option.isSome_some, true_and, not_or] at hday
    exact Option.isSome_iff_ne_none.mpr hday.2

theorem Sane.congr {state store : Flags} (h : Sane state) (ha : Agrees state store) :
    Sane store := by
  have he0 := ha .dlE0 (by simp [stateFlags])
  have htr := ha .dlTransfers (by simp [stateFlags])
  have hday := ha .dlDay (by simp [stateFlags])
  exact ⟨fun v hv => h.e0 v (he0.trans hv), fun v hv => h.transfers v (htr.trans hv),
    fun v hv => he0 ▸ htr ▸ h.day v (hday.trans hv)⟩

theorem readState_ensures (w : World) :
    readState.Ensures w (fun r w' => w' = w ∧
      ∀ state, r = .ok state → Agrees state w.store ∧ Sane w.store) := by
  refine Ensures.bind ((readFlags_ensures stateFlags w).mono fun r w' hr => ?_)
  obtain ⟨rfl, hstate⟩ := hr
  cases r with
  | error e => exact ⟨rfl, fun state h => by cases h⟩
  | ok read =>
    refine ensures_ofExcept ⟨rfl, fun state h => ?_⟩
    obtain ⟨rfl, hsane⟩ := checkState_ok h
    have ha : Agrees state w'.store := hstate state rfl
    exact ⟨ha, hsane.congr ha⟩

theorem baseline_congr {state store : Flags} (h : Agrees state store) (now : Instant) :
    baseline state now = baseline store now := by
  unfold baseline
  rw [h .dlLastNav (by simp [stateFlags]), h .dlLastAt (by simp [stateFlags])]

theorem ddStart_congr {state store : Flags} (l : Limit) (h : Agrees state store) :
    l.ddStart state = l.ddStart store := by
  unfold Limit.ddStart
  rw [h .ddStart (by simp [stateFlags]), h .ddTransfers (by simp [stateFlags])]

/-! ## Halts -/

/-- Events that report a new halt. -/
def Event.isHalt : Event → Bool
  | .dailyLossHalt _ _ _ _ _ => true
  | .drawdownHalt _ _ _ _ _ => true
  | _ => false

/-- Every write of a halt flag was made. -/
def Written (events : List Event) : Prop := ∀ kind, Event.haltWriteFailed kind ∉ events

/-- A reported halt is in the latch, and in its flag when the writes were made. -/
structure Backed (k : ℤ) (events : List Event) (w : World) : Prop where
  daily : ∀ k' pnl floor e0 nav, .dailyLossHalt k' pnl floor e0 nav ∈ events →
    k' = k ∧ w.latch.daily = some k ∧ w.store .dlDay = some (.day k) ∧
      (Written events → w.store .dlHalt = some (.day k))
  drawdown : ∀ nav start floor drawdown day, .drawdownHalt nav start floor drawdown day ∈ events →
    w.latch.dd = true ∧ (Written events → (w.store .ddHalt).isSome)

theorem Backed.of_quiet {k : ℤ} {events : List Event} (h : ∀ e ∈ events, e.isHalt = false) :
    Backed k events w where
  daily := fun _ _ _ _ _ he => absurd (h _ he) (by simp [Event.isHalt])
  drawdown := fun _ _ _ _ _ he => absurd (h _ he) (by simp [Event.isHalt])

/-- On day `k`, halts stay where they are and new ones are backed. -/
structure Kept (k : ℤ) (w w' : World) : Prop where
  latch : w.latch.daily = some k → w'.latch.daily = some k
  day : w.store .dlDay = some (.day k) → w'.store .dlDay = some (.day k)
  dlHalt : w.store .dlDay = some (.day k) → w.store .dlHalt = some (.day k) →
    w'.store .dlHalt = some (.day k)
  dd : w.latch.dd = true → w'.latch.dd = true
  ddHalt : (w.store .ddHalt).isSome → (w'.store .ddHalt).isSome
  events : ∃ l, w'.events = w.events ++ l ∧ Backed k l w'

theorem Kept.refl (k : ℤ) (w : World) : Kept k w w :=
  ⟨id, id, fun _ => id, id, id, [], by simp, .of_quiet (by simp)⟩

theorem Written.left {a b : List Event} (h : Written (a ++ b)) : Written a :=
  fun kind hk => h kind (List.mem_append_left b hk)

theorem Written.right {a b : List Event} (h : Written (a ++ b)) : Written b :=
  fun kind hk => h kind (List.mem_append_right a hk)

/-- Halts reported earlier are still backed. -/
theorem Backed.append {k : ℤ} {l₁ l₂ : List Event} {w w' : World} (h₁ : Backed k l₁ w)
    (hkept : Kept k w w') (h₂ : Backed k l₂ w') : Backed k (l₁ ++ l₂) w' where
  daily := by
    intro k' pnl floor e0 nav he
    rcases List.mem_append.mp he with he | he
    · obtain ⟨hk, hlatch, hday, hflag⟩ := h₁.daily k' pnl floor e0 nav he
      exact ⟨hk, hkept.latch hlatch, hkept.day hday, fun hw => hkept.dlHalt hday (hflag hw.left)⟩
    · obtain ⟨hk, hlatch, hday, hflag⟩ := h₂.daily k' pnl floor e0 nav he
      exact ⟨hk, hlatch, hday, fun hw => hflag hw.right⟩
  drawdown := by
    intro nav start floor drawdown day he
    rcases List.mem_append.mp he with he | he
    · obtain ⟨hlatch, hflag⟩ := h₁.drawdown nav start floor drawdown day he
      exact ⟨hkept.dd hlatch, fun hw => hkept.ddHalt (hflag hw.left)⟩
    · obtain ⟨hlatch, hflag⟩ := h₂.drawdown nav start floor drawdown day he
      exact ⟨hlatch, fun hw => hflag hw.right⟩

theorem Kept.trans {k : ℤ} {a b c : World} (hab : Kept k a b) (hbc : Kept k b c) : Kept k a c := by
  obtain ⟨l₁, he₁, hb₁⟩ := hab.events
  obtain ⟨l₂, he₂, hb₂⟩ := hbc.events
  exact ⟨fun h => hbc.latch (hab.latch h), fun h => hbc.day (hab.day h),
    fun hday h => hbc.dlHalt (hab.day hday) (hab.dlHalt hday h), fun h => hbc.dd (hab.dd h),
    fun h => hbc.ddHalt (hab.ddHalt h), l₁ ++ l₂, by rw [he₂, he₁, List.append_assoc],
    hb₁.append hbc hb₂⟩

/-- The halting part of an evaluation on day `k`. -/
structure HaltPart (k : ℤ) (w w' : World) : Prop where
  store : ∀ f, f ≠ .dlHalt → f ≠ .ddHalt → w'.store f = w.store f
  trace : w'.trace = w.trace
  kept : Kept k w w'

theorem HaltPart.refl (k : ℤ) (w : World) : HaltPart k w w :=
  ⟨fun _ _ _ => rfl, rfl, Kept.refl k w⟩

theorem HaltPart.trans {k : ℤ} {a b c : World} (hab : HaltPart k a b) (hbc : HaltPart k b c) :
    HaltPart k a c :=
  ⟨fun f h h' => (hbc.store f h h').trans (hab.store f h h'), hbc.trace.trans hab.trace,
    hab.kept.trans hbc.kept⟩

/-- The halts an evaluation on day `k` may make. -/
def Halt.Fits (h : Halt) (k : ℤ) : Prop := ∀ key, h = .daily key → key = k

/-- The events `_halt` is called with. -/
inductive Reports (k : ℤ) : Halt → Event → Prop
  | drawdown {now nav start floor drawdown day} :
      Reports k (.drawdown now) (.drawdownHalt nav start floor drawdown day)
  | daily {pnl floor e0 nav} : Reports k (.daily k) (.dailyLossHalt k pnl floor e0 nav)

/-- A retried write of a halt flag. -/
theorem persist_ensures {k : ℤ} {h : Halt} (hfits : h.Fits k) (w : World) :
    (persist h).Ensures w (fun r w' => r = .ok () ∧ HaltPart k w w' ∧ w'.latch = w.latch ∧
      ∃ l, w'.events = w.events ++ l ∧ (∀ e ∈ l, e.isHalt = false) ∧
        (Written l → w'.store h.flag = some h.value)) := by
  have hfail : HaltPart k w (w.report (.haltWriteFailed h.kind)) :=
    ⟨fun _ _ _ => rfl, rfl, id, id, fun _ => id, id, id, _, rfl,
      .of_quiet (by simp [Event.isHalt])⟩
  have hok : HaltPart k w (w.write h.flag (some h.value)) := by
    cases h with
    | drawdown now =>
      exact ⟨fun f _ hf => Function.update_of_ne hf _ _, rfl, id, id, fun _ => id, id,
        fun _ => rfl, [], by simp, .of_quiet (by simp)⟩
    | daily key =>
      have hkey := hfits key rfl
      subst hkey
      exact ⟨fun f hf _ => Function.update_of_ne hf _ _, rfl, id, id, fun _ _ => rfl, id, id, [],
        by simp, .of_quiet (by simp)⟩
  refine Ensures.attempt_bind (ensures_access ?_ ?_)
  · refine ensures_modify ⟨rfl, hfail, rfl, _, rfl, by simp [Event.isHalt], fun hw => ?_⟩
    exact absurd List.mem_cons_self (hw h.kind)
  · exact ensures_pure ⟨rfl, hok, rfl, [], by simp, by simp, fun _ => Function.update_self _ _ _⟩

theorem halt_ensures {k : ℤ} {h : Halt} {e : Event} (hr : Reports k h e) {w : World}
    (hday : ∀ key, h = .daily key → w.store .dlDay = some (.day key)) :
    (halt h e).Ensures w (fun r w' => r = .ok () ∧ HaltPart k w w') := by
  have hfits : h.Fits k := by
    intro key hkey
    cases hr with
    | drawdown => cases hkey
    | daily =>
      cases hkey
      rfl
  have hlatched : Kept k w (w.relatch (h.latch w.latch)) := by
    cases hr with
    | drawdown => exact ⟨id, id, fun _ => id, fun _ => rfl, id, [], by simp, .of_quiet (by simp)⟩
    | daily => exact ⟨fun _ => rfl, id, fun _ => id, id, id, [], by simp, .of_quiet (by simp)⟩
  refine ensures_modify_bind ?_
  refine Ensures.bind ((persist_ensures hfits (w.relatch (h.latch w.latch))).mono ?_)
  rintro r w₁ ⟨rfl, hpart, hlatch, l, hl, hquiet, hwritten⟩
  have hday₁ : ∀ key, h = .daily key → w₁.store .dlDay = some (.day key) := by
    intro key hkey
    rw [hpart.store .dlDay (by simp) (by simp)]
    exact hday key hkey
  have hbacked : Backed k (l ++ [e]) (w₁.report e) := by
    refine ⟨fun k' pnl floor e0 nav he => ?_, fun nav start floor drawdown day he => ?_⟩
    · rcases List.mem_append.mp he with he | he
      · exact absurd (hquiet _ he) (by simp [Event.isHalt])
      · rw [List.mem_singleton] at he
        subst he
        cases hr
        exact ⟨rfl, by rw [World.report_latch, hlatch]; rfl, hday₁ _ rfl,
          fun hw => hwritten hw.left⟩
    · rcases List.mem_append.mp he with he | he
      · exact absurd (hquiet _ he) (by simp [Event.isHalt])
      · rw [List.mem_singleton] at he
        subst he
        cases hr
        exact ⟨by rw [World.report_latch, hlatch]; rfl,
          fun hw => Option.isSome_iff_exists.mpr ⟨_, hwritten hw.left⟩⟩
  have hkept := hlatched.trans hpart.kept
  refine ensures_modify ⟨rfl, hpart.store, hpart.trace, hkept.latch, hkept.day, hkept.dlHalt,
    hkept.dd, hkept.ddHalt, l ++ [e], ?_, hbacked⟩
  rw [World.report_events, hl, World.relatch_events, List.append_assoc]

/-! ## Steps that leave the halts alone -/

/-- Nothing about halts or the day changes and none is reported. -/
structure Calm (w w' : World) : Prop where
  latch : w'.latch = w.latch
  day : w'.store .dlDay = w.store .dlDay
  dlHalt : w'.store .dlHalt = w.store .dlHalt
  ddHalt : w'.store .ddHalt = w.store .ddHalt
  events : ∃ l, w'.events = w.events ++ l ∧ ∀ e ∈ l, e.isHalt = false

theorem Calm.kept {w w' : World} (h : Calm w w') (k : ℤ) : Kept k w w' := by
  obtain ⟨l, hl, hquiet⟩ := h.events
  exact ⟨fun hd => by rw [h.latch]; exact hd, fun hd => by rw [h.day]; exact hd,
    fun _ hd => by rw [h.dlHalt]; exact hd, fun hd => by rw [h.latch]; exact hd,
    fun hd => by rw [h.ddHalt]; exact hd, l, hl, .of_quiet hquiet⟩

theorem Calm.refl (w : World) : Calm w w := ⟨rfl, rfl, rfl, rfl, [], by simp, by simp⟩

theorem Calm.trans {a b c : World} (hab : Calm a b) (hbc : Calm b c) : Calm a c := by
  obtain ⟨l₁, he₁, hq₁⟩ := hab.events
  obtain ⟨l₂, he₂, hq₂⟩ := hbc.events
  refine ⟨hbc.latch.trans hab.latch, hbc.day.trans hab.day, hbc.dlHalt.trans hab.dlHalt,
    hbc.ddHalt.trans hab.ddHalt, l₁ ++ l₂, by rw [he₂, he₁, List.append_assoc], fun e he => ?_⟩
  rcases List.mem_append.mp he with he | he
  · exact hq₁ e he
  · exact hq₂ e he

/-- `halt_state` reports what the latches say, and what the flags say where it could read
them; it changes nothing. -/
structure HaltsSeen (key : ℤ) (w : World) (daily dd : Bool) (w' : World) : Prop where
  same : w' = { w with events := w'.events }
  calm : Calm w w'
  daily_latch : w.latch.daily = some key → daily = true
  dd_latch : w.latch.dd = true → dd = true
  daily_flag : w.store .dlHalt = some (.day key) → daily = true ∨
    ∃ l, w'.events = w.events ++ l ∧ .stateUnreadable ∈ l
  dd_flag : (w.store .ddHalt).isSome → dd = true ∨
    ∃ l, w'.events = w.events ++ l ∧ .stateUnreadable ∈ l

theorem haltState_ensures (key : ℤ) (w : World) :
    (haltState key).Ensures w (fun r w' => ∃ seen, r = .ok seen ∧
      HaltsSeen key w seen.1 seen.2 w') := by
  have hfail : ∀ daily dd : Bool, (w.latch.daily = some key → daily = true) →
      (w.latch.dd = true → dd = true) →
      HaltsSeen key w daily dd (w.report .stateUnreadable) :=
    fun daily dd hdaily hdd => ⟨rfl, ⟨rfl, rfl, rfl, rfl, _, rfl, by simp [Event.isHalt]⟩,
      hdaily, hdd, fun _ => .inr ⟨_, rfl, by simp⟩, fun _ => .inr ⟨_, rfl, by simp⟩⟩
  have hread : ∀ daily dd : Bool, (w.latch.daily = some key → daily = true) →
      (w.store .dlHalt = some (.day key) → daily = true) →
      (w.latch.dd = true → dd = true) → ((w.store .ddHalt).isSome → dd = true) →
      HaltsSeen key w daily dd w :=
    fun daily dd h₁ h₂ h₃ h₄ => ⟨rfl, Calm.refl w, h₁, h₃, fun h => .inl (h₂ h),
      fun h => .inl (h₄ h)⟩
  -- the second read, after the first one found `daily`
  have hsecond : ∀ daily : Bool, (w.latch.daily = some key → daily = true) →
      (w.store .dlHalt = some (.day key) → daily = true) →
      (drawdownSeen daily w.latch.dd).Ensures w (fun r w' =>
        ∃ seen, r = .ok seen ∧ HaltsSeen key w seen.1 seen.2 w') := by
    intro daily hlatch hflag
    refine Ensures.attempt_bind ?_
    by_cases hdd : w.latch.dd = true
    · rw [if_pos hdd]
      exact ensures_pure (ensures_pure ⟨_, rfl, hread daily true hlatch hflag (fun _ => rfl)
        (fun _ => rfl)⟩)
    · rw [if_neg hdd]
      refine ensures_flag_bind (ensures_notify_bind (ensures_pure ⟨_, rfl, ?_⟩)) ?_
      · exact hfail daily w.latch.dd hlatch id
      · exact ensures_pure (ensures_pure ⟨_, rfl, hread daily _ hlatch hflag
          (fun h => absurd h hdd) id⟩)
  refine ensures_get_bind (Ensures.attempt_bind ?_)
  by_cases hdaily : decide (w.latch.daily = some key) = true
  · rw [if_pos hdaily]
    exact ensures_pure (hsecond true (fun _ => rfl) (fun _ => rfl))
  · rw [if_neg hdaily]
    refine ensures_flag_bind (ensures_notify_bind (ensures_pure ⟨_, rfl, ?_⟩)) ?_
    · exact hfail _ _ (fun h => decide_eq_true h) id
    · exact ensures_pure (hsecond _ (fun h => absurd (decide_eq_true h) hdaily)
        (fun h => decide_eq_true h))

/-! ## The day -/

/-- A complete roll. -/
structure Rolled (key : ℤ) (nav : ℚ) (now : Instant) (w w' : World) : Prop where
  day : w'.store .dlDay = some (.day key)
  e0 : w'.store .dlE0 = some (.decimal ((baseline w.store now).getD nav))
  transfers : w'.store .dlTransfers = some (.decimal 0)
  dlHalt : w'.store .dlHalt = none
  others : ∀ f, f ∉ [Flag.dlDay, .dlE0, .dlTransfers, .dlHalt] → w'.store f = w.store f
  trace : w'.trace = { w.trace with e0 := e0Observation (baseline w.store now) nav w }
  latch : w.latch.daily = some key → w'.latch.daily = some key
  dd : w'.latch.dd = w.latch.dd
  events : ∃ l, w'.events = w.events ++ l ∧ ∀ e ∈ l, e.isHalt = false

/-- A roll that failed before the day was written. -/
structure HalfRolled (w w' : World) : Prop where
  others : ∀ f, f ∉ [Flag.dlE0, .dlTransfers, .dlHalt] → w'.store f = w.store f
  rest : w' = { w with store := w'.store }

theorem roll_ensures {state : Flags} (ha : Agrees state w.store) (key : ℤ) (nav : ℚ)
    (now : Instant) :
    (roll state key nav now).Ensures w (Returns
      (fun state' w' => Rolled key nav now w w' ∧ Agrees state' w'.store)
      (fun _ w' => HalfRolled w w')) := by
  have hbase := baseline_congr ha now
  unfold roll
  rw [hbase]
  refine ensures_get_bind ?_
  refine ensures_setFlag_bind ⟨fun _ _ => rfl, rfl⟩ ?_
  refine ensures_setFlag_bind ⟨fun f hf => ?_, rfl⟩ ?_
  · simp only [List.mem_cons, not_or] at hf
    simp [Function.update_of_ne hf.1]
  refine ensures_setFlag_bind ⟨fun f hf => ?_, rfl⟩ ?_
  · simp only [List.mem_cons, not_or] at hf
    simp [Function.update_of_ne hf.1, Function.update_of_ne hf.2.1]
  refine ensures_setFlag_bind ⟨fun f hf => ?_, rfl⟩ ?_
  · simp only [List.mem_cons, not_or] at hf
    simp [Function.update_of_ne hf.1, Function.update_of_ne hf.2.1, Function.update_of_ne hf.2.2.1]
  refine ensures_record_bind (ensures_modify_bind ?_)
  generalize hW : World.relatch _ _ = W
  have hstore : W.store = Function.update (Function.update (Function.update (Function.update
      w.store .dlE0 (some (.decimal ((baseline w.store now).getD nav)))) .dlTransfers
      (some (.decimal 0))) .dlHalt none) .dlDay (some (.day key)) := by
    rw [← hW]
    rfl
  have htrace : W.trace = { w.trace with e0 := e0Observation (baseline w.store now) nav w } := by
    rw [← hW]
    cases baseline w.store now <;> simp [e0Observation, cursorOf]
  have hlatch : w.latch.daily = some key → W.latch.daily = some key := by
    intro h
    rw [← hW]
    simp [h]
  have hdd : W.latch.dd = w.latch.dd := by
    rw [← hW]
    rfl
  have hevents : W.events = w.events := by
    rw [← hW]
    rfl
  have hrolled : ∀ w' : World, w'.store = W.store → w'.trace = W.trace → w'.latch = W.latch →
      (∃ l, w'.events = w.events ++ l ∧ ∀ e ∈ l, e.isHalt = false) → Rolled key nav now w w' := by
    intro w' hs ht hl he
    refine ⟨?_, ?_, ?_, ?_, fun f hf => ?_, ht.trans htrace, hl ▸ hlatch, hl ▸ hdd, he⟩
    · rw [hs, hstore, Function.update_self]
    · simp [hs, hstore]
    · simp [hs, hstore]
    · simp [hs, hstore]
    · simp only [List.mem_cons, List.not_mem_nil, not_or, or_false] at hf
      simp [hs, hstore, hf]
  have hagrees : Agrees (Function.update (Function.update (Function.update (Function.update state
      .dlDay (some (.day key))) .dlE0 (some (.decimal ((baseline w.store now).getD nav))))
      .dlTransfers (some (.decimal 0))) .dlHalt none) W.store := by
    intro f hf
    have hstate := ha f hf
    rw [hstore]
    cases f <;> simp [hstate]
  dsimp only
  split_ifs
  · refine ensures_notify_bind (ensures_pure ⟨hrolled _ rfl rfl rfl ?_, hagrees⟩)
    exact ⟨_, by rw [World.report_events, hevents], by simp [Event.isHalt]⟩
  · exact ensures_pure ⟨hrolled _ rfl rfl rfl ⟨[], by simp [hevents], by simp⟩, hagrees⟩

/-- The state of the day as `evaluate` goes on with it: kept, or rolled. -/
def Turned (key : ℤ) (nav : ℚ) (now : Instant) (w w' : World) : Prop :=
  (w.store .dlDay = some (.day key) ∧ w' = w) ∨
    (w.store .dlDay ≠ some (.day key) ∧ Rolled key nav now w w')

/-- A new drawdown baseline. -/
structure Based (nav : ℚ) (w w' : World) : Prop where
  ddStart : w'.store .ddStart = some (.decimal nav)
  ddTransfers : w'.store .ddTransfers = none
  others : ∀ f, f ∉ [Flag.ddStart, .ddTransfers] → w'.store f = w.store f
  trace : w'.trace = { w.trace with dd := some ⟨nav, cursorOf w.store⟩ }
  latch : w'.latch = w.latch
  events : w'.events = w.events

/-- Whether `evaluate` takes the NAV at hand as the drawdown baseline. -/
def Limit.Unbased (l : Limit) (w : World) : Prop :=
  l.startEquityOverride = none ∧ w.store .ddStart = none

/-- The `try` block of `evaluate` went through. -/
structure Prepared (l : Limit) (nav : ℚ) (key : ℤ) (now : Instant) (w w' : World) : Prop where
  sane : Sane w.store
  steps : ∃ w₁, Turned key nav now w w₁ ∧
    ((¬ l.Unbased w₁ ∧ w' = w₁) ∨ (l.Unbased w₁ ∧ Based nav w₁ w'))

theorem Turned.day {key : ℤ} {nav : ℚ} {now : Instant} {w w' : World}
    (h : Turned key nav now w w') : w'.store .dlDay = some (.day key) := by
  rcases h with ⟨hday, rfl⟩ | ⟨-, hrolled⟩
  · exact hday
  · exact hrolled.day

theorem Prepared.day {l : Limit} {nav : ℚ} {key : ℤ} {now : Instant} {w w' : World}
    (h : Prepared l nav key now w w') : w'.store .dlDay = some (.day key) := by
  obtain ⟨w₁, hturned, ⟨-, rfl⟩ | ⟨-, hbased⟩⟩ := h.steps
  · exact hturned.day
  · rw [hbased.others .dlDay (by simp)]
    exact hturned.day

/-- The `try` block of `evaluate` failed somewhere. -/
def Unprepared (l : Limit) (nav : ℚ) (key : ℤ) (now : Instant) (w w' : World) : Prop :=
  w' = w ∨ (w.store .dlDay ≠ some (.day key) ∧ HalfRolled w w') ∨
    ∃ w₁, Turned key nav now w w₁ ∧ l.Unbased w₁ ∧ (w' = w₁ ∨ w' = w₁.write .ddTransfers none)

/-- The writes of a new drawdown baseline, once `dd_transfers` is out of the way. -/
theorem writeBase_ensures {state : Flags} {nav : ℚ} {w w₁ : World} (ha : Agrees state w.store)
    (hsteps : w₁ = w ∧ w.store .ddTransfers = none ∨ w₁ = w.write .ddTransfers none) :
    (do
      setFlag .ddStart (some (.decimal nav))
      record (fun w => { w.trace with dd := some ⟨nav, cursorOf w.store⟩ })
      pure (Function.update (Function.update state .ddStart (some (.decimal nav)))
        .ddTransfers none) : M Flags).Ensures w₁ (Returns
      (fun state' w' => Based nav w w' ∧ Agrees state' w'.store)
      (fun _ w' => w' = w ∨ w' = w.write .ddTransfers none)) := by
  have htr : w₁.store .ddTransfers = none := by
    rcases hsteps with ⟨rfl, h⟩ | rfl
    · exact h
    · simp
  have hothers : ∀ f, f ≠ .ddTransfers → w₁.store f = w.store f := by
    rcases hsteps with ⟨rfl, -⟩ | rfl
    · exact fun _ _ => rfl
    · exact fun f hf => by simp [hf]
  have hsame : w₁.trace = w.trace ∧ w₁.latch = w.latch ∧ w₁.events = w.events := by
    rcases hsteps with ⟨rfl, -⟩ | rfl
    · exact ⟨rfl, rfl, rfl⟩
    · exact ⟨rfl, rfl, rfl⟩
  obtain ⟨htrace, hlatch, hevents⟩ := hsame
  refine ensures_setFlag_bind (hsteps.imp_left And.left)
    (ensures_record_bind (ensures_pure ⟨⟨?_, ?_, fun f hf => ?_, ?_, hlatch, hevents⟩, ?_⟩))
  · simp
  · simpa using htr
  · simp only [List.mem_cons, List.not_mem_nil, not_or, or_false] at hf
    simp [hf, hothers f hf.2]
  · have hcursor : cursorOf w₁.store = cursorOf w.store := by
      unfold cursorOf
      rw [hothers .dlTxId (by simp)]
    simp only [World.retrace_trace, World.write_trace, htrace]
    congr 2
    simpa [cursorOf] using hcursor
  · intro f hf
    have hstate := ha f hf
    by_cases hdd : f = .ddTransfers
    · subst hdd
      simpa using htr.symm
    · rw [← hothers f hdd] at hstate
      cases f <;> simp_all

theorem initBase_ensures {l : Limit} {state : Flags} (nav : ℚ) (ha : Agrees state w.store) :
    (initBase l state nav).Ensures w (Returns
      (fun state' w' => ((¬ l.Unbased w ∧ w' = w) ∨ (l.Unbased w ∧ Based nav w w')) ∧
        Agrees state' w'.store)
      (fun _ w' => l.Unbased w ∧ (w' = w ∨ w' = w.write .ddTransfers none))) := by
  have hdd := ha .ddStart (by simp [stateFlags])
  have htr := ha .ddTransfers (by simp [stateFlags])
  unfold initBase
  by_cases hbased : l.startEquityOverride = none ∧ state .ddStart = none
  · have hun : l.Unbased w := ⟨hbased.1, hdd ▸ hbased.2⟩
    have hmono : ∀ r w', Returns (fun state' w' => Based nav w w' ∧ Agrees state' w'.store)
        (fun _ w' => w' = w ∨ w' = w.write .ddTransfers none) r w' → Returns
        (fun state' w' => ((¬ l.Unbased w ∧ w' = w) ∨ (l.Unbased w ∧ Based nav w w')) ∧
          Agrees state' w'.store)
        (fun _ w' => l.Unbased w ∧ (w' = w ∨ w' = w.write .ddTransfers none)) r w' := by
      intro r w' hr
      cases r with
      | ok state' => exact ⟨.inr ⟨hun, hr.1⟩, hr.2⟩
      | error e => exact ⟨hun, hr⟩
    rw [if_pos hbased]
    by_cases hsome : (state .ddTransfers).isSome = true
    · rw [if_pos hsome]
      exact ensures_setFlag_bind ⟨hun, .inl rfl⟩ ((writeBase_ensures ha (.inr rfl)).mono hmono)
    · rw [if_neg hsome]
      exact (writeBase_ensures ha (.inl ⟨rfl, by rw [← htr]; simpa using hsome⟩)).mono hmono
  · rw [if_neg hbased]
    exact ensures_pure ⟨.inl ⟨fun h => hbased ⟨h.1, hdd.trans h.2⟩, rfl⟩, ha⟩

theorem prepare_ensures (l : Limit) (nav : ℚ) (key : ℤ) (now : Instant) (w : World) :
    (prepare l nav key now).Ensures w (Returns
      (fun state w' => Prepared l nav key now w w' ∧ Agrees state w'.store)
      (fun _ w' => Unprepared l nav key now w w')) := by
  refine Ensures.bind ((readState_ensures w).mono fun r w₀ hr => ?_)
  obtain ⟨rfl, hread⟩ := hr
  cases r with
  | error e => exact .inl rfl
  | ok state =>
    obtain ⟨ha, hsane⟩ := hread state rfl
    have hday := ha .dlDay (by simp [stateFlags])
    -- the rest, once the day is what it has to be
    have hrest : ∀ state₁ w₁, Turned key nav now w₀ w₁ → Agrees state₁ w₁.store →
        (initBase l state₁ nav).Ensures w₁ (Returns
          (fun state w' => Prepared l nav key now w₀ w' ∧ Agrees state w'.store)
          (fun _ w' => Unprepared l nav key now w₀ w')) := by
      intro state₁ w₁ hturned ha₁
      refine (initBase_ensures nav ha₁).mono fun r w' hr => ?_
      cases r with
      | ok state' => exact ⟨⟨hsane, w₁, hturned, hr.1⟩, hr.2⟩
      | error e => exact .inr (.inr ⟨w₁, hturned, hr.1, hr.2⟩)
    rw [returns_ok]
    by_cases hkey : state .dlDay ≠ some (.day key)
    · rw [if_pos hkey]
      refine Ensures.bind ((roll_ensures ha key nav now).mono fun r w₁ hr => ?_)
      cases r with
      | error e => exact .inr (.inl ⟨hday ▸ hkey, hr⟩)
      | ok state₁ => exact hrest state₁ w₁ (.inr ⟨hday ▸ hkey, hr.1⟩) hr.2
    · rw [if_neg hkey]
      exact Ensures.bind (ensures_pure
        (hrest state w₀ (.inl ⟨hday ▸ not_not.mp hkey, rfl⟩) ha))

/-! ## Evaluations -/

/-- `_remember` as far as it came. -/
def Remembered (nav : ℚ) (now : Instant) (w w' : World) : Prop :=
  let w₁ := (w.write .dlLastNav (some (.decimal nav))).retrace
    { w.trace with last := some ⟨nav, cursorOf w.store⟩, unremembered := 0 }
  w' = w ∨ w' = w₁ ∨ w' = w₁.write .dlLastAt (some (.time now))

theorem remember_ensures (nav : ℚ) (now : Instant) (w : World) :
    (remember nav now).Ensures w (fun r w' => r = .ok () ∧ Remembered nav now w w') := by
  refine Ensures.attempt_bind (ensures_setFlag_bind (ensures_pure ⟨rfl, .inl rfl⟩)
    (ensures_record_bind ?_))
  have hw : (w.write .dlLastNav (some (.decimal nav))).retrace
      { (w.write .dlLastNav (some (.decimal nav))).trace with
        last := some ⟨nav, cursorOf (w.write .dlLastNav (some (.decimal nav))).store⟩
        unremembered := 0 } =
      (w.write .dlLastNav (some (.decimal nav))).retrace
        { w.trace with last := some ⟨nav, cursorOf w.store⟩, unremembered := 0 } := by
    simp [cursorOf]
  rw [hw]
  exact ensures_access (ensures_pure ⟨rfl, .inr (.inl rfl)⟩)
    (ensures_pure ⟨rfl, .inr (.inr rfl)⟩)

/-- The decision an evaluation reaches from a state it could read. -/
structure Judged (l : Limit) (nav : ℚ) (plannedRisk : Option (Option ℚ)) (key : ℤ) (w : World)
    (d : LossDecision) : Prop where
  daily : d.daily = some (dailyLossStatus (positive (dec (w.store .dlE0))) (some nav)
    (dec (w.store .dlTransfers)) plannedRisk l.fraction)
  halted : w.store .dlHalt = some (.day key) ∨ w.latch.daily = some key →
    d.entryAllowed = false ∧ (l.flatten = true → d.flattenRequired = true)
  ddHalted : (w.store .ddHalt).isSome ∨ w.latch.dd = true →
    d.entryAllowed = false ∧ d.flattenRequired = true
  drawdown : d.ddHalted = (((w.store .ddHalt).isSome || w.latch.dd) ||
    (drawdownStatus (l.ddStart w.store) (some nav)).breached)

/-- A step of the halting part that may be left out. -/
theorem ensures_when (key : ℤ) {c : Prop} [Decidable c] {m : M Unit} {β : Type} {k : M β}
    {w : World} {Q : Except String β → World → Prop}
    (hm : c → m.Ensures w (fun r w' => r = .ok () ∧ HaltPart key w w'))
    (hk : ∀ w', HaltPart key w w' → k.Ensures w' Q) :
    (if c then (do m; k) else k).Ensures w Q := by
  by_cases hc : c
  · rw [if_pos hc]
    refine Ensures.bind ((hm hc).mono fun r w' hr => ?_)
    obtain ⟨rfl, hpart⟩ := hr
    exact hk w' hpart
  · rw [if_neg hc]
    exact hk w (HaltPart.refl key w)

theorem judge_ensures (l : Limit) {state : Flags} (ha : Agrees state w.store) (nav : ℚ)
    (plannedRisk : Option (Option ℚ)) {key : ℤ} (hday : w.store .dlDay = some (.day key))
    (now : Instant) :
    (judge l state nav plannedRisk key now).Ensures w (fun r w' => ∃ d w₁, r = .ok d ∧
      HaltPart key w w₁ ∧ Remembered nav now w₁ w' ∧ Judged l nav plannedRisk key w d) := by
  have he0 := ha .dlE0 (by simp [stateFlags])
  have htr := ha .dlTransfers (by simp [stateFlags])
  have hdl := ha .dlHalt (by simp [stateFlags])
  have hdd := ha .ddHalt (by simp [stateFlags])
  unfold judge
  refine ensures_get_bind ?_
  dsimp only
  refine ensures_when key (fun _ => ?_) (fun w₁ h₁ => ?_)
  · refine (persist_ensures ?_ w).mono fun r w' hr => ⟨hr.1, hr.2.1⟩
    exact fun k hk => by cases hk
  refine ensures_when key (fun _ => ?_) (fun w₂ h₂ => ?_)
  · refine (persist_ensures ?_ w₁).mono fun r w' hr => ⟨hr.1, hr.2.1⟩
    exact fun k hk => by cases hk; rfl
  refine ensures_when key (fun _ => halt_ensures .drawdown (fun k h => by cases h)) (fun w₃ h₃ => ?_)
  have h := (h₁.trans h₂).trans h₃
  refine ensures_when key (fun _ => halt_ensures .daily (fun k hk => ?_)) (fun w₄ h₄ => ?_)
  · cases hk
    rw [h.store .dlDay (by simp) (by simp)]
    exact hday
  refine Ensures.bind ((remember_ensures nav now w₄).mono fun r w' hr => ?_)
  obtain ⟨rfl, hremembered⟩ := hr
  refine ensures_pure ⟨_, w₄, rfl, h.trans h₄, hremembered, ?_, ?_, ?_, ?_⟩
  · rw [← he0, ← htr]
  · intro h
    have hhalted : (decide (state .dlHalt = some (.day key)) ||
        decide (w.latch.daily = some key)) = true := by
      rw [hdl]
      rcases h with h | h <;> simp [h]
    simp only [hhalted, Bool.true_or, if_true, Bool.true_and, Bool.or_eq_true]
    split_ifs <;> simp_all
  · intro h
    have hdown : ((state .ddHalt).isSome || w.latch.dd) = true := by
      rw [hdd]
      rcases h with h | h <;> simp [h]
    simp [hdown]
  · rw [← hdd, ← ddStart_congr l ha]
    cases ((state .ddHalt).isSome || w.latch.dd) <;> simp

theorem HaltsSeen.haltPart {key : ℤ} {daily dd : Bool} {w w' : World}
    (h : HaltsSeen key w daily dd w') : HaltPart key w w' := by
  have hstore : w'.store = w.store := by rw [h.same]
  have htrace : w'.trace = w.trace := by rw [h.same]
  exact ⟨fun f _ _ => by rw [hstore], htrace, h.calm.kept key⟩

/-- A NAV that is not positive halts and flattens at once. -/
theorem nonPositive_ensures (nav : ℚ) (key : ℤ) (now : Instant) (w : World) :
    (nonPositive nav key now).Ensures w (fun r w' => ∃ d, r = .ok d ∧ HaltPart key w w' ∧
      d.entryAllowed = false ∧ d.flattenRequired = true ∧ d.daily = none ∧
      d.reason = some DRAWDOWN_HALT) := by
  refine Ensures.then (haltState_ensures key w) fun seen w₁ hseen => ?_
  have hpart := hseen.haltPart
  dsimp only
  split_ifs
  · exact ensures_pure ⟨_, rfl, hpart, rfl, rfl, rfl, rfl⟩
  · have hreports : Reports key (.drawdown now) (.drawdownHalt nav none none none (some key)) :=
      .drawdown
    refine Ensures.bind ((halt_ensures hreports (fun key h => by cases h)).mono fun r w' hr => ?_)
    obtain ⟨rfl, hhalt⟩ := hr
    exact ensures_pure ⟨_, rfl, hpart.trans hhalt, rfl, rfl, rfl, rfl⟩

/-- The ways an evaluation ends. -/
inductive Evaluated (l : Limit) (nav : Option ℚ) (plannedRisk : Option (Option ℚ)) (key : ℤ)
    (now : Instant) (w : World) : LossDecision → World → Prop
  | invalid : nav = none → Evaluated l nav plannedRisk key now w (refused NAV_INVALID) w
  | nonPositive {v : ℚ} {d : LossDecision} {w' : World} : nav = some v → v ≤ 0 →
      HaltPart key w w' → d.entryAllowed = false → d.flattenRequired = true → d.daily = none →
      d.reason = some DRAWDOWN_HALT → Evaluated l nav plannedRisk key now w d w'
  | unreadable {v : ℚ} {w' : World} : nav = some v → 0 < v → Unprepared l v key now w w' →
      Evaluated l nav plannedRisk key now w (refused STATE_UNREADABLE) w'
  | judged {v : ℚ} {w₁ w₂ w' : World} {d : LossDecision} : nav = some v → 0 < v →
      Prepared l v key now w w₁ → HaltPart key w₁ w₂ → Remembered v now w₂ w' →
      Judged l v plannedRisk key w₁ d → Evaluated l nav plannedRisk key now w d w'

theorem evaluate_ensures (offset : Instant → Instant) (l : Limit) (nav : Option ℚ)
    (plannedRisk : Option (Option ℚ)) (now : Instant) (w : World) :
    (evaluate offset l nav plannedRisk now).Ensures w (fun r w' => ∃ d, r = .ok d ∧
      Evaluated l nav plannedRisk (dayKey offset now) now w d w') := by
  cases nav with
  | none => exact ensures_pure ⟨_, rfl, .invalid rfl⟩
  | some v =>
    unfold evaluate
    dsimp only
    by_cases hv : v ≤ 0
    · rw [if_pos hv]
      refine (nonPositive_ensures v _ now w).mono fun r w' hr => ?_
      obtain ⟨d, rfl, hpart, he, hf, hd, hreason⟩ := hr
      exact ⟨d, rfl, .nonPositive rfl hv hpart he hf hd hreason⟩
    · rw [if_neg hv]
      refine Ensures.attempt_bind ((prepare_ensures l v _ now w).mono fun r w₁ hr => ?_)
      cases r with
      | error e => exact ensures_pure ⟨_, rfl, .unreadable rfl (not_le.mp hv) hr⟩
      | ok state =>
        refine (judge_ensures l hr.2 v plannedRisk hr.1.day now).mono fun r w' hj => ?_
        obtain ⟨d, w₂, rfl, hpart, hrem, hjudged⟩ := hj
        exact ⟨d, rfl, .judged rfl (not_le.mp hv) hr.1 hpart hrem hjudged⟩

/-! ## Transfers -/

theorem setFlags_of_not_mem {store : Flags} {flags : List (Flag × Value)} {f : Flag}
    (h : f ∉ flags.map Prod.fst) : setFlags store flags f = store f := by
  induction flags generalizing store with
  | nil => rfl
  | cons g flags ih =>
    simp only [List.map_cons, List.mem_cons, not_or] at h
    obtain ⟨hg, hrest⟩ := h
    show setFlags (Function.update store g.1 (some g.2)) flags f = store f
    rw [ih hrest, Function.update_of_ne hg]

/-- A committed `apply_transfer` that moves the cursor to `id`. -/
structure Committed (offset : Instant → Instant) (l : Limit) (net : ℚ) (id : ℕ) (now : Instant)
    (w w' : World) : Prop where
  sane : net ≠ 0 → Sane w.store
  store : w'.store = setFlags w.store (cursorFlag (some id) ++
    (if net = 0 then [] else transferFlags l w.store net (dayKey offset now) now))
  trace : w'.trace = w.trace.apply (cursorOf w.store) (some id) net
    (decide (net ≠ 0 ∧ w.store .dlDay = some (.day (dayKey offset now))))
  latch : w'.latch = w.latch
  events : ∃ l, w'.events = w.events ++ l ∧ ∀ e ∈ l, e.isHalt = false

theorem transferFlags_congr {state store : Flags} (l : Limit) (h : Agrees state store) (net : ℚ)
    (key : ℤ) (now : Instant) :
    transferFlags l state net key now = transferFlags l store net key now := by
  unfold transferFlags
  rw [h .ddStart (by simp [stateFlags]), h .ddTransfers (by simp [stateFlags]),
    h .dlDay (by simp [stateFlags]), h .dlTransfers (by simp [stateFlags]), baseline_congr h now]

theorem applyTransfer_ensures (offset : Instant → Instant) (l : Limit) (net : ℚ) (id : ℕ)
    {actor : String} (hactor : actor ≠ "") (reason : String) (now : Instant) (w : World) :
    (applyTransfer offset l (some net) (some id) actor reason now).Ensures w (Returns
      (fun _ w' => Committed offset l net id now w w') (fun _ w' => w' = w)) := by
  unfold applyTransfer
  dsimp only
  rw [if_neg (by simp), if_neg hactor]
  by_cases hnet : net = 0
  · rw [if_pos hnet]
    refine ensures_access_bind rfl (ensures_pure ⟨fun h => absurd hnet h, ?_, ?_, rfl, [], ?_, ?_⟩)
    · simp [hnet]
    · simp [hnet]
    · simp
    · simp
  · rw [if_neg hnet]
    refine Ensures.bind ((readState_ensures w).mono fun r w₀ hr => ?_)
    obtain ⟨rfl, hread⟩ := hr
    cases r with
    | error e => rfl
    | ok state =>
      obtain ⟨ha, hsane⟩ := hread state rfl
      have hday := ha .dlDay (by simp [stateFlags])
      rw [returns_ok, transferFlags_congr l ha]
      refine ensures_access_bind rfl (ensures_notify_bind (ensures_pure
        ⟨fun _ => hsane, ?_, ?_, rfl, _, rfl, by simp [Event.isHalt]⟩))
      · simp [hnet]
      · simp [hnet, hday]

end MarketSystem.DailyLossLimit

namespace MarketSystem.LossCheck

open Library Fallible DailyLossLimit

variable {w : World}

/-! ## The router's check -/

/-- The transfers up to the summary are in the tracker. -/
def Reconciled (offset : Instant → Instant) (l : Limit) (at_ : Instant) (balance : Balance)
    (broker : Broker) (w w' : World) : Prop :=
  (balance.lastTransactionId = cursorOf w.store ∧ w' = w) ∨
    ∃ current net, balance.lastTransactionId = some current ∧
      Committed offset l net current at_ w w' ∧
      ((w.store .dlTxId = none ∧ net = 0) ∨ ∃ id, cursorOf w.store = some id ∧
        (broker.transactions id).bind (netTransfers current) = .ok net)

theorem transactionId_ensures (w : World) :
    transactionId.Ensures w (Returns
      (fun id w' => w' = w ∧ id = cursorOf w.store ∧ (id = none → w.store .dlTxId = none))
      (fun _ w' => w' = w)) := by
  refine ensures_flag_bind rfl ?_
  unfold cursorOf
  cases h : w.store .dlTxId with
  | none => exact ensures_pure ⟨rfl, rfl, fun _ => rfl⟩
  | some v =>
    cases v with
    | txId n => exact ensures_pure ⟨rfl, rfl, fun h => by cases h⟩
    | decimal v => exact ensures_raise rfl
    | day d => exact ensures_raise rfl
    | time t => exact ensures_raise rfl
    | other t => exact ensures_raise rfl

theorem lossTransfers_ensures (offset : Instant → Instant) (l : Limit) (at_ : Instant)
    (balance : Balance) (broker : Broker) (w : World) :
    (lossTransfers offset l at_ balance broker).Ensures w (fun r w' => ∃ done, r = .ok done ∧
      (done = false → w' = w) ∧
      (done = true → Reconciled offset l at_ balance broker w w')) := by
  have hdone : ∀ (r : Except String Unit) (w' : World),
      Returns (fun _ w' => Reconciled offset l at_ balance broker w w') (fun _ w' => w' = w) r w' →
      (isReconciled r).Ensures w' (fun r w' => ∃ done, r = .ok done ∧
        (done = false → w' = w) ∧
        (done = true → Reconciled offset l at_ balance broker w w')) := by
    intro r w' h
    cases r with
    | ok _ => exact ensures_pure ⟨true, rfl, by simp, fun _ => h⟩
    | error _ => exact ensures_pure ⟨false, rfl, fun _ => h, by simp⟩
  refine Ensures.attempt_bind (Ensures.mono ?_ hdone)
  refine Ensures.bind ((transactionId_ensures w).mono fun r w₁ hr => ?_)
  cases r with
  | error e => exact hr
  | ok stored =>
    obtain ⟨rfl, hstored, hnone⟩ := hr
    rw [returns_ok]
    by_cases hsame : balance.lastTransactionId = stored
    · rw [if_pos hsame]
      exact ensures_pure (.inl ⟨hsame.trans hstored, rfl⟩)
    rw [if_neg hsame]
    cases hlast : balance.lastTransactionId with
    | none => exact ensures_raise rfl
    | some current =>
      have happly : ∀ net, ((w₁.store .dlTxId = none ∧ net = 0) ∨ ∃ id, cursorOf w₁.store = some id ∧
          (broker.transactions id).bind (netTransfers current) = .ok net) →
          (do
            let _ ← applyTransfer offset l (some net) (some current) "broker" "TRANSFER_FUNDS" at_
            pure () : M Unit).Ensures w₁ (Returns
              (fun _ w' => Reconciled offset l at_ balance broker w₁ w') (fun _ w' => w' = w₁)) := by
        intro net hnet
        refine Ensures.bind ((applyTransfer_ensures offset l net current (by simp) _ at_ w₁).mono
          fun r w' hr => ?_)
        cases r with
        | error e => exact hr
        | ok total => exact ensures_pure (.inr ⟨current, net, hlast, hr, hnet⟩)
      cases stored with
      | none => exact Ensures.bind (ensures_pure (happly 0 (.inl ⟨hnone rfl, rfl⟩)))
      | some id =>
        refine Ensures.bind (ensures_ofExcept ?_)
        cases hnet : (broker.transactions id).bind (netTransfers current) with
        | error e => rfl
        | ok net => exact happly net (.inr ⟨id, hstored.symm, hnet⟩)

/-- The decision of a check that could not use the NAV or the state. -/
structure HaltedOnly (l : Limit) (key : ℤ) (w : World) (d : LossDecision) (w' : World) : Prop where
  refused : d.entryAllowed = false
  daily : d.daily = none
  seen : ∃ daily dd, HaltsSeen key w daily dd w' ∧
    d.flattenRequired = (dd || (daily && l.flatten))

theorem lossHalted_ensures (offset : Instant → Instant) (l : Limit) (at_ : Instant)
    (reason : String) (w : World) :
    (lossHalted offset l at_ reason).Ensures w (fun r w' => ∃ d, r = .ok d ∧
      HaltedOnly l (dayKey offset at_) w d w') := by
  refine Ensures.then (haltState_ensures (dayKey offset at_) w) fun seen w' hseen => ?_
  exact ensures_pure ⟨_, rfl, rfl, rfl, seen.1, seen.2, hseen, rfl⟩

/-- The ways a check ends. -/
inductive Checked (offset : Instant → Instant) (l : Limit) (at_ : Instant)
    (plannedRisk : Option (Option ℚ)) (broker : Broker) (w : World) : LossDecision → World → Prop
  | unavailable {d : LossDecision} {w' : World} : HaltedOnly l (dayKey offset at_) w d w' →
      Checked offset l at_ plannedRisk broker w d w'
  | unusable {balance : Balance} {d₁ d : LossDecision} {w₁ w₂ w' : World} :
      broker.balance = .ok balance → Reconciled offset l at_ balance broker w w₁ →
      Evaluated l balance.equity plannedRisk (dayKey offset at_) at_ w₁ d₁ w₂ →
      HaltedOnly l (dayKey offset at_) w₂ d w' → Checked offset l at_ plannedRisk broker w d w'
  | evaluated {balance : Balance} {d : LossDecision} {w₁ w' : World} :
      broker.balance = .ok balance → Reconciled offset l at_ balance broker w w₁ →
      Evaluated l balance.equity plannedRisk (dayKey offset at_) at_ w₁ d w' →
      d.reason ≠ some NAV_INVALID → d.reason ≠ some STATE_UNREADABLE →
      Checked offset l at_ plannedRisk broker w d w'

theorem lossCheck_ensures (offset : Instant → Instant) (l : Limit) (at_ : Instant)
    (plannedRisk : Option (Option ℚ)) (broker : Broker) (w : World) :
    (lossCheck offset l at_ plannedRisk broker).Ensures w (fun r w' => ∃ d, r = .ok d ∧
      Checked offset l at_ plannedRisk broker w d w') := by
  have hunavailable : (lossHalted offset l at_ UNAVAILABLE).Ensures w (fun r w' => ∃ d,
      r = .ok d ∧ Checked offset l at_ plannedRisk broker w d w') := by
    refine (lossHalted_ensures offset l at_ UNAVAILABLE w).mono fun r w' hr => ?_
    obtain ⟨d, rfl, hd⟩ := hr
    exact ⟨d, rfl, .unavailable hd⟩
  unfold lossCheck
  cases hbalance : broker.balance with
  | error e => exact hunavailable
  | ok balance =>
    refine Ensures.bind ((lossTransfers_ensures offset l at_ balance broker w).mono
      fun r w₁ hr => ?_)
    obtain ⟨done, rfl, hfalse, htrue⟩ := hr
    rw [returns_ok]
    cases done with
    | false =>
      rw [hfalse rfl, if_pos rfl]
      exact hunavailable
    | true =>
      rw [if_neg (by simp)]
      refine Ensures.attempt_bind ((evaluate_ensures offset l balance.equity plannedRisk at_ w₁).mono
        fun r w₂ hr => ?_)
      obtain ⟨d, rfl, hd⟩ := hr
      dsimp only
      by_cases hreason : d.reason = some NAV_INVALID ∨ d.reason = some STATE_UNREADABLE
      · rw [if_pos hreason]
        have hhalted : ∀ reason, (lossHalted offset l at_ reason).Ensures w₂ (fun r w' => ∃ d,
            r = .ok d ∧ Checked offset l at_ plannedRisk broker w d w') := by
          intro reason
          refine (lossHalted_ensures offset l at_ reason w₂).mono fun r w' hr => ?_
          obtain ⟨d', rfl, hd'⟩ := hr
          exact ⟨d', rfl, .unusable hbalance (htrue rfl) hd hd'⟩
        rcases hreason with h | h
        · rw [h]
          exact hhalted _
        · rw [h]
          exact hhalted _
      · rw [if_neg hreason]
        obtain ⟨h₁, h₂⟩ := not_or.mp hreason
        exact ensures_pure ⟨d, rfl, .evaluated hbalance (htrue rfl) hd h₁ h₂⟩

end MarketSystem.LossCheck
