import MarketSystem.Library.History
import MarketSystem.Execution.AccountRegistry

/-!
# Emergency stop fails closed

The latch of the process is on exactly while a stop has been called and no clear
has returned since. The switches are all OFF from the commit of a clear to the
next committed set_enabled(True). Both are kept by every access of every call, so
they hold in whatever order the accesses of any number of calls come.
-/
namespace MarketSystem.EmergencyStop

open Library AccountRegistry

/-- A stop was called and no clear has returned since. -/
def stopped : Signal Event where
  raises e := decide (e = .stopCalled)
  lowers e := decide (e = .cleared)

/-- A clear was committed and no switch has been committed ON since. -/
def switchedOff : Signal Event where
  raises e := decide (e = .clearCommitted)
  lowers e := match e with
    | .enabled _ => true
    | _ => false

/-- Every switch in the file is OFF. -/
def AllOff (disk : Option Disk) : Prop :=
  ∀ d, disk = some d → ∀ r ∈ d.accounts, r.enabled = .integer 0

/-- The latch and the switches as the history dictates. -/
structure Inv (key : String) (w : World) : Prop where
  latch : w.latched key = stopped.on w.history
  off : switchedOff.on w.history = true → AllOff w.disk

/-- Every access keeps the invariant and only adds to the history. -/
def discipline (key : String) : Discipline World where
  inv := Inv key
  rely w w' := w.history <+: w'.history
  guar w w' := w.history <+: w'.history
  rely_refl w := List.prefix_refl w.history
  rely_trans := List.IsPrefix.trans
  guar_refl w := List.prefix_refl w.history

variable {key : String} {w : World}

theorem inv_start (key : String) (disk : Option Disk) : Inv key (start disk) where
  latch := rfl
  off := by simp [start]

/-! ## What each access does -/

/-- An access to the file that turns no switch ON. -/
theorem Inv.setDisk (hw : Inv key w) {disk : Option Disk} (h : AllOff w.disk → AllOff disk) :
    Inv key { w with disk := disk } where
  latch := hw.latch
  off hoff := h (hw.off hoff)

theorem createSchema_off (h : AllOff w.disk) : AllOff (createSchema w).disk := by
  intro d hd r hr
  cases hdisk : w.disk with
  | none =>
    have : d = ⟨Table.empty, [], none⟩ := by simpa [createSchema, hdisk] using hd.symm
    subst this
    exact absurd hr Table.not_mem_empty
  | some d' =>
    have : d = d' := by simpa [createSchema, hdisk] using hd.symm
    exact h d (by rw [hdisk, this]) r hr

theorem insertAccount_off (now accountKey : String) (h : AllOff w.disk) :
    AllOff (insertAccount now accountKey w).disk := by
  intro d hd r hr
  obtain ⟨d', hdisk, rfl⟩ := Option.map_eq_some_iff.mp hd
  revert hr
  split
  · rename_i accounts hins
    intro hr
    rcases (Table.mem_of_insert? hins).mp hr with hold | rfl
    · exact h d' hdisk r hold
    · rfl
  · exact fun hr => h d' hdisk r hr

theorem insertEmergency_off (now : String) (h : AllOff w.disk) :
    AllOff (insertEmergency now w).disk := by
  intro d hd r hr
  obtain ⟨d', hdisk, rfl⟩ := Option.map_eq_some_iff.mp hd
  exact h d' hdisk r hr

theorem connectStatement_cases {now : String} {f : World → World}
    (hf : f ∈ connectStatements now) :
    f = createSchema ∨ (∃ k, f = insertAccount now k) ∨ f = insertEmergency now := by
  simp only [connectStatements, List.cons_append, List.mem_cons, List.mem_append, List.mem_map,
    List.not_mem_nil, or_false] at hf
  rcases hf with rfl | ⟨k, -, rfl⟩ | rfl
  · exact .inl rfl
  · exact .inr (.inl ⟨k, rfl⟩)
  · exact .inr (.inr rfl)

theorem connectStatement_history {now : String} {f : World → World}
    (hf : f ∈ connectStatements now) (w : World) : (f w).history = w.history := by
  rcases connectStatement_cases hf with rfl | ⟨k, rfl⟩ | rfl <;> rfl

theorem connectStatement_inv {now : String} {f : World → World}
    (hf : f ∈ connectStatements now) (hw : Inv key w) : Inv key (f w) := by
  rcases connectStatement_cases hf with rfl | ⟨k, rfl⟩ | rfl
  · exact hw.setDisk createSchema_off
  · exact hw.setDisk (insertAccount_off now k)
  · exact hw.setDisk (insertEmergency_off now)

theorem updateEnabled_false_off {d : Disk} {p : String → Bool} {ts : String}
    (h : ∀ r ∈ d.accounts, p r.accountKey = false → r.enabled = .integer 0) :
    ∀ r ∈ (updateEnabled d p false ts).accounts, r.enabled = .integer 0 := by
  intro r hr
  obtain ⟨s, hs, rfl⟩ := mem_updateEnabled.mp hr
  by_cases hp : p s.accountKey = true
  · rw [if_pos hp]
    rfl
  · rw [if_neg hp]
    exact h s hs (by simpa using hp)

theorem emergencyBody_off {active : Bool} {actor reason source ts : String} {d d' : Disk}
    (h : emergencyBody active actor reason source ts d = .ok d') :
    ∀ r ∈ d'.accounts, r.enabled = .integer 0 := by
  unfold emergencyBody at h
  cases h
  exact @updateEnabled_false_off d (fun _ => true) ts (fun r _ hr => absurd hr (by simp))

theorem disableBody_off {accountKey actor source ts : String} {d d' : Disk}
    (h : enableBody accountKey false actor source ts d = .ok d')
    (hoff : ∀ r ∈ d.accounts, r.enabled = .integer 0) :
    ∀ r ∈ d'.accounts, r.enabled = .integer 0 := by
  unfold enableBody at h
  simp only [Bool.false_eq_true, false_and, if_false] at h
  cases h
  exact @updateEnabled_false_off d (fun k => decide (k = accountKey)) ts (fun r hr _ => hoff r hr)

theorem setLatch_inv (reason : String) (hw : Inv key w) : Inv key (setLatch key reason w) where
  latch := by simp [setLatch, World.latched, stopped, Signal.next]
  off := by
    intro hoff
    refine hw.off ?_
    simpa [setLatch, switchedOff, Signal.next] using hoff

theorem popLatch_inv (hw : Inv key w) : Inv key (popLatch key w) where
  latch := by
    have hnone : (w.latches.erase key).get? key = none := by
      rw [Table.get?_eq_none]
      intro r hr
      exact (Table.mem_erase.mp hr).2
    simp [popLatch, World.latched, hnone, stopped, Signal.next]
  off := by
    intro hoff
    refine hw.off ?_
    simpa [popLatch, switchedOff, Signal.next] using hoff

/-! ## Programs -/

/-- What a query has to answer while a stop stands. -/
def Denies : Call → Outcome → Prop
  | .isAllowed _, outcome => outcome = .ok (.flag false)
  | .emergencyActive, outcome => outcome = .ok (.flag true)
  | _, _ => True

/-- What a query has to answer while every switch is OFF. -/
def Disallows : Call → Outcome → Prop
  | .isAllowed _, outcome => outcome = .ok (.flag false)
  | _, _ => True

/-- An answer, judged by the history up to now. -/
structure Answered (s : Served) (h : List Event) : Prop where
  since : s.asOf <+: h
  denied : stopped.Throughout s.asOf h → Denies s.call s.outcome
  disallowed : switchedOff.Throughout s.asOf h → Disallows s.call s.outcome
  real : s.call = .isAllowed "real" → s.outcome = .ok (.flag false)

theorem statements_holds {now : String} {fs : List (World → World)} {fails : Option ℕ}
    {post : Bool → World → Prop} (hfs : ∀ f ∈ fs, f ∈ connectStatements now)
    (hpost : ∀ b w, Inv key w → post b w) (w : World) :
    (statements fs fails).Holds (discipline key) post w := by
  induction fs generalizing fails w with
  | nil => exact fun w' _ hi => hpost _ w' hi
  | cons f fs ih =>
    have hrest : ∀ fails' : Option ℕ, (do
        Program.call (fun w => ((), f w))
        statements fs fails' : Program World Bool).Holds (discipline key) post w := by
      intro fails'
      refine Program.Holds.call (fun w' _ hi => ?_)
      have hf : f ∈ connectStatements now := hfs f (by simp)
      refine ⟨connectStatement_inv hf hi, ?_, ih (fun g hg => hfs g (List.mem_cons_of_mem _ hg)) _⟩
      show w'.history <+: (f w').history
      exact (connectStatement_history hf w').symm ▸ List.prefix_refl _
    match fails with
    | some 0 => exact fun w' _ hi => hpost _ w' hi
    | some (n + 1) => exact hrest _
    | none => exact hrest _

theorem connect_holds {c : Circumstances} {post : Bool → World → Prop}
    (hpost : ∀ b w, Inv key w → post b w) (w : World) :
    (connect c).Holds (discipline key) post w :=
  statements_holds (fun _ hf => hf) hpost w

/-- A transaction keeps the invariant when its body and its events agree on the switches. -/
theorem transaction_holds {c : Circumstances} {body : Disk → Except String Disk}
    {committed : List Event} {post : Except String Unit → World → Prop}
    (hbody : ∀ w d d', Inv key w → w.disk = some d → body d = .ok d' →
      Inv key { w with disk := some d', history := w.history ++ committed })
    (hpost : ∀ r w, Inv key w → post r w) (w : World) :
    (transaction c body committed).Holds (discipline key) post w := by
  intro w' _ hi
  show Inv key (commit c body committed w').2 ∧ w'.history <+: (commit c body committed w').2.history ∧
    (Program.pure (commit c body committed w').1 : Program World _).Holds (discipline key) post
      (commit c body committed w').2
  rcases commit_cases c body committed w' with ⟨e, he⟩ | ⟨d, d', hdisk, hd, hok⟩
  · rw [he]
    exact ⟨hi, List.prefix_refl _, fun w₂ _ hi₂ => hpost _ w₂ hi₂⟩
  · rw [hok]
    exact ⟨hbody w' d d' hi hdisk hd, List.prefix_append _ _, fun w₂ _ hi₂ => hpost _ w₂ hi₂⟩

theorem enable_transaction {c : Circumstances} {accountKey actor source : String} {enabled : Bool}
    {post : Except String Unit → World → Prop} (hpost : ∀ r w, Inv key w → post r w) (w : World) :
    (transaction c (enableBody accountKey enabled actor source c.ts)
      (switchEvents accountKey enabled)).Holds (discipline key) post w := by
  refine transaction_holds (fun w d d' hi hdisk hd => ?_) hpost w
  cases enabled with
  | true => exact ⟨by simpa [switchEvents, stopped, Signal.next, World.latched] using hi.latch,
      by simp [switchEvents, switchedOff, Signal.next]⟩
  | false =>
    have hoff : AllOff w.disk → AllOff (some d') := by
      intro hoff d₁ hd₁
      cases hd₁
      exact disableBody_off hd (hoff d hdisk)
    simpa [switchEvents] using hi.setDisk hoff

theorem emergency_transaction {c : Circumstances} {active : Bool} {actor reason source : String}
    {committed : List Event} (hc : committed = [] ∨ committed = [.clearCommitted])
    {post : Except String Unit → World → Prop} (hpost : ∀ r w, Inv key w → post r w) (w : World) :
    (transaction c (emergencyBody active actor reason source c.ts) committed).Holds
      (discipline key) post w := by
  refine transaction_holds (fun w d d' hi hdisk hd => ?_) hpost w
  have hoff : AllOff (some d') := by
    intro d₁ hd₁
    cases hd₁
    exact emergencyBody_off hd
  refine ⟨?_, fun _ => hoff⟩
  rcases hc with rfl | rfl
  · simpa [World.latched] using hi.latch
  · simpa [stopped, Signal.next, World.latched] using hi.latch

theorem setEnabled_holds (accountKey : String) (enabled : Bool) (actor source : String)
    (c : Circumstances) (w : World) :
    (setEnabled key accountKey enabled actor source c).Holds (discipline key)
      (fun _ _ => True) w := by
  have hdone : ∀ (o : Outcome) (w' : World),
      (pure o : Program World Outcome).Holds (discipline key) (fun _ _ => True) w' :=
    fun _ _ _ _ _ => trivial
  unfold setEnabled
  by_cases hkey : accountKey ∉ ACCOUNT_KEYS
  · rw [if_pos hkey]
    exact hdone _ w
  rw [if_neg hkey]
  by_cases hreal : accountKey = "real" ∧ enabled = true
  · rw [if_pos hreal]
    exact hdone _ w
  rw [if_neg hreal]
  by_cases hactor : actor = ""
  · rw [if_pos hactor]
    exact hdone _ w
  rw [if_neg hactor]
  by_cases henv : enabled = true ∧ c.envEmergency = true
  · rw [if_pos henv]
    exact hdone _ w
  rw [if_neg henv]
  refine Program.Holds.read_now (fun w' _ hi => ?_)
  split_ifs
  · exact hdone _ w'
  · refine Program.Holds.bind (connect_holds (fun connected w₁ hi₁ => ?_) w') hi
    cases connected with
    | true => exact Program.Holds.bind (enable_transaction (fun _ w₂ _ => hdone _ w₂) w₁) hi₁
    | false => exact hdone _ w₁

theorem emergencyStop_holds (actor reason source : String) (c : Circumstances) (w : World) :
    (emergencyStop key actor reason source c).Holds (discipline key) (fun _ _ => True) w := by
  refine Program.Holds.call (fun w' _ hi => ⟨setLatch_inv reason hi, List.prefix_append _ _, ?_⟩)
  refine Program.Holds.bind (connect_holds (fun connected w₁ hi₁ => ?_) _) (setLatch_inv reason hi)
  cases connected with
  | true =>
    refine Program.Holds.bind (emergency_transaction (.inl rfl) (fun r w₂ _ => ?_) w₁) hi₁
    cases r with
    | error _ => exact fun _ _ _ => trivial
    | ok _ => exact fun _ _ _ => trivial
  | false => exact fun _ _ _ => trivial

theorem clearEmergency_holds (actor reason source : String) (c : Circumstances) (w : World)
    (hw : Inv key w) :
    (clearEmergency key actor reason source c).Holds (discipline key) (fun _ _ => True) w := by
  unfold clearEmergency
  split_ifs
  · exact fun _ _ _ => trivial
  · refine Program.Holds.bind (connect_holds (fun connected w₁ hi₁ => ?_) w) hw
    cases connected with
    | true =>
      refine Program.Holds.bind (emergency_transaction (.inr rfl) (fun r w₂ hi₂ => ?_) w₁) hi₁
      cases r with
      | error _ => exact fun _ _ _ => trivial
      | ok _ =>
        refine Program.Holds.call (fun w₃ _ hi₃ =>
          ⟨popLatch_inv hi₃, List.prefix_append _ _, fun _ _ _ => trivial⟩)
    | false => exact fun _ _ _ => trivial

/-! ## Queries -/

/-- Rows that were all OFF when they were read say so of every account. -/
theorem readState_holds (c : Circumstances) (asOf : List Event) (w : World)
    (hw : asOf <+: w.history) :
    (readState c).Holds (discipline key)
      (fun state w => ∀ s, state = some s → switchedOff.Throughout asOf w.history →
        ∀ a ∈ s.accounts, a.enabled = false) w := by
  refine Program.Holds.read_now (fun w₁ hr₁ hi₁ => ?_)
  cases hdisk : w₁.disk with
  | none => exact fun w₂ _ _ s hs => absurd hs (by simp)
  | some d =>
    have hoff : switchedOff.Throughout asOf w₁.history →
        ∀ a ∈ d.accounts.rows.filterMap readRow, a.enabled = false := by
      intro ht a ha
      obtain ⟨r, hr, hread⟩ := List.mem_filterMap.mp ha
      have hzero : r.enabled = .integer 0 := hi₁.off ht.on d hdisk r hr
      unfold readRow at hread
      split_ifs at hread
      cases hread
      simp [hzero]
    simp only [Option.map_some]
    by_cases hrows : c.rowsUnreadable = true
    · rw [if_pos hrows]
      exact fun w₂ _ _ s hs => absurd hs (by simp)
    rw [if_neg hrows]
    refine Program.Holds.read_now (fun w₂ hr₂ _ => ?_)
    cases hdisk₂ : w₂.disk with
    | none => exact fun w₃ _ _ s hs => absurd hs (by simp)
    | some d₂ =>
      simp only [Option.map_some]
      by_cases hemergency : c.emergencyUnreadable = true
      · rw [if_pos hemergency]
        exact fun w₃ _ _ s hs => absurd hs (by simp)
      · rw [if_neg hemergency]
        intro w₃ hr₃ _ s hs ht
        cases hs
        exact hoff (ht.narrow (hw.trans hr₁) (hr₂.trans hr₃))

theorem enabled_eq_false {s : ControlState} {accountKey : String}
    (h : ∀ a ∈ s.accounts, a.enabled = false) : s.enabled accountKey = false := by
  unfold ControlState.enabled
  cases hfind : s.accounts.find? (fun a => decide (a.accountKey = accountKey)) with
  | none => rfl
  | some a => simpa using h a (List.mem_of_find?_eq_some hfind)

/-- A latch that was found off refutes a stop that stands. -/
theorem not_stopped_of_latch {asOf : List Event} {w w' : World} (hi : Inv key w)
    (hlatch : ¬ w.latched key = true) (h₀ : asOf <+: w.history) (h : w.history <+: w'.history) :
    ¬ stopped.Throughout asOf w'.history := by
  intro ht
  have hon := (ht.narrow h₀ h).on
  rw [← hi.latch] at hon
  exact hlatch hon

theorem isAllowed_holds (accountKey : String) (c : Circumstances) (asOf : List Event) (w : World)
    (hw : asOf <+: w.history) :
    (isAllowed key accountKey c).Holds (discipline key)
      (fun outcome w => Answered ⟨.isAllowed accountKey, asOf, outcome⟩ w.history) w := by
  have hdenied : ∀ w', asOf <+: w'.history → (pure (.ok (.flag false)) : Program World Outcome).Holds
      (discipline key)
      (fun outcome w => Answered ⟨.isAllowed accountKey, asOf, outcome⟩ w.history) w' :=
    fun w' h w₁ hr _ => ⟨h.trans hr, fun _ => rfl, fun _ => rfl, fun _ => rfl⟩
  unfold isAllowed
  by_cases hguard : accountKey ∉ ACCOUNT_KEYS ∨ accountKey = "real" ∨ c.envEmergency = true
  · rw [if_pos hguard]
    exact hdenied w hw
  rw [if_neg hguard]
  refine Program.Holds.read_now (fun w₁ hr₁ hi₁ => ?_)
  have hw₁ : asOf <+: w₁.history := hw.trans hr₁
  by_cases hlatch : w₁.latched key = true
  · rw [if_pos hlatch]
    exact hdenied w₁ hw₁
  rw [if_neg hlatch]
  refine Program.Holds.bind ?_ hi₁
  have hframe := (@readState_holds key c asOf w₁ hw₁).frame
    (Q := fun w' => w₁.history <+: w'.history) (fun _ _ h hq => hq.trans h)
    (fun _ _ h hq => hq.trans h) (List.prefix_refl _)
  refine hframe.mono ?_
  rintro state w₂ hi₂ ⟨hstate, hr₂⟩
  have hw₂ : asOf <+: w₂.history := hw₁.trans hr₂
  cases state with
  | none => exact hdenied w₂ hw₂
  | some s =>
    dsimp only
    by_cases hemergency : s.emergency = true
    · rw [if_pos hemergency]
      exact hdenied w₂ hw₂
    rw [if_neg hemergency]
    intro w₃ hr₃ _
    refine ⟨hw₂.trans hr₃, fun ht => ?_, fun ht => ?_, fun hreal => ?_⟩
    · exact absurd ht (not_stopped_of_latch hi₁ hlatch hw₁ (hr₂.trans hr₃))
    · show Except.ok (Reply.flag (s.enabled accountKey)) = Except.ok (Reply.flag false)
      rw [enabled_eq_false (hstate s rfl (ht.narrow hw₂ hr₃))]
    · exact absurd (.inr (.inl (Call.isAllowed.inj hreal))) hguard

theorem emergencyActive_holds (c : Circumstances) (asOf : List Event) (w : World)
    (hw : asOf <+: w.history) :
    (emergencyActive key c).Holds (discipline key)
      (fun outcome w => Answered ⟨.emergencyActive, asOf, outcome⟩ w.history) w := by
  have hactive : ∀ w', asOf <+: w'.history → (pure (.ok (.flag true)) : Program World Outcome).Holds
      (discipline key)
      (fun outcome w => Answered ⟨.emergencyActive, asOf, outcome⟩ w.history) w' :=
    fun w' h w₁ hr _ => ⟨h.trans hr, fun _ => rfl, fun _ => trivial, fun h => by cases h⟩
  refine Program.Holds.read_now (fun w₁ hr₁ hi₁ => ?_)
  have hw₁ : asOf <+: w₁.history := hw.trans hr₁
  by_cases hlatch : w₁.latched key = true
  · rw [if_pos hlatch]
    exact hactive w₁ hw₁
  rw [if_neg hlatch]
  refine Program.Holds.bind ?_ hi₁
  have hframe := (@readState_holds key c asOf w₁ hw₁).frame
    (Q := fun w' => w₁.history <+: w'.history) (fun _ _ h hq => hq.trans h)
    (fun _ _ h hq => hq.trans h) (List.prefix_refl _)
  refine hframe.mono ?_
  rintro state w₂ hi₂ ⟨-, hr₂⟩
  have hw₂ : asOf <+: w₂.history := hw₁.trans hr₂
  cases state with
  | none => exact hactive w₂ hw₂
  | some s =>
    intro w₃ hr₃ _
    refine ⟨hw₂.trans hr₃, fun ht => ?_, fun _ => trivial, fun h => by cases h⟩
    exact absurd ht (not_stopped_of_latch hi₁ hlatch hw₁ (hr₂.trans hr₃))

/-- Whatever the call: its answer is right by the history up to any later moment. -/
theorem serve_holds (c : Circumstances) (call : Call) (w : World) :
    (serve key c call).Holds (discipline key) (fun s w => Answered s w.history) w := by
  refine Program.Holds.read_now (fun w₁ _ hi₁ => ?_)
  refine Program.Holds.bind ?_ hi₁
  have hanswered : ∀ (p : Program World Outcome),
      p.Holds (discipline key) (fun outcome w => Answered ⟨call, w₁.history, outcome⟩ w.history) w₁ →
      p.Holds (discipline key) (fun outcome w => (pure ⟨call, w₁.history, outcome⟩ :
        Program World Served).Holds (discipline key) (fun s w => Answered s w.history) w) w₁ := by
    intro p hp
    refine hp.mono (fun outcome w₂ _ ha w₃ hr₃ _ => ?_)
    exact ⟨ha.since.trans hr₃, fun ht => ha.denied (ht.narrow ha.since hr₃),
      fun ht => ha.disallowed (ht.narrow ha.since hr₃), ha.real⟩
  have hcommand : ∀ (p : Program World Outcome), (∀ outcome, Denies call outcome) →
      (∀ outcome, Disallows call outcome) → call ≠ .isAllowed "real" →
      p.Holds (discipline key) (fun _ _ => True) w₁ →
      p.Holds (discipline key)
        (fun outcome w => Answered ⟨call, w₁.history, outcome⟩ w.history) w₁ := by
    intro p hdenies hdisallows hreal hp
    refine (hp.frame (Q := fun w => w₁.history <+: w.history) (fun _ _ h hq => hq.trans h)
      (fun _ _ h hq => hq.trans h) (List.prefix_refl _)).mono ?_
    rintro outcome w₂ _ ⟨-, h₂⟩
    exact ⟨h₂, fun _ => hdenies outcome, fun _ => hdisallows outcome, fun h => absurd h hreal⟩
  cases call with
  | setEnabled accountKey enabled actor source =>
    exact hanswered _ (hcommand _ (fun _ => trivial) (fun _ => trivial) (by simp)
      (setEnabled_holds accountKey enabled actor source c w₁))
  | emergencyStop actor reason source =>
    exact hanswered _ (hcommand _ (fun _ => trivial) (fun _ => trivial) (by simp)
      (emergencyStop_holds actor reason source c w₁))
  | clearEmergency actor reason source =>
    exact hanswered _ (hcommand _ (fun _ => trivial) (fun _ => trivial) (by simp)
      (clearEmergency_holds actor reason source c w₁ hi₁))
  | isAllowed accountKey =>
    exact hanswered _ (isAllowed_holds accountKey c w₁.history w₁ (List.prefix_refl _))
  | emergencyActive =>
    exact hanswered _ (emergencyActive_holds c w₁.history w₁ (List.prefix_refl _))

/-! ## Calls one after the other -/

/-- What a call adds to the history when nothing comes between its accesses. -/
def events (call : Call) (outcome : Outcome) : List Event :=
  match call, outcome with
  | .emergencyStop _ _ _, _ => [.stopCalled]
  | .clearEmergency _ _ _, .ok _ => [.clearCommitted, .cleared]
  | .setEnabled accountKey enabled _ _, .ok _ => switchEvents accountKey enabled
  | _, _ => []

theorem statements_history {now : String} {fs : List (World → World)} {fails : Option ℕ}
    (hfs : ∀ f ∈ fs, f ∈ connectStatements now) (w : World) :
    ((statements fs fails).alone w).2.history = w.history := by
  induction fs generalizing fails w with
  | nil => rfl
  | cons f fs ih =>
    have hf := connectStatement_history (hfs f (by simp)) w
    have hfs' : ∀ g ∈ fs, g ∈ connectStatements now := fun g hg =>
      hfs g (List.mem_cons_of_mem _ hg)
    match fails with
    | some 0 => rfl
    | some (n + 1) => exact (ih hfs' (f w)).trans hf
    | none => exact (ih hfs' (f w)).trans hf

theorem connect_history (c : Circumstances) (w : World) :
    ((connect c).alone w).2.history = w.history :=
  statements_history (fun _ hf => hf) w

theorem transaction_alone (c : Circumstances) (body : Disk → Except String Disk)
    (committed : List Event) (w : World) :
    (transaction c body committed).alone w = commit c body committed w := rfl

theorem readState_alone (c : Circumstances) (w : World) : ((readState c).alone w).2 = w := by
  unfold readState
  rw [Program.read_bind, Program.alone_act]
  cases hdisk : w.disk with
  | none => rfl
  | some d =>
    by_cases hrows : c.rowsUnreadable = true
    · simp [hrows]
    · by_cases hemergency : c.emergencyUnreadable = true
      · simp [hrows, hemergency, hdisk]
      · simp [hrows, hemergency, hdisk]

theorem isAllowed_alone (accountKey : String) (c : Circumstances) (w : World) :
    ((isAllowed key accountKey c).alone w).2 = w := by
  unfold isAllowed
  by_cases hguard : accountKey ∉ ACCOUNT_KEYS ∨ accountKey = "real" ∨ c.envEmergency = true
  · rw [if_pos hguard]
    rfl
  rw [if_neg hguard, Program.read_bind, Program.alone_act]
  by_cases hlatch : w.latched key = true
  · simp [hlatch]
  · rw [if_neg (by simpa using hlatch), Program.alone_bind, id, readState_alone]
    cases ((readState c).alone w).1 with
    | none => rfl
    | some s => by_cases hs : s.emergency = true <;> simp [hs]

theorem emergencyActive_alone (c : Circumstances) (w : World) :
    ((emergencyActive key c).alone w).2 = w := by
  unfold emergencyActive
  rw [Program.read_bind, Program.alone_act]
  by_cases hlatch : w.latched key = true
  · simp [hlatch]
  · rw [if_neg (by simpa using hlatch), Program.alone_bind, id, readState_alone]
    cases ((readState c).alone w).1 <;> rfl

theorem setEnabled_alone (accountKey : String) (enabled : Bool) (actor source : String)
    (c : Circumstances) (w : World) :
    let r := (setEnabled key accountKey enabled actor source c).alone w
    r.2.history = w.history ++ events (.setEnabled accountKey enabled actor source) r.1 := by
  have hraised : ∀ (e : String) (w' : World), w'.history = w.history →
      w'.history = w.history ++ events (.setEnabled accountKey enabled actor source) (.error e) :=
    fun e w' h => by simp [events, h]
  unfold setEnabled
  by_cases hkey : accountKey ∉ ACCOUNT_KEYS
  · rw [if_pos hkey]
    exact hraised _ w rfl
  rw [if_neg hkey]
  by_cases hreal : accountKey = "real" ∧ enabled = true
  · rw [if_pos hreal]
    exact hraised _ w rfl
  rw [if_neg hreal]
  by_cases hactor : actor = ""
  · rw [if_pos hactor]
    exact hraised _ w rfl
  rw [if_neg hactor]
  by_cases henv : enabled = true ∧ c.envEmergency = true
  · rw [if_pos henv]
    exact hraised _ w rfl
  rw [if_neg henv, Program.read_bind, Program.alone_act]
  by_cases hlatch : (enabled && w.latched key) = true
  · rw [if_pos (by simpa using hlatch)]
    exact hraised _ w rfl
  rw [if_neg (by simpa using hlatch), Program.alone_bind, id]
  have hconnect := connect_history c w
  generalize (connect c).alone w = connected at hconnect ⊢
  obtain ⟨ok, w₁⟩ := connected
  cases ok with
  | false => exact hraised _ w₁ hconnect
  | true =>
    dsimp only at hconnect ⊢
    rw [if_pos rfl, Program.alone_bind, transaction_alone]
    rcases commit_cases c (enableBody accountKey enabled actor source c.ts)
      (switchEvents accountKey enabled) w₁ with ⟨e, he⟩ | ⟨d, d', -, -, hok⟩
    · rw [he]
      exact hraised _ w₁ hconnect
    · rw [hok]
      show w₁.history ++ switchEvents accountKey enabled
        = w.history ++ switchEvents accountKey enabled
      rw [hconnect]

theorem emergencyStop_alone (actor reason source : String) (c : Circumstances) (w : World) :
    let r := (emergencyStop key actor reason source c).alone w
    r.2.history = w.history ++ events (.emergencyStop actor reason source) r.1 := by
  unfold emergencyStop
  rw [Program.call_bind, Program.alone_act, Program.alone_bind]
  have hconnect := connect_history c (setLatch key reason w)
  generalize (connect c).alone (setLatch key reason w) = connected at hconnect ⊢
  obtain ⟨ok, w₁⟩ := connected
  cases ok with
  | false => exact hconnect
  | true =>
    dsimp only at hconnect ⊢
    rw [if_pos rfl, Program.alone_bind, transaction_alone]
    rcases commit_cases c (emergencyBody true actor reason source c.ts) [] w₁
      with ⟨e, he⟩ | ⟨d, d', -, -, hok⟩
    · rw [he]
      exact hconnect
    · rw [hok]
      show w₁.history ++ [] = w.history ++ [.stopCalled]
      rw [hconnect]
      exact List.append_nil _

theorem clearEmergency_alone (actor reason source : String) (c : Circumstances) (w : World) :
    let r := (clearEmergency key actor reason source c).alone w
    r.2.history = w.history ++ events (.clearEmergency actor reason source) r.1 := by
  have hraised : ∀ (e : String) (w' : World), w'.history = w.history →
      w'.history = w.history ++ events (.clearEmergency actor reason source) (.error e) :=
    fun e w' h => by simp [events, h]
  unfold clearEmergency
  by_cases hactor : actor = ""
  · rw [if_pos hactor]
    exact hraised _ w rfl
  rw [if_neg hactor, Program.alone_bind]
  have hconnect := connect_history c w
  generalize (connect c).alone w = connected at hconnect ⊢
  obtain ⟨ok, w₁⟩ := connected
  cases ok with
  | false => exact hraised _ w₁ hconnect
  | true =>
    dsimp only at hconnect ⊢
    rw [if_pos rfl, Program.alone_bind, transaction_alone]
    rcases commit_cases c (emergencyBody false actor reason source c.ts) [.clearCommitted] w₁
      with ⟨e, he⟩ | ⟨d, d', -, -, hok⟩
    · rw [he]
      exact hraised _ w₁ hconnect
    · rw [hok]
      show (w₁.history ++ [.clearCommitted]) ++ [.cleared]
        = w.history ++ [.clearCommitted, .cleared]
      rw [hconnect, List.append_assoc]
      rfl

theorem serve_alone (key : String) (c : Circumstances) (call : Call) (w : World) :
    let r := (serve key c call).alone w
    r.1.call = call ∧ r.1.asOf = w.history ∧
      r.2.history = w.history ++ events r.1.call r.1.outcome := by
  have hserve : (serve key c call).alone w
      = (⟨call, w.history, ((call.program key c).alone w).1⟩, ((call.program key c).alone w).2) := by
    unfold serve
    rw [Program.read_bind, Program.alone_act, Program.alone_bind]
    rfl
  rw [hserve]
  refine ⟨rfl, rfl, ?_⟩
  cases call with
  | setEnabled accountKey enabled actor source =>
    exact setEnabled_alone accountKey enabled actor source c w
  | emergencyStop actor reason source => exact emergencyStop_alone actor reason source c w
  | clearEmergency actor reason source => exact clearEmergency_alone actor reason source c w
  | isAllowed accountKey =>
    show ((isAllowed key accountKey c).alone w).2.history = w.history ++ []
    rw [isAllowed_alone, List.append_nil]
  | emergencyActive =>
    show ((emergencyActive key c).alone w).2.history = w.history ++ []
    rw [emergencyActive_alone, List.append_nil]

/-- Calls that do not lower a signal that is on are all answered while it is on. -/
theorem transcript_answers (σ : Signal Event) {calls : List (Call × Circumstances)} {w : World}
    (hw : Inv key w) (hon : σ.on w.history = true)
    (hkeep : ∀ r ∈ (transcript key calls w).1,
      ∀ e ∈ events r.call r.outcome, σ.lowers e = false) :
    (∀ r ∈ (transcript key calls w).1, ∃ h, Answered r h ∧ σ.Throughout r.asOf h) ∧
      Inv key (transcript key calls w).2 ∧ σ.on (transcript key calls w).2.history = true := by
  induction calls generalizing w with
  | nil => exact ⟨fun r hr => absurd hr List.not_mem_nil, hw, hon⟩
  | cons request calls ih =>
    obtain ⟨call, c⟩ := request
    have halone := (serve_holds c call w).alone hw
    obtain ⟨-, hasOf, hhist⟩ := serve_alone key c call w
    simp only [transcript] at hkeep ⊢
    generalize (serve key c call).alone w = first at halone hasOf hhist hkeep ⊢
    obtain ⟨r, w₁⟩ := first
    have hr : ∀ e ∈ events r.call r.outcome, σ.lowers e = false := hkeep r (by simp)
    have hthrough : σ.Throughout r.asOf w₁.history :=
      ⟨by rw [hasOf]; exact hon, _, by rw [hasOf]; exact hhist, hr⟩
    obtain ⟨hrest, hfinal⟩ := ih halone.1 hthrough.on (fun q hq =>
      hkeep q (List.mem_cons_of_mem _ hq))
    refine ⟨fun q hq => ?_, hfinal⟩
    rcases List.mem_cons.mp hq with rfl | hq
    · exact ⟨w₁.history, halone.2, hthrough⟩
    · exact hrest q hq

/-- A transcript may be cut at any of its answers. -/
theorem transcript_split {calls : List (Call × Circumstances)} {w : World}
    {before after : List Served} {r : Served} (hw : Inv key w)
    (h : (transcript key calls w).1 = before ++ r :: after) :
    ∃ w₁ rest, Inv key w₁ ∧ (∃ h₀, w₁.history = h₀ ++ events r.call r.outcome) ∧
      (transcript key rest w₁).1 = after ∧
      (transcript key rest w₁).2 = (transcript key calls w).2 := by
  induction calls generalizing w before with
  | nil => exact absurd h (by simp [transcript])
  | cons request calls ih =>
    obtain ⟨call, c⟩ := request
    have halone := (serve_holds c call w).alone hw
    obtain ⟨-, -, hhist⟩ := serve_alone key c call w
    simp only [transcript] at h ⊢
    generalize (serve key c call).alone w = first at halone hhist h ⊢
    obtain ⟨q, w₁⟩ := first
    cases before with
    | nil =>
      obtain ⟨rfl, hafter⟩ := List.cons.inj h
      exact ⟨w₁, calls, halone.1, ⟨w.history, hhist⟩, hafter, rfl⟩
    | cons b before => exact ih halone.1 (List.cons.inj h).2

/-- Every answer of a transcript is right by some history. -/
theorem transcript_answered {calls : List (Call × Circumstances)} {w : World} (hw : Inv key w) :
    ∀ r ∈ (transcript key calls w).1, ∃ h, Answered r h := by
  induction calls generalizing w with
  | nil => exact fun r hr => absurd hr List.not_mem_nil
  | cons request calls ih =>
    obtain ⟨call, c⟩ := request
    have halone := (serve_holds c call w).alone hw
    intro r hr
    rcases List.mem_cons.mp hr with rfl | hr
    · exact ⟨_, halone.2⟩
    · exact ih halone.1 r hr

theorem events_keep_stopped {r : Served} (hr : r.isClear = false) :
    ∀ e ∈ events r.call r.outcome, stopped.lowers e = false := by
  intro e he
  obtain ⟨call, asOf, outcome⟩ := r
  have hne : e ≠ .cleared := by
    rintro rfl
    cases call <;> cases outcome <;> simp [events, switchEvents, Served.isClear] at he hr
  simpa [stopped] using hne

theorem events_keep_switchedOff {r : Served} (hr : r.isEnable = false) :
    ∀ e ∈ events r.call r.outcome, switchedOff.lowers e = false := by
  intro e he
  obtain ⟨call, asOf, outcome⟩ := r
  cases e with
  | enabled k =>
    cases call <;> cases outcome <;> simp [events, switchEvents, Served.isEnable] at he hr
    exact absurd (he.1.symm.trans hr) (by simp)
  | stopCalled => rfl
  | clearCommitted => rfl
  | cleared => rfl

/-- For calls made one after the other: after a stop, whatever became of it, every query
is denied until a clear returns; after a clear returned every switch is OFF and nothing
is allowed until a set_enabled(True) returns; `real` is never allowed. For calls whose
accesses interleave in any order, and calls that never end: the same, where a clear
takes effect on the switches and a set_enabled(True) on its account when it commits. -/
theorem emergency_stop_fails_closed (resolve : String → Option String) (path : String)
    (disk : Option Disk) {pool : Pool World Served}
    (hrun : Relation.ReflTransGen (PoolStep
      (fun p => ∃ call c, p = serve (latchKey resolve path) c call) (fun _ _ => False))
      ⟨start disk, []⟩ pool) :
    (∀ calls : List (Call × Circumstances), ∀ answers final,
      transcript (latchKey resolve path) calls (start disk) = (answers, final) →
      (∀ before s after, answers = before ++ s :: after → s.isStop = true →
        (∀ r ∈ after, r.isClear = false) → ∀ r ∈ after, Denies r.call r.outcome) ∧
      (∀ before s after, answers = before ++ s :: after → s.isClear = true →
        (∀ r ∈ after, r.isEnable = false) →
          AllOff final.disk ∧ ∀ r ∈ after, Disallows r.call r.outcome) ∧
      (∀ r ∈ answers, r.call = .isAllowed "real" → r.outcome = .ok (.flag false))) ∧
    (switchedOff.on pool.store.history = true → AllOff pool.store.disk) ∧
    ∀ s, Program.pure s ∈ pool.processes → Answered s pool.store.history := by
  have hstart := inv_start (latchKey resolve path) disk
  refine ⟨fun calls answers final ht => ⟨?_, ?_, ?_⟩, ?_⟩
  · intro before s after hsplit hstop hclear r hr
    obtain ⟨w₁, rest, hw₁, ⟨h₀, hh₀⟩, rfl, -⟩ := transcript_split hstart
      (by rw [ht]; exact hsplit)
    have hon : stopped.on w₁.history = true := by
      obtain ⟨call, asOf, outcome⟩ := s
      cases call <;> simp [Served.isStop] at hstop
      simp [hh₀, events, stopped, Signal.next]
    obtain ⟨hall, -⟩ := transcript_answers stopped hw₁ hon
      (fun q hq => events_keep_stopped (hclear q hq))
    obtain ⟨h, ha, hthrough⟩ := hall r hr
    exact ha.denied hthrough
  · intro before s after hsplit hclear henable
    obtain ⟨w₁, rest, hw₁, ⟨h₀, hh₀⟩, rfl, hfinal⟩ := transcript_split hstart
      (by rw [ht]; exact hsplit)
    have hon : switchedOff.on w₁.history = true := by
      obtain ⟨call, asOf, outcome⟩ := s
      cases call <;> cases outcome <;> simp [Served.isClear] at hclear
      show switchedOff.on w₁.history = true
      rw [hh₀]
      show switchedOff.on (h₀ ++ [.clearCommitted, .cleared]) = true
      rw [List.append_cons, Signal.on_snoc, Signal.on_snoc]
      simp [switchedOff, Signal.next]
    obtain ⟨hall, hinv, hend⟩ := transcript_answers switchedOff hw₁ hon
      (fun q hq => events_keep_switchedOff (henable q hq))
    rw [hfinal, ht] at hinv hend
    refine ⟨hinv.off hend, fun r hr => ?_⟩
    obtain ⟨h, ha, hthrough⟩ := hall r hr
    exact ha.disallowed hthrough
  · intro r hr
    obtain ⟨h, ha⟩ := transcript_answered hstart r (by rw [ht]; exact hr)
    exact ha.real
  · obtain ⟨hinv, hall⟩ := pool_sound (d := discipline (latchKey resolve path))
      (fun s w => Answered s w.history) (fun _ _ _ h => h.elim) (fun _ _ _ h => h)
      (fun p hp w _ => by obtain ⟨call, c, rfl⟩ := hp; exact serve_holds c call w) hstart hrun
    refine ⟨hinv.off, fun s hs => ?_⟩
    exact hall _ hs pool.store (List.prefix_refl _) hinv

/-! ## A stop whose write fails -/

/-- A file in which `paper` is ON. -/
def sampleDisk : Disk where
  accounts := ⟨[⟨"paper", "paper", .integer 1, .integer 1, "2026-01-05T10:00:00+00:00"⟩], by simp⟩
  audit := []
  emergency := some ⟨.integer 0, none, "2026-01-05T10:00:00+00:00"⟩

def healthy : Circumstances where
  envEmergency := false
  connectFails := none
  transactionFails := false
  rowsUnreadable := false
  emergencyUnreadable := false
  hookOk := true
  now := "2026-01-05T10:05:00+00:00"
  ts := "2026-01-05T10:05:00+00:00"

def sampleKey : String := latchKey (fun _ => none) "data/runtime/broker_state.db"

/-- The stop raises before anything is written. -/
def failedStop : Program World Served × World :=
  (serve sampleKey { healthy with connectFails := some 0 }
    (.emergencyStop "operator" "drill" "code")).runFor 2 (start (some sampleDisk))

def laterCheck : Program World Served × World :=
  (serve sampleKey healthy (.isAllowed "paper")).runFor 2 failedStop.2

theorem laterCheck_reached : Relation.ReflTransGen
    (PoolStep (fun p => ∃ call c, p = serve sampleKey c call) (fun _ _ => False))
    ⟨start (some sampleDisk), []⟩ ⟨laterCheck.2, [failedStop.1, laterCheck.1]⟩ := by
  have hstop : Relation.ReflTransGen
      (PoolStep (fun p => ∃ call c, p = serve sampleKey c call) (fun _ _ => False))
      ⟨start (some sampleDisk), []⟩ ⟨failedStop.2, [failedStop.1]⟩ :=
    .head (.start ⟨_, _, rfl⟩) (runs_beside [] [] 2 _ _)
  exact hstop.trans (.head (.start ⟨_, _, rfl⟩) (runs_beside [failedStop.1] [] 2 _ _))

theorem emergency_stop_fails_closed_sample :
    ∃ s, laterCheck.1 = .pure s ∧ s.outcome = .ok (.flag false) ∧
      Answered s [.stopCalled] := by
  have h := emergency_stop_fails_closed (fun _ => none) "data/runtime/broker_state.db"
    (some sampleDisk) laterCheck_reached
  exact ⟨⟨.isAllowed "paper", [.stopCalled], .ok (.flag false)⟩, rfl, rfl, h.2.2 _ (by simp; right; rfl)⟩

end MarketSystem.EmergencyStop
