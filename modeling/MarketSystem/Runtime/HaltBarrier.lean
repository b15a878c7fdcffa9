import MarketSystem.Runtime.HaltGate
import Mathlib.Tactic.SplitIfs

/-!
# The halt barrier

`T_h` is a barrier: no write is admitted after it, at most one that was read before it commits, every
instant of the gate lies on its side of it, and a shutdown is recorded as clean only where nothing
but SIGTERM was received. The handler breaks this at three places. Its test and its assignment are
two steps, between which another invocation may assign; an instant that `now_ns` is about to return
is below a `T_h` that is assigned then; and the bookkeeping writes a cause that was read before.
-/
namespace MarketSystem.Halt

open Library

/-- `now_ns` is about to return. -/
def Point.Returning : Point → Prop
  | .now (.ret _) _ => True
  | _ => False

/-- The step does not run into one of those places. -/
def Undisturbed (s : State) : Action → Prop
  | .advance _ _ =>
      match s.frames with
      | [] =>
          match s.main with
          | .committing _ _ event => ∀ r, s.gate.requestedAt = some r → r.journalEvent = event
          | _ => True
      | f :: _ =>
          match f.place with
          | .assign _ _ => s.gate.requestedAt = none ∧ ¬ s.main.Returning
          | .setDeferred =>
              f.signum = some sigterm → ∀ d, s.gate.deferredSignal = some d → d = sigterm
          | _ => True
  | _ => True

/-- What the gate promises. -/
structure Barrier (s : State) : Prop where
  /-- `T_h` is assigned once. -/
  assigned : s.assigned = (s.gate.requestedAt.map (fun r => (r.ns, r.utc))).toList
  /-- The instants increase; the last one is the first of the list. -/
  increasing : s.returned.Pairwise (fun later earlier => earlier.ns < later.ns)
  /-- None of them is `T_h`, and those that were returned after it are above it. -/
  sides : ∀ x ∈ s.returned, ∀ r, s.gate.requestedAt = some r →
    x.ns ≠ r.ns ∧ (x.halted = true → r.ns < x.ns)
  /-- One write commits after `T_h` at most. -/
  residual : (s.commits.filter Commit.halted).length ≤ 1
  /-- Every write that commits was read before `T_h`. -/
  read2 : ∀ c ∈ s.commits, ∀ r, s.gate.requestedAt = some r → c.read2Ns < r.ns
  /-- A shutdown is clean where every signal received before it was SIGTERM. -/
  shutdown : ∀ row ∈ s.rows, row.event = .cleanShutdown → ∀ n ∈ row.received, n = some sigterm

/-! ## The invariant -/

/-- What the barrier is about. -/
structure Core where
  requestedAt : Option Requested
  lastNs : ℤ
  startupDepth : ℕ
  deferredSignal : Option ℕ
  recordedJournalId : Option ℕ
  frames : List Frame
  received : List (Option ℕ)
  assigned : List (ℤ × ℤ)
  returned : List Returned
  commits : List Commit
  rows : List Row

def State.core (s : State) : Core where
  requestedAt := s.gate.requestedAt
  lastNs := s.gate.lastNs
  startupDepth := s.gate.startupDepth
  deferredSignal := s.gate.deferredSignal
  recordedJournalId := s.gate.recordedJournalId
  frames := s.frames
  received := s.received
  assigned := s.assigned
  returned := s.returned
  commits := s.commits
  rows := s.rows

/-- What an invocation of the handler has seen still holds, as the main thread waits for it. -/
def FrameOk (c : Core) (f : Frame) : Prop :=
  match f.place with
  | .test => True
  | .depth => c.startupDepth ≠ 0 → c.requestedAt = none
  | .deferredNone => c.startupDepth ≠ 0 ∧ c.requestedAt = none
  | .deferredTerm => (c.startupDepth ≠ 0 ∧ c.requestedAt = none) ∧ c.deferredSignal ≠ none
  | .setDeferred => c.startupDepth ≠ 0 ∧ c.requestedAt = none
  | .monotonic => c.startupDepth = 0
  | .last _ => c.startupDepth = 0
  | .utc ns => c.startupDepth = 0 ∧ c.lastNs < ns
  | .assign ns _ => c.startupDepth = 0 ∧ c.lastNs < ns
  | .recorded => c.requestedAt ≠ none
  | .cause => c.requestedAt ≠ none
  | .keepNs => c.requestedAt ≠ none ∧ f.signum ≠ some sigterm
  | .keepUtc ns => (∃ r, c.requestedAt = some r ∧ r.ns = ns) ∧ f.signum ≠ some sigterm
  | .escalate ns utc =>
      (∃ r, c.requestedAt = some r ∧ r.ns = ns ∧ r.utc = utc) ∧ f.signum ≠ some sigterm

/-- An instant that is not returned yet. -/
def NowOk (c : Core) : NowPlace → Prop
  | .monotonic => True
  | .last _ => True
  | .store now => c.lastNs < now
  | .requested now => c.lastNs = now ∧ ∀ x ∈ c.returned, x.ns < now
  | .moved now =>
      c.lastNs < now ∧ (∃ r, c.requestedAt = some r ∧ r.ns < now)
  | .ret now =>
      c.lastNs = now ∧ (∀ x ∈ c.returned, x.ns < now) ∧ ∀ r, c.requestedAt = some r → r.ns < now

/-- The bookkeeping is of a halt, and none was recorded. -/
def Core.Bookkeeping (c : Core) : Prop := c.requestedAt ≠ none ∧ c.recordedJournalId = none

def CallerOk (c : Core) : Caller → Prop
  | .bookkeeping _ => c.Bookkeeping
  | _ => True

def PointOk (c : Core) : Point → Prop
  | .now place caller => NowOk c place ∧ CallerOk c caller
  | .preSaveRead _ ns _ => ns ≤ c.lastNs
  | .saving _ read2 => read2 ≤ c.lastNs ∧ ∀ r, c.requestedAt = some r → read2 < r.ns
  | .exiting => c.startupDepth = 0
  | .taking => c.startupDepth = 0
  | .clearing signal => c.startupDepth = 0 ∧ c.deferredSignal = some signal
  | .payload => c.recordedJournalId = none
  | .event _ _ => c.Bookkeeping
  | .committing _ _ _ => c.Bookkeeping
  | _ => True

/-- A deferred signal is about to be applied. -/
def Point.Exits : Point → Prop
  | .exiting => True
  | .taking => True
  | .clearing _ => True
  | _ => False

def Point.isSaving : Point → Bool
  | .saving _ _ => true
  | _ => false

/-- A signal that is not SIGTERM is the cause, or will be. -/
def Core.Safety (c : Core) : Prop :=
  (∃ r, c.requestedAt = some r ∧ r.signum ≠ some sigterm) ∨
    (∃ d, c.deferredSignal = some d ∧ d ≠ sigterm) ∨ ∃ f ∈ c.frames, f.signum ≠ some sigterm

structure Inv (c : Core) (p : Point) : Prop where
  frames : ∀ f ∈ c.frames, FrameOk c f
  point : PointOk c p
  assigned : c.assigned = (c.requestedAt.map (fun r => (r.ns, r.utc))).toList
  returned_le : ∀ x ∈ c.returned, x.ns ≤ c.lastNs
  increasing : c.returned.Pairwise (fun later earlier => earlier.ns < later.ns)
  quiet : c.requestedAt = none →
    (∀ x ∈ c.returned, x.halted = false) ∧ c.commits.filter Commit.halted = []
  before : ∀ r, c.requestedAt = some r → ∀ x ∈ c.returned, x.halted = false → x.ns < r.ns
  after : ∀ r, c.requestedAt = some r → ∀ x ∈ c.returned, x.halted = true → r.ns < x.ns
  residual : (c.commits.filter Commit.halted).length + p.isSaving.toNat ≤ 1
  read2_le : ∀ w ∈ c.commits, w.read2Ns ≤ c.lastNs
  read2 : ∀ r, c.requestedAt = some r → ∀ w ∈ c.commits, w.read2Ns < r.ns
  deferred : c.deferredSignal ≠ none →
    c.startupDepth ≠ 0 ∧ c.requestedAt = none ∨ p.Exits
  safety : c.recordedJournalId = none → (∃ n ∈ c.received, n ≠ some sigterm) → c.Safety
  shutdown : ∀ row ∈ c.rows, row.event = .cleanShutdown → ∀ n ∈ row.received, n = some sigterm

theorem Inv.barrier {s : State} (h : Inv s.core s.main) : Barrier s where
  assigned := h.assigned
  increasing := h.increasing
  sides := by
    intro x hx r hr
    cases hhalted : x.halted with
    | false => exact ⟨(h.before r hr x hx hhalted).ne, fun h' => by cases h'⟩
    | true => exact ⟨(h.after r hr x hx hhalted).ne', fun _ => h.after r hr x hx hhalted⟩
  residual := by
    have hresidual := h.residual
    show ((s.commits.filter Commit.halted).length) ≤ 1
    have hcommits : s.core.commits = s.commits := rfl
    rw [hcommits] at hresidual
    omega
  read2 := fun c hc r hr => h.read2 r hr c hc
  shutdown := h.shutdown

theorem inv_start (clock : ℤ) : Inv (State.start clock).core (State.start clock).main where
  frames := fun f hf => nomatch hf
  point := trivial
  assigned := rfl
  returned_le := fun x hx => nomatch hx
  increasing := .nil
  quiet := fun _ => ⟨fun x hx => (nomatch hx), rfl⟩
  before := fun r hr => nomatch hr
  after := fun r hr => nomatch hr
  residual := Nat.zero_le 1
  read2_le := fun w hw => nomatch hw
  read2 := fun r hr => nomatch hr
  deferred := fun h => absurd rfl h
  safety := fun _ h => by
    obtain ⟨n, hn, -⟩ := h
    exact nomatch hn
  shutdown := fun row hrow => nomatch hrow

/-! ## The handler -/

/-- What one step of an invocation can do. -/
inductive HandlerEffect (s : State) (f : Frame) (rest : List Frame) (s' : State) : Prop
  | goes (place : Place) (hok : FrameOk s.core ⟨f.signum, place⟩)
      (hs : s' = { s with frames := ⟨f.signum, place⟩ :: rest })
  | ends (hs : s' = { s with frames := rest })
      (hsafe : s.gate.recordedJournalId = none → f.signum ≠ some sigterm →
        (∃ r, s.gate.requestedAt = some r ∧ r.signum ≠ some sigterm) ∨
          ∃ d, s.gate.deferredSignal = some d ∧ d ≠ sigterm)
  | defers (hplace : f.place = .setDeferred)
      (hs : s' = { s with
        frames := rest
        gate := { s.gate with deferredSignal := some (f.signum.getD 0) } })
  | halts (ns utc : ℤ) (hplace : f.place = .assign ns utc)
      (hs : s' = { s with
        frames := rest
        gate := { s.gate with requestedAt := some ⟨ns, utc, f.signum⟩ }
        assigned := (ns, utc) :: s.assigned })
  | escalates (r : Requested) (hr : s.gate.requestedAt = some r) (hsignum : f.signum ≠ some sigterm)
      (hs : s' = { s with
        frames := rest
        gate := { s.gate with requestedAt := some { r with signum := f.signum } } })

theorem handler_effect {s : State} {utc : ℤ} {f : Frame} {rest : List Frame}
    (hok : FrameOk s.core f) : HandlerEffect s f rest (handlerStep s utc f rest) := by
  obtain ⟨signum, place⟩ := f
  cases place with
  | test =>
    unfold handlerStep requestStep
    cases hr : s.gate.requestedAt with
    | none => exact .goes .depth (fun _ => hr) rfl
    | some r =>
      have hset : s.gate.requestedAt ≠ none := by simp [hr]
      exact .goes .recorded hset rfl
  | depth =>
    by_cases hd : s.gate.startupDepth = 0
    · refine .goes .monotonic hd ?_
      simp [handlerStep, requestStep, hd, Frame.assigns]
    · refine .goes .deferredNone ⟨hd, hok hd⟩ ?_
      simp [handlerStep, requestStep, hd, Frame.assigns]
  | deferredNone =>
    cases hd : s.gate.deferredSignal with
    | none =>
      refine .goes .setDeferred hok ?_
      simp [handlerStep, requestStep, hd, Frame.assigns]
    | some d =>
      have hset : s.gate.deferredSignal ≠ none := by simp [hd]
      refine .goes .deferredTerm ⟨hok, hset⟩ ?_
      simp [handlerStep, requestStep, hd, Frame.assigns]
  | deferredTerm =>
    cases hd : s.gate.deferredSignal with
    | none => exact absurd hd hok.2
    | some d =>
      by_cases hterm : d = sigterm
      · refine .goes .setDeferred hok.1 ?_
        simp [handlerStep, requestStep, hd, hterm, Frame.assigns]
      · refine .ends ?_ ?_
        · simp [handlerStep, requestStep, hd, hterm, Frame.assigns]
        · exact fun _ _ => .inr ⟨d, hd, hterm⟩
  | setDeferred => exact .defers rfl rfl
  | monotonic => exact .goes (.last s.clock) hok rfl
  | last mono =>
    refine .goes (.utc (max mono (s.gate.lastNs + 1))) ⟨hok, ?_⟩ rfl
    show s.gate.lastNs < _
    omega
  | utc ns => exact .goes (.assign ns utc) hok rfl
  | assign ns utc => exact .halts ns utc rfl rfl
  | recorded =>
    cases hr : s.gate.recordedJournalId with
    | none =>
      refine .goes .cause hok ?_
      simp [handlerStep, requestStep, hr, Frame.assigns]
    | some id =>
      refine .ends ?_ ?_
      · simp [handlerStep, requestStep, hr, Frame.assigns]
      · intro hnone
        rw [hr] at hnone
        cases hnone
  | cause =>
    cases hr : s.gate.requestedAt with
    | none => exact absurd hr hok
    | some r =>
      by_cases hc : r.signum = some sigterm ∧ signum ≠ some sigterm
      · refine .goes .keepNs ⟨hok, hc.2⟩ ?_
        simp [handlerStep, requestStep, hr, hc, Frame.assigns]
      · refine .ends ?_ ?_
        · simp [handlerStep, requestStep, hr, hc, Frame.assigns]
        · exact fun _ hsignum => .inl ⟨r, hr, fun h => hc ⟨h, hsignum⟩⟩
  | keepNs =>
    cases hr : s.gate.requestedAt with
    | none => exact absurd hr hok.1
    | some r =>
      refine .goes (.keepUtc r.ns) ⟨⟨r, hr, rfl⟩, hok.2⟩ ?_
      simp [handlerStep, requestStep, hr, Frame.assigns]
  | keepUtc ns =>
    obtain ⟨⟨r, hr, hns⟩, hsignum⟩ := hok
    have hr' : s.gate.requestedAt = some r := hr
    refine .goes (.escalate ns r.utc) ⟨⟨r, hr, hns, rfl⟩, hsignum⟩ ?_
    simp [handlerStep, requestStep, hr', Frame.assigns]
  | escalate ns utc =>
    obtain ⟨⟨r, hr, rfl, rfl⟩, hsignum⟩ := hok
    exact .escalates r hr hsignum rfl

/-! ### What the handler leaves of a point of the main thread -/

section Handler

variable {c c' : Core} {p : Point}

theorem frameOk_congr {f : Frame} (hrequested : c'.requestedAt = c.requestedAt)
    (hlast : c'.lastNs = c.lastNs) (hdepth : c'.startupDepth = c.startupDepth)
    (hdeferred : c'.deferredSignal = c.deferredSignal) (h : FrameOk c f) : FrameOk c' f := by
  unfold FrameOk at h ⊢
  rw [hrequested, hlast, hdepth, hdeferred]
  exact h

theorem pointOk_congr (hrequested : c'.requestedAt = c.requestedAt) (hlast : c'.lastNs = c.lastNs)
    (hdepth : c'.startupDepth = c.startupDepth) (hdeferred : c'.deferredSignal = c.deferredSignal)
    (hrecorded : c'.recordedJournalId = c.recordedJournalId) (hreturned : c'.returned = c.returned)
    (h : PointOk c p) : PointOk c' p := by
  unfold PointOk NowOk CallerOk Core.Bookkeeping at h ⊢
  rw [hrequested, hlast, hdepth, hdeferred, hrecorded, hreturned]
  exact h

/-- Another stack of invocations. -/
theorem Inv.of_frames {frames : List Frame} (h : Inv c p) (hframes : ∀ f ∈ frames, FrameOk c f)
    (hsafe : c.recordedJournalId = none → c.Safety → { c with frames := frames }.Safety) :
    Inv { c with frames := frames } p :=
  { h with
    frames := fun f hf => frameOk_congr rfl rfl rfl rfl (hframes f hf)
    point := pointOk_congr rfl rfl rfl rfl rfl rfl h.point
    safety := fun hnone hreceived => hsafe hnone (h.safety hnone hreceived) }

/-- A signal is deferred inside of a section. -/
theorem Inv.defer {signum : Option ℕ} {rest : List Frame} (h : Inv c p)
    (hdepth : c.startupDepth ≠ 0) (hnone : c.requestedAt = none)
    (hframes : c.frames = ⟨signum, .setDeferred⟩ :: rest)
    (hterm : signum = some sigterm → ∀ d, c.deferredSignal = some d → d = sigterm) :
    Inv { c with frames := rest, deferredSignal := some (signum.getD 0) } p where
  frames := by
    intro f hf
    have hmem : f ∈ c.frames := by simp [hframes, hf]
    have hok := h.frames f hmem
    obtain ⟨signum', place⟩ := f
    cases place with
    | deferredTerm => exact ⟨hok.1, fun hd => nomatch hd⟩
    | _ => exact hok
  point := by
    have hpoint := h.point
    cases p with
    | now place caller => cases place <;> cases caller <;> exact hpoint
    | clearing d => exact absurd hpoint.1 hdepth
    | _ => exact hpoint
  assigned := h.assigned
  returned_le := h.returned_le
  increasing := h.increasing
  quiet := h.quiet
  before := h.before
  after := h.after
  residual := h.residual
  read2_le := h.read2_le
  read2 := h.read2
  deferred := fun _ => .inl ⟨hdepth, hnone⟩
  safety := by
    intro hrecorded hreceived
    by_cases hsignum : signum = some sigterm
    · -- what SIGTERM overwrites was nothing or SIGTERM, so another invocation is still to come
      rcases h.safety hrecorded hreceived with ⟨r, hr, -⟩ | ⟨d, hd, hne⟩ | ⟨f, hf, hne⟩
      · rw [hnone] at hr
        cases hr
      · exact absurd (hterm hsignum d hd) hne
      · rw [hframes, List.mem_cons] at hf
        rcases hf with rfl | hf
        · exact absurd hsignum hne
        · exact .inr (.inr ⟨f, hf, hne⟩)
    · refine .inr (.inl ⟨signum.getD 0, rfl, ?_⟩)
      cases signum with
      | none => decide
      | some n => exact fun h => hsignum (congrArg some h)
  shutdown := h.shutdown

/-- `T_h` is assigned, while no instant is about to be returned. -/
theorem Inv.halt {signum : Option ℕ} {ns utc : ℤ} {rest : List Frame} (h : Inv c p)
    (hdepth : c.startupDepth = 0) (hlast : c.lastNs < ns) (hnone : c.requestedAt = none)
    (hframes : c.frames = ⟨signum, .assign ns utc⟩ :: rest) (hreturning : ¬ p.Returning) :
    Inv { c with
      frames := rest, requestedAt := some ⟨ns, utc, signum⟩, assigned := (ns, utc) :: c.assigned } p where
  frames := by
    intro f hf
    have hmem : f ∈ c.frames := by simp [hframes, hf]
    have hok := h.frames f hmem
    obtain ⟨signum', place⟩ := f
    cases place with
    | test => trivial
    | depth => exact fun hd => absurd hdepth hd
    | deferredNone => exact absurd hdepth hok.1
    | deferredTerm => exact absurd hdepth hok.1.1
    | setDeferred => exact absurd hdepth hok.1
    | monotonic => exact hok
    | last mono => exact hok
    | utc ns' => exact hok
    | assign ns' utc' => exact hok
    | recorded => exact absurd hnone hok
    | cause => exact absurd hnone hok
    | keepNs => exact absurd hnone hok.1
    | keepUtc ns' =>
      obtain ⟨⟨r, hr, -⟩, -⟩ := hok
      exact absurd hr (by simp [hnone])
    | escalate ns' utc' =>
      obtain ⟨⟨r, hr, -⟩, -⟩ := hok
      exact absurd hr (by simp [hnone])
  point := by
    have hpoint := h.point
    have hset : (some ⟨ns, utc, signum⟩ : Option Requested) ≠ none := by simp
    have hcaller : ∀ caller, CallerOk c caller → CallerOk { c with
        frames := rest, requestedAt := some ⟨ns, utc, signum⟩
        assigned := (ns, utc) :: c.assigned } caller := by
      intro caller hcaller
      cases caller with
      | bookkeeping payload => exact absurd hnone hcaller.1
      | _ => trivial
    cases p with
    | now place caller =>
      cases place with
      | moved now =>
        obtain ⟨⟨-, r, hr, -⟩, -⟩ := hpoint
        exact absurd hr (by simp [hnone])
      | ret now => exact absurd trivial hreturning
      | monotonic => exact ⟨hpoint.1, hcaller caller hpoint.2⟩
      | last mono => exact ⟨hpoint.1, hcaller caller hpoint.2⟩
      | store now => exact ⟨hpoint.1, hcaller caller hpoint.2⟩
      | requested now => exact ⟨hpoint.1, hcaller caller hpoint.2⟩
    | saving seq read2 =>
      refine ⟨hpoint.1, fun r hr => ?_⟩
      obtain rfl := Option.some.inj hr
      exact hpoint.1.trans_lt hlast
    | event payload tAckNs => exact absurd hnone hpoint.1
    | committing payload tAckNs event => exact absurd hnone hpoint.1
    | _ => exact hpoint
  assigned := by
    have hassigned := h.assigned
    rw [hnone] at hassigned
    show (ns, utc) :: c.assigned = [(ns, utc)]
    rw [hassigned]
    rfl
  returned_le := h.returned_le
  increasing := h.increasing
  quiet := fun hr => nomatch hr
  before := by
    intro r hr x hx _
    obtain rfl := Option.some.inj hr
    exact (h.returned_le x hx).trans_lt hlast
  after := by
    intro r _ x hx hhalted
    rw [(h.quiet hnone).1 x hx] at hhalted
    cases hhalted
  residual := h.residual
  read2_le := h.read2_le
  read2 := by
    intro r hr w hw
    obtain rfl := Option.some.inj hr
    exact (h.read2_le w hw).trans_lt hlast
  deferred := by
    intro hd
    rcases h.deferred hd with ⟨hdepth', -⟩ | hexits
    · exact absurd hdepth hdepth'
    · exact .inr hexits
  safety := by
    intro hrecorded hreceived
    rcases h.safety hrecorded hreceived with ⟨r, hr, -⟩ | hd | ⟨f, hf, hne⟩
    · rw [hnone] at hr
      cases hr
    · exact .inr (.inl hd)
    · rw [hframes, List.mem_cons] at hf
      rcases hf with rfl | hf
      · exact .inl ⟨_, rfl, hne⟩
      · exact .inr (.inr ⟨f, hf, hne⟩)
  shutdown := h.shutdown

/-- The cause is escalated; `T_h` stays. -/
theorem Inv.escalate {r : Requested} {signum : Option ℕ} {rest : List Frame} (h : Inv c p)
    (hr : c.requestedAt = some r) (hsignum : signum ≠ some sigterm)
    (hframes : ∀ f ∈ rest, f ∈ c.frames) :
    Inv { c with frames := rest, requestedAt := some { r with signum := signum } } p where
  frames := by
    intro f hf
    have hok := h.frames f (hframes f hf)
    have hset : (some { r with signum := signum } : Option Requested) ≠ none := by simp
    have hnone : c.requestedAt ≠ none := by simp [hr]
    obtain ⟨signum', place⟩ := f
    cases place with
    | depth => exact fun hd => absurd (hok hd) hnone
    | deferredNone => exact absurd hok.2 hnone
    | deferredTerm => exact absurd hok.1.2 hnone
    | setDeferred => exact absurd hok.2 hnone
    | recorded => exact hset
    | cause => exact hset
    | keepNs => exact ⟨hset, hok.2⟩
    | keepUtc ns =>
      obtain ⟨⟨r', hr', hns⟩, hne⟩ := hok
      obtain rfl := Option.some.inj (hr.symm.trans hr')
      exact ⟨⟨_, rfl, hns⟩, hne⟩
    | escalate ns utc =>
      obtain ⟨⟨r', hr', hns, hutc⟩, hne⟩ := hok
      obtain rfl := Option.some.inj (hr.symm.trans hr')
      exact ⟨⟨_, rfl, hns, hutc⟩, hne⟩
    | _ => exact hok
  point := by
    have hpoint := h.point
    have hset : (some { r with signum := signum } : Option Requested) ≠ none := by simp
    have hbelow : ∀ {P : ℤ → Prop}, (∀ r', c.requestedAt = some r' → P r'.ns) →
        ∀ r', some { r with signum := signum } = some r' → P r'.ns := by
      intro P hP r' hr'
      obtain rfl := Option.some.inj hr'
      exact hP r hr
    have hcaller : ∀ caller, CallerOk c caller → CallerOk { c with
        frames := rest, requestedAt := some { r with signum := signum } } caller := by
      intro caller hcaller
      cases caller with
      | bookkeeping payload => exact ⟨hset, hcaller.2⟩
      | _ => trivial
    cases p with
    | now place caller =>
      refine ⟨?_, hcaller caller hpoint.2⟩
      have hnow := hpoint.1
      cases place with
      | moved now =>
        obtain ⟨hlast, r', hr', hlt⟩ := hnow
        obtain rfl := Option.some.inj (hr.symm.trans hr')
        exact ⟨hlast, _, rfl, hlt⟩
      | ret now => exact ⟨hnow.1, hnow.2.1, @hbelow (fun ns => ns < now) hnow.2.2⟩
      | _ => exact hnow
    | saving seq read2 => exact ⟨hpoint.1, @hbelow (fun ns => read2 < ns) hpoint.2⟩
    | event payload tAckNs => exact ⟨hset, hpoint.2⟩
    | committing payload tAckNs event => exact ⟨hset, hpoint.2⟩
    | _ => exact hpoint
  assigned := by
    have hassigned := h.assigned
    rw [hr] at hassigned
    exact hassigned
  returned_le := h.returned_le
  increasing := h.increasing
  quiet := fun hr' => nomatch hr'
  before := by
    intro r' hr' x hx hhalted
    obtain rfl := Option.some.inj hr'
    exact h.before r hr x hx hhalted
  after := by
    intro r' hr' x hx hhalted
    obtain rfl := Option.some.inj hr'
    exact h.after r hr x hx hhalted
  residual := h.residual
  read2_le := h.read2_le
  read2 := by
    intro r' hr' w hw
    obtain rfl := Option.some.inj hr'
    exact h.read2 r hr w hw
  deferred := by
    intro hd
    rcases h.deferred hd with ⟨-, hnone⟩ | hexits
    · rw [hr] at hnone
      cases hnone
    · exact .inr hexits
  safety := fun _ _ => .inl ⟨_, rfl, hsignum⟩
  shutdown := h.shutdown

end Handler

/-- One step of the handler. -/
theorem Inv.handler_step {s : State} {utc : ℤ} {rowid : ℕ} {f : Frame} {rest : List Frame}
    (h : Inv s.core s.main) (hframes : s.frames = f :: rest)
    (hok : Undisturbed s (.advance utc rowid)) :
    Inv (handlerStep s utc f rest).core (handlerStep s utc f rest).main := by
  have hrest : ∀ f' ∈ rest, f' ∈ s.frames := fun f' hf' => by simp [hframes, hf']
  have hf : FrameOk s.core f := h.frames f (by simp [State.core, hframes])
  have hokFrame : ∀ g ∈ rest, FrameOk s.core g := fun g hg => h.frames g (hrest g hg)
  unfold Undisturbed at hok
  rw [hframes] at hok
  dsimp only at hok
  cases @handler_effect s utc f rest hf with
  | goes place hplace hs =>
    rw [hs]
    refine h.of_frames ?_ ?_
    · intro g hg
      rcases List.mem_cons.mp hg with rfl | hg
      · exact hplace
      · exact hokFrame g hg
    · intro _ hsafe
      rcases hsafe with hr | hd | ⟨g, hg, hne⟩
      · exact .inl hr
      · exact .inr (.inl hd)
      · have hg' : g ∈ f :: rest := hframes ▸ hg
        rcases List.mem_cons.mp hg' with rfl | hg
        · exact .inr (.inr ⟨_, List.mem_cons_self, hne⟩)
        · exact .inr (.inr ⟨g, List.mem_cons_of_mem _ hg, hne⟩)
  | ends hs hsafety =>
    rw [hs]
    refine h.of_frames hokFrame ?_
    intro hrecorded hsafe
    rcases hsafe with hr | hd | ⟨g, hg, hne⟩
    · exact .inl hr
    · exact .inr (.inl hd)
    · have hg' : g ∈ f :: rest := hframes ▸ hg
      rcases List.mem_cons.mp hg' with rfl | hg
      · rcases hsafety hrecorded hne with hr | hd
        · exact .inl hr
        · exact .inr (.inl hd)
      · exact .inr (.inr ⟨g, hg, hne⟩)
  | defers hplace hs =>
    obtain ⟨signum, place⟩ := f
    obtain rfl : place = .setDeferred := hplace
    rw [hs]
    exact h.defer hf.1 hf.2 hframes hok
  | halts ns utc' hplace hs =>
    obtain ⟨signum, place⟩ := f
    obtain rfl : place = .assign ns utc' := hplace
    rw [hs]
    exact h.halt hf.1 hf.2 hok.1 hframes hok.2
  | escalates r hr hsignum hs =>
    rw [hs]
    exact h.escalate hr hsignum hrest

/-! ## The main thread -/

section Main

variable {c : Core} {p p' : Point}

/-- The main thread goes on, and nothing that the barrier is about changes. -/
theorem Inv.at_point (h : Inv c p) (hpoint : PointOk c p') (hsaving : p'.isSaving = false)
    (hexits : p'.Exits ∨ ¬ p.Exits ∨ c.deferredSignal = none) : Inv c p' :=
  { h with
    point := hpoint
    residual := by
      have hresidual := h.residual
      rw [hsaving]
      show _ + 0 ≤ 1
      omega
    deferred := by
      intro hd
      rcases h.deferred hd with hinside | hp
      · exact .inl hinside
      · rcases hexits with hp' | hnot | hnone
        · exact .inr hp'
        · exact absurd hp hnot
        · exact absurd hnone hd }

/-- Outside of the end of a section the main thread can always be thought idle. -/
theorem Inv.idle (h : Inv c p) (hexits : ¬ p.Exits) : Inv c .idle :=
  h.at_point trivial rfl (.inr (.inl hexits))

theorem Inv.goes (h : Inv c .idle) (hpoint : PointOk c p) (hsaving : p.isSaving = false) : Inv c p :=
  h.at_point hpoint hsaving (.inr (.inl id))

/-- `now_ns` stores an instant above all others. -/
theorem Inv.store {now : ℤ} (h : Inv c .idle) (hframes : c.frames = []) (hlast : c.lastNs < now) :
    Inv { c with lastNs := now } .idle :=
  { h with
    frames := fun f hf => by simp [hframes] at hf
    point := trivial
    returned_le := fun x hx => (h.returned_le x hx).trans hlast.le
    read2_le := fun w hw => (h.read2_le w hw).trans hlast.le }

/-- `now_ns` returns an instant above all others, and above `T_h` where it is set. -/
theorem Inv.returns {now : ℤ} (h : Inv c .idle) (hnow : NowOk c (.ret now)) :
    Inv { c with returned := ⟨now, c.requestedAt.isSome⟩ :: c.returned } .idle := by
  obtain ⟨hlast, habove, hbarrier⟩ := hnow
  exact
    { h with
      frames := fun f hf => frameOk_congr rfl rfl rfl rfl (h.frames f hf)
      point := trivial
      returned_le := by
        rw [List.forall_mem_cons]
        exact ⟨hlast.ge, h.returned_le⟩
      increasing := List.pairwise_cons.mpr ⟨habove, h.increasing⟩
      quiet := by
        intro hnone
        refine ⟨?_, (h.quiet hnone).2⟩
        rw [List.forall_mem_cons]
        exact ⟨by rw [hnone]; rfl, (h.quiet hnone).1⟩
      before := by
        intro r hr
        rw [List.forall_mem_cons]
        refine ⟨fun hfalse => ?_, h.before r hr⟩
        rw [hr] at hfalse
        cases hfalse
      after := by
        intro r hr
        rw [List.forall_mem_cons]
        exact ⟨fun _ => hbarrier r hr, h.after r hr⟩ }

/-- A write that was read before `T_h` commits. -/
theorem Inv.commit {seq : ℕ} {read2 : ℤ} (h : Inv c (.saving seq read2)) :
    Inv { c with commits := ⟨seq, read2, c.requestedAt.isSome⟩ :: c.commits } .idle := by
  have hidle : Inv c .idle := h.idle id
  obtain ⟨hle, hbefore⟩ := h.point
  exact
    { hidle with
      frames := fun f hf => frameOk_congr rfl rfl rfl rfl (h.frames f hf)
      point := trivial
      quiet := by
        intro hnone
        refine ⟨(h.quiet hnone).1, ?_⟩
        rw [hnone]
        exact (h.quiet hnone).2
      residual := by
        have hresidual := h.residual
        have hsaving : (Point.saving seq read2).isSaving.toNat = 1 := rfl
        rw [hsaving] at hresidual
        have hlength : ((⟨seq, read2, c.requestedAt.isSome⟩ :: c.commits : List Commit).filter
            Commit.halted).length ≤ (c.commits.filter Commit.halted).length + 1 := by
          rw [List.filter_cons]
          split_ifs
          · exact le_refl _
          · omega
        show ((⟨seq, read2, c.requestedAt.isSome⟩ :: c.commits : List Commit).filter
          Commit.halted).length + 0 ≤ 1
        omega
      read2_le := by
        rw [List.forall_mem_cons]
        exact ⟨hle, h.read2_le⟩
      read2 := by
        intro r hr
        rw [List.forall_mem_cons]
        exact ⟨hbefore r hr, h.read2 r hr⟩ }

/-- `save_paper` is called before `T_h`: nothing has committed after it. -/
theorem Inv.save {seq : ℕ} {read2 : ℤ} (h : Inv c .idle) (hnone : c.requestedAt = none)
    (hle : read2 ≤ c.lastNs) : Inv c (.saving seq read2) :=
  { h with
    point := ⟨hle, fun r hr => by rw [hnone] at hr; cases hr⟩
    residual := by
      rw [(h.quiet hnone).2]
      exact le_refl 1
    deferred := fun hd => (h.deferred hd).imp_right False.elim }

end Main

/-- One step of `now_ns`. -/
theorem Inv.now_step {s : State} {utc : ℤ} {place : NowPlace} {caller : Caller}
    (h : Inv s.core s.main) (hframes : s.frames = []) (hmain : s.main = .now place caller) :
    Inv (nowStep s utc caller place).core (nowStep s utc caller place).main := by
  rw [hmain] at h
  obtain ⟨hnow, hcaller⟩ := h.point
  have hidle : Inv s.core .idle := h.idle id
  cases place with
  | monotonic => exact hidle.goes ⟨trivial, hcaller⟩ rfl
  | last mono =>
    refine hidle.goes ⟨?_, hcaller⟩ rfl
    show s.gate.lastNs < max mono (s.gate.lastNs + 1)
    omega
  | store now =>
    refine (hidle.store hframes hnow).goes ⟨⟨rfl, fun x hx => ?_⟩, ?_⟩ rfl
    · exact (h.returned_le x hx).trans_lt hnow
    · cases caller <;> exact hcaller
  | requested now =>
    obtain ⟨hlast, habove⟩ := hnow
    unfold nowStep
    dsimp only
    cases hr : s.gate.requestedAt with
    | none =>
      refine hidle.goes ⟨⟨hlast, habove, fun r hr' => ?_⟩, hcaller⟩ rfl
      exact absurd (hr.symm.trans hr') (by simp)
    | some r =>
      dsimp only
      split_ifs with hle
      · refine hidle.goes ⟨⟨?_, r, hr, ?_⟩, hcaller⟩ rfl
        · rw [hlast]
          omega
        · omega
      · refine hidle.goes ⟨⟨hlast, habove, fun r' hr' => ?_⟩, hcaller⟩ rfl
        obtain rfl := Option.some.inj (hr.symm.trans hr')
        exact not_le.mp hle
  | moved now =>
    obtain ⟨hlast, r, hr, hlt⟩ := hnow
    refine (hidle.store hframes hlast).goes ⟨⟨rfl, fun x hx => ?_, fun r' hr' => ?_⟩, ?_⟩ rfl
    · exact (h.returned_le x hx).trans_lt hlast
    · obtain rfl := Option.some.inj (hr.symm.trans hr')
      exact hlt
    · cases caller <;> exact hcaller
  | ret now =>
    have hreturned := hidle.returns hnow
    cases caller with
    | admission kind => exact hreturned.goes trivial rfl
    | preSave seq => exact hreturned.goes hnow.1.ge rfl
    | saved seq => exact hreturned
    | bookkeeping payload => exact hreturned.goes hcaller rfl

theorem Inv.admit_read {s : State} {kind : String} {ns utc : ℤ} (h : Inv s.core .idle) :
    Inv (admitRead s kind ns utc).core (admitRead s kind ns utc).main := by
  unfold admitRead
  cases s.gate.requestedAt with
  | none => exact h
  | some r => exact h

theorem Inv.pre_save_read {s : State} {seq : ℕ} {ns utc : ℤ} (h : Inv s.core .idle)
    (hle : ns ≤ s.gate.lastNs) :
    Inv (preSaveRead s seq ns utc).core (preSaveRead s seq ns utc).main := by
  unfold preSaveRead
  cases hr : s.gate.requestedAt with
  | none => exact h.save hr hle
  | some r => exact h

/-- The end of a section: a signal that was deferred becomes the call of `request`. -/
theorem Inv.clear {c : Core} {signal : ℕ} (h : Inv c (.clearing signal)) (hframes : c.frames = []) :
    Inv { c with
      deferredSignal := none
      frames := [⟨if signal = 0 then none else some signal, .test⟩] } .idle := by
  obtain ⟨-, hsignal⟩ := h.point
  exact
    { h with
      frames := by
        intro f hf
        obtain rfl := List.mem_singleton.mp hf
        trivial
      point := trivial
      residual := h.residual
      deferred := fun hd => absurd rfl hd
      safety := by
        intro hrecorded hreceived
        rcases h.safety hrecorded hreceived with hr | ⟨d, hd, hne⟩ | ⟨f, hf, -⟩
        · exact .inl hr
        · obtain rfl := Option.some.inj (hsignal.symm.trans hd)
          refine .inr (.inr ⟨_, List.mem_cons_self, ?_⟩)
          dsimp only
          split_ifs
          · exact fun h => nomatch h
          · exact fun h => hne (Option.some.inj h)
        · rw [hframes] at hf
          cases hf }

/-- The row that commits tells of every signal that was received. -/
theorem Inv.record {c : Core} {payload : Requested} {tAckNs : ℤ} {event : Event} {rowid : ℕ}
    (h : Inv c (.committing payload tAckNs event)) (hframes : c.frames = [])
    (hcause : ∀ r, c.requestedAt = some r → r.journalEvent = event) :
    Inv { c with rows := ⟨rowid, event, payload, tAckNs, c.received⟩ :: c.rows } (.recording rowid) := by
  obtain ⟨hset, hrecorded⟩ := h.point
  have hgoes : Inv c (.recording rowid) := (h.idle id).goes trivial rfl
  exact
    { hgoes with
      frames := fun f hf => frameOk_congr rfl rfl rfl rfl (h.frames f hf)
      point := trivial
      shutdown := by
        rw [List.forall_mem_cons]
        refine ⟨fun hclean => ?_, h.shutdown⟩
        by_contra hreceived
        push Not at hreceived
        rcases h.safety hrecorded hreceived with ⟨r, hr, hne⟩ | ⟨d, hd, -⟩ | ⟨f, hf, -⟩
        · have hevent := hcause r hr
          rw [Requested.journalEvent, if_neg hne] at hevent
          exact absurd (hevent.trans hclean) (by decide)
        · -- a deferred signal waits for the end of a section that began before `T_h`
          have hdeferred : c.deferredSignal ≠ none := by simp [hd]
          rcases h.deferred hdeferred with ⟨-, hnone⟩ | hexits
          · exact hset hnone
          · exact hexits
        · rw [hframes] at hf
          cases hf }

/-- One step of the main thread. -/
theorem Inv.main_step {s : State} {utc : ℤ} {rowid : ℕ} (h : Inv s.core s.main)
    (hframes : s.frames = []) (hok : Undisturbed s (.advance utc rowid)) :
    Inv (mainStep s utc rowid).core (mainStep s utc rowid).main := by
  unfold Undisturbed at hok
  rw [hframes] at hok
  dsimp only at hok
  unfold mainStep
  cases hmain : s.main with
  | idle => exact h
  | now place caller => exact h.now_step hframes hmain
  | admitRead kind ns lwUtc =>
    rw [hmain] at h
    exact (h.idle id).admit_read
  | preSaveRead seq ns read2Utc =>
    rw [hmain] at h
    exact (h.idle id).pre_save_read h.point
  | saving seq read2 =>
    rw [hmain] at h
    exact h.commit
  | entered site =>
    rw [hmain] at h
    dsimp only
    split
    · exact @Inv.goes s.core .leaving (h.idle id) trivial rfl
    · exact h.idle id
  | leaving =>
    rw [hmain] at h
    dsimp only
    have hnext : Inv { s.core with startupDepth := s.gate.startupDepth - 1 }
        (if s.gate.startupDepth - 1 = 0 then .exiting else .idle) :=
      { h with
        frames := fun f hf => by simp [State.core, hframes] at hf
        point := by
          split_ifs with hdepth
          · exact hdepth
          · trivial
        residual := by
          have hresidual := h.residual
          split_ifs <;> exact hresidual
        deferred := by
          intro hd
          rcases h.deferred hd with ⟨-, hnone⟩ | hexits
          · by_cases hdepth : s.gate.startupDepth - 1 = 0
            · rw [if_pos hdepth]
              exact .inr trivial
            · exact .inl ⟨hdepth, hnone⟩
          · exact hexits.elim }
    exact hnext
  | exiting =>
    rw [hmain] at h
    dsimp only
    cases hd : s.gate.deferredSignal with
    | none => exact h.at_point trivial rfl (.inr (.inr hd))
    | some d => exact h.at_point h.point rfl (.inl trivial)
  | taking =>
    rw [hmain] at h
    dsimp only
    cases hd : s.gate.deferredSignal with
    | none => exact h.at_point trivial rfl (.inr (.inr hd))
    | some d => exact h.at_point ⟨h.point, hd⟩ rfl (.inl trivial)
  | clearing signal =>
    rw [hmain] at h
    exact h.clear hframes
  | payload =>
    rw [hmain] at h
    dsimp only
    cases hr : s.gate.requestedAt with
    | none => exact h.idle id
    | some r =>
      have hset : s.gate.requestedAt ≠ none := by simp [hr]
      exact (h.idle id).goes ⟨trivial, hset, h.point⟩ rfl
  | event payload tAckNs =>
    rw [hmain] at h
    dsimp only
    cases s.gate.requestedAt with
    | none => exact h.idle id
    | some r => exact (h.idle id).goes h.point rfl
  | committing payload tAckNs event =>
    rw [hmain] at h hok
    exact h.record hframes hok
  | recording journalId =>
    rw [hmain] at h
    have hidle := h.idle id
    exact
      { hidle with
        frames := fun f hf => by simp [State.core, hframes] at hf
        point := trivial
        safety := fun hnone => nomatch hnone }

theorem Inv.call_step {s : State} {op : Op} (h : Inv s.core .idle) (hmain : s.main = .idle)
    (hframes : s.frames = []) : Inv (callStep s op).core (callStep s op).main := by
  cases op with
  | admission kind => exact h.goes ⟨trivial, trivial⟩ rfl
  | preSave seq => exact h.goes ⟨trivial, trivial⟩ rfl
  | saved seq => exact h.goes ⟨trivial, trivial⟩ rfl
  | enter site =>
    have hnext : Inv { s.core with startupDepth := s.gate.startupDepth + 1 } (.entered site) :=
      { h with
        frames := fun f hf => by simp [State.core, hframes] at hf
        point := trivial
        residual := h.residual
        deferred := by
          intro hd
          rcases h.deferred hd with ⟨-, hnone⟩ | hexits
          · exact .inl ⟨Nat.succ_ne_zero _, hnone⟩
          · exact hexits.elim }
    exact hnext
  | leave =>
    unfold callStep
    dsimp only
    split_ifs
    · rw [hmain]
      exact h
    · exact h.goes trivial rfl
  | bookkeeping =>
    unfold callStep
    dsimp only
    split_ifs with hrecorded
    · exact h.goes (Option.isNone_iff_eq_none.mp hrecorded) rfl
    · rw [hmain]
      exact h

theorem Inv.fail_step {s : State} (h : Inv s.core s.main) : Inv (failStep s).core (failStep s).main := by
  unfold failStep
  cases hmain : s.main with
  | saving seq read2 =>
    rw [hmain] at h
    exact h.idle id
  | payload =>
    rw [hmain] at h
    exact h.idle id
  | event payload tAckNs =>
    rw [hmain] at h
    exact h.idle id
  | committing payload tAckNs event =>
    rw [hmain] at h
    exact h.idle id
  | _ =>
    dsimp only
    exact h

/-- A signal arrives. -/
theorem Inv.signal {s : State} {signum : Option ℕ} (h : Inv s.core s.main) :
    Inv (step s (.signal signum)).core s.main :=
  { h with
    frames := by
      intro f hf
      rcases List.mem_cons.mp hf with rfl | hf
      · trivial
      · exact frameOk_congr rfl rfl rfl rfl (h.frames f hf)
    point := pointOk_congr rfl rfl rfl rfl rfl rfl h.point
    safety := by
      rintro hrecorded ⟨n, hn, hne⟩
      rcases List.mem_cons.mp hn with rfl | hn
      · exact .inr (.inr ⟨_, List.mem_cons_self, hne⟩)
      · rcases h.safety hrecorded ⟨n, hn, hne⟩ with hr | hd | ⟨f, hf, hne'⟩
        · exact .inl hr
        · exact .inr (.inl hd)
        · exact .inr (.inr ⟨f, List.mem_cons_of_mem _ hf, hne'⟩) }

/-- Every step that is not disturbed keeps the invariant. -/
theorem Inv.step {s : State} {a : Action} (h : Inv s.core s.main) (hok : Undisturbed s a) :
    Inv (Halt.step s a).core (Halt.step s a).main := by
  cases a with
  | tick ns => exact h
  | signal signum => exact h.signal
  | call op =>
    unfold Halt.step
    dsimp only
    split
    · next hframes hmain =>
      rw [hmain] at h
      exact h.call_step hmain hframes
    · exact h
  | advance utc rowid =>
    unfold Halt.step
    dsimp only
    cases hframes : s.frames with
    | nil => exact h.main_step hframes hok
    | cons f rest => exact h.handler_step hframes hok
  | fail =>
    unfold Halt.step
    dsimp only
    split
    · exact h.fail_step
    · exact h

/-! ## After `T_h` -/

/-- `T_h` is the one of `r`, and nothing was admitted or let through since `mid`. -/
structure After (mid : State) (r : Requested) (s : State) : Prop where
  kept : ∃ r', s.gate.requestedAt = some r' ∧ r'.ns = r.ns ∧ r'.utc = r.utc
  admitted : s.gate.admissions.length = mid.gate.admissions.length
  passed : s.passed = mid.passed

section After

variable {mid s : State} {r : Requested}

/-- A step that leaves these alone. -/
theorem After.of_eq {s' : State} (h : After mid r s)
    (hrequested : s'.gate.requestedAt = s.gate.requestedAt)
    (hadmitted : s'.gate.admissions.length = s.gate.admissions.length) (hpassed : s'.passed = s.passed) :
    After mid r s' where
  kept := by
    rw [hrequested]
    exact h.kept
  admitted := hadmitted.trans h.admitted
  passed := hpassed.trans h.passed

theorem length_update (g : HaltGate) (seq : ℕ) (f : Admission → Admission) :
    (g.update seq f).admissions.length = g.admissions.length := List.length_map _

theorem After.now_step {utc : ℤ} {place : NowPlace} {caller : Caller} (h : After mid r s) :
    After mid r (nowStep s utc caller place) := by
  cases place with
  | requested now =>
    unfold nowStep
    dsimp only
    split
    · exact h.of_eq rfl rfl rfl
    · split_ifs
      · exact h.of_eq rfl rfl rfl
      · exact h.of_eq rfl rfl rfl
  | ret now =>
    cases caller with
    | saved seq => exact h.of_eq rfl (length_update _ _ _) rfl
    | _ => exact h.of_eq rfl rfl rfl
  | _ => exact h.of_eq rfl rfl rfl

theorem After.main_step {utc : ℤ} {rowid : ℕ} (h : After mid r s) :
    After mid r (mainStep s utc rowid) := by
  obtain ⟨r', hr', -⟩ := h.kept
  unfold mainStep
  cases hmain : s.main with
  | now place caller => exact h.now_step
  | admitRead kind ns lwUtc =>
    dsimp only
    unfold admitRead
    split
    · exact h.of_eq rfl rfl rfl
    · next hnone => exact absurd (hr'.symm.trans hnone) (by simp)
  | preSaveRead seq ns read2Utc =>
    dsimp only
    unfold preSaveRead
    split
    · exact h.of_eq rfl rfl rfl
    · next hnone => exact absurd (hr'.symm.trans hnone) (by simp)
  | entered site =>
    dsimp only
    split <;> exact h.of_eq rfl rfl rfl
  | taking =>
    dsimp only
    split <;> exact h.of_eq rfl rfl rfl
  | payload =>
    dsimp only
    split <;> exact h.of_eq rfl rfl rfl
  | event payload tAckNs =>
    dsimp only
    split <;> exact h.of_eq rfl rfl rfl
  | _ => exact h.of_eq rfl rfl rfl

theorem After.handler_step {utc : ℤ} {rowid : ℕ} {f : Frame} {rest : List Frame}
    (h : After mid r s) (hinv : Inv s.core s.main) (hframes : s.frames = f :: rest)
    (hok : Undisturbed s (.advance utc rowid)) : After mid r (handlerStep s utc f rest) := by
  obtain ⟨r', hr', hns, hutc⟩ := h.kept
  have hf : FrameOk s.core f := hinv.frames f (by simp [State.core, hframes])
  unfold Undisturbed at hok
  rw [hframes] at hok
  dsimp only at hok
  cases @handler_effect s utc f rest hf with
  | goes place hplace hs =>
    rw [hs]
    exact h.of_eq rfl rfl rfl
  | ends hs hsafety =>
    rw [hs]
    exact h.of_eq rfl rfl rfl
  | defers hplace hs =>
    rw [hs]
    exact h.of_eq rfl rfl rfl
  | halts ns utc' hplace hs =>
    rw [hplace] at hok
    exact absurd (hr'.symm.trans hok.1) (by simp)
  | escalates r'' hr'' hsignum hs =>
    obtain rfl := Option.some.inj (hr'.symm.trans hr'')
    rw [hs]
    exact ⟨⟨_, rfl, hns, hutc⟩, h.admitted, h.passed⟩

theorem After.step {a : Action} (h : After mid r s) (hinv : Inv s.core s.main)
    (hok : Undisturbed s a) : After mid r (Halt.step s a) := by
  cases a with
  | tick ns => exact h.of_eq rfl rfl rfl
  | signal signum => exact h.of_eq rfl rfl rfl
  | call op =>
    unfold Halt.step
    dsimp only
    split
    · cases op with
      | leave =>
        unfold callStep
        dsimp only
        split_ifs <;> exact h.of_eq rfl rfl rfl
      | bookkeeping =>
        unfold callStep
        dsimp only
        split_ifs <;> exact h.of_eq rfl rfl rfl
      | _ => exact h.of_eq rfl rfl rfl
    · exact h
  | advance utc rowid =>
    unfold Halt.step
    dsimp only
    cases hframes : s.frames with
    | nil => exact h.main_step
    | cons f rest => exact h.handler_step hinv hframes hok
  | fail =>
    unfold Halt.step
    dsimp only
    split
    · unfold failStep
      split <;> exact h.of_eq rfl rfl rfl
    · exact h

end After

/-! ## Runs -/

theorem inv_run {acts : List Action} {s : State} (h : Inv s.core s.main)
    (hok : Meets step Undisturbed acts s) : Inv (run step acts s).core (run step acts s).main :=
  @run_induction _ _ step Undisturbed (fun s => Inv s.core s.main) (fun _ _ hs hi => hs.step hi) _ _ h hok

theorem after_run {acts : List Action} {s : State} {r : Requested} (h : Inv s.core s.main)
    (hr : s.gate.requestedAt = some r) (hok : Meets step Undisturbed acts s) :
    After s r (run step acts s) :=
  (@run_induction _ _ step Undisturbed (fun s' => Inv s'.core s'.main ∧ After s r s')
    (fun _ _ hs hi => ⟨hs.1.step hi, hs.2.step hs.1 hi⟩) _ _
    ⟨h, ⟨r, hr, rfl, rfl⟩, rfl, rfl⟩ hok).2

/-- So many steps of what is running. -/
def advances (n : ℕ) : List Action := List.replicate n (.advance 0 1)

/-- SIGTERM arrives and `T_h` is set. -/
def terminated : List Action := .signal (some sigterm) :: advances 6

/-- The bookkeeping, up to its commit. -/
def shutDown : List Action := .call .bookkeeping :: advances 9

/-- SIGINT arrives between the test and the assignment of the invocation for SIGTERM. -/
def overtaken : List Action :=
  .signal (some sigterm) :: advances 5 ++ .tick 5 :: .signal (some 2) :: advances 7 ++ shutDown

/-- SIGTERM arrives when `now_ns` has read `requested_at`. -/
def late : List Action := .call (.saved 1) :: advances 4 ++ terminated ++ advances 1

/-- SIGINT arrives when the bookkeeping has read the cause. -/
def misread : List Action :=
  terminated ++ .call .bookkeeping :: advances 8 ++ .signal (some 2) :: advances 7

end MarketSystem.Halt
