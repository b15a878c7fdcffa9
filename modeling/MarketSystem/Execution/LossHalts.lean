import Mathlib.Data.List.Pairwise
import Mathlib.Order.Monotone.Basic
import MarketSystem.Execution.DailyLossSteps

/-!
# Loss halts are sticky

A halt is in two places: the latch of the process, set first, and a flag of the
file, which may have failed to be written. While one of them holds, every
decision refuses entries, whatever can be read. The latch is lost only with the
process; the daily flag only to a clear or to another day.
-/
namespace MarketSystem.LossHalts

open Library Fallible DailyLossLimit LossCheck

/-! ## Sequences of calls -/

inductive Call
  | evaluate (nav : Option ℚ) (plannedRisk : Option (Option ℚ))
  | lossCheck (plannedRisk : Option (Option ℚ)) (broker : Broker)
  | applyTransfer (net : Option ℚ) (txId : Option ℕ) (actor reason : String)
  | haltState
  | clearDailyHalt (actor reason : String)
  | clearDrawdownHalt (actor reason : String)
  | restart

/-- A call of some tracker, or of the router over it, at some time. -/
structure Request where
  limit : Limit
  at_ : Instant
  call : Call

inductive Reply
  | decision (d : LossDecision)
  | halts (daily dd : Bool)
  | done
  deriving DecidableEq

/-- The process ends and another one begins: the latches are gone. -/
def restart : M Unit := .modify (fun w => w.relatch ⟨none, false⟩)

def Request.program (offset : Instant → Instant) (r : Request) : M Reply :=
  match r.call with
  | .evaluate nav plannedRisk => do
      let d ← DailyLossLimit.evaluate offset r.limit nav plannedRisk r.at_
      pure (.decision d)
  | .lossCheck plannedRisk broker => do
      let d ← LossCheck.lossCheck offset r.limit r.at_ plannedRisk broker
      pure (.decision d)
  | .applyTransfer net txId actor reason => do
      let _ ← DailyLossLimit.applyTransfer offset r.limit net txId actor reason r.at_
      pure .done
  | .haltState => do
      let (daily, dd) ← DailyLossLimit.haltState (dayKey offset r.at_)
      pure (.halts daily dd)
  | .clearDailyHalt actor reason => do
      DailyLossLimit.clearDailyHalt actor reason
      pure .done
  | .clearDrawdownHalt actor reason => do
      DailyLossLimit.clearDrawdownHalt actor reason
      pure .done
  | .restart => do
      LossHalts.restart
      pure .done

/-- A request with its outcome and the events raised meanwhile. -/
structure Served where
  request : Request
  raised : List Event
  outcome : Except String Reply

/-- Requests one after the other, under one oracle for all their accesses. -/
def transcript (offset : Instant → Instant) (fails : ℕ → Bool) :
    List Request → ℕ × World → List Served × (ℕ × World)
  | [], s => ([], s)
  | r :: rest, s =>
      let (outcome, s') := (r.program offset).run fails s
      let (answers, final) := transcript offset fails rest s'
      (⟨r, s'.2.events.drop s.2.events.length, outcome⟩ :: answers, final)

def Served.restarts (s : Served) : Bool :=
  match s.request.call with
  | .restart => true
  | _ => false

/-- A `clear_daily_halt` that succeeded. -/
def Served.clearsDaily (s : Served) : Bool :=
  match s.request.call, s.outcome with
  | .clearDailyHalt _ _, .ok _ => true
  | _, _ => false

/-- A `clear_drawdown_halt` that succeeded. -/
def Served.clearsDrawdown (s : Served) : Bool :=
  match s.request.call, s.outcome with
  | .clearDrawdownHalt _ _, .ok _ => true
  | _, _ => false

/-- Open trades are to be closed; an evaluation that could use neither the NAV nor the state
leaves that to the router. -/
def Flattens (call : Call) (d : LossDecision) : Prop :=
  d.flattenRequired = true ∨ ((∃ nav plannedRisk, call = .evaluate nav plannedRisk) ∧
    (d.reason = some NAV_INVALID ∨ d.reason = some STATE_UNREADABLE))

/-! ## One call -/

theorem kept_of_turned {key : ℤ} {nav : ℚ} {now : Instant} {w w' : World}
    (h : Turned key nav now w w') : Kept key w w' := by
  rcases h with ⟨-, rfl⟩ | ⟨hday, h⟩
  · exact Kept.refl key w'
  · obtain ⟨l, hl, hquiet⟩ := h.events
    exact ⟨h.latch, fun hd => absurd hd hday, fun hd => absurd hd hday,
      fun hd => by rw [h.dd]; exact hd,
      fun hd => by rw [h.others .ddHalt (by simp)]; exact hd, l, hl, .of_quiet hquiet⟩

theorem calm_of_based {nav : ℚ} {w w' : World} (h : Based nav w w') : Calm w w' :=
  ⟨h.latch, h.others .dlDay (by simp), h.others .dlHalt (by simp), h.others .ddHalt (by simp), [],
    by simp [h.events], by simp⟩

theorem calm_of_remembered {nav : ℚ} {now : Instant} {w w' : World}
    (h : Remembered nav now w w') : Calm w w' := by
  rcases h with rfl | rfl | rfl
  · exact Calm.refl w'
  · exact ⟨rfl, by simp, by simp, by simp, [], by simp, by simp⟩
  · exact ⟨rfl, by simp, by simp, by simp, [], by simp, by simp⟩

theorem kept_of_prepared {l : Limit} {nav : ℚ} {key : ℤ} {now : Instant} {w w' : World}
    (h : Prepared l nav key now w w') : Kept key w w' := by
  obtain ⟨w₁, hturned, ⟨-, rfl⟩ | ⟨-, hbased⟩⟩ := h.steps
  · exact kept_of_turned hturned
  · exact (kept_of_turned hturned).trans ((calm_of_based hbased).kept key)

theorem kept_of_unprepared {l : Limit} {nav : ℚ} {key : ℤ} {now : Instant} {w w' : World}
    (h : Unprepared l nav key now w w') : Kept key w w' := by
  rcases h with rfl | ⟨hday, h⟩ | ⟨w₁, hturned, -, rfl | rfl⟩
  · exact Kept.refl key w'
  · rw [h.rest]
    exact ⟨id, fun hd => absurd hd hday, fun hd => absurd hd hday, id,
      fun hd => by rw [h.others .ddHalt (by simp)]; exact hd, [], by simp, .of_quiet (by simp)⟩
  · exact kept_of_turned hturned
  · refine (kept_of_turned hturned).trans (Calm.kept ?_ key)
    exact ⟨rfl, by simp, by simp, by simp, [], by simp, by simp⟩

theorem kept_of_evaluated {l : Limit} {nav : Option ℚ} {plannedRisk : Option (Option ℚ)}
    {key : ℤ} {now : Instant} {w w' : World} {d : LossDecision}
    (h : Evaluated l nav plannedRisk key now w d w') : Kept key w w' := by
  cases h with
  | invalid _ => exact Kept.refl key w
  | nonPositive _ _ hpart _ _ _ _ => exact hpart.kept
  | unreadable _ _ h => exact kept_of_unprepared h
  | judged _ _ hprepared hpart hremembered _ =>
    exact ((kept_of_prepared hprepared).trans hpart.kept).trans
      ((calm_of_remembered hremembered).kept key)

/-- An evaluation under a halt: entries are refused, and trades are to be closed unless
neither the NAV nor the state could be used. -/
theorem evaluated_daily {l : Limit} {nav : Option ℚ} {plannedRisk : Option (Option ℚ)}
    {key : ℤ} {now : Instant} {w w' : World} {d : LossDecision}
    (h : Evaluated l nav plannedRisk key now w d w')
    (hw : w.latch.daily = some key ∨
      (w.store .dlDay = some (.day key) ∧ w.store .dlHalt = some (.day key))) :
    d.entryAllowed = false ∧ (l.flatten = true → d.flattenRequired = true ∨
      d.reason = some NAV_INVALID ∨ d.reason = some STATE_UNREADABLE) := by
  cases h with
  | invalid _ => exact ⟨rfl, fun _ => .inr (.inl rfl)⟩
  | nonPositive _ _ _ hentry hflatten _ _ => exact ⟨hentry, fun _ => .inl hflatten⟩
  | unreadable _ _ _ => exact ⟨rfl, fun _ => .inr (.inr rfl)⟩
  | judged _ _ hprepared _ _ hjudged =>
    have hkept := kept_of_prepared hprepared
    obtain ⟨hentry, hflatten⟩ := hjudged.halted (by
      rcases hw with h | ⟨hday, h⟩
      · exact .inr (hkept.latch h)
      · exact .inl (hkept.dlHalt hday h))
    exact ⟨hentry, fun hl => .inl (hflatten hl)⟩

theorem evaluated_drawdown {l : Limit} {nav : Option ℚ} {plannedRisk : Option (Option ℚ)}
    {key : ℤ} {now : Instant} {w w' : World} {d : LossDecision}
    (h : Evaluated l nav plannedRisk key now w d w')
    (hw : w.latch.dd = true ∨ (w.store .ddHalt).isSome) :
    d.entryAllowed = false ∧ (d.flattenRequired = true ∨
      d.reason = some NAV_INVALID ∨ d.reason = some STATE_UNREADABLE) := by
  cases h with
  | invalid _ => exact ⟨rfl, .inr (.inl rfl)⟩
  | nonPositive _ _ _ hentry hflatten _ _ => exact ⟨hentry, .inl hflatten⟩
  | unreadable _ _ _ => exact ⟨rfl, .inr (.inr rfl)⟩
  | judged _ _ hprepared _ _ hjudged =>
    have hkept := kept_of_prepared hprepared
    obtain ⟨hentry, hflatten⟩ := hjudged.ddHalted (by
      rcases hw with h | h
      · exact .inr (hkept.dd h)
      · exact .inl (hkept.ddHalt h))
    exact ⟨hentry, .inl hflatten⟩

/-- A transfer is recorded in flags that are not about halts. -/
theorem transferFlags_flags (l : Limit) (state : Flags) (net : ℚ) (key : ℤ) (now : Instant)
    (txId : Option ℕ) {f : Flag}
    (hf : f ∈ (cursorFlag txId ++ transferFlags l state net key now).map Prod.fst) :
    f = .dlTxId ∨ f = .ddTransfers ∨ f = .dlTransfers ∨ f = .dlLastNav := by
  rw [List.map_append, List.mem_append] at hf
  rcases hf with hf | hf
  · cases txId <;> simp_all [cursorFlag]
  · unfold transferFlags at hf
    rw [List.map_append, List.mem_append] at hf
    rcases hf with hf | hf
    · split_ifs at hf <;> simp_all
    · split_ifs at hf
      · simp_all
      · cases hb : baseline state now <;> simp_all

theorem commitTransfer_ensures {l : Limit} {state : Flags} {net : ℚ} {key : ℤ} {now : Instant}
    {txId : Option ℕ} {flags : List (Flag × Value)} {inDay : Bool} {w : World}
    (hflags : flags = [] ∨ flags = transferFlags l state net key now) :
    (commitTransfer flags txId net inDay).Ensures w (fun _ w' => Calm w w') := by
  have hothers : ∀ f, f ≠ .dlTxId → f ≠ .ddTransfers → f ≠ .dlTransfers → f ≠ .dlLastNav →
      setFlags w.store (cursorFlag txId ++ flags) f = w.store f := by
    intro f h₁ h₂ h₃ h₄
    refine setFlags_of_not_mem fun hf => ?_
    rcases hflags with rfl | rfl
    · cases txId <;> simp_all [cursorFlag]
    · rcases transferFlags_flags l state net key now txId hf with h | h | h | h
      · exact h₁ h
      · exact h₂ h
      · exact h₃ h
      · exact h₄ h
  refine ensures_access (Calm.refl w) ⟨rfl, ?_, ?_, ?_, [], by simp, by simp⟩
  · exact hothers _ (by simp) (by simp) (by simp) (by simp)
  · exact hothers _ (by simp) (by simp) (by simp) (by simp)
  · exact hothers _ (by simp) (by simp) (by simp) (by simp)

theorem applyTransfer_calm (offset : Instant → Instant) (l : Limit) (net : Option ℚ)
    (txId : Option ℕ) (actor reason : String) (now : Instant) (w : World) :
    (applyTransfer offset l net txId actor reason now).Ensures w (fun _ w' => Calm w w') := by
  cases net with
  | none => exact ensures_raise (Calm.refl w)
  | some net =>
    unfold applyTransfer
    dsimp only
    split_ifs
    · exact ensures_raise (Calm.refl w)
    · exact ensures_raise (Calm.refl w)
    · refine Ensures.bind ((@commitTransfer_ensures l w.store 0 0 now txId [] false w
        (.inl rfl)).mono fun r w' hr => ?_)
      cases r with
      | error e => exact hr
      | ok _ => exact ensures_pure hr
    · refine Ensures.bind ((readState_ensures w).mono fun r w₀ hr => ?_)
      obtain ⟨rfl, -⟩ := hr
      cases r with
      | error e => exact Calm.refl w₀
      | ok state =>
        rw [returns_ok]
        refine Ensures.bind ((commitTransfer_ensures (.inr rfl)).mono fun r w' hr => ?_)
        cases r with
        | error e => exact hr
        | ok _ =>
          refine ensures_notify_bind (ensures_pure (hr.trans ?_))
          exact ⟨rfl, rfl, rfl, rfl, _, rfl, by simp [Event.isHalt]⟩

theorem calm_of_reconciled {offset : Instant → Instant} {l : Limit} {at_ : Instant}
    {balance : Balance} {broker : Broker} {w w' : World}
    (h : Reconciled offset l at_ balance broker w w') : Calm w w' := by
  rcases h with ⟨-, rfl⟩ | ⟨current, net, -, h, -⟩
  · exact Calm.refl w'
  · have hothers : ∀ f, f ≠ .dlTxId → f ≠ .ddTransfers → f ≠ .dlTransfers → f ≠ .dlLastNav →
        w'.store f = w.store f := by
      intro f h₁ h₂ h₃ h₄
      rw [h.store]
      refine setFlags_of_not_mem fun hf => ?_
      split_ifs at hf
      · simp_all [cursorFlag]
      · rcases transferFlags_flags l w.store net _ at_ (some current) hf with h | h | h | h
        · exact h₁ h
        · exact h₂ h
        · exact h₃ h
        · exact h₄ h
    exact ⟨h.latch, hothers _ (by simp) (by simp) (by simp) (by simp),
      hothers _ (by simp) (by simp) (by simp) (by simp),
      hothers _ (by simp) (by simp) (by simp) (by simp), h.events⟩

theorem kept_of_checked {offset : Instant → Instant} {l : Limit} {at_ : Instant}
    {plannedRisk : Option (Option ℚ)} {broker : Broker} {w w' : World} {d : LossDecision}
    (h : Checked offset l at_ plannedRisk broker w d w') : Kept (dayKey offset at_) w w' := by
  cases h with
  | unavailable h =>
    obtain ⟨_, _, hseen, -⟩ := h.seen
    exact hseen.haltPart.kept
  | unusable _ hreconciled hevaluated h =>
    obtain ⟨_, _, hseen, -⟩ := h.seen
    exact (((calm_of_reconciled hreconciled).kept _).trans (kept_of_evaluated hevaluated)).trans
      hseen.haltPart.kept
  | evaluated _ hreconciled hevaluated _ _ =>
    exact ((calm_of_reconciled hreconciled).kept _).trans (kept_of_evaluated hevaluated)

/-- Some event of the call was raised because a halt flag could not be read. -/
def Unread (w w' : World) : Prop :=
  ∃ l, w'.events = w.events ++ l ∧ Event.stateUnreadable ∈ l

theorem Unread.widen {a b c : World} {k : ℤ} (hab : Kept k a b) (hbc : Unread b c) :
    Unread a c := by
  obtain ⟨l₁, h₁, -⟩ := hab.events
  obtain ⟨l₂, h₂, hmem⟩ := hbc
  exact ⟨l₁ ++ l₂, by rw [h₂, h₁, List.append_assoc], List.mem_append_right l₁ hmem⟩

theorem haltedOnly_daily {l : Limit} {key : ℤ} {w w' : World} {d : LossDecision}
    (h : HaltedOnly l key w d w') : d.entryAllowed = false ∧
      (w.latch.daily = some key → l.flatten = true → d.flattenRequired = true) ∧
      (w.store .dlHalt = some (.day key) → l.flatten = true →
        d.flattenRequired = true ∨ Unread w w') := by
  obtain ⟨daily, dd, hseen, hflatten⟩ := h.seen
  refine ⟨h.refused, fun hlatch hl => ?_, fun hflag hl => ?_⟩
  · rw [hflatten, hseen.daily_latch hlatch, hl]
    simp
  · rcases hseen.daily_flag hflag with hdaily | hunread
    · left
      rw [hflatten, hdaily, hl]
      simp
    · exact .inr hunread

theorem haltedOnly_drawdown {l : Limit} {key : ℤ} {w w' : World} {d : LossDecision}
    (h : HaltedOnly l key w d w') : d.entryAllowed = false ∧
      (w.latch.dd = true → d.flattenRequired = true) ∧
      ((w.store .ddHalt).isSome → d.flattenRequired = true ∨ Unread w w') := by
  obtain ⟨daily, dd, hseen, hflatten⟩ := h.seen
  refine ⟨h.refused, fun hlatch => ?_, fun hflag => ?_⟩
  · rw [hflatten, hseen.dd_latch hlatch]
    rfl
  · rcases hseen.dd_flag hflag with hdd | hunread
    · left
      rw [hflatten, hdd]
      rfl
    · exact .inr hunread

/-- A check under a daily halt: entries are refused and trades are to be closed, unless the
halt is in the flag only and the flag could not be read. -/
theorem checked_daily {offset : Instant → Instant} {l : Limit} {at_ : Instant}
    {plannedRisk : Option (Option ℚ)} {broker : Broker} {w w' : World} {d : LossDecision}
    (h : Checked offset l at_ plannedRisk broker w d w') :
    (w.latch.daily = some (dayKey offset at_) →
      d.entryAllowed = false ∧ (l.flatten = true → d.flattenRequired = true)) ∧
    (w.store .dlDay = some (.day (dayKey offset at_)) →
      w.store .dlHalt = some (.day (dayKey offset at_)) →
      d.entryAllowed = false ∧ (l.flatten = true → d.flattenRequired = true ∨ Unread w w')) := by
  cases h with
  | unavailable h =>
    obtain ⟨hentry, hlatch, hflag⟩ := haltedOnly_daily h
    exact ⟨fun hw => ⟨hentry, hlatch hw⟩, fun _ hw => ⟨hentry, hflag hw⟩⟩
  | unusable _ hreconciled hevaluated h =>
    have hkept := ((calm_of_reconciled hreconciled).kept _).trans (kept_of_evaluated hevaluated)
    obtain ⟨hentry, hlatch, hflag⟩ := haltedOnly_daily h
    refine ⟨fun hw => ⟨hentry, hlatch (hkept.latch hw)⟩, fun hday hw => ⟨hentry, fun hl => ?_⟩⟩
    exact (hflag (hkept.dlHalt hday hw) hl).imp_right (Unread.widen hkept)
  | evaluated _ hreconciled hevaluated hinvalid hunreadable =>
    have hcalm := (calm_of_reconciled hreconciled).kept (dayKey offset at_)
    have hdone : d.entryAllowed = false ∧ (l.flatten = true → d.flattenRequired = true ∨
        d.reason = some NAV_INVALID ∨ d.reason = some STATE_UNREADABLE) →
        d.entryAllowed = false ∧ (l.flatten = true → d.flattenRequired = true) := by
      rintro ⟨hentry, hflatten⟩
      refine ⟨hentry, fun hl => (hflatten hl).resolve_right ?_⟩
      rintro (h | h)
      · exact hinvalid h
      · exact hunreadable h
    refine ⟨fun hw => hdone (evaluated_daily hevaluated (.inl (hcalm.latch hw))),
      fun hday hw => ?_⟩
    obtain ⟨hentry, hflatten⟩ := hdone (evaluated_daily hevaluated
      (.inr ⟨hcalm.day hday, hcalm.dlHalt hday hw⟩))
    exact ⟨hentry, fun hl => .inl (hflatten hl)⟩

theorem checked_drawdown {offset : Instant → Instant} {l : Limit} {at_ : Instant}
    {plannedRisk : Option (Option ℚ)} {broker : Broker} {w w' : World} {d : LossDecision}
    (h : Checked offset l at_ plannedRisk broker w d w') :
    (w.latch.dd = true → d.entryAllowed = false ∧ d.flattenRequired = true) ∧
    ((w.store .ddHalt).isSome →
      d.entryAllowed = false ∧ (d.flattenRequired = true ∨ Unread w w')) := by
  cases h with
  | unavailable h =>
    obtain ⟨hentry, hlatch, hflag⟩ := haltedOnly_drawdown h
    exact ⟨fun hw => ⟨hentry, hlatch hw⟩, fun hw => ⟨hentry, hflag hw⟩⟩
  | unusable _ hreconciled hevaluated h =>
    have hkept := ((calm_of_reconciled hreconciled).kept _).trans (kept_of_evaluated hevaluated)
    obtain ⟨hentry, hlatch, hflag⟩ := haltedOnly_drawdown h
    exact ⟨fun hw => ⟨hentry, hlatch (hkept.dd hw)⟩,
      fun hw => ⟨hentry, (hflag (hkept.ddHalt hw)).imp_right (Unread.widen hkept)⟩⟩
  | evaluated _ hreconciled hevaluated hinvalid hunreadable =>
    have hcalm := (calm_of_reconciled hreconciled).kept (dayKey offset at_)
    have hdone : d.entryAllowed = false ∧ (d.flattenRequired = true ∨
        d.reason = some NAV_INVALID ∨ d.reason = some STATE_UNREADABLE) →
        d.entryAllowed = false ∧ d.flattenRequired = true := by
      rintro ⟨hentry, hflatten⟩
      refine ⟨hentry, hflatten.resolve_right ?_⟩
      rintro (h | h)
      · exact hinvalid h
      · exact hunreadable h
    refine ⟨fun hw => hdone (evaluated_drawdown hevaluated (.inl (hcalm.dd hw))), fun hw => ?_⟩
    obtain ⟨hentry, hflatten⟩ := hdone (evaluated_drawdown hevaluated (.inr (hcalm.ddHalt hw)))
    exact ⟨hentry, .inl hflatten⟩

/-- What a call does to halts and under them. -/
structure CallSpec (offset : Instant → Instant) (r : Request) (w : World)
    (outcome : Except String Reply) (w' : World) : Prop where
  events : ∃ l, w'.events = w.events ++ l ∧ Backed (dayKey offset r.at_) l w' ∧
    (.drawdownReleasing ∉ l → (w.store .ddHalt).isSome → (w'.store .ddHalt).isSome)
  day : w.store .dlDay = some (.day (dayKey offset r.at_)) →
    w'.store .dlDay = some (.day (dayKey offset r.at_))
  latch : r.call ≠ .restart → (∀ a b, r.call = .clearDailyHalt a b → outcome ≠ .ok .done) →
    w.latch.daily = some (dayKey offset r.at_) → w'.latch.daily = some (dayKey offset r.at_)
  dlHalt : (∀ a b, r.call = .clearDailyHalt a b → outcome ≠ .ok .done) →
    w.store .dlDay = some (.day (dayKey offset r.at_)) →
    w.store .dlHalt = some (.day (dayKey offset r.at_)) →
    w'.store .dlHalt = some (.day (dayKey offset r.at_))
  dd : r.call ≠ .restart → (∀ a b, r.call = .clearDrawdownHalt a b → outcome ≠ .ok .done) →
    w.latch.dd = true → w'.latch.dd = true
  daily_latch : ∀ d, outcome = .ok (.decision d) → w.latch.daily = some (dayKey offset r.at_) →
    d.entryAllowed = false ∧ (r.limit.flatten = true → Flattens r.call d)
  daily_flag : ∀ d, outcome = .ok (.decision d) →
    w.store .dlDay = some (.day (dayKey offset r.at_)) →
    w.store .dlHalt = some (.day (dayKey offset r.at_)) →
    d.entryAllowed = false ∧ (r.limit.flatten = true → Flattens r.call d ∨ Unread w w')
  dd_latch : ∀ d, outcome = .ok (.decision d) → w.latch.dd = true →
    d.entryAllowed = false ∧ Flattens r.call d
  dd_flag : ∀ d, outcome = .ok (.decision d) → (w.store .ddHalt).isSome →
    d.entryAllowed = false ∧ (Flattens r.call d ∨ Unread w w')

/-- A call that decides nothing and keeps the halts. -/
theorem CallSpec.of_kept {offset : Instant → Instant} {r : Request} {w w' : World}
    {outcome : Except String Reply} (h : Kept (dayKey offset r.at_) w w')
    (hout : ∀ d, outcome ≠ .ok (.decision d)) : CallSpec offset r w outcome w' := by
  obtain ⟨l, hl, hbacked⟩ := h.events
  exact ⟨⟨l, hl, hbacked, fun _ => h.ddHalt⟩, h.day, fun _ _ => h.latch, fun _ => h.dlHalt,
    fun _ _ => h.dd, fun d hd => absurd hd (hout d), fun d hd => absurd hd (hout d),
    fun d hd => absurd hd (hout d), fun d hd => absurd hd (hout d)⟩

theorem clearDailyHalt_ensures (offset : Instant → Instant) {r : Request} {actor reason : String}
    (hcall : r.call = .clearDailyHalt actor reason) (w : World) :
    (clearDailyHalt actor reason).Ensures w (fun outcome w' =>
      CallSpec offset r w (outcome.map (fun _ => .done)) w') := by
  have hraised : ∀ e : String, CallSpec offset r w (.error e) w := fun e =>
    CallSpec.of_kept (Kept.refl _ w) (by simp)
  have hcleared : ∀ w' : World, (∀ f, f ≠ .dlHalt → w'.store f = w.store f) →
      w'.latch.dd = w.latch.dd → (∃ day, w'.events = w.events ++ [.dailyHaltCleared day actor reason]) →
      CallSpec offset r w (.ok .done) w' := by
    rintro w' hothers hdd ⟨day, hevents⟩
    refine ⟨⟨_, hevents, .of_quiet (by simp [Event.isHalt]), fun _ h => ?_⟩, fun h => ?_,
      fun _ h => absurd rfl (h _ _ hcall), fun h => absurd rfl (h _ _ hcall), fun _ _ h => ?_,
      by simp, by simp, by simp, by simp⟩
    · rw [hothers .ddHalt (by simp)]
      exact h
    · rw [hothers .dlDay (by simp)]
      exact h
    · rw [hdd]
      exact h
  unfold clearDailyHalt
  split_ifs
  · exact ensures_raise (hraised _)
  · refine ensures_flag_bind (hraised _) (ensures_setFlag_bind (hraised _)
      (ensures_modify_bind (ensures_modify (hcleared _ ?_ rfl ⟨_, rfl⟩))))
    exact fun f hf => by simp [hf]

theorem clearDrawdownHalt_ensures (offset : Instant → Instant) {r : Request}
    {actor reason : String} (hcall : r.call = .clearDrawdownHalt actor reason) (w : World) :
    (clearDrawdownHalt actor reason).Ensures w (fun outcome w' =>
      CallSpec offset r w (outcome.map (fun _ => .done)) w') := by
  have hraised : ∀ e : String, CallSpec offset r w (.error e) w := fun e =>
    CallSpec.of_kept (Kept.refl _ w) (by simp)
  -- from the first write on, whatever becomes of the others
  have hreleasing : ∀ (outcome : Except String Reply) (w' : World), (∀ d, outcome ≠ .ok (.decision d)) →
      (∀ f, f ≠ .ddHalt → f ≠ .ddStart → f ≠ .ddTransfers → w'.store f = w.store f) →
      w'.latch.daily = w.latch.daily → (outcome ≠ .ok .done → w'.latch.dd = w.latch.dd) →
      (∃ l, w'.events = w.events ++ .drawdownReleasing :: l ∧ ∀ e ∈ l, e.isHalt = false) →
      CallSpec offset r w outcome w' := by
    rintro outcome w' hout hothers hdaily hdd ⟨l, hl, hquiet⟩
    refine ⟨⟨_, hl, .of_quiet (by simpa [Event.isHalt] using hquiet), fun h => ?_⟩, fun h => ?_,
      fun _ _ h => hdaily ▸ h, fun _ _ h => ?_, fun _ hne h => ?_,
      fun d hd => absurd hd (hout d), fun d hd => absurd hd (hout d),
      fun d hd => absurd hd (hout d), fun d hd => absurd hd (hout d)⟩
    · exact absurd List.mem_cons_self h
    · rw [hothers .dlDay (by simp) (by simp) (by simp)]
      exact h
    · rw [hothers .dlHalt (by simp) (by simp) (by simp)]
      exact h
    · rw [hdd (hne _ _ hcall)]
      exact h
  unfold clearDrawdownHalt
  split_ifs
  · exact ensures_raise (hraised _)
  · refine ensures_setFlag_bind (hraised _) (ensures_notify_bind (ensures_setFlag_bind ?_
      (ensures_setFlag_bind ?_ (ensures_modify_bind (ensures_modify ?_)))))
    · exact hreleasing _ _ (by simp [Except.map]) (fun f h₁ _ _ => by simp [h₁]) rfl (fun _ => rfl)
        ⟨[], by simp, by simp⟩
    · exact hreleasing _ _ (by simp [Except.map]) (fun f h₁ h₂ _ => by simp [h₁, h₂]) rfl (fun _ => rfl)
        ⟨[], by simp, by simp⟩
    · exact hreleasing _ _ (by simp [Except.map]) (fun f h₁ h₂ h₃ => by simp [h₁, h₂, h₃]) rfl
        (fun h => absurd rfl h) ⟨[.drawdownHaltCleared actor reason], by simp,
          by simp [Event.isHalt]⟩

theorem request_ensures (offset : Instant → Instant) (r : Request) (w : World) :
    (r.program offset).Ensures w (fun outcome w' => CallSpec offset r w outcome w') := by
  obtain ⟨l, at_, call⟩ := r
  cases call with
  | evaluate nav plannedRisk =>
    refine Ensures.then (evaluate_ensures offset l nav plannedRisk at_ w) fun d w' hd => ?_
    have hkept := kept_of_evaluated hd
    obtain ⟨raised, hraised, hbacked⟩ := hkept.events
    have hflattens : (d.flattenRequired = true ∨ d.reason = some NAV_INVALID ∨
        d.reason = some STATE_UNREADABLE) → Flattens (.evaluate nav plannedRisk) d := by
      rintro (h | h)
      · exact .inl h
      · exact .inr ⟨⟨_, _, rfl⟩, h⟩
    refine ensures_pure ⟨⟨raised, hraised, hbacked, fun _ => hkept.ddHalt⟩, hkept.day,
      fun _ _ => hkept.latch, fun _ => hkept.dlHalt, fun _ _ => hkept.dd, ?_, ?_, ?_, ?_⟩
    · rintro _ ⟨rfl⟩ h
      obtain ⟨hentry, hflatten⟩ := evaluated_daily hd (.inl h)
      exact ⟨hentry, fun hl => hflattens (hflatten hl)⟩
    · rintro _ ⟨rfl⟩ hday h
      obtain ⟨hentry, hflatten⟩ := evaluated_daily hd (.inr ⟨hday, h⟩)
      exact ⟨hentry, fun hl => .inl (hflattens (hflatten hl))⟩
    · rintro _ ⟨rfl⟩ h
      obtain ⟨hentry, hflatten⟩ := evaluated_drawdown hd (.inl h)
      exact ⟨hentry, hflattens hflatten⟩
    · rintro _ ⟨rfl⟩ h
      obtain ⟨hentry, hflatten⟩ := evaluated_drawdown hd (.inr h)
      exact ⟨hentry, .inl (hflattens hflatten)⟩
  | lossCheck plannedRisk broker =>
    refine Ensures.then (lossCheck_ensures offset l at_ plannedRisk broker w) fun d w' hd => ?_
    have hkept := kept_of_checked hd
    obtain ⟨raised, hraised, hbacked⟩ := hkept.events
    obtain ⟨hlatch, hflag⟩ := checked_daily hd
    obtain ⟨hddLatch, hddFlag⟩ := checked_drawdown hd
    refine ensures_pure ⟨⟨raised, hraised, hbacked, fun _ => hkept.ddHalt⟩, hkept.day,
      fun _ _ => hkept.latch, fun _ => hkept.dlHalt, fun _ _ => hkept.dd, ?_, ?_, ?_, ?_⟩
    · rintro _ ⟨rfl⟩ h
      exact ⟨(hlatch h).1, fun hl => .inl ((hlatch h).2 hl)⟩
    · rintro _ ⟨rfl⟩ hday h
      exact ⟨(hflag hday h).1, fun hl => ((hflag hday h).2 hl).imp_left .inl⟩
    · rintro _ ⟨rfl⟩ h
      exact ⟨(hddLatch h).1, .inl (hddLatch h).2⟩
    · rintro _ ⟨rfl⟩ h
      exact ⟨(hddFlag h).1, (hddFlag h).2.imp_left .inl⟩
  | applyTransfer net txId actor reason =>
    refine Ensures.bind ((applyTransfer_calm offset l net txId actor reason at_ w).mono
      fun outcome w' hcalm => ?_)
    cases outcome with
    | error e => exact CallSpec.of_kept (hcalm.kept _) (by simp)
    | ok _ => exact ensures_pure (CallSpec.of_kept (hcalm.kept _) (by simp))
  | haltState =>
    refine Ensures.then (haltState_ensures (dayKey offset at_) w) fun seen w' hseen => ?_
    exact ensures_pure (CallSpec.of_kept hseen.haltPart.kept (by simp))
  | clearDailyHalt actor reason =>
    refine Ensures.bind ((clearDailyHalt_ensures offset
      (r := ⟨l, at_, .clearDailyHalt actor reason⟩) rfl w).mono fun outcome w' hspec => ?_)
    cases outcome with
    | error e => exact hspec
    | ok _ => exact ensures_pure hspec
  | clearDrawdownHalt actor reason =>
    refine Ensures.bind ((clearDrawdownHalt_ensures offset
      (r := ⟨l, at_, .clearDrawdownHalt actor reason⟩) rfl w).mono fun outcome w' hspec => ?_)
    cases outcome with
    | error e => exact hspec
    | ok _ => exact ensures_pure hspec
  | restart =>
    refine ensures_modify_bind (ensures_pure ⟨⟨[], by simp, .of_quiet (by simp), fun _ => id⟩, id,
      fun h => absurd rfl h, fun _ _ => id, fun h => absurd rfl h, by simp, by simp, by simp,
      by simp⟩)

/-! ## Runs -/

/-- An answer together with the states around it. -/
def Answers (offset : Instant → Instant) (s : Served) (w w' : World) : Prop :=
  CallSpec offset s.request w s.outcome w' ∧ w'.events = w.events ++ s.raised

variable {offset : Instant → Instant} {fails : ℕ → Bool}

/-- The first answer of a transcript and the rest. -/
theorem transcript_cons {r : Request} {rest : List Request} {s : ℕ × World} :
    ∃ (a : Served) (s' : ℕ × World), (transcript offset fails (r :: rest) s).1 = a :: (transcript offset fails rest s').1 ∧
      a.request = r ∧ Answers offset a s.2 s'.2 := by
  have hspec := @Ensures.run _ _ _ fails s _ (request_ensures offset r s.2)
  refine ⟨_, ((r.program offset).run fails s).2, rfl, rfl, hspec, ?_⟩
  obtain ⟨l, hl, -⟩ := hspec.events
  show ((r.program offset).run fails s).2.2.events = s.2.events ++
    ((r.program offset).run fails s).2.2.events.drop s.2.events.length
  rw [hl, List.drop_left]

/-- A transcript may be cut at any of its answers. -/
theorem transcript_split {requests : List Request} {s : ℕ × World} {before after : List Served}
    {a : Served} (h : (transcript offset fails requests s).1 = before ++ a :: after) :
    ∃ (s₀ s₁ : ℕ × World) (rest : List Request), Answers offset a s₀.2 s₁.2 ∧
      (transcript offset fails rest s₁).1 = after ∧
      requests.map Request.at_ =
        before.map (fun s => s.request.at_) ++ a.request.at_ :: rest.map Request.at_ := by
  induction before generalizing requests s with
  | nil =>
    cases requests with
    | nil => exact absurd h (by simp [transcript])
    | cons r rest =>
      obtain ⟨b, s', hb, hreq, hanswers⟩ := @transcript_cons offset fails r rest s
      rw [hb] at h
      obtain ⟨rfl, rfl⟩ := List.cons.inj h
      exact ⟨s, s', rest, hanswers, rfl, by simp [hreq]⟩
  | cons b before ih =>
    cases requests with
    | nil => exact absurd h (by simp [transcript])
    | cons r rest =>
      obtain ⟨b', s', hb, hreq, -⟩ := @transcript_cons offset fails r rest s
      rw [hb] at h
      obtain ⟨rfl, hrest⟩ := List.cons.inj h
      obtain ⟨s₀, s₁, tail, hanswers, hafter, htimes⟩ := ih hrest
      exact ⟨s₀, s₁, tail, hanswers, hafter, by simp [hreq, htimes]⟩

/-- What every answer up to some later one keeps holds when that one is made. -/
theorem transcript_keeps {P : World → Prop} {requests : List Request} {s : ℕ × World}
    {between after : List Served} {d : Served} (hP : P s.2)
    (h : (transcript offset fails requests s).1 = between ++ d :: after)
    (hkeep : ∀ a ∈ between, ∀ w w', Answers offset a w w' → P w → P w') :
    ∃ w w', P w ∧ Answers offset d w w' := by
  induction between generalizing requests s with
  | nil =>
    cases requests with
    | nil => exact absurd h (by simp [transcript])
    | cons r rest =>
      obtain ⟨b, s', hb, -, hanswers⟩ := @transcript_cons offset fails r rest s
      rw [hb] at h
      obtain ⟨rfl, -⟩ := List.cons.inj h
      exact ⟨s.2, s'.2, hP, hanswers⟩
  | cons a between ih =>
    cases requests with
    | nil => exact absurd h (by simp [transcript])
    | cons r rest =>
      obtain ⟨b, s', hb, -, hanswers⟩ := @transcript_cons offset fails r rest s
      rw [hb] at h
      obtain ⟨rfl, hrest⟩ := List.cons.inj h
      exact ih (hkeep _ List.mem_cons_self _ _ hanswers hP) hrest
        (fun q hq => hkeep q (List.mem_cons_of_mem _ hq))

theorem not_clear_of_clearsDaily {s : Served} (h : s.clearsDaily = false) :
    ∀ a b, s.request.call = .clearDailyHalt a b → s.outcome ≠ .ok .done := by
  intro a b hcall hout
  simp [Served.clearsDaily, hcall, hout] at h

theorem not_clear_of_clearsDrawdown {s : Served} (h : s.clearsDrawdown = false) :
    ∀ a b, s.request.call = .clearDrawdownHalt a b → s.outcome ≠ .ok .done := by
  intro a b hcall hout
  simp [Served.clearsDrawdown, hcall, hout] at h

theorem not_restart_of_restarts {s : Served} (h : s.restarts = false) :
    s.request.call ≠ .restart := by
  intro hcall
  simp [Served.restarts, hcall] at h

theorem Answers.backed {a : Served} {w w' : World} (h : Answers offset a w w') :
    Backed (dayKey offset a.request.at_) a.raised w' := by
  obtain ⟨l, hl, hbacked, -⟩ := h.1.events
  have : l = a.raised := List.append_cancel_left (hl.symm.trans h.2)
  exact this ▸ hbacked

theorem Answers.unread {a : Served} {w w' : World} (h : Answers offset a w w')
    (hunread : Unread w w') : .stateUnreadable ∈ a.raised := by
  obtain ⟨l, hl, hmem⟩ := hunread
  have : l = a.raised := List.append_cancel_left (hl.symm.trans h.2)
  exact this ▸ hmem

theorem Answers.ddHalt {a : Served} {w w' : World} (h : Answers offset a w w')
    (hreleasing : .drawdownReleasing ∉ a.raised) (hdd : (w.store .ddHalt).isSome) :
    (w'.store .ddHalt).isSome := by
  obtain ⟨l, hl, -, hkeep⟩ := h.1.events
  have : l = a.raised := List.append_cancel_left (hl.symm.trans h.2)
  exact hkeep (this ▸ hreleasing) hdd

/-- A halt that was reported stays in force: within the process until a clear of it
succeeds, and across processes if its flag was written, as far as the flag can be read and
no clear has begun to delete it. The daily halt is in force on its own day. -/
theorem loss_halts_are_sticky (offset : Instant → Instant) (hzone : Monotone (dayKey offset))
    (fails : ℕ → Bool) (store : Flags) (requests : List Request)
    (horder : (requests.map Request.at_).Pairwise (· ≤ ·)) {before between after : List Served}
    {c d : Served} {decision : LossDecision}
    (hrun : (transcript offset fails requests (0, start store)).1 =
      before ++ c :: between ++ d :: after)
    (hdecision : d.outcome = .ok (.decision decision)) :
    (∀ k pnl floor e0 nav, .dailyLossHalt k pnl floor e0 nav ∈ c.raised →
      dayKey offset d.request.at_ = k → (∀ s ∈ between, s.clearsDaily = false) →
      ((∀ s ∈ between, s.restarts = false) → decision.entryAllowed = false ∧
        (d.request.limit.flatten = true → Flattens d.request.call decision)) ∧
      (Written c.raised → decision.entryAllowed = false ∧
        (d.request.limit.flatten = true → Flattens d.request.call decision ∨
          .stateUnreadable ∈ d.raised))) ∧
    (∀ nav start floor drawdown day, .drawdownHalt nav start floor drawdown day ∈ c.raised →
      ((∀ s ∈ between, s.restarts = false) → (∀ s ∈ between, s.clearsDrawdown = false) →
        decision.entryAllowed = false ∧ Flattens d.request.call decision) ∧
      (Written c.raised → (∀ s ∈ between, .drawdownReleasing ∉ s.raised) →
        decision.entryAllowed = false ∧ (Flattens d.request.call decision ∨
          .stateUnreadable ∈ d.raised))) := by
  rw [List.append_assoc, List.cons_append] at hrun
  obtain ⟨s₀, s₁, rest, hc, hafter, htimes⟩ := transcript_split hrun
  have hbacked := hc.backed
  refine ⟨fun k pnl floor e0 nav he hk hclear => ?_, fun nav start floor drawdown day he => ?_⟩
  · obtain ⟨rfl, hlatch, hday, hflag⟩ := hbacked.daily k pnl floor e0 nav he
    -- every call in between is on the same day
    have hsame : ∀ s ∈ between, dayKey offset s.request.at_ = dayKey offset c.request.at_ := by
      intro s hs
      obtain ⟨-, -, tail, -, -, hrest⟩ := transcript_split hafter
      rw [htimes, hrest] at horder
      obtain ⟨-, hordered, -⟩ := List.pairwise_append.mp horder
      obtain ⟨hfirst, hothers⟩ := List.pairwise_cons.mp hordered
      have hmem : s.request.at_ ∈ between.map (fun s => s.request.at_) :=
        List.mem_map_of_mem hs
      have hle := hfirst _ (List.mem_append_left _ hmem)
      have hge := (List.pairwise_append.mp hothers).2.2 _ hmem d.request.at_ List.mem_cons_self
      exact le_antisymm (hk ▸ hzone hge) (hzone hle)
    refine ⟨fun hrestart => ?_, fun hwritten => ?_⟩
    · obtain ⟨w, w', hw, hd⟩ := transcript_keeps
        (P := fun w => w.latch.daily = some (dayKey offset c.request.at_)) hlatch hafter
        (fun s hs w w' ha hw => by
          have hkept := ha.1.latch (not_restart_of_restarts (hrestart s hs))
            (not_clear_of_clearsDaily (hclear s hs))
          rw [hsame s hs] at hkept
          exact hkept hw)
      exact hd.1.daily_latch decision hdecision (hk ▸ hw)
    · obtain ⟨w, w', ⟨hw, hw'⟩, hd⟩ := transcript_keeps
        (P := fun w => w.store .dlDay = some (.day (dayKey offset c.request.at_)) ∧
          w.store .dlHalt = some (.day (dayKey offset c.request.at_))) ⟨hday, hflag hwritten⟩ hafter
        (fun s hs w w' ha hw => by
          have hkept := ha.1.dlHalt (not_clear_of_clearsDaily (hclear s hs))
          have hday' := ha.1.day
          rw [hsame s hs] at hkept hday'
          exact ⟨hday' hw.1, hkept hw.1 hw.2⟩)
      obtain ⟨hentry, hflatten⟩ := hd.1.daily_flag decision hdecision (hk ▸ hw) (hk ▸ hw')
      exact ⟨hentry, fun hl => (hflatten hl).imp_right hd.unread⟩
  · obtain ⟨hlatch, hflag⟩ := hbacked.drawdown nav start floor drawdown day he
    refine ⟨fun hrestart hclear => ?_, fun hwritten hreleasing => ?_⟩
    · obtain ⟨w, w', hw, hd⟩ := transcript_keeps (P := fun w => w.latch.dd = true) hlatch hafter
        (fun s hs w w' ha hw => ha.1.dd (not_restart_of_restarts (hrestart s hs))
          (not_clear_of_clearsDrawdown (hclear s hs)) hw)
      exact hd.1.dd_latch decision hdecision hw
    · obtain ⟨w, w', hw, hd⟩ := transcript_keeps (P := fun w => (w.store .ddHalt).isSome)
        (hflag hwritten) hafter (fun s hs w w' ha hw => ha.ddHalt (hreleasing s hs) hw)
      obtain ⟨hentry, hflatten⟩ := hd.1.dd_flag decision hdecision hw
      exact ⟨hentry, hflatten.imp_right hd.unread⟩

/-! ## Samples -/

def Served.decision? (s : Served) : Option LossDecision :=
  match s.outcome with
  | .ok (.decision d) => some d
  | _ => none

def sampleLimit : Limit := Limit.make (some LIMIT_FRACTION) true none

def unreachableBroker : Broker := ⟨.error "BrokerUnavailable", fun _ => .error "BrokerUnavailable"⟩

/-- Of every call at one moment: whether a halt was raised, and what was decided on entries
and on open trades. -/
def outline (fails : ℕ → Bool) (calls : List Call) : List (Bool × Option (Bool × Bool)) :=
  (transcript newYorkWinter fails (calls.map (fun c => ⟨sampleLimit, 0, c⟩))
    (0, start emptyStore)).1.map (fun s =>
      (s.raised.any Event.isHalt, s.decision?.map (fun d => (d.entryAllowed, d.flattenRequired))))

def sampleRequests : List Request :=
  [⟨sampleLimit, 0, .evaluate (some 0) none⟩, ⟨sampleLimit, 0, .restart⟩,
    ⟨sampleLimit, HOUR, .lossCheck none unreachableBroker⟩]

theorem loss_halts_are_sticky_sample :
    ∃ (c r d : Served) (decision : LossDecision),
      (transcript newYorkWinter (fun _ => false) sampleRequests (0, start emptyStore)).1 =
        [c, r, d] ∧ d.outcome = .ok (.decision decision) ∧
      .drawdownHalt 0 none none none (some (-1)) ∈ c.raised ∧
      decision.entryAllowed = false ∧
        (Flattens d.request.call decision ∨ .stateUnreadable ∈ d.raised) := by
  have hrun : ∃ c r d : Served, (transcript newYorkWinter (fun _ => false) sampleRequests
      (0, start emptyStore)).1 = [] ++ c :: [r] ++ d :: [] ∧
      d.outcome = .ok (.decision ⟨false, true, some UNAVAILABLE, false, true, none, false⟩) ∧
      .drawdownHalt 0 none none none (some (-1)) ∈ c.raised ∧ Written c.raised ∧
      .drawdownReleasing ∉ r.raised := by
    refine ⟨_, _, _, rfl, by rfl, by decide +kernel, fun kind hk => ?_, by decide +kernel⟩
    rcases List.mem_singleton.mp hk with ⟨⟩
  obtain ⟨c, r, d, hrun, hd, he, hwritten, hreleasing⟩ := hrun
  have h := loss_halts_are_sticky newYorkWinter dayKey_newYorkWinter (fun _ => false) emptyStore
    sampleRequests (by decide +kernel) hrun hd
  exact ⟨c, r, d, _, hrun, hd, he,
    (h.2 0 none none none (some (-1)) he).2 hwritten (by simpa using hreleasing)⟩

/-- A halt in force that does not flatten, or is not in force: an evaluation of an unusable
NAV in the same process; a flag that cannot be read after a restart; a clear that failed
after its first write, before a restart. -/
theorem halts_not_kept :
    outline (fun _ => false) [.evaluate (some 0) none, .evaluate none none] =
      [(true, some (false, true)), (false, some (false, false))] ∧
    outline (fun n => decide (3 ≤ n))
        [.evaluate (some 0) none, .restart, .lossCheck none unreachableBroker] =
      [(true, some (false, true)), (false, none), (false, some (false, false))] ∧
    outline (fun n => decide (n = 4)) [.evaluate (some 0) none,
        .clearDrawdownHalt "operator" "review", .restart, .evaluate (some 100000) none] =
      [(true, some (false, true)), (false, none), (false, none), (false, some (true, false))] := by
  refine ⟨by rfl, by rfl, ?_⟩
  decide +kernel

end MarketSystem.LossHalts
