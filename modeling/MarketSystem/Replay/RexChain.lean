import MarketSystem.Replay.OracleAgreement

/-!
# The chain of recorded writes

`analyze` accepts the evidence of a window when every recorded state has its digest, every write starts
from the digest that the write before it has left, only a committed write moves the chain, the last
digest is that of the stored state, and the oracle reproduces every committed write. Such a window is a
run of the runtime: it leads from its first state to the stored one through the recorded writes and
through nothing else.

What `analyze` finds besides is not followed here: in the digest of the raw tables, the flags of a
write, the references into the journal, the records of the runs, the halts and the genesis.
-/
namespace MarketSystem.RexChain

open Library RexOracle
open MarketSystem.Database (encodeAccount stateOf paperState_eq_iff sound_of_stateOf)

/-! ## The verifier -/

/-- The stage a write belongs to, with what the runtime has noted there. -/
inductive Context
  | management (bar : Bar) (order : List String)
  | pending (symbol : String) (bar : Bar) (note : OrdersNote)
  | gated (symbol : String) (bar : Bar) (orderIds : List String)
  | submission (submit : PaperCycle.Submit) (s : Submission) (recheck : Recheck)
  | other

/-- The `apply` of the stage: no rule reproduces a write of another stage. -/
def Context.apply : Context → PaperState → Except String Applied
  | .management bar order, state => manageBar state bar order
  | .pending symbol bar note, state => applyPending symbol bar note state
  | .gated _ bar orderIds, state => applyGated bar bar.timestamp orderIds state
  | .submission _ s recheck, state => applySubmit s recheck state
  | .other, _ => .error "UNEXPLAINED_WRITE"

/-- `REX_WRITE`: the states with their digests, whether the write was committed, its events. -/
structure Write (δ : Type) where
  preState : Recorded
  postState : Recorded
  pshBefore : δ
  pshAfter : δ
  committed : Bool
  events : List String
  context : Context

inductive Finding
  | pshRecomputeMismatch
  | pshChainBreak
  | eventsOnUncommittedWrite
  | finalPshMismatch
  | g14Fail
  deriving DecidableEq

section Verifier

variable {δ : Type} [DecidableEq δ] (psh : Database.PaperState → δ)

/-- `_check_write`: the chain after the write and the findings. -/
def checkWrite (chain : Option δ) (w : Write δ) : Option δ × List Finding :=
  let findings :=
    (if psh w.preState.value ≠ w.pshBefore then [.pshRecomputeMismatch] else []) ++
    (if psh w.postState.value ≠ w.pshAfter then [.pshRecomputeMismatch] else []) ++
    (if chain.any (fun last => decide (w.pshBefore ≠ last)) then [.pshChainBreak] else [])
  if w.committed then (some w.pshAfter, findings)
  else
    (chain.or (some w.pshBefore),
      findings ++ if w.events ≠ [] then [.eventsOnUncommittedWrite] else [])

/-- The loop of `analyze` over the writes, in the order of the journal. -/
def checkWrites : Option δ → List (Write δ) → Option δ × List Finding
  | chain, [] => (chain, [])
  | chain, w :: ws =>
    let (next, findings) := checkWrite psh chain w
    let (last, rest) := checkWrites next ws
    (last, findings ++ rest)

/-- The verdict of the oracle on a committed write. -/
def g14 (w : Write δ) : List Finding :=
  if w.committed then
    match checkWriteTransition w.preState w.postState w.context.apply w.events with
    | .ok [] => []
    | _ => [.g14Fail]
  else []

/-- `analyze` on the writes of a window and the stored state. -/
def analyze (writes : List (Write δ)) (current : Database.PaperState) : List Finding :=
  let (chain, findings) := checkWrites psh none writes
  findings ++
    (if chain.any (fun last => decide (psh current ≠ last)) then [.finalPshMismatch] else []) ++
    writes.flatMap g14

end Verifier

/-! ## Runs of the runtime -/

/-- An account that a V1 cycle can load. -/
structure V1 (b : PaperBroker) : Prop where
  sound : b.Sound
  linked : b.Linked
  unstamped : ∀ o ∈ b.orders, o.riskPolicyVersion = none

/-- What the write of the stage makes of the account. -/
def Context.Result (b : PaperBroker) : Context → PaperBroker → Prop
  | .management bar _ => ManagedBy b bar
  | .pending symbol bar _ => FilledBy b (PaperCycle.pendingOf b symbol) bar
  | .gated symbol bar _ => FilledBy b (PendingOrderGate.pending b.orders symbol) bar
  | .submission submit _ _ => SubmittedBy b submit
  | .other => fun _ => False

/-- The notes are those the runtime takes of the account it has loaded. -/
inductive Context.Noted (b : PaperBroker) : Context → Prop
  | management (bar : Bar) {order : List String}
      (h : order.Perm (b.account.openPositions.rows.map PaperPosition.symbol)) :
      Noted b (.management bar order)
  | pending (symbol : String) (bar : Bar) : Noted b (.pending symbol bar (ordersNote b symbol))
  | gated (symbol : String) (bar : Bar) : Noted b (.gated symbol bar
      ((PendingOrderGate.pending b.orders symbol).map PaperOrder.orderId))
  | submission (submit : PaperCycle.Submit)
      (h : submit.report.tradePlan.bind (·.policyVersion) ≠ some .fx) :
      Noted b (.submission submit (submissionOf b submit.report) (recheckNote b submit))

/-- What the recorder promises of a committed write: the notes are of the loaded account, and no
position was opened under the id of a closed one. -/
structure Write.Observed {δ : Type} (w : Write δ) : Prop where
  noted : ∃ b, b.journal = [] ∧ b.rrPolicy = none ∧ w.preState.value = stateOf b ∧
    w.context.Noted b
  drawn : ∀ p ∈ w.postState.positions,
    (∀ q ∈ w.preState.positions, q.positionId ≠ p.positionId) →
    ∀ t ∈ w.preState.closed, t.positionId ≠ p.positionId

/-- A committed write that took a V1 cycle from the account it has loaded to another. -/
structure Write.Step {δ : Type} (w : Write δ) (b c : PaperBroker) : Prop where
  loaded : V1 b
  journal : b.journal = []
  policy : b.rrPolicy = none
  pre : w.preState.value = stateOf b
  noted : w.context.Noted b
  result : w.context.Result b c
  post : w.postState.value = stateOf c
  events : w.events = c.journal.map (·.eventType)

/-- The recorded digests are those of the recorded states. -/
structure Write.Digested {δ : Type} (psh : Database.PaperState → δ) (w : Write δ) : Prop where
  before : psh w.preState.value = w.pshBefore
  after : psh w.postState.value = w.pshAfter

/-- The writes are the record of a run of the runtime from one state to another. -/
inductive Reproduced {δ : Type} (psh : Database.PaperState → δ) :
    Database.PaperState → List (Write δ) → Database.PaperState → Prop
  | done (s : Database.PaperState) : Reproduced psh s [] s
  | uncommitted {w : Write δ} {ws : List (Write δ)} {t : Database.PaperState}
      (hw : w.committed = false) (hdigests : w.Digested psh) (hevents : w.events = [])
      (rest : Reproduced psh w.preState.value ws t) : Reproduced psh w.preState.value (w :: ws) t
  | committed {w : Write δ} {ws : List (Write δ)} {t : Database.PaperState} {b c : PaperBroker}
      (hw : w.committed = true) (hdigests : w.Digested psh) (hstep : w.Step b c)
      (rest : Reproduced psh w.postState.value ws t) : Reproduced psh w.preState.value (w :: ws) t

section Steps

variable {b c : PaperBroker}

theorem V1.of_stateOf (hb : V1 b) (he : stateOf b = stateOf c) : V1 c := by
  obtain ⟨-, hp, ht, ho, -⟩ := paperState_eq_iff.mp he
  refine ⟨sound_of_stateOf hb.sound he, ⟨fun p h => ?_, fun p h q h' => ?_, fun t h t' h' => ?_⟩,
    fun o h => hb.unstamped o ((ho o).mpr h)⟩
  · obtain ⟨o, hmem, horigin⟩ := hb.linked.origin p ((hp p).mpr h)
    exact ⟨o, (ho o).mp hmem, horigin⟩
  · exact hb.linked.single p ((hp p).mpr h) q ((hp q).mpr h')
  · exact hb.linked.traded t (ht.mem_iff.mpr h) t' (ht.mem_iff.mpr h')

/-- A saved change that stamps no order leaves an account of V1. -/
theorem V1.of_saved (h : b.Saved c) (hunstamped : ∀ o ∈ c.orders, o.riskPolicyVersion = none) :
    V1 c :=
  ⟨h.sound, h.linked, hunstamped⟩

theorem unstamped_put {t : Orders} {o : PaperOrder} (h : ∀ q ∈ t, q.riskPolicyVersion = none)
    (ho : o.riskPolicyVersion = none) : ∀ q ∈ t.put o, q.riskPolicyVersion = none := by
  intro q hq
  rcases Table.mem_put.mp hq with rfl | ⟨hq, -⟩
  · exact ho
  · exact h q hq

theorem V1.managed {bar : Bar} (hb : V1 b) (h : ManagedBy b bar c) : V1 c := by
  obtain ⟨tradeId, hfresh, rfl⟩ := h
  refine .of_saved (OneExposure.processBar_saved hb.sound hb.linked hfresh bar) ?_
  have horders : (TradeManager.processBar b bar tradeId).1.orders = b.orders := by
    cases hclosed : bar.isClosed with
    | false => simp [TradeManager.processBar, hclosed]
    | true =>
      rcases TradeManager.processBar_cases b tradeId hclosed with ⟨-, h⟩ | ⟨p, -, -, -, h⟩ |
        ⟨p, price, reason, -, -, -, -, -, h, -⟩
      · rw [h]
      · rw [h]
      · exact h
  rw [horders]
  exact hb.unstamped

/-- A fill keeps V1 where the id of its position is not that of a closed one. -/
theorem V1.filled {due : List PaperOrder} {bar : Bar} (hb : V1 b) (hdue : Due b due)
    (h : FilledBy b due bar c) (hdrawn : ∀ p ∈ c.account.openPositions,
      (∀ q ∈ b.account.openPositions, q.positionId ≠ p.positionId) →
      ∀ t ∈ b.account.closedTrades, t.positionId ≠ p.positionId) : V1 c := by
  obtain ⟨fillId, positionId, hfill, hposition, hloop⟩ := h
  cases hdue with
  | none => exact Except.ok.inj hloop ▸ hb
  | @one o ho hpending =>
    rw [foldlM_one] at hloop
    unfold meet at hloop
    cases hasOf : o.asOf with
    | none => simp [hasOf] at hloop
    | some asOf =>
      simp only [hasOf] at hloop
      split_ifs at hloop with hlate
      · cases hnext : b.processNextBar o bar fillId positionId with
        | error e => simp [hnext, Except.map] at hloop
        | ok result =>
          obtain ⟨d, opened⟩ := result
          simp only [hnext, Except.map, Except.ok.injEq] at hloop
          subst hloop
          have hmoved : ∀ status, ∀ q ∈ b.orders.put { o with status := status },
              q.riskPolicyVersion = none := fun status =>
            unstamped_put hb.unstamped (hb.unstamped o ho)
          rcases PaperBroker.processNextBar_cases hnext with ⟨-, rfl, -⟩ |
            ⟨-, -, at_, reason, rfl | rfl⟩ | ⟨-, multiplier, -, -, -, -, -, rfl⟩
          · exact hb
          · exact .of_saved (@PaperBroker.Saved.leave _ _ hb.sound hb.linked _ ho hpending .rejected
              (by decide) (by decide) rfl rfl rfl) (hmoved .rejected)
          · exact .of_saved (@PaperBroker.Saved.leave _ _ hb.sound hb.linked _ ho hpending .cancelled
              (by decide) (by decide) rfl rfl rfl) (hmoved .cancelled)
          · have hclosed : ∀ t ∈ b.account.closedTrades, t.positionId ≠ positionId :=
              hdrawn _ (Table.mem_put.mpr (.inl rfl)) hposition
            exact .of_saved ((PaperBroker.Writes.nextBar ho hfill hposition hclosed hnext).saved
              hb.sound hb.linked) (hmoved .filled)
      · exact Except.ok.inj hloop ▸ hb

theorem V1.submitted {submit : PaperCycle.Submit} (hb : V1 b)
    (hplan : submit.report.tradePlan.bind (·.policyVersion) ≠ some .fx)
    (h : SubmittedBy b submit c) : V1 c := by
  obtain ⟨now, ids, r, hfresh, happly⟩ := id h
  have hothers := GuardedWrite.sampleUuid4.fresh b
  -- the submission reads no other id
  let others : GuardedWrite.Ids :=
    { GuardedWrite.sampleUuid4.draw b with orderId := ids.orderId }
  have hids : others.Fresh b :=
    ⟨hfresh, hothers.fill, hothers.position, hothers.closed, hothers.trade⟩
  have hsame : submit.apply now others b = .ok (true, r, c) := happly
  have hsaved : b.Saved c := OneExposure.submit_saved hb.sound hb.linked hids hsame
  refine .of_saved hsaved ?_
  cases hcheck : (recheckNote b submit).refused with
  | true => exact absurd h (not_submittedBy hcheck)
  | false =>
    obtain ⟨orderId, d, order, -, hgiven, rfl⟩ := (submittedBy_iff hcheck hplan).mp h
    unfold PaperBroker.submitPlan at hgiven
    split at hgiven
    · cases hgiven
    · split at hgiven
      · rename_i existing hrun
        cases hgiven
        exact unstamped_put hb.unstamped (hb.unstamped _ (List.mem_of_find?_eq_some hrun))
      · split at hgiven
        · cases hgiven
        · cases hgiven
          exact unstamped_put (unstamped_put hb.unstamped rfl) rfl

/-- What the oracle makes of a write from the loaded account, by its stage. -/
theorem transition_accepted {context : Context} {preState postState : Recorded}
    {events : List String} (hb : V1 b) (hjournal : b.journal = []) (hpolicy : b.rrPolicy = none)
    (hvalue : preState.value = stateOf b) (hnoted : context.Noted b) :
    checkWriteTransition preState postState context.apply events = .ok [] ↔
      Wrote (context.Result b) postState events := by
  cases hnoted with
  | management bar horder => exact management_accepted hb.sound hb.linked hjournal hvalue horder
  | pending symbol bar => exact pending_accepted hb.sound hjournal hpolicy hb.unstamped hvalue
  | gated symbol bar => exact gated_accepted hb.sound hjournal hpolicy hb.unstamped hvalue
  | submission submit hplan => exact submission_accepted hb.sound hjournal hplan hvalue

/-- Every stage keeps V1. -/
theorem V1.result {context : Context} (hb : V1 b) (hnoted : context.Noted b)
    (h : context.Result b c) (hdrawn : ∀ p ∈ c.account.openPositions,
      (∀ q ∈ b.account.openPositions, q.positionId ≠ p.positionId) →
      ∀ t ∈ b.account.closedTrades, t.positionId ≠ p.positionId) : V1 c := by
  cases hnoted with
  | management bar horder => exact hb.managed h
  | pending symbol bar => exact hb.filled (due_pendingOf hb.sound symbol) h hdrawn
  | gated symbol bar => exact hb.filled (due_pending hb.sound symbol) h hdrawn
  | submission submit hplan => exact hb.submitted hplan h

end Steps

/-! ## The window -/

section Window

variable {δ : Type}

theorem g14_eq_nil {w : Write δ} (hw : w.committed = true) : g14 w = [] ↔
    checkWriteTransition w.preState w.postState w.context.apply w.events = .ok [] := by
  unfold g14
  rw [if_pos hw]
  split
  · rename_i haccepted
    exact iff_of_true rfl haccepted
  · rename_i hnot
    exact iff_of_false (List.cons_ne_nil _ _) hnot

/-- A committed write that the oracle accepts is one step. -/
theorem committed_step {w : Write δ} {b₀ : PaperBroker} (hb₀ : V1 b₀)
    (hvalue : w.preState.value = stateOf b₀) (hobserved : w.Observed)
    (haccepted : checkWriteTransition w.preState w.postState w.context.apply w.events = .ok []) :
    ∃ b c, w.Step b c ∧ V1 c := by
  obtain ⟨⟨b, hjournal, hpolicy, hloaded, hnoted⟩, hdrawn⟩ := hobserved
  have hb := hb₀.of_stateOf (hvalue.symm.trans hloaded)
  obtain ⟨c, hresult, hpost, hevents⟩ :=
    (transition_accepted hb hjournal hpolicy hloaded hnoted).mp haccepted
  obtain ⟨-, hpositions, hclosed, -, -⟩ := value_eq_iff.mp hloaded
  obtain ⟨-, hopened, -, -, -⟩ := value_eq_iff.mp hpost
  refine ⟨b, c, ⟨hb, hjournal, hpolicy, hloaded, hnoted, hresult, hpost, hevents⟩,
    hb.result hnoted hresult ?_⟩
  intro p hp hnew t ht
  exact hdrawn p (hopened.mem_iff.mpr hp) (fun q hq => hnew q (hpositions.mem_iff.mp hq)) t
    (hclosed.mem_iff.mpr ht)

variable [DecidableEq δ] {psh : Database.PaperState → δ}

theorem checkWrites_cons (chain : Option δ) (w : Write δ) (ws : List (Write δ)) :
    checkWrites psh chain (w :: ws) =
      ((checkWrites psh (checkWrite psh chain w).1 ws).1,
        (checkWrite psh chain w).2 ++ (checkWrites psh (checkWrite psh chain w).1 ws).2) := rfl

theorem analyze_eq_nil {writes : List (Write δ)} {current : Database.PaperState} :
    analyze psh writes current = [] ↔ (checkWrites psh none writes).2 = [] ∧
      (∀ last ∈ (checkWrites psh none writes).1, psh current = last) ∧
      ∀ w ∈ writes, g14 w = [] := by
  unfold analyze
  dsimp only
  rw [List.append_eq_nil_iff, List.append_eq_nil_iff, List.flatMap_eq_nil_iff, and_assoc]
  refine and_congr_right fun _ => and_congr_left fun _ => ?_
  cases (checkWrites psh none writes).1 with
  | none => simp
  | some last => simp

/-- What a write without findings says. -/
theorem checkWrite_eq_nil {chain : Option δ} {w : Write δ} : (checkWrite psh chain w).2 = [] ↔
    w.Digested psh ∧ (∀ last ∈ chain, w.pshBefore = last) ∧
      (w.committed = false → w.events = []) := by
  have hdigested : w.Digested psh ↔
      psh w.preState.value = w.pshBefore ∧ psh w.postState.value = w.pshAfter :=
    ⟨fun h => ⟨h.before, h.after⟩, fun h => ⟨h.1, h.2⟩⟩
  have hchain : chain.any (fun last => decide (w.pshBefore ≠ last)) = false ↔
      ∀ last ∈ chain, w.pshBefore = last := by
    cases chain with
    | none => simp
    | some last => simp
  rw [hdigested, ← hchain]
  unfold checkWrite
  cases w.committed with
  | true => simp [and_assoc]
  | false => simp [and_assoc]

theorem checkWrite_committed {chain : Option δ} {w : Write δ} (hw : w.committed = true) :
    (checkWrite psh chain w).1 = some w.pshAfter := by
  unfold checkWrite
  rw [if_pos hw]

theorem checkWrite_uncommitted {chain : Option δ} {w : Write δ} (hw : w.committed = false) :
    (checkWrite psh chain w).1 = chain.or (some w.pshBefore) := by
  unfold checkWrite
  rw [if_neg (by simp [hw])]

/-- A write without findings, reproduced by the oracle, is a step of the runtime or none, and the
chain stands at the state after it. -/
theorem checkWrite_step {chain : Option δ} {w : Write δ} {b₀ : PaperBroker} (hb₀ : V1 b₀)
    (hvalue : w.preState.value = stateOf b₀) (hchain : ∀ last ∈ chain, last = psh (stateOf b₀))
    (hobserved : w.committed = true → w.Observed) (hfindings : (checkWrite psh chain w).2 = [])
    (hg14 : g14 w = []) :
    ∃ c, V1 c ∧ (stateOf c = w.preState.value ∨ stateOf c = w.postState.value) ∧
      (checkWrite psh chain w).1 = some (psh (stateOf c)) ∧
      ∀ ws t, Reproduced psh (stateOf c) ws t → Reproduced psh (stateOf b₀) (w :: ws) t := by
  obtain ⟨hdigests, -, hevents⟩ := checkWrite_eq_nil.mp hfindings
  cases hcommitted : w.committed with
  | true =>
    obtain ⟨b, c, hstep, hc⟩ :=
      committed_step hb₀ hvalue (hobserved hcommitted) ((g14_eq_nil hcommitted).mp hg14)
    refine ⟨c, hc, .inr hstep.post.symm, ?_, fun ws t rest => ?_⟩
    · rw [checkWrite_committed hcommitted, ← hdigests.after, hstep.post]
    · rw [← hvalue]
      exact .committed hcommitted hdigests hstep (hstep.post ▸ rest)
  | false =>
    refine ⟨b₀, hb₀, .inl hvalue.symm, ?_, fun ws t rest => ?_⟩
    · rw [checkWrite_uncommitted hcommitted, ← hdigests.before, hvalue]
      cases chain with
      | none => rfl
      | some last => exact congrArg some (hchain last rfl)
    · rw [← hvalue]
      exact .uncommitted hcommitted hdigests (hevents hcommitted) (hvalue ▸ rest)

/-- The states of which the verifier compares the digests. -/
def recordedStates (writes : List (Write δ)) (current : Database.PaperState) :
    Set Database.PaperState :=
  {s | s = current ∨ ∃ w ∈ writes, s = w.preState.value ∨ s = w.postState.value}

/-- Writes without findings, each reproduced by the oracle, are a run of the runtime. -/
theorem checkWrites_run {states : Set Database.PaperState} (hpsh : Set.InjOn psh states)
    {writes : List (Write δ)} {b₀ : PaperBroker} (hb₀ : V1 b₀) (hmem : stateOf b₀ ∈ states)
    (hstates : ∀ w ∈ writes, w.preState.value ∈ states ∧ w.postState.value ∈ states)
    (hobserved : ∀ w ∈ writes, w.committed = true → w.Observed)
    (hfindings : (checkWrites psh (some (psh (stateOf b₀))) writes).2 = [])
    (hg14 : ∀ w ∈ writes, g14 w = []) :
    ∃ c, V1 c ∧ stateOf c ∈ states ∧ Reproduced psh (stateOf b₀) writes (stateOf c) ∧
      (checkWrites psh (some (psh (stateOf b₀))) writes).1 = some (psh (stateOf c)) := by
  induction writes generalizing b₀ with
  | nil => exact ⟨b₀, hb₀, hmem, .done _, rfl⟩
  | cons w ws ih =>
    rw [checkWrites_cons] at hfindings ⊢
    obtain ⟨hfirst, hrest⟩ := List.append_eq_nil_iff.mp hfindings
    obtain ⟨hdigests, hlast, -⟩ := checkWrite_eq_nil.mp hfirst
    obtain ⟨hpre, hpost⟩ := hstates w List.mem_cons_self
    have hvalue : w.preState.value = stateOf b₀ :=
      hpsh hpre hmem (hdigests.before.trans (hlast _ rfl))
    obtain ⟨c, hc, hsame, hnext, hstep⟩ := checkWrite_step hb₀ hvalue
      (fun last h => (Option.some.inj h).symm) (hobserved w List.mem_cons_self) hfirst
      (hg14 w List.mem_cons_self)
    have hcmem : stateOf c ∈ states := by
      rcases hsame with h | h
      · exact h ▸ hpre
      · exact h ▸ hpost
    rw [hnext] at hrest ⊢
    obtain ⟨d, hd, hdmem, hrun, hend⟩ := ih hc hcmem
      (fun v hv => hstates v (List.mem_cons_of_mem w hv))
      (fun v hv => hobserved v (List.mem_cons_of_mem w hv)) hrest
      (fun v hv => hg14 v (List.mem_cons_of_mem w hv))
    exact ⟨d, hd, hdmem, hstep ws _ hrun, hend⟩

/-- The record of a run is accepted wherever the chain stands at its first state. -/
theorem accepted_of_reproduced {s t : Database.PaperState} {writes : List (Write δ)}
    {chain : Option δ} (h : Reproduced psh s writes t) (hchain : ∀ last ∈ chain, psh s = last) :
    (checkWrites psh chain writes).2 = [] ∧
      (∀ last ∈ (checkWrites psh chain writes).1, psh t = last) ∧ ∀ w ∈ writes, g14 w = [] := by
  induction h generalizing chain with
  | done s => exact ⟨rfl, hchain, by simp⟩
  | @uncommitted w ws t hw hdigests hevents rest ih =>
    have hlast : ∀ last ∈ chain, w.pshBefore = last := fun last h =>
      hdigests.before.symm.trans (hchain last h)
    have hnext : ∀ last ∈ (checkWrite psh chain w).1, psh w.preState.value = last := by
      rw [checkWrite_uncommitted hw]
      cases chain with
      | none =>
        rintro last ⟨⟩
        exact hdigests.before
      | some first => exact hchain
    obtain ⟨hfindings, hend, hg14⟩ := ih hnext
    rw [checkWrites_cons]
    refine ⟨List.append_eq_nil_iff.mpr ⟨checkWrite_eq_nil.mpr ⟨hdigests, hlast, fun _ => hevents⟩,
      hfindings⟩, hend, List.forall_mem_cons.mpr ⟨?_, hg14⟩⟩
    simp [g14, hw]
  | @committed w ws t b c hw hdigests hstep rest ih =>
    have hlast : ∀ last ∈ chain, w.pshBefore = last := fun last h =>
      hdigests.before.symm.trans (hchain last h)
    have hnext : ∀ last ∈ (checkWrite psh chain w).1, psh w.postState.value = last := by
      rw [checkWrite_committed hw]
      rintro last ⟨⟩
      exact hdigests.after
    obtain ⟨hfindings, hend, hg14⟩ := ih hnext
    have hcommitted : w.committed = false → w.events = [] := by simp [hw]
    rw [checkWrites_cons]
    refine ⟨List.append_eq_nil_iff.mpr ⟨checkWrite_eq_nil.mpr ⟨hdigests, hlast, hcommitted⟩,
      hfindings⟩, hend, List.forall_mem_cons.mpr ⟨?_, hg14⟩⟩
    exact (g14_eq_nil hw).mpr ((transition_accepted hstep.loaded hstep.journal hstep.policy hstep.pre
      hstep.noted).mpr ⟨c, hstep.result, hstep.post, hstep.events⟩)

end Window

/-! One write, in which the position of the sample account is stopped out. -/

def stoppedOut : PaperBroker :=
  (TradeManager.processBar PositionCatchUp.sampleBroker stopBar "T1").1

def sampleWrite : Write Database.PaperState where
  preState := recordedOf PositionCatchUp.sampleBroker
  postState := recordedOf stoppedOut
  pshBefore := stateOf PositionCatchUp.sampleBroker
  pshAfter := stateOf stoppedOut
  committed := true
  events := ["STOP_HIT", "POSITION_CLOSED"]
  context := .management stopBar ["EURUSD"]

theorem sampleWrite_observed : sampleWrite.Observed where
  noted := ⟨PositionCatchUp.sampleBroker, rfl, rfl, rfl, .management stopBar (.refl _)⟩
  drawn := by
    have hnone : sampleWrite.postState.positions = [] := by decide +kernel
    intro p hp
    rw [hnone] at hp
    cases hp

end MarketSystem.RexChain
