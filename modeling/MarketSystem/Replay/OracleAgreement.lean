import MarketSystem.Replay.OracleFill
import MarketSystem.Replay.OracleSubmission

/-!
# What the oracle accepts

The recorded write of a V1 cycle passes the check exactly when its state after the write is one that
the write can have computed from the state before it, up to the fresh ids, and its events are those
the write journaled. The oracle is a second implementation of the rules: its management, its fill gate
and its submission are compared here with those of the runtime.
-/
namespace MarketSystem.RexOracle

open Library
open MarketSystem.Database (encodeAccount stateOf)

section Accepted

variable {preState postState : Recorded} {b : PaperBroker} {events : List String}

theorem management_accepted {bar : Bar} {order : List String} (hb : b.Sound) (hl : b.Linked)
    (hjournal : b.journal = []) (hvalue : preState.value = stateOf b)
    (horder : order.Perm (b.account.openPositions.rows.map PaperPosition.symbol)) :
    checkWriteTransition preState postState (fun state => manageBar state bar order) events =
        .ok [] ↔ Wrote (ManagedBy b bar) postState events :=
  accepted_iff (.of_sound hb) hvalue (fun _ h => manageBar_answers h hjournal horder)
    fun _ => ManagedBy.distinct hb hl

theorem pending_accepted {bar : Bar} {symbol : String} (hb : b.Sound) (hjournal : b.journal = [])
    (hpolicy : b.rrPolicy = none) (hstamps : ∀ o ∈ b.orders, o.riskPolicyVersion = none)
    (hvalue : preState.value = stateOf b) :
    checkWriteTransition preState postState
        (applyPending symbol bar (ordersNote b symbol)) events = .ok [] ↔
      Wrote (FilledBy b (PaperCycle.pendingOf b symbol) bar) postState events :=
  accepted_iff (.of_sound hb) hvalue
    (fun _ h => applyPending_answers hb h hjournal hpolicy hstamps)
    fun _ => FilledBy.distinct hb (due_pendingOf hb symbol)

theorem gated_accepted {bar : Bar} {symbol : String} (hb : b.Sound) (hjournal : b.journal = [])
    (hpolicy : b.rrPolicy = none) (hstamps : ∀ o ∈ b.orders, o.riskPolicyVersion = none)
    (hvalue : preState.value = stateOf b) :
    checkWriteTransition preState postState (applyGated bar bar.timestamp
        ((PendingOrderGate.pending b.orders symbol).map PaperOrder.orderId)) events = .ok [] ↔
      Wrote (FilledBy b (PendingOrderGate.pending b.orders symbol) bar) postState events :=
  accepted_iff (.of_sound hb) hvalue
    (fun _ h => applyGated_answers hb h hjournal hpolicy hstamps (due_pending hb symbol))
    fun _ => FilledBy.distinct hb (due_pending hb symbol)

theorem submission_accepted {submit : PaperCycle.Submit} (hb : b.Sound) (hjournal : b.journal = [])
    (hplan : submit.report.tradePlan.bind (·.policyVersion) ≠ some .fx)
    (hvalue : preState.value = stateOf b) :
    checkWriteTransition preState postState
        (applySubmit (submissionOf b submit.report) (recheckNote b submit)) events = .ok [] ↔
      Wrote (SubmittedBy b submit) postState events :=
  accepted_iff (.of_sound hb) hvalue (fun _ h => applySubmit_answers h hjournal hplan)
    fun _ => SubmittedBy.distinct hplan hb

end Accepted

/-! A bar that hits the stop of the position of the sample account, recorded under a trade id that
the oracle cannot know. -/

/-- What is recorded of a broker. -/
def recordedOf (b : PaperBroker) : Recorded where
  account := some (encodeAccount b.account)
  positions := b.account.openPositions.rows
  closed := b.account.closedTrades
  orders := b.orders.rows
  fills := b.fills.rows

def stopBar : Bar where
  symbol := "EURUSD"
  timestamp := 300000000
  open_ := 100
  high := 101
  low := 98
  close := 100

theorem linked_sampleBroker : PositionCatchUp.sampleBroker.Linked where
  origin := by
    intro p hp
    obtain rfl := List.mem_singleton.mp hp
    exact ⟨_, List.mem_singleton.mpr rfl, rfl, rfl⟩
  single := by
    intro p hp q hq _
    rw [List.mem_singleton.mp hp, List.mem_singleton.mp hq]
  traded := by
    intro t ht
    cases ht

theorem unstamped_sampleBroker : ∀ o ∈ PositionCatchUp.sampleBroker.orders,
    o.riskPolicyVersion = none := by
  intro o ho
  rw [List.mem_singleton.mp ho]
  rfl

end MarketSystem.RexOracle
