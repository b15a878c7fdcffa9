import MarketSystem.Execution.DailyLossLimit

/-!
# The router's loss check

Each tick the router reads the account summary, folds the transfers since the
stored transaction id into the tracker and evaluates the NAV. Whatever it cannot
read it treats as a refusal; a halt that is already active flattens all the same.
What the flattening closes is not part of the decision and is left out here.
-/
namespace MarketSystem.LossCheck

open Library DailyLossLimit

/-- `BrokerBalance`, as far as the check reads it. -/
structure Balance where
  equity : Option ℚ
  lastTransactionId : Option ℕ
  deriving DecidableEq, Repr

/-- An entry of the broker's transaction list; an id or an amount may be unusable. -/
inductive Entry
  | malformed
  | transaction (type : String) (id : Option ℕ) (amount : Option ℚ)
  deriving DecidableEq, Repr

/-- The loop of `transfers_since`: the net of the transfers up to a transaction id. -/
def netTransfers (upto : ℕ) : List Entry → Except String ℚ
  | [] => .ok 0
  | .malformed :: _ => .error "transaction entry is not an object"
  | .transaction type id amount :: rest =>
      if type ≠ "TRANSFER_FUNDS" then netTransfers upto rest
      else match id, amount with
        | some id, some amount =>
            (netTransfers upto rest).map (fun net => if id ≤ upto then amount + net else net)
        | _, _ => .error "TRANSFER_FUNDS transaction with invalid id/amount"

/-- What the broker answers during one check: the summary, and the transactions after an id. -/
structure Broker where
  balance : Except String Balance
  transactions : ℕ → Except String (List Entry)

/-- Any failure is a refusal to reconcile. -/
def isReconciled : Except String Unit → M Bool
  | .ok _ => pure true
  | .error _ => pure false

/-- `_loss_transfers`: `false` when the transfers could not be reconciled. -/
def lossTransfers (offset : Instant → Instant) (l : Limit) (at_ : Instant) (balance : Balance)
    (broker : Broker) : M Bool := do
  let done ← .attempt (do
    let stored ← transactionId
    if balance.lastTransactionId = stored then pure ()
    else match balance.lastTransactionId with
      | none => .raise "summary without lastTransactionID"
      | some current => do
          let net ← match stored with
            | none => pure 0
            | some id => .ofExcept ((broker.transactions id).bind (netTransfers current))
          let _ ← applyTransfer offset l (some net) (some current) "broker" "TRANSFER_FUNDS" at_
          pure ())
  isReconciled done

/-- `_loss_halted`: no usable NAV or state. -/
def lossHalted (offset : Instant → Instant) (l : Limit) (at_ : Instant) (reason : String) :
    M LossDecision := do
  let (daily, ddHalted) ← haltState (dayKey offset at_)
  pure ⟨false, ddHalted || (daily && l.flatten), some reason, daily, ddHalted, none, false⟩

/-- `_loss_check`. -/
def lossCheck (offset : Instant → Instant) (l : Limit) (at_ : Instant)
    (plannedRisk : Option (Option ℚ)) (broker : Broker) : M LossDecision :=
  match broker.balance with
  | .error _ => lossHalted offset l at_ UNAVAILABLE
  | .ok balance => do
      let reconciled ← lossTransfers offset l at_ balance broker
      if reconciled = false then lossHalted offset l at_ UNAVAILABLE
      else do
        let evaluated ← .attempt (evaluate offset l balance.equity plannedRisk at_)
        match evaluated with
        | .error _ => lossHalted offset l at_ UNAVAILABLE
        | .ok decision =>
            if decision.reason = some NAV_INVALID ∨ decision.reason = some STATE_UNREADABLE then
              match decision.reason with
              | some reason => lossHalted offset l at_ reason
              | none => pure decision
            else pure decision

end MarketSystem.LossCheck
