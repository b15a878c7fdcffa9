import Mathlib.Data.Rat.Floor
import MarketSystem.Execution.PaperBroker

/-!
# PAPER units

An approved size is reduced to whole increments of the instrument before it is reviewed
and persisted. The reduction never approves a plan and never moves a price.
-/
namespace MarketSystem.PaperContracts

/-- `apply_paper_quantity_increment`; an `error` is an exception. -/
def applyPaperQuantityIncrement (report : FloorReport) (instrument : Option Instrument) :
    Except String FloorReport :=
  match report.riskDecision with
  | none => .ok report
  | some decision =>
      if decision.status ≠ .approved then .ok report
      else match instrument.bind (·.quantityIncrement) with
        | none => .error "PAPER quantity increment required"
        | some step =>
            if step ≤ 0 then .error "PAPER quantity increment required"
            else match decision.quantity with
              | none => .error "invalid approved PAPER quantity"
              | some quantity =>
                  if quantity ≤ 0 then .error "invalid approved PAPER quantity"
                  else
                    let rounded : ℚ := ⌊quantity / step⌋ * step
                    if rounded ≤ 0 then
                      .ok { report with
                        finalStatus := "RISK_REJECTED"
                        riskDecision := some { decision with
                          status := .rejected
                          quantity := some 0
                          capitalAtRisk := some 0
                          reason := "paper_quantity_below_increment" } }
                    else if rounded > quantity then
                      .error "PAPER rounding must never increase quantity"
                    else if rounded = quantity then .ok report
                    else match decision.capitalAtRisk with
                      | none => .error "TypeError"
                      | some capital =>
                          .ok { report with
                            riskDecision := some { decision with
                              quantity := some rounded
                              capitalAtRisk := some (capital * (rounded / quantity)) } }

/-- What is still approved after the reduction: the same report with a positive quantity that
is at most the approved one. -/
theorem approved_after_increment {report report' : FloorReport} {instrument : Option Instrument}
    {decision approved : RiskDecision} {quantity : ℚ}
    (hdecision : report.riskDecision = some decision) (hstatus : decision.status = .approved)
    (hquantity : decision.quantity = some quantity)
    (h : applyPaperQuantityIncrement report instrument = .ok report')
    (happroved : report'.riskDecision = some approved) (hstill : approved.status = .approved) :
    ∃ rounded, 0 < rounded ∧ rounded ≤ quantity ∧ approved.quantity = some rounded ∧
      approved = { decision with
        quantity := some rounded, capitalAtRisk := approved.capitalAtRisk } ∧
      report' = { report with riskDecision := some approved } := by
  unfold applyPaperQuantityIncrement at h
  simp only [hdecision, hstatus, ne_eq, not_true_eq_false, if_false] at h
  cases hstep : instrument.bind (·.quantityIncrement) with
  | none =>
    simp only [hstep] at h
    cases h
  | some step =>
    simp only [hstep, hquantity] at h
    split_ifs at h with h1 h2 h3 h4 h5
    · cases h
      cases happroved
      cases hstill
    · -- whole increments already: the report is unchanged
      cases h
      obtain rfl : decision = approved := Option.some.inj (hdecision.symm.trans happroved)
      refine ⟨quantity, not_le.mp h2, le_rfl, hquantity, ?_, ?_⟩
      · rw [← hquantity]
      · rw [← hdecision]
    · cases hc : decision.capitalAtRisk with
      | none =>
        simp only [hc] at h
        cases h
      | some capital =>
        simp only [hc] at h
        cases h
        cases happroved
        exact ⟨_, not_le.mp h3, not_lt.mp h4, rfl, by rw [hstatus], rfl⟩

end MarketSystem.PaperContracts
