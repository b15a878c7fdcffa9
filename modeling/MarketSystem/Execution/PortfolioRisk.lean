import MarketSystem.Execution.RiskReservation
import Mathlib.Logic.Relation

/-!
# Portfolio risk over whole runs

A PENDING order is backed when its durable identity proves its worst fill: a
registered policy, valid planned levels at exactly the planned ratio, and
positive numbers. Approvals build only backed orders, every later step keeps the
backing, and a backed order never opens more risk than it reserved.
-/
namespace MarketSystem.PortfolioRisk

open Library RrContract RiskEngine RiskReservation

/-! ## The backing of an order -/

/-- The data that proves the worst permitted fill of an order. -/
structure Backing (order : PaperOrder) where
  policy : RiskPolicy
  registered : policy ∈ registeredRiskPolicies
  version : order.riskPolicyVersion = some policy.version
  shape : Geometry
  side : shape.side = order.side
  entry : shape.entry = order.plannedEntry
  stop : shape.stop = order.stop
  target : shape.target = order.target
  ratio : shape.rr = policy.plannedRr
  quantity_pos : 0 < order.quantity
  multiplier : ℚ
  multiplier_eq : order.contractMultiplier = some multiplier
  multiplier_pos : 0 < multiplier

namespace Backing

variable {order : PaperOrder}

/-- The money the order may lose at its planned entry. -/
def planned (k : Backing order) : ℚ := k.shape.risk * order.quantity * k.multiplier

/-- The money the order reserves for its worst permitted fill. -/
def reserved (k : Backing order) : ℚ := k.planned * k.policy.fillMoneyRiskFactor

theorem sound (k : Backing order) : k.policy.Sound := sound_of_registered k.registered

theorem planned_pos (k : Backing order) : 0 < k.planned :=
  mul_pos (mul_pos k.shape.risk_pos k.quantity_pos) k.multiplier_pos

theorem reserved_pos (k : Backing order) : 0 < k.reserved :=
  mul_pos k.planned_pos k.sound.factor_pos

theorem pendingReservation_eq (k : Backing order) :
    pendingReservation order = some ⟨k.planned, some k.reserved⟩ := by
  have hentry : 0 < order.plannedEntry := k.entry ▸ k.shape.entry_pos
  have hstop : 0 < order.stop := k.stop ▸ k.shape.stop_pos
  have hpolicy : registeredRiskPolicy order.riskPolicyVersion = some k.policy := by
    rw [k.version]
    exact registeredRiskPolicy_of_mem k.registered
  have habs : |order.plannedEntry - order.stop| = k.shape.risk := by
    rw [← k.entry, ← k.stop, k.shape.abs_entry_sub_stop]
  simp [pendingReservation, toDecimal_of_pos hentry, toDecimal_of_pos hstop,
    toDecimal_of_pos k.quantity_pos, k.multiplier_eq, toDecimal_of_pos k.multiplier_pos, hpolicy,
    habs, planned, reserved]

/-- The fill rules of a backed order are those of its own policy, on any broker. -/
theorem fillRules_eq (k : Backing order) (b : PaperBroker) :
    b.fillRules order = .rules (some k.policy.rrPolicy) (some k.policy) := by
  simp [PaperBroker.fillRules, k.version, registeredRiskPolicy_of_mem k.registered]

end Backing

/-- The fill gate lets a backed order through only above its fill floor. -/
theorem actual_geometry_of_fill {order : PaperOrder} (k : Backing order) {b : PaperBroker}
    {fillPrice multiplier : ℚ} (h : b.fillReason order fillPrice multiplier = .ok none) :
    ∃ actual, geometry order.side fillPrice order.stop order.target = .ok actual ∧
      k.policy.minimumActualFillRr ≤ actual.rr := by
  unfold PaperBroker.fillReason at h
  simp only [k.fillRules_eq] at h
  unfold PaperBroker.fillCheck at h
  cases hg : geometry order.side fillPrice order.stop order.target with
  | error e => simp [hg] at h
  | ok actual =>
    refine ⟨actual, rfl, ?_⟩
    simp only [hg] at h
    by_cases hc : classify actual.rr (fillLimits k.policy.rrPolicy) = .withinPolicy
    · have := floor_le_of_within hc
      rwa [k.sound.fill] at this
    · simp [hc] at h

/-- The risk of the position a fill opens is the actual geometry risk in money. -/
theorem positionRisk_opened {order : PaperOrder} {actual : Geometry} {multiplier : ℚ} {bar : Bar}
    {positionId : String} (hq : 0 < order.quantity) (hm : 0 < multiplier)
    (hg : geometry order.side bar.open_ order.stop order.target = .ok actual) :
    positionRisk (PaperBroker.openedPosition order multiplier bar positionId)
      = some (actual.risk * order.quantity * multiplier) := by
  obtain ⟨hside, hentry, hstop, -⟩ := geometry_ok hg
  have hopen : 0 < bar.open_ := hentry ▸ actual.entry_pos
  have hstop' : 0 < order.stop := hstop ▸ actual.stop_pos
  have hrisk : max 0 (order.side.signed (bar.open_ - order.stop)) = actual.risk := by
    rw [actual.risk_eq, hside, hentry, hstop, max_eq_right]
    rw [← hside, ← hentry, ← hstop, ← actual.risk_eq]
    exact actual.risk_pos.le
  rw [positionRisk_eq (PaperBroker.openedPosition order multiplier bar positionId)
    hopen hstop' hq rfl hm]
  exact congrArg (fun r => some (r * order.quantity * multiplier)) hrisk

/-- A backed order opens no position, or one whose risk its reservation covers. -/
theorem fill_risk_le_reserved {order : PaperOrder} (k : Backing order) {b b' : PaperBroker}
    {bar : Bar} {fillId positionId : String} {opened : Option PaperPosition}
    (h : b.processNextBar order bar fillId positionId = .ok (b', opened)) :
    opened = none ∨ ∃ position risk, opened = some position ∧
      positionRisk position = some risk ∧ risk ≤ k.reserved := by
  rcases PaperBroker.processNextBar_cases h with ⟨-, -, rfl⟩ | ⟨-, rfl, -⟩ |
    ⟨-, multiplier, hm, hmpos, -, hreason, rfl, -⟩
  · exact .inl rfl
  · exact .inl rfl
  · right
    obtain ⟨actual, hg, hrr⟩ := actual_geometry_of_fill k hreason
    refine ⟨_, _, rfl, positionRisk_opened k.quantity_pos hmpos hg, ?_⟩
    obtain ⟨hside, -, hstop, htarget⟩ := geometry_ok hg
    have hrisk : actual.risk ≤ k.shape.risk * k.policy.fillMoneyRiskFactor := by
      have := Geometry.risk_le_of_rr_ge (hside.trans k.side.symm) (hstop.trans k.stop.symm)
        (htarget.trans k.target.symm) k.sound.floor_nonneg hrr
      rwa [k.ratio] at this
    have hmul : multiplier = k.multiplier := Option.some.inj (hm.symm.trans k.multiplier_eq)
    have hqm : 0 ≤ order.quantity * k.multiplier :=
      (mul_pos k.quantity_pos k.multiplier_pos).le
    calc actual.risk * order.quantity * multiplier
        = actual.risk * (order.quantity * k.multiplier) := by rw [hmul]; ring
      _ ≤ k.shape.risk * k.policy.fillMoneyRiskFactor * (order.quantity * k.multiplier) :=
          mul_le_mul_of_nonneg_right hrisk hqm
      _ = k.reserved := by unfold Backing.reserved Backing.planned; ring

/-! ## The total risk of a portfolio -/

def openRisk (position : PaperPosition) : ℚ := (positionRisk position).getD 0

def pendingRisk (order : PaperOrder) : ℚ :=
  if order.status = .pending then ((pendingReservation order).bind (·.reserved)).getD 0 else 0

/-- Risk of the open positions plus the risk reserved by the PENDING orders. -/
def totalRisk (p : Portfolio) : ℚ :=
  p.account.openPositions.total openRisk + p.orders.total pendingRisk

theorem openRisk_nonneg (position : PaperPosition) : 0 ≤ openRisk position := by
  unfold openRisk positionRisk
  cases he : toDecimal position.entryPrice <;> cases hs : toDecimal position.stop <;>
    cases hq : toDecimal position.quantity <;>
    cases hm : position.contractMultiplier.bind toDecimal <;> simp only [Option.getD_none,
      Option.getD_some, le_refl]
  obtain ⟨m, -, hm'⟩ := Option.bind_eq_some_iff.mp hm
  rw [toDecimal_eq_some] at hq hm'
  have hq' := hq.2 ▸ hq.1
  have hmpos := hm'.2 ▸ hm'.1
  positivity

theorem pendingRisk_of_not_pending {order : PaperOrder} (h : order.status ≠ .pending) :
    pendingRisk order = 0 := by
  simp [pendingRisk, h]

theorem pendingRisk_of_backing {order : PaperOrder} (k : Backing order)
    (h : order.status = .pending) : pendingRisk order = k.reserved := by
  simp [pendingRisk, h, k.pendingReservation_eq]

/-- Every PENDING order of the portfolio is backed. -/
def Backed (p : Portfolio) : Prop :=
  ∀ order ∈ p.orders, order.status = .pending → Nonempty (Backing order)

theorem Backed.pendingRisk_nonneg {p : Portfolio} (hp : Backed p) {order : PaperOrder}
    (ho : order ∈ p.orders) : 0 ≤ pendingRisk order := by
  by_cases hs : order.status = .pending
  · obtain ⟨k⟩ := hp order ho hs
    rw [pendingRisk_of_backing k hs]
    exact k.reserved_pos.le
  · rw [pendingRisk_of_not_pending hs]

/-! ## The steps that admit no new risk -/

/-- One step of the running account other than a reservation: the next bar fills,
rejects or cancels an order; an order is cancelled outright; a bar manages the
open positions; a position is closed at a market price. -/
inductive Progress (p : Portfolio) : Portfolio → Prop
  | nextBar {order : PaperOrder} {instrument : Option Instrument} {rrPolicy : Option Policy}
      {bar : Bar} {fillId positionId : String} {b' : PaperBroker}
      {opened : Option PaperPosition} (stored : order ∈ p.orders)
      (run : (p.broker instrument rrPolicy).processNextBar order bar fillId positionId
        = .ok (b', opened)) : Progress p b'.portfolio
  | cancel {order : PaperOrder} {at_ : Option Instant} {reason : String}
      (stored : order ∈ p.orders) (pending : order.status = .pending) :
      Progress p ((p.broker none none).cancelOrder order at_ reason).portfolio
  | manage {bar : Bar} {tradeId : String} {b' : PaperBroker} {closed : List ClosedTrade}
      (run : TradeManager.processBar (p.broker none none) bar tradeId = (b', closed)) :
      Progress p b'.portfolio
  | close {symbol exitReason decisionRunId tradeId : String} {price : ℚ} {asOf : Instant}
      {b' : PaperBroker} {trade : ClosedTrade}
      (run : (p.broker none none).closeMarket symbol price asOf exitReason decisionRunId tradeId
        = .ok (b', trade)) : Progress p b'.portfolio

/-- An approved reservation: the run had no order and the drawn id is fresh. -/
def Reserves (request : Request) (p p' : Portfolio) : Prop :=
  request.policy ∈ registeredRiskPolicies ∧ p.orders.get? request.orderId = none ∧
    ∃ order, reserveAttempt request p = (.reserved order, p')

inductive Step (p : Portfolio) : Portfolio → Prop
  | progress {p' : Portfolio} (h : Progress p p') : Step p p'
  | reserve {request : Request} {p' : Portfolio} (h : Reserves request p p') : Step p p'

/-- Retiring an order releases its reservation and leaves the positions alone. -/
theorem retire_order {p : Portfolio} {order : PaperOrder}
    (ho : order ∈ p.orders) {status : OrderStatus} (hs : status ≠ .pending) {orders : Orders}
    (heq : orders = p.orders.put { order with status := status }) :
    orders.total pendingRisk + pendingRisk order = p.orders.total pendingRisk ∧
      ∀ o ∈ orders, o.status = .pending → o ∈ p.orders := by
  subst heq
  constructor
  · have hzero : pendingRisk { order with status := status } = 0 := pendingRisk_of_not_pending hs
    rw [Table.total_put, Table.total_erase ho, hzero]
    ring
  · intro o hmem hpend
    rcases Table.mem_put.mp hmem with rfl | ⟨hmem', -⟩
    · exact absurd hpend hs
    · exact hmem'

/-- Retired orders: the invariant and the bound after a rejection or cancellation. -/
theorem retire_bound {p p' : Portfolio} (hp : Backed p) {order : PaperOrder}
    (ho : order ∈ p.orders) {status : OrderStatus} (hs : status ≠ .pending)
    (horders : p'.orders = p.orders.put { order with status := status })
    (hpos : p'.account.openPositions.total openRisk
      ≤ p.account.openPositions.total openRisk + pendingRisk order) :
    Backed p' ∧ totalRisk p' ≤ totalRisk p := by
  obtain ⟨hsum, hsub⟩ := retire_order ho hs horders
  refine ⟨fun o hmem hpend => hp o (hsub o hmem hpend) hpend, ?_⟩
  unfold totalRisk
  linarith

theorem same_orders_bound {p p' : Portfolio} (hp : Backed p) (horders : p'.orders = p.orders)
    (hpos : p'.account.openPositions.total openRisk
      ≤ p.account.openPositions.total openRisk) :
    Backed p' ∧ totalRisk p' ≤ totalRisk p := by
  refine ⟨fun o hmem => hp o (horders ▸ hmem), ?_⟩
  unfold totalRisk
  rw [horders]
  linarith

/-- Closing a position releases its risk. -/
theorem settle_openRisk (account : PaperAccount) (position : PaperPosition) (trade : ClosedTrade) :
    (TradeManager.settle account position trade).openPositions.total openRisk
      ≤ account.openPositions.total openRisk :=
  Table.total_erase_le (fun r _ => openRisk_nonneg r) _

theorem processPosition_openRisk {b : PaperBroker} (bar : Bar) (tradeId : String)
    {position : PaperPosition} (hmem : position ∈ b.account.openPositions) :
    (TradeManager.processPosition bar tradeId (b, []) position).1.account.openPositions.total
      openRisk ≤ b.account.openPositions.total openRisk ∧
    (TradeManager.processPosition bar tradeId (b, []) position).1.orders = b.orders := by
  unfold TradeManager.processPosition
  dsimp only
  split_ifs with hacts
  · cases hexit : TradeManager.exitOf position bar with
    | none =>
      refine ⟨le_of_eq ?_, rfl⟩
      dsimp only
      rw [Table.total_put, Table.total_erase hmem]
      rfl
    | some exit =>
      obtain ⟨price, reason⟩ := exit
      constructor
      · simpa using settle_openRisk b.account position _
      · simp
  · exact ⟨le_rfl, rfl⟩

/-- The step lemma: progress keeps every order backed and never adds risk. -/
theorem progress_bound {p p' : Portfolio} (hp : Backed p) (h : Progress p p') :
    Backed p' ∧ totalRisk p' ≤ totalRisk p := by
  cases h with
  | @nextBar order instrument rrPolicy bar fillId positionId b' opened stored run =>
    rcases PaperBroker.processNextBar_cases run with ⟨-, rfl, -⟩ |
      ⟨hpend, -, at_, reason, rfl | rfl⟩ | ⟨hpend, multiplier, hm, hmpos, -, hreason, hopened, rfl⟩
    · exact ⟨hp, le_rfl⟩
    · exact retire_bound hp stored (by decide) rfl
        (le_add_of_nonneg_right (hp.pendingRisk_nonneg stored))
    · exact retire_bound hp stored (by decide) rfl
        (le_add_of_nonneg_right (hp.pendingRisk_nonneg stored))
    · obtain ⟨k⟩ := hp order stored hpend
      refine retire_bound hp stored (show OrderStatus.filled ≠ .pending by decide) rfl ?_
      rcases fill_risk_le_reserved k run with hnone | ⟨position, risk, hopen, hrisk, hle⟩
      · rw [hnone] at hopened
        cases hopened
      · rw [hopen, Option.some.injEq] at hopened
        subst hopened
        have hput := Table.total_put p.account.openPositions
          (PaperBroker.openedPosition order multiplier bar positionId) openRisk
        have herase := Table.total_erase_le (t := p.account.openPositions)
          (fun r _ => openRisk_nonneg r)
          (PaperBroker.openedPosition order multiplier bar positionId).symbol
        have hval : openRisk (PaperBroker.openedPosition order multiplier bar positionId)
            = risk := by
          simp [openRisk, hrisk]
        rw [pendingRisk_of_backing k hpend]
        change (p.account.openPositions.put
          (PaperBroker.openedPosition order multiplier bar positionId)).total openRisk ≤ _
        rw [hput, hval]
        linarith
  | cancel stored pending =>
    exact retire_bound hp stored (by decide) rfl
      (le_add_of_nonneg_right (hp.pendingRisk_nonneg stored))
  | @manage bar tradeId b' closed run =>
    by_cases hclosed : bar.isClosed = true
    · rw [TradeManager.processBar_eq hclosed] at run
      cases hg : (p.broker none none).account.openPositions.get? bar.symbol with
      | none =>
        simp only [hg, Prod.mk.injEq] at run
        obtain ⟨rfl, -⟩ := run
        exact same_orders_bound hp rfl le_rfl
      | some position =>
        simp only [hg, Prod.mk.injEq] at run
        obtain ⟨rfl, -⟩ := run
        have := processPosition_openRisk bar tradeId
          (Table.get?_eq_some.mp hg).1
        exact same_orders_bound hp this.2 this.1
    · simp only [Bool.not_eq_true] at hclosed
      simp only [TradeManager.processBar, hclosed, Prod.mk.injEq, Bool.false_eq_true,
        if_false] at run
      obtain ⟨rfl, -⟩ := run
      exact ⟨hp, le_rfl⟩
  | @close symbol exitReason decisionRunId tradeId price asOf b' trade run =>
    unfold PaperBroker.closeMarket at run
    split_ifs at run
    cases hg : p.account.openPositions.get? symbol with
    | none => simp [hg] at run
    | some position =>
      simp only [Portfolio.broker_account, hg] at run
      split_ifs at run
      unfold TradeManager.closePosition at run
      split_ifs at run
      simp only [Except.ok.injEq, Prod.mk.injEq] at run
      obtain ⟨rfl, -⟩ := run
      refine same_orders_bound hp ?_ ?_
      · simp [PaperBroker.portfolio, Portfolio.broker]
      · simpa [PaperBroker.portfolio] using settle_openRisk p.account position _

/-! ## An approved reservation -/

/-- The positions loop adds up the open risk of every position. -/
theorem addPositions_openRisk {symbol : String} {ps : List PaperPosition} {e e' : Exposure}
    (h : ps.foldlM (addPosition symbol) e = some e') :
    e'.openRisk = e.openRisk + (ps.map openRisk).sum ∧
      e'.pendingReserved = e.pendingReserved ∧ e'.unknown = e.unknown := by
  induction ps generalizing e with
  | nil =>
    simp only [List.foldlM_nil, Option.pure_def, Option.some.injEq] at h
    subst h
    simp
  | cons position ps ih =>
    simp only [List.foldlM_cons, Option.bind_eq_bind, Option.bind_eq_some_iff] at h
    obtain ⟨e₁, h₁, h₂⟩ := h
    obtain ⟨hopen, hpend, hunknown⟩ := ih h₂
    unfold addPosition at h₁
    cases hr : positionRisk position with
    | none => simp [hr] at h₁
    | some risk =>
      simp only [hr, Option.some.injEq] at h₁
      subst h₁
      refine ⟨?_, hpend, hunknown⟩
      rw [hopen]
      simp [openRisk, hr, add_assoc]

/-- What one order contributes: nothing, an unknown identity, or its reservation. -/
theorem addOrder_cases {symbol : String} {e e' : Exposure} {order : PaperOrder}
    (h : addOrder symbol e order = some e') :
    e'.openRisk = e.openRisk ∧
      (e'.unknown = e.unknown ++ [order.orderId] ∨
        (e'.unknown = e.unknown ∧ e'.pendingReserved = e.pendingReserved + pendingRisk order)) := by
  unfold addOrder at h
  by_cases hs : order.status = .pending
  · cases hr : pendingReservation order with
    | none => simp [hs, hr] at h
    | some item =>
      cases hres : item.reserved with
      | none =>
        simp only [hs, ne_eq, not_true_eq_false, if_false, hr, hres, Option.some.injEq] at h
        subst h
        exact ⟨rfl, .inl rfl⟩
      | some reserved =>
        simp only [hs, ne_eq, not_true_eq_false, if_false, hr, hres, Option.some.injEq] at h
        subst h
        exact ⟨rfl, .inr ⟨rfl, by simp [pendingRisk, hs, hr, hres]⟩⟩
  · simp only [ne_eq, hs, not_false_eq_true, if_true, Option.some.injEq] at h
    subst h
    exact ⟨rfl, .inr ⟨rfl, by rw [pendingRisk_of_not_pending hs, add_zero]⟩⟩

/-- The orders loop only ever adds to the unknown orders; when none is unknown in
the end, it has added up every reservation. -/
theorem addOrders_pendingRisk {symbol : String} {os : List PaperOrder} {e e' : Exposure}
    (h : os.foldlM (addOrder symbol) e = some e') (hnil : e'.unknown = []) :
    e.unknown = [] ∧ e'.openRisk = e.openRisk ∧
      e'.pendingReserved = e.pendingReserved + (os.map pendingRisk).sum := by
  induction os generalizing e with
  | nil =>
    simp only [List.foldlM_nil, Option.pure_def, Option.some.injEq] at h
    subst h
    simp [hnil]
  | cons order os ih =>
    simp only [List.foldlM_cons, Option.bind_eq_bind, Option.bind_eq_some_iff] at h
    obtain ⟨e₁, h₁, h₂⟩ := h
    obtain ⟨hunknown, hopen, hpend⟩ := ih h₂
    obtain ⟨hopen₁, hunk₁ | ⟨hunk₁, hpend₁⟩⟩ := addOrder_cases h₁
    · rw [hunk₁] at hunknown
      simp at hunknown
    · refine ⟨hunk₁ ▸ hunknown, hopen.trans hopen₁, ?_⟩
      rw [hpend, hpend₁, List.map_cons, List.sum_cons, add_assoc]

/-- The exposure an approval measures is the total risk of the portfolio. -/
theorem exposure_eq_totalRisk {symbol : String} {p : Portfolio} {e : Exposure}
    (h : exposure symbol p.account p.orders = some e) (hnil : e.unknown = []) :
    e.openRisk + e.pendingReserved = totalRisk p := by
  obtain ⟨e₁, h₁, h₂⟩ := Option.bind_eq_some_iff.mp h
  obtain ⟨hopen₁, hpend₁, -⟩ := addPositions_openRisk h₁
  obtain ⟨-, hopen₂, hpend₂⟩ := addOrders_pendingRisk h₂ hnil
  rw [hopen₂, hpend₂, hopen₁, hpend₁]
  simp [totalRisk, Table.total]

/-- The geometry gate accepts a plan at exactly the planned ratio of its policy. -/
theorem planShape_ok {plan : TradePlan} {policy : RiskPolicy} {shape : Geometry}
    (hsound : policy.Sound) (h : planShape plan policy = .ok shape) :
    shape.side = plan.side ∧ shape.entry = plan.entry ∧ shape.stop = plan.stop ∧
      shape.target = plan.target ∧ shape.rr = policy.plannedRr := by
  unfold planShape at h
  split_ifs at h
  cases hg : geometry plan.side plan.entry plan.stop plan.target with
  | error e => cases e <;> simp [hg] at h
  | ok g =>
    simp only [hg] at h
    split_ifs at h with hdecl hclass
    · cases h
      obtain ⟨hside, hentry, hstop, htarget⟩ := geometry_ok hg
      refine ⟨hside, hentry, hstop, htarget, ?_⟩
      rw [hsound.planned]
      exact rr_eq_of_fixed hsound.fixed (not_ne_iff.mp hclass)

/-- The order of an approved preparation is backed by the evaluation. -/
theorem reservedOrder_backing {request : Request} {p : Portfolio} {broker : PaperBroker}
    {order : PaperOrder} {record : RiskRecord}
    (hregistered : request.policy ∈ registeredRiskPolicies)
    (hplan : request.report.tradePlan = some request.plan)
    (hrun : PaperBroker.runOrder p.orders request.report.runId = none)
    (h : prepareReservation request p = .approved broker order record) :
    order.status = .pending ∧ order.orderId = request.orderId ∧
      broker.account = p.account ∧ (∀ o, o ∈ broker.orders ↔ o ∈ p.orders.put order) ∧
      ∃ k : Backing order,
        totalRisk p + k.reserved ≤ 23 / 1000 * conservativeEquity p.account := by
  obtain ⟨planAsOf, quantity, multiplier, approval, rfl, hq, hm, hmpos, hsym, hacc, -, horders⟩ :=
    prepareReservation_approved hplan hrun h
  have hsound := sound_of_registered hregistered
  obtain ⟨hside, hentry, hstop, htarget, hrr⟩ := planShape_ok hsound approval.shape_eq
  have hqpos : 0 < quantity := hq ▸ approval.quantity_pos
  refine ⟨rfl, rfl, hacc, horders, ⟨request.policy, hregistered, rfl, approval.shape, hside,
    hentry, hstop, htarget, hrr, hqpos, multiplier, rfl, hmpos⟩, ?_⟩
  have hlimit := approval.within_limit
  rw [exposure_eq_totalRisk approval.exposure_eq approval.known, hsound.aggregate] at hlimit
  have hplanned : (sizing request.policy (conservativeEquity p.account) approval.shape
      approval.multiplier approval.increment).plannedMoney
      = approval.shape.risk * quantity * multiplier := by
    rw [hq, hm]
    unfold sizing
    ring
  rw [hplanned] at hlimit
  change totalRisk p + approval.shape.risk * quantity * multiplier
    * request.policy.fillMoneyRiskFactor ≤ _
  linarith

/-- The step lemma of a reservation: the new order is backed and within the budget. -/
theorem reserve_bound {p p' : Portfolio} {request : Request} (hp : Backed p)
    (h : Reserves request p p') :
    Backed p' ∧ totalRisk p' ≤ 23 / 1000 * conservativeEquity p.account := by
  obtain ⟨hregistered, hfresh, order, hattempt⟩ := h
  unfold reserveAttempt at hattempt
  split_ifs at hattempt with hstamps hguard
  · simp at hattempt
  · simp at hattempt
  push Not at hguard
  cases hrun : PaperBroker.runOrder p.orders request.report.runId with
  | some existing => simp [hrun] at hattempt
  | none =>
    cases hprep : prepareReservation request p with
    | rejected reason record journalRecord => simp [hrun, hprep] at hattempt
    | approved broker order' record =>
      simp only [hrun, hprep, Prod.mk.injEq, Outcome.reserved.injEq] at hattempt
      obtain ⟨rfl, rfl⟩ := hattempt
      obtain ⟨hpend, hid, hacc, horders, k, hle⟩ :=
        reservedOrder_backing hregistered hguard.1 hrun hprep
      have hbacked : Backed broker.portfolio := by
        intro o ho hs
        rcases Table.mem_put.mp ((horders o).mp ho) with rfl | ⟨ho', -⟩
        · exact ⟨k⟩
        · exact hp o ho' hs
      refine ⟨hbacked, ?_⟩
      have herase : (p.orders.erase order'.orderId).rows = p.orders.rows := by
        rw [hid]
        exact Table.erase_eq_self (Table.get?_eq_none.mp hfresh)
      have htotal : broker.orders.total pendingRisk = k.reserved + p.orders.total pendingRisk := by
        rw [Table.total_eq_of_mem_iff horders, Table.total_put,
          pendingRisk_of_backing k hpend, Table.total, herase]
        rfl
      have hpos : totalRisk broker.portfolio = totalRisk p + k.reserved := by
        unfold totalRisk PaperBroker.portfolio
        rw [hacc, htotal]
        ring
      rw [hpos]
      exact hle

/-! ## Whole runs -/

/-- An account on which nothing is pending yet. -/
def Start (p : Portfolio) : Prop := ∀ order ∈ p.orders, order.status ≠ .pending

abbrev Reachable : Portfolio → Portfolio → Prop := Relation.ReflTransGen Step

theorem backed_of_reachable {p₀ p : Portfolio} (hstart : Start p₀) (hrun : Reachable p₀ p) :
    Backed p := by
  induction hrun with
  | refl => exact fun order ho hs => absurd hs (hstart order ho)
  | tail _ hstep ih =>
    cases hstep with
    | progress h => exact (progress_bound ih h).1
    | reserve h => exact (reserve_bound ih h).1

/-- Portfolio risk is conserved by fills and bounded at admission: a reserved order
never opens more than its reservation, and along every run from an account with
nothing pending the total only grows at an approved reservation, after which it
is within 2.30% of the conservative equity of that approval. -/
theorem portfolio_risk_conserved :
    (∀ (request : Request) (p : Portfolio) (broker : PaperBroker) (order : PaperOrder)
        (record : RiskRecord), request.policy ∈ registeredRiskPolicies →
      request.report.tradePlan = some request.plan →
      PaperBroker.runOrder p.orders request.report.runId = none →
      prepareReservation request p = .approved broker order record →
      order.status = .pending ∧ ∃ planned reserved,
        pendingReservation order = some ⟨planned, some reserved⟩ ∧
        reserved = planned *
          ((1 + request.policy.plannedRr) / (1 + request.policy.minimumActualFillRr)) ∧
        ∀ (b b' : PaperBroker) (bar : Bar) (fillId positionId : String)
          (opened : Option PaperPosition),
          b.processNextBar order bar fillId positionId = .ok (b', opened) →
          opened = none ∨ ∃ position risk, opened = some position ∧
            positionRisk position = some risk ∧ risk ≤ reserved) ∧
    (∀ p₀ p : Portfolio, Start p₀ → Reachable p₀ p →
      (∀ p', Progress p p' → totalRisk p' ≤ totalRisk p) ∧
      ∀ request p', Reserves request p p' →
        totalRisk p' ≤ 23 / 1000 * conservativeEquity p.account) := by
  constructor
  · intro request p broker order record hregistered hplan hrun hprep
    obtain ⟨hpend, -, -, -, k, -⟩ := reservedOrder_backing hregistered hplan hrun hprep
    have hversion : request.policy = k.policy := by
      obtain ⟨planAsOf, quantity, multiplier, -, rfl, -⟩ :=
        prepareReservation_approved hplan hrun hprep
      have h := registeredRiskPolicy_of_mem hregistered
      have hk := registeredRiskPolicy_of_mem k.registered
      rw [← k.version] at hk
      exact Option.some.inj (h.symm.trans hk)
    refine ⟨hpend, k.planned, k.reserved, k.pendingReservation_eq, ?_, ?_⟩
    · rw [hversion]
      rfl
    · intro b b' bar fillId positionId opened hfill
      exact fill_risk_le_reserved k hfill
  · intro p₀ p hstart hrun
    have hbacked := backed_of_reachable hstart hrun
    exact ⟨fun p' h => (progress_bound hbacked h).2,
      fun request p' h => (reserve_bound hbacked h).2⟩

/-- A gold plan at 3R on a fresh account. -/
def sampleRequest : Request where
  report :=
    { runId := "run-1"
      symbol := "XAUUSD"
      finalStatus := "PLAN_READY"
      tradePlan := some ⟨"XAUUSD", .long, 2000, 1990, 2030, 3, some "run-1", some 0, some .v2F3⟩
      riskDecision := none
      setupAssessment := none }
  plan := ⟨"XAUUSD", .long, 2000, 1990, 2030, 3, some "run-1", some 0, some .v2F3⟩
  instrument := some ⟨"XAUUSD", some (1 / 100), some (1 / 100), some 1⟩
  asOf := 0
  setupId := none
  policy := riskPolicyV2P5
  stampSetupId := false
  drawdownBasis := none
  orderId := "order-1"

def samplePortfolio : Portfolio where
  account := { accountId := "paper", startingEquity := 10000, cash := 10000, equity := 10000 }

def sampleBar : Bar := ⟨"XAUUSD", 300, 2001, 2002, 2000, 2001, true⟩

def fillsNext (broker : PaperBroker) (order : PaperOrder) : Bool :=
  match broker.processNextBar order sampleBar "fill-1" "position-1" with
  | .ok (_, some _) => true
  | _ => false

def sampleFills : Bool :=
  match prepareReservation sampleRequest samplePortfolio with
  | .approved broker order _ => fillsNext broker order
  | .rejected _ _ _ => false

/-- The sample is approved, and the next bar fills it off its planned entry. -/
theorem sample_fills : ∃ broker order record b' position,
    prepareReservation sampleRequest samplePortfolio = .approved broker order record ∧
    broker.processNextBar order sampleBar "fill-1" "position-1" = .ok (b', some position) := by
  have hrun : sampleFills = true := by decide +kernel
  unfold sampleFills at hrun
  cases hprep : prepareReservation sampleRequest samplePortfolio with
  | rejected reason record journalRecord => simp [hprep] at hrun
  | approved broker order record =>
    simp only [hprep, fillsNext] at hrun
    cases hfill : broker.processNextBar order sampleBar "fill-1" "position-1" with
    | error e => simp [hfill] at hrun
    | ok result =>
      obtain ⟨b', opened⟩ := result
      cases opened with
      | none => simp [hfill] at hrun
      | some position => exact ⟨broker, order, record, b', position, rfl, hfill⟩

theorem sample_reserves : ∃ p', Reserves sampleRequest samplePortfolio p' := by
  obtain ⟨broker, order, record, -, -, hprep, -⟩ := sample_fills
  refine ⟨broker.portfolio, by simp [sampleRequest, registeredRiskPolicies], rfl, order, ?_⟩
  have hreg : stampsRegisteredSemantics sampleRequest.policy = true := by decide +kernel
  have hrun : PaperBroker.runOrder samplePortfolio.orders sampleRequest.report.runId = none := rfl
  unfold reserveAttempt
  rw [hreg, hrun, hprep]
  simp [sampleRequest, riskPolicyV2P5]

theorem portfolio_risk_conserved_sample :
    (∃ order b b' position risk reserved,
      PaperBroker.processNextBar b order sampleBar "fill-1" "position-1"
        = .ok (b', some position) ∧
      positionRisk position = some risk ∧
      (pendingReservation order).bind (·.reserved) = some reserved ∧ risk ≤ reserved) ∧
    (∃ p', Reserves sampleRequest samplePortfolio p' ∧ totalRisk p' ≤ 230) ∧
    totalRisk (TradeManager.processBar (samplePortfolio.broker none none) sampleBar
      "trade-1").1.portfolio ≤ totalRisk samplePortfolio := by
  have hstart : Start samplePortfolio := by
    simp [Start, samplePortfolio]
  have hruns := portfolio_risk_conserved.2 samplePortfolio samplePortfolio hstart .refl
  refine ⟨?_, ?_, ?_⟩
  · obtain ⟨broker, order, record, b', position, hprep, hfill⟩ := sample_fills
    obtain ⟨-, planned, reserved, hpending, -, hbound⟩ :=
      portfolio_risk_conserved.1 sampleRequest samplePortfolio broker order record
        (by simp [sampleRequest, registeredRiskPolicies]) rfl rfl hprep
    rcases hbound broker b' sampleBar "fill-1" "position-1" _ hfill with h | ⟨q, risk, hq, hr, hle⟩
    · cases h
    · cases hq
      exact ⟨order, broker, b', position, risk, reserved, hfill, hr, by simp [hpending], hle⟩
  · obtain ⟨p', hreserves⟩ := sample_reserves
    refine ⟨p', hreserves, (hruns.2 sampleRequest p' hreserves).trans ?_⟩
    norm_num [conservativeEquity, samplePortfolio]
  · exact hruns.1 _ (.manage (Prod.mk.eta (p := TradeManager.processBar
      (samplePortfolio.broker none none) sampleBar "trade-1")).symm)

end MarketSystem.PortfolioRisk
