import MarketSystem.Replay.Engine
import MarketSystem.Runtime.GateAgreement

/-!
# Replay and PAPER

The same plan is followed twice: by the replay engine on the bars alone, and by the broker
and the position manager on an account. Both fill at the same bar and leave at the same bar
and price; only the broker knows an equity, so only the broker refuses a fill whose risk in
money is above one percent of it.
-/
namespace MarketSystem.Replay

open Library RrContract Riesgo PaperBroker TradeManager GateAgreement

/-! ## A PAPER run, told in the words of the replay -/

/-- Every later bar is given to the position manager. -/
def manage (tradeId : Bar → String) (b : PaperBroker) (bars : List Bar) : PaperBroker :=
  bars.foldl (fun b bar => (processBar b bar (tradeId bar)).1) b

/-- A trade that closed, as the replay reports an exit. -/
def reported (position : PaperPosition) : List ClosedTrade → Simulated × Option ℚ
  | [] => (⟨.filled, some position.entryPrice, .open, none, none⟩, none)
  | trade :: _ =>
      (⟨.filled, some position.entryPrice, if trade.reason = "stop" then .stop else .target,
        some trade.exitedAt,
        some (position.side.signed (trade.exitPrice - position.entryPrice)
          / |position.entryPrice - position.stop|)⟩, some trade.exitPrice)

/-- The order meets the first bar after its `as_of`, and its position the bars after that. -/
def paperRun (b : PaperBroker) (order : PaperOrder) (asOf : Instant) (bars : List Bar)
    (fillId positionId : String) (tradeId : Bar → String) :
    Except String (Simulated × Option ℚ) :=
  match bars.filter (fun bar => decide (asOf < bar.timestamp)) with
  | [] => .ok (⟨.noFillData, none, .notApplicable, none, none⟩, none)
  | first :: later =>
      match b.processNextBar order first fillId positionId with
      | .error e => .error e
      | .ok (_, none) => .ok (⟨.fillRejected, some first.open_, .notApplicable, none, none⟩, none)
      | .ok (filled, some position) =>
          let closed := (manage tradeId filled later).account.closedTrades.drop
            filled.account.closedTrades.length
          if closed.length ≤ 1 then .ok (reported position closed)
          else .error "one position, two trades"

/-- What is left of a simulated trade under the cap of one percent of the equity. -/
def capped (equity quantity multiplier stop : ℚ) (s : Simulated) : Simulated :=
  match s.fill, s.fillPrice with
  | .filled, some fillPrice =>
      if |fillPrice - stop| * quantity * multiplier ≤ equity / 100 then s
      else ⟨.fillRejected, some fillPrice, .notApplicable, none, none⟩
  | _, _ => s

/-! ## The exit -/

/-- The first bar that forces a position out, with its price and its reason. -/
def firstExit (position : PaperPosition) : List Bar → Option (Bar × ℚ × String)
  | [] => none
  | bar :: bars =>
      match exitOf position bar with
      | some exit => some (bar, exit)
      | none => firstExit position bars

/-- Both walks use the precedence of `exitOf`. -/
theorem walk_eq (position : PaperPosition) (bars : List Bar) :
    walk position.side position.entryPrice position.stop position.target bars =
      match firstExit position bars with
      | none => (.open, none, none)
      | some (bar, price, reason) =>
          (if reason = "stop" then .stop else .target, some bar.timestamp,
            some (position.side.signed (price - position.entryPrice)
              / |position.entryPrice - position.stop|)) := by
  induction bars with
  | nil => rfl
  | cons bar bars ih =>
    unfold walk firstExit exitOf
    simp only [ih]
    cases position.side with
    | long =>
      -- the four tests of the bar, whatever they are
      generalize decide (bar.open_ ≤ position.stop) = gapStop
      generalize decide (bar.open_ ≥ position.target) = gapTarget
      generalize decide (bar.low ≤ position.stop) = stopHit
      generalize decide (bar.high ≥ position.target) = targetHit
      cases gapStop <;> cases gapTarget <;> cases stopHit <;> cases targetHit <;> rfl
    | short =>
      generalize decide (bar.open_ ≥ position.stop) = gapStop
      generalize decide (bar.open_ ≤ position.target) = gapTarget
      generalize decide (bar.high ≥ position.stop) = stopHit
      generalize decide (bar.low ≤ position.target) = targetHit
      cases gapStop <;> cases gapTarget <;> cases stopHit <;> cases targetHit <;>
        simp [Side.signed]

/-! ## Management -/

/-- A bar of the complete 5m series of a symbol. -/
structure Complete (symbol : String) (bar : Bar) : Prop where
  symbol : bar.symbol = symbol
  closed : bar.isClosed = true
  ohlc : bar.validOhlc = true

/-- The position waits for bars later than `since`. -/
structure Waiting (position : PaperPosition) (since : Instant) : Prop where
  status : position.status = .open
  multiplier : validMultiplier position.contractMultiplier = true
  opened : position.openedAt ≤ since
  processed : ∀ last, position.lastProcessedAt = some last → last ≤ since

theorem Waiting.actsOn {position : PaperPosition} {since : Instant} {bar : Bar}
    (h : Waiting position since) (hbar : Complete position.symbol bar)
    (hlater : since < bar.timestamp) : actsOn bar position = true := by
  have hopened : position.openedAt < bar.timestamp := lt_of_le_of_lt h.opened hlater
  cases hlast : position.lastProcessedAt with
  | none =>
    simp [TradeManager.actsOn, h.status, hbar.symbol, h.multiplier, hopened, hlast, hbar.ohlc]
  | some last =>
    have hp : last < bar.timestamp := lt_of_le_of_lt (h.processed last hlast) hlater
    simp [TradeManager.actsOn, h.status, hbar.symbol, h.multiplier, hopened, hlast, hp, hbar.ohlc]

theorem Waiting.held {position : PaperPosition} {since : Instant} {bar : Bar}
    (h : Waiting position since) (hlater : since < bar.timestamp) :
    Waiting (held position bar) bar.timestamp where
  status := h.status
  multiplier := h.multiplier
  opened := h.opened.trans hlater.le
  processed := fun _ hlast => (Option.some.inj hlast).ge

/-- Without a position of their symbol, the bars close nothing. -/
theorem manage_of_none {symbol : String} (tradeId : Bar → String) {bars : List Bar}
    (hbars : ∀ bar ∈ bars, Complete symbol bar) {b : PaperBroker}
    (hnone : b.account.openPositions.get? symbol = none) :
    (manage tradeId b bars).account.closedTrades = b.account.closedTrades := by
  induction bars generalizing b with
  | nil => rfl
  | cons bar bars ih =>
    have hbar := hbars bar List.mem_cons_self
    have hnoneBar : b.account.openPositions.get? bar.symbol = none := hbar.symbol ▸ hnone
    have hrest := fun bar' h => hbars bar' (List.mem_cons_of_mem bar h)
    rcases processBar_cases b (tradeId bar) hbar.closed with ⟨-, he⟩ | ⟨p, hp, -⟩ |
      ⟨p, exitPrice, reason, hp, -⟩
    · have hstep : manage tradeId b (bar :: bars) =
          manage tradeId (processBar b bar (tradeId bar)).1 bars := rfl
      rw [hstep, he]
      exact ih hrest (b := { b with account := remark b.account }) hnone
    · rw [hnoneBar] at hp
      cases hp
    · rw [hnoneBar] at hp
      cases hp

/-- The whole management of a position: its first exit is booked, and nothing else. -/
theorem manage_closedTrades (tradeId : Bar → String) {bars : List Bar} {position : PaperPosition}
    {since : Instant} (hwaiting : Waiting position since)
    (hbars : ∀ bar ∈ bars, Complete position.symbol bar)
    (hlater : (since :: bars.map (·.timestamp)).Pairwise (· < ·)) {b : PaperBroker}
    (hopen : b.account.openPositions.get? position.symbol = some position) :
    (manage tradeId b bars).account.closedTrades = b.account.closedTrades ++
      match firstExit position bars with
      | none => []
      | some (bar, price, reason) =>
          [closedTrade (tradeId bar) position price bar.timestamp reason] := by
  induction bars generalizing b position since with
  | nil => simp [manage, firstExit]
  | cons bar bars ih =>
    have hbar := hbars bar List.mem_cons_self
    have hrest := fun bar' h => hbars bar' (List.mem_cons_of_mem bar h)
    simp only [List.map_cons, List.pairwise_cons, List.mem_cons, forall_eq_or_imp] at hlater
    have hacts := hwaiting.actsOn hbar hlater.1.1
    have hopenBar : b.account.openPositions.get? bar.symbol = some position := hbar.symbol ▸ hopen
    obtain ⟨hget, -, hclosed, -⟩ := processBar_outcome (tradeId bar) hbar.closed hopenBar hacts
    have hstep : manage tradeId b (bar :: bars) =
        manage tradeId (processBar b bar (tradeId bar)).1 bars := rfl
    rw [hstep]
    unfold firstExit
    cases he : exitOf position bar with
    | none =>
      simp only [outcome, he, List.append_nil] at hget hclosed
      have hheld : (held position bar).symbol = bar.symbol := hbar.symbol.symm
      have hnext := ih (hwaiting.held hlater.1.1) (hheld ▸ hbar.symbol ▸ hrest)
        (List.pairwise_cons.mpr hlater.2) (hheld ▸ hget)
      rw [hnext, hclosed]
      have hsame : ∀ bars, firstExit (held position bar) bars = firstExit position bars := by
        intro bars
        induction bars with
        | nil => rfl
        | cons x xs ihx => simp only [firstExit, ihx]; rfl
      rw [hsame]
      rfl
    | some exit =>
      obtain ⟨price, reason⟩ := exit
      simp only [outcome, he] at hget hclosed
      rw [manage_of_none tradeId hrest (hbar.symbol ▸ hget), hclosed]

/-! ## The fill -/

section Fill

variable {order : PaperOrder} {fillPrice : ℚ}

theorem abs_eq_riskPerUnit (h : 0 < riskPerUnit order fillPrice) :
    |fillPrice - order.stop| = riskPerUnit order fillPrice := by
  unfold riskPerUnit at h ⊢
  cases hs : order.side with
  | long =>
    simp only [hs] at h ⊢
    exact abs_of_pos h
  | short =>
    simp only [hs] at h ⊢
    rw [abs_sub_comm]
    exact abs_of_pos h

theorem fillRejected_v1 :
    fillRejected .v1 order.side fillPrice order.stop order.target = false ↔
      0 < riskPerUnit order fillPrice ∧ 0 < rewardPerUnit order fillPrice ∧
        3 ≤ rewardPerUnit order fillPrice / riskPerUnit order fillPrice := by
  change (if riskPerUnit order fillPrice ≤ 0 ∨ rewardPerUnit order fillPrice ≤ 0 then true
    else decide (rewardPerUnit order fillPrice / riskPerUnit order fillPrice < 3)) = false ↔ _
  split_ifs with h
  · simp only [false_iff]
    intro hpos
    rcases h with h | h <;> linarith [hpos.1, hpos.2.1]
  · push Not at h
    simp only [decide_eq_false_iff_not, not_lt]
    exact ⟨fun hr => ⟨h.1, h.2, hr⟩, fun hr => hr.2.2⟩

theorem fillRejected_v2D :
    fillRejected .v2D order.side fillPrice order.stop order.target = false ↔
      ∃ actual, geometry order.side fillPrice order.stop order.target = .ok actual ∧
        classify actual.rr (fillLimits .v2D) = .withinPolicy := by
  unfold fillRejected
  simp only
  cases hg : geometry order.side fillPrice order.stop order.target with
  | error e => simp
  | ok actual =>
    obtain ⟨hrisk, hreward⟩ := riskPerUnit_eq hg
    rw [if_neg]
    · simp
    · show ¬(riskPerUnit order fillPrice ≤ 0 ∨ rewardPerUnit order fillPrice ≤ 0)
      rw [hrisk, hreward]
      simp [actual.risk_pos, actual.reward_pos]

/-- The broker fills exactly what the replay fills, when the risk in money is within one
percent of the equity. -/
theorem fillReason_replay {b : PaperBroker} {equity : ℚ} {policy : ReplayPolicy}
    (hsized : SizedOn b order equity) (hstamp : order.riskPolicyVersion = none)
    (hpolicy : b.rrPolicy = policy.rrPolicy) (multiplier : ℚ) :
    ∃ reason, b.fillReason order fillPrice multiplier = .ok reason ∧
      (reason = none ↔ fillRejected policy order.side fillPrice order.stop order.target = false ∧
        |fillPrice - order.stop| * order.quantity * multiplier ≤ equity / 100) := by
  cases policy with
  | v1 =>
    refine ⟨_, fillReason_v1 hsized hstamp hpolicy fillPrice multiplier, ?_⟩
    rw [ite_eq_left_iff, fillRejected_v1]
    simp only [reduceCtorEq, imp_false, not_not]
    constructor
    · rintro ⟨hrisk, hreward, hratio, hmoney⟩
      exact ⟨⟨hrisk, hreward, hratio⟩, (abs_eq_riskPerUnit hrisk).symm ▸ hmoney⟩
    · rintro ⟨⟨hrisk, hreward, hratio⟩, hmoney⟩
      exact ⟨hrisk, hreward, hratio, abs_eq_riskPerUnit hrisk ▸ hmoney⟩
  | v2D =>
    have hrules : b.fillRules order = .rules (some .v2D) none := by
      simp [fillRules, hstamp, hpolicy, ReplayPolicy.rrPolicy]
    refine ⟨_, fillReason_v2 hsized hrules (by decide) fillPrice multiplier, ?_⟩
    rw [fillRejected_v2D]
    cases hg : geometry order.side fillPrice order.stop order.target with
    | error e => simp
    | ok actual =>
      have hrisk := (riskPerUnit_eq hg).1
      rw [abs_eq_riskPerUnit (hrisk ▸ actual.risk_pos)]
      by_cases hc : classify actual.rr (fillLimits .v2D) = .withinPolicy
      · simp [hc]
      · simp [hc]

/-- A fill that is not rejected stands off its stop. -/
theorem distance_pos {policy : ReplayPolicy}
    (h : fillRejected policy order.side fillPrice order.stop order.target = false) :
    0 < |fillPrice - order.stop| := by
  have hrisk : 0 < riskPerUnit order fillPrice := by
    cases policy with
    | v1 => exact (fillRejected_v1.mp h).1
    | v2D =>
      obtain ⟨actual, hg, -⟩ := fillRejected_v2D.mp h
      rw [(riskPerUnit_eq hg).1]
      exact actual.risk_pos
  rw [abs_eq_riskPerUnit hrisk]
  exact hrisk

end Fill

/-- The multiple of the risk gives the price of the exit back. -/
theorem exitPrice_of_multiple (side : Side) {fillPrice stop : ℚ} (price : ℚ)
    (h : 0 < |fillPrice - stop|) :
    fillPrice + side.signed (side.signed (price - fillPrice) / |fillPrice - stop|
      * |fillPrice - stop|) = price := by
  rw [div_mul_cancel₀ _ h.ne']
  cases side with
  | long => simp
  | short => simp

/-- The trades of a filled order, told in the words of the replay, are the walk of the replay. -/
theorem reported_of_filled {b : PaperBroker} {order : PaperOrder} {first : Bar} {later : List Bar}
    {multiplier : ℚ} (hm : 0 < multiplier) (fillId positionId : String) (tradeId : Bar → String)
    (hbars : ∀ bar ∈ later, Complete order.symbol bar)
    (hlater : (first.timestamp :: later.map (·.timestamp)).Pairwise (· < ·))
    (hdistance : 0 < |first.open_ - order.stop|) {s : Simulated}
    (hs : s = ⟨.filled, some first.open_,
      (walk order.side first.open_ order.stop order.target later).1,
      (walk order.side first.open_ order.stop order.target later).2.1,
      (walk order.side first.open_ order.stop order.target later).2.2⟩) {filled : PaperBroker}
    (hfilled : filled = (b.fillOrder order multiplier first fillId positionId).1)
    {closed : List ClosedTrade}
    (hclosed : closed = (manage tradeId filled later).account.closedTrades.drop
      filled.account.closedTrades.length) :
    closed.length ≤ 1 ∧ reported (openedPosition order multiplier first positionId) closed =
      (s, s.exitPrice order.side order.stop) := by
  set position := openedPosition order multiplier first positionId with hposition
  have hwaiting : Waiting position first.timestamp :=
    ⟨rfl, validMultiplier_eq_true.mpr ⟨multiplier, rfl, hm⟩, le_rfl, fun _ h => (nomatch h)⟩
  have hopen : filled.account.openPositions.get? position.symbol = some position := by
    rw [hfilled]
    exact Table.get?_put_self
  have hmanaged := manage_closedTrades tradeId hwaiting hbars hlater hopen
  rw [hmanaged, List.drop_left] at hclosed
  have hwalk : walk order.side first.open_ order.stop order.target later = _ :=
    walk_eq position later
  rw [hwalk] at hs
  cases hexit : firstExit position later with
  | none =>
    simp only [hexit] at hs hclosed
    subst hs hclosed
    exact ⟨by simp, rfl⟩
  | some found =>
    obtain ⟨bar, price, reason⟩ := found
    simp only [hexit] at hs hclosed
    subst hs hclosed
    refine ⟨le_rfl, ?_⟩
    have hprice := exitPrice_of_multiple order.side price hdistance
    simp only [reported, closedTrade, Simulated.exitPrice, hposition, openedPosition, hprice]

/-- Money at risk grows with the distance to the stop, so the cap spares a fill that is no
worse than the plan. -/
theorem capped_of_favorable {policy : ReplayPolicy} {plan : TradePlan} {equity : ℚ}
    {i : Instrument} {decision : RiskDecision}
    (a : Approved plan equity i policy.configuracion decision) {s : Simulated}
    (h : ∀ fillPrice, s.fillPrice = some fillPrice →
      |fillPrice - plan.stop| ≤ |plan.entry - plan.stop|) :
    capped equity a.quantity a.multiplier plan.stop s = s := by
  have hc : policy.configuracion ∈ configuraciones := by
    cases policy <;> simp [ReplayPolicy.configuracion, configuraciones]
  unfold capped
  split
  case h_1 _ _ fillPrice _ hprice =>
    have hplanned : |plan.entry - plan.stop| * a.quantity * a.multiplier ≤ equity / 100 := by
      rw [a.unitRisk]
      exact money_le hc a le_rfl
    have hle : |fillPrice - plan.stop| * a.quantity * a.multiplier ≤
        |plan.entry - plan.stop| * a.quantity * a.multiplier :=
      mul_le_mul_of_nonneg_right (mul_le_mul_of_nonneg_right (h fillPrice hprice)
        a.quantity_pos.le) a.multiplier_pos.le
    rw [if_pos (hle.trans hplanned)]
  case h_2 => rfl

/-- The replay and PAPER agree on every approved plan and every complete series, for an order
whose `as_of` has the same bars after it as the slot: the broker fills and leaves where the
replay does, except that it rejects a fill that risks more than one percent of the equity. -/
theorem replay_simulates_paper {policy : ReplayPolicy} {plan : TradePlan} {equity : ℚ}
    {i : Instrument} {decision : RiskDecision} {quantity multiplier : ℚ}
    (happroved : evaluarTradePlan plan (.finite equity) (some i) (some policy.configuracion)
      = some decision) (hstatus : decision.status = .approved)
    (hquantity : decision.quantity = some quantity)
    (hmultiplier : i.contractMultiplier = some multiplier) {bars : List Bar}
    (hincreasing : (bars.map (·.timestamp)).Pairwise (· < ·))
    (hbars : ∀ bar ∈ bars, Complete plan.symbol bar) {slot asOf : Instant}
    (hslot : ∀ bar ∈ bars, asOf < bar.timestamp ↔ slot ≤ bar.timestamp) {report : FloorReport}
    (hreport : report.symbol = plan.symbol) {b : PaperBroker} (hequity : b.account.equity = equity)
    (hpolicy : b.rrPolicy = policy.rrPolicy) (orderId fillId positionId : String)
    (tradeId : Bar → String) :
    ∃ s, s = capped equity quantity multiplier plan.stop
        (simulate policy bars slot plan.side plan.stop plan.target) ∧
      paperRun b (plannedOrder plan report asOf quantity multiplier equity orderId) asOf bars
        fillId positionId tradeId = .ok (s, s.exitPrice plan.side plan.stop) ∧
      ((∀ fillPrice, (simulate policy bars slot plan.side plan.stop plan.target).fillPrice
          = some fillPrice → |fillPrice - plan.stop| ≤ |plan.entry - plan.stop|) →
        s = simulate policy bars slot plan.side plan.stop plan.target) := by
  obtain ⟨a⟩ := approved_of_evaluar happroved hstatus
  obtain rfl : a.multiplier = multiplier := Option.some.inj (a.contract.symm.trans hmultiplier)
  obtain rfl : a.quantity = quantity := Option.some.inj
    ((congrArg RiskDecision.quantity a.decision_eq).symm.trans hquantity)
  refine ⟨_, rfl, ?_, capped_of_favorable a⟩
  set order := plannedOrder plan report asOf a.quantity a.multiplier equity orderId with horder
  have hsized : SizedOn b order equity := ⟨a.capital_pos, hequity, rfl⟩
  have hafter : bars.filter (fun bar => decide (asOf < bar.timestamp)) =
      bars.filter (fun bar => decide (slot ≤ bar.timestamp)) := by
    refine List.filter_congr (fun bar hbar => ?_)
    simp only [hslot bar hbar]
  unfold paperRun simulate
  rw [hafter]
  cases hfilter : bars.filter (fun bar => decide (slot ≤ bar.timestamp)) with
  | nil => rfl
  | cons first later =>
    have hsublist : (first :: later).Sublist bars := hfilter ▸ List.filter_sublist
    have hcomplete : ∀ bar ∈ first :: later, Complete plan.symbol bar := fun bar h =>
      hbars bar (hsublist.subset h)
    have hfirst := hcomplete first List.mem_cons_self
    have hasOf : asOf < first.timestamp := by
      have hmem : first ∈ bars.filter (fun bar => decide (asOf < bar.timestamp)) := by
        rw [hafter, hfilter]
        exact List.mem_cons_self
      exact of_decide_eq_true (List.mem_filter.mp hmem).2
    have heval : Evaluates first order :=
      ⟨hfirst.symbol.trans hreport.symm, hfirst.closed, hfirst.ohlc,
        fun t h => Option.some.inj h ▸ hasOf⟩
    obtain ⟨reason, hreason, hnone⟩ :
        ∃ reason, b.fillReason order first.open_ a.multiplier = .ok reason ∧
          (reason = none ↔ fillRejected policy plan.side first.open_ plan.stop plan.target = false ∧
            |first.open_ - plan.stop| * a.quantity * a.multiplier ≤ equity / 100) :=
      fillReason_replay hsized rfl hpolicy a.multiplier
    have hnext := processNextBar_of_evaluates heval rfl rfl a.multiplier_pos rfl fillId positionId
      hreason
    simp only [hnext]
    cases reason with
    | some reason =>
      have hno : ¬(fillRejected policy plan.side first.open_ plan.stop plan.target = false ∧
          |first.open_ - plan.stop| * a.quantity * a.multiplier ≤ equity / 100) := fun h =>
        (nomatch hnone.mpr h)
      simp only [answer]
      cases hrejected : fillRejected policy plan.side first.open_ plan.stop plan.target with
      | true => rfl
      | false =>
        have hmoney : ¬|first.open_ - plan.stop| * a.quantity * a.multiplier ≤ equity / 100 :=
          fun h => hno ⟨hrejected, h⟩
        simp only [capped, Bool.false_eq_true, if_false, if_neg hmoney]
        rfl
    | none =>
      have hfit : fillRejected policy plan.side first.open_ plan.stop plan.target = false ∧
          |first.open_ - plan.stop| * a.quantity * a.multiplier ≤ equity / 100 := hnone.mp rfl
      obtain ⟨hrejected, hmoney⟩ := hfit
      have hsymbol : order.symbol = plan.symbol := hreport
      have hlater : ∀ bar ∈ later, Complete order.symbol bar := fun bar h => by
        rw [hsymbol]
        exact hcomplete bar (List.mem_cons_of_mem first h)
      have hordered : ((first :: later).map (·.timestamp)).Pairwise (· < ·) :=
        hincreasing.sublist (hsublist.map _)
      have hdistance : 0 < |first.open_ - order.stop| := distance_pos hrejected
      have hfilled : (b.fillOrder order a.multiplier first fillId positionId).1 =
          (b.fillOrder order a.multiplier first fillId positionId).1 := rfl
      obtain ⟨hone, hreported⟩ := reported_of_filled a.multiplier_pos
        fillId positionId tradeId hlater hordered hdistance rfl hfilled rfl
      simp only [answer, if_pos hone, hreported, hrejected, Bool.false_eq_true, if_false, capped,
        if_pos hmoney]
      rfl

section Runs

private def goldPlan (stop target riskReward : ℚ) (policyVersion : Option Policy) : TradePlan :=
  ⟨"XAUUSD", .long, 100, stop, target, riskReward, some "run", some 0, policyVersion⟩

private def reportFor (plan : TradePlan) : FloorReport :=
  ⟨"run", "XAUUSD", "PLAN_READY", some plan, none, none⟩

private def account (rrPolicy : Option Policy) : PaperBroker :=
  { account := ⟨"paper", 10000, 10000, 10000, 0, 0, Table.empty, []⟩
    instrument := some gold
    rrPolicy := rrPolicy }

private def fiveMinutes (start : Instant) (price : ℚ) : Bar :=
  ⟨"XAUUSD", start, price, price, price, price, true⟩

private def tradeAt (bar : Bar) : String := toString bar.timestamp

private def twoBars : List Bar := [fiveMinutes 300000000 100, fiveMinutes 600000000 103]

/-- A V1 plan that reaches its target on the second bar after the slot. -/
theorem replay_simulates_paper_target : ∃ s,
    paperRun (account none) (plannedOrder (goldPlan 99 103 3 none)
      (reportFor (goldPlan 99 103 3 none)) 0 100 1 10000 "order") 0 twoBars "fill" "position"
      tradeAt = .ok (s, s.exitPrice .long 99) ∧
    s = capped 10000 100 1 99 (simulate .v1 twoBars 0 .long 99 103) := by
  have hquantity : (evaluarTradePlan (goldPlan 99 103 3 none) (.finite 10000) (some gold)
      (some ReplayPolicy.v1.configuracion)).bind (·.quantity) = some 100 := by decide +kernel
  cases hd : evaluarTradePlan (goldPlan 99 103 3 none) (.finite 10000) (some gold)
      (some ReplayPolicy.v1.configuracion) with
  | none =>
    rw [hd] at hquantity
    cases hquantity
  | some decision =>
    have hstatus : (evaluarTradePlan (goldPlan 99 103 3 none) (.finite 10000) (some gold)
        (some ReplayPolicy.v1.configuracion)).map (·.status) = some .approved := by decide +kernel
    rw [hd] at hquantity hstatus
    have hincreasing : (twoBars.map (·.timestamp)).Pairwise (· < ·) := by decide +kernel
    have hslot : ∀ bar ∈ twoBars, 0 < bar.timestamp ↔ 0 ≤ bar.timestamp := by decide +kernel
    have hreport : (reportFor (goldPlan 99 103 3 none)).symbol = "XAUUSD" := rfl
    have hequity : (account none).account.equity = 10000 := rfl
    obtain ⟨s, hs, hrun, -⟩ := replay_simulates_paper hd
      (Option.some.inj hstatus) hquantity rfl hincreasing
      (fun bar h => ⟨(by decide +kernel : ∀ x ∈ twoBars, x.symbol = "XAUUSD") bar h,
        (by decide +kernel : ∀ x ∈ twoBars, x.isClosed = true) bar h,
        (by decide +kernel : ∀ x ∈ twoBars, x.validOhlc = true) bar h⟩)
      hslot hreport hequity rfl "order" "fill" "position" tradeAt
    exact ⟨s, hrun, hs⟩

/-- Two ways in which the replay leaves PAPER: the bar that starts at the slot fills the
replay and not an order of that instant, and a fill that keeps its ratio may risk more than
one percent of the equity. -/
theorem replay_leaves_paper :
    (∃ plan bars decision,
      evaluarTradePlan plan (.finite 10000) (some gold) (some configuracionRiesgoV2)
        = some decision ∧ decision.status = .approved ∧ decision.quantity = some 100 ∧
      (simulate .v1 bars 0 plan.side plan.stop plan.target).fillPrice = some 100 ∧
      (paperRun (account none) (plannedOrder plan (reportFor plan) 0 100 1 10000 "order") 0 bars
        "fill" "position" tradeAt).map (·.1.fillPrice) = .ok (some (199 / 2))) ∧
    (∃ plan bars decision,
      evaluarTradePlan plan (.finite 10000) (some gold) (some configuracionRiesgoPhase4)
        = some decision ∧ decision.status = .approved ∧ decision.quantity = some 10 ∧
      (simulate .v2D bars 0 plan.side plan.stop plan.target).fill = .filled ∧
      (paperRun (account (some .v2D)) (plannedOrder plan (reportFor plan) 0 10 1 10000 "order") 0
        bars "fill" "position" tradeAt).map (·.1.fill) = .ok .fillRejected) := by
  constructor
  · refine ⟨goldPlan 99 103 3 none, [fiveMinutes 0 100, fiveMinutes 300000000 (199 / 2)],
      { rejected (goldPlan 99 103 3 none) "approved" with
        status := .approved
        quantity := some 100
        capitalAtRisk := some 100
        equityAtDecision := some 10000
        riskFraction := some (1 / 100)
        contractMultiplier := some 1 }, ?_, rfl, rfl, ?_, ?_⟩
    all_goals decide +kernel
  · refine ⟨goldPlan 90 140 4 (some .v2D), [fiveMinutes 300000000 102],
      { rejected (goldPlan 90 140 4 (some .v2D)) "approved" with
        status := .approved
        quantity := some 10
        capitalAtRisk := some 100
        equityAtDecision := some 10000
        riskFraction := some (1 / 100)
        contractMultiplier := some 1 }, ?_, rfl, rfl, ?_, ?_⟩
    all_goals decide +kernel

end Runs

end MarketSystem.Replay
