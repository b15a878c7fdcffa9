import MarketSystem.Execution.DemoMetrics
import Mathlib.Logic.Relation
import Mathlib.Tactic.Ring
import Mathlib.Tactic.Linarith

/-!
# The starting capital of the demo

An account that only routed trades move: its balance takes what every partial close, financing
charge and close books on a trade. The dashboard subtracts the closed trades alone.
-/
namespace MarketSystem.DemoMetrics

/-- A routed trade as the broker books it. `exit` is the close time and price. -/
structure BrokerTrade where
  id : String
  clientId : String
  instrument : String
  openTime : Instant
  price : ℚ
  initialUnits : ℚ
  currentUnits : ℚ
  realizedPL : ℚ
  financing : ℚ
  unrealizedPL : ℚ
  stopLoss : Option ℚ
  takeProfit : Option ℚ
  exit : Option (Instant × ℚ)

namespace BrokerTrade

def isOpen (trade : BrokerTrade) : Bool := trade.exit.isNone

/-- What the trade has moved the balance by. -/
def booked (trade : BrokerTrade) : ℚ := trade.realizedPL + trade.financing

/-- `safe_trade` of the trade as a GET returns it. -/
def view (trade : BrokerTrade) : Trade where
  id := some trade.id
  instrument := some trade.instrument
  initialUnits := some trade.initialUnits
  currentUnits := some trade.currentUnits
  price := some trade.price
  openTime := some trade.openTime
  closeTime := trade.exit.map (·.1)
  state := some (if trade.isOpen then "OPEN" else "CLOSED")
  realizedPL := some trade.realizedPL
  financing := some trade.financing
  unrealizedPL := if trade.isOpen then some trade.unrealizedPL else none
  averageClosePrice := trade.exit.map (·.2)
  clientId := some trade.clientId
  stopLoss := trade.stopLoss
  takeProfit := trade.takeProfit

end BrokerTrade

/-- What happens to an open trade. -/
inductive Happening where
  | mark (unrealizedPL : ℚ)
  | protect (stopLoss takeProfit : Option ℚ)
  /-- A scale-out: `units` are closed for `pl`. -/
  | partialClose (units pl : ℚ)
  | charge (financing : ℚ)
  | close (at_ : Instant) (price pl : ℚ)

namespace Happening

def apply (trade : BrokerTrade) : Happening → BrokerTrade
  | mark unrealizedPL => { trade with unrealizedPL := unrealizedPL }
  | protect stopLoss takeProfit => { trade with stopLoss := stopLoss, takeProfit := takeProfit }
  | partialClose units pl =>
    { trade with currentUnits := trade.currentUnits - units, realizedPL := trade.realizedPL + pl }
  | charge financing => { trade with financing := trade.financing + financing }
  | close at_ price pl =>
    { trade with currentUnits := 0, realizedPL := trade.realizedPL + pl, unrealizedPL := 0
                 exit := some (at_, price) }

/-- What it moves the balance by. -/
def cash : Happening → ℚ
  | mark _ => 0
  | protect _ _ => 0
  | partialClose _ pl => pl
  | charge financing => financing
  | close _ _ pl => pl

theorem booked_apply (trade : BrokerTrade) (e : Happening) :
    (e.apply trade).booked = trade.booked + e.cash := by
  cases e <;> simp only [apply, cash, BrokerTrade.booked] <;> ring

end Happening

structure DemoAccount where
  balance : ℚ
  trades : List BrokerTrade

/-- The routed trades only, from the epoch on. -/
inductive DemoAccount.Step (epoch : Instant) : DemoAccount → DemoAccount → Prop
  | opened (a : DemoAccount) (trade : BrokerTrade) (routed : isDemoTrade trade.clientId = true)
      (since : epoch ≤ trade.openTime) (isOpen : trade.isOpen = true)
      (nothing : trade.realizedPL = 0 ∧ trade.financing = 0) :
      Step epoch a ⟨a.balance, trade :: a.trades⟩
  | happened (balance : ℚ) (newer older : List BrokerTrade) (trade : BrokerTrade)
      (isOpen : trade.isOpen = true) (e : Happening) :
      Step epoch ⟨balance, newer ++ trade :: older⟩
        ⟨balance + e.cash, newer ++ e.apply trade :: older⟩

namespace DemoAccount

/-- NAV is the balance and what the open trades would realize. -/
def nav (a : DemoAccount) : ℚ :=
  a.balance + ((a.trades.filter BrokerTrade.isOpen).map BrokerTrade.unrealizedPL).sum

/-- What the open trades have already booked. -/
def bookedOpen (a : DemoAccount) : ℚ :=
  ((a.trades.filter BrokerTrade.isOpen).map BrokerTrade.booked).sum

/-- The account of the experiment: the balance at the epoch and what its trades have booked. -/
structure Since (epoch : Instant) (start : ℚ) (a : DemoAccount) : Prop where
  balance : a.balance = start + (a.trades.map BrokerTrade.booked).sum
  routed : ∀ trade ∈ a.trades, isDemoTrade trade.clientId = true ∧ epoch ≤ trade.openTime

variable {epoch : Instant} {start : ℚ} {a b : DemoAccount}

theorem Since.step (h : Since epoch start a) (hstep : Step epoch a b) : Since epoch start b := by
  cases hstep with
  | opened _ trade routed since isOpen nothing =>
    constructor
    · have hbooked : trade.booked = 0 := by rw [BrokerTrade.booked, nothing.1, nothing.2, add_zero]
      rw [List.map_cons, List.sum_cons, hbooked, zero_add]
      exact h.balance
    · intro t ht
      cases List.mem_cons.mp ht with
      | inl hnew => exact hnew ▸ ⟨routed, since⟩
      | inr hold => exact h.routed t hold
  | happened balance newer older trade isOpen e =>
    constructor
    · have hbalance : balance = start + ((newer ++ trade :: older).map BrokerTrade.booked).sum :=
        h.balance
      simp only [List.map_append, List.map_cons, List.sum_append, List.sum_cons,
        Happening.booked_apply] at hbalance ⊢
      linarith
    · intro t ht
      have hsame : isDemoTrade (e.apply trade).clientId = true ∧
          epoch ≤ (e.apply trade).openTime := by
        have hold := h.routed trade (List.mem_append.mpr (.inr List.mem_cons_self))
        cases e <;> exact hold
      cases List.mem_append.mp ht with
      | inl hnewer => exact h.routed t (List.mem_append.mpr (.inl hnewer))
      | inr hrest =>
        cases List.mem_cons.mp hrest with
        | inl hself => exact hself ▸ hsame
        | inr holder =>
          exact h.routed t (List.mem_append.mpr (.inr (List.mem_cons_of_mem trade holder)))

/-- In every state of every run the balance is the epoch's and what the trades have booked. -/
theorem since_of_run (h : Relation.ReflTransGen (Step epoch) ⟨start, []⟩ a) :
    Since epoch start a := by
  induction h with
  | refl => exact ⟨by simp, fun t ht => absurd ht List.not_mem_nil⟩
  | tail _ hstep ih => exact ih.step hstep

/-! ### What the dashboard reads -/

theorem isClosed_view (trade : BrokerTrade) : isClosed trade.view = !trade.isOpen := by
  unfold isClosed BrokerTrade.view BrokerTrade.isOpen
  cases trade.exit <;> simp

/-- The closed demo trades of a read are those of the account. -/
theorem Since.closed_perm (h : Since epoch start a) {listed : List Trade}
    (hlisted : listed.Perm (a.trades.map BrokerTrade.view)) :
    ((listed.filter (inDemo epoch)).filter isClosed).Perm
      ((a.trades.filter (fun trade => !trade.isOpen)).map BrokerTrade.view) := by
  have hin : ∀ trade ∈ a.trades, inDemo epoch trade.view = true := by
    intro trade htrade
    obtain ⟨hrouted, hsince⟩ := h.routed trade htrade
    simp [inDemo, BrokerTrade.view, hrouted, hsince]
  have hall : (a.trades.map BrokerTrade.view).filter (inDemo epoch) =
      a.trades.map BrokerTrade.view := by
    rw [List.filter_eq_self]
    intro t ht
    obtain ⟨trade, htrade, rfl⟩ := List.mem_map.mp ht
    exact hin trade htrade
  have hfiltered := ((hlisted.filter (inDemo epoch)).filter isClosed)
  rw [hall, List.filter_map] at hfiltered
  have hsame : isClosed ∘ BrokerTrade.view = fun trade => !trade.isOpen :=
    funext isClosed_view
  rwa [hsame] at hfiltered

theorem sum_open_add_closed (trades : List BrokerTrade) :
    ((trades.filter BrokerTrade.isOpen).map BrokerTrade.booked).sum +
      ((trades.filter (fun trade => !trade.isOpen)).map BrokerTrade.booked).sum =
      (trades.map BrokerTrade.booked).sum := by
  have h := List.sum_map_filter_add_sum_map_filter_not (fun trade => trade.isOpen = true)
    BrokerTrade.booked trades
  simpa using h

variable (date : Instant → ℤ) (now : Instant) (riskRows : String → Option RiskRow)

/-- The realized total counts what the closed trades booked. -/
theorem Since.totalPnl (h : Since epoch start a) {listed : List Trade}
    (hlisted : listed.Perm (a.trades.map BrokerTrade.view)) :
    (demoStatistics date listed now epoch riskRows).1.totalPnl =
      some ((a.trades.map BrokerTrade.booked).sum - a.bookedOpen) := by
  have hperm := h.closed_perm hlisted
  have hread : ∀ trade ∈ (listed.filter (inDemo epoch)).filter isClosed,
      (netPnl trade).isSome ∧ trade.closeTime.isSome := by
    intro t ht
    obtain ⟨trade, htrade, rfl⟩ := List.mem_map.mp (hperm.mem_iff.mp ht)
    have hclosed : (!trade.isOpen) = true := (List.mem_filter.mp htrade).2
    refine ⟨rfl, ?_⟩
    unfold BrokerTrade.isOpen at hclosed
    unfold BrokerTrade.view
    cases hexit : trade.exit with
    | none => simp [hexit] at hclosed
    | some exit => rfl
  rw [totalPnl_eq rfl hread]
  have hsum := (hperm.map (fun trade => (netPnl trade).getD 0)).sum_eq
  rw [List.map_map] at hsum
  have hbooked : ((fun trade => (netPnl trade).getD 0) ∘ BrokerTrade.view) =
      BrokerTrade.booked := rfl
  rw [hbooked] at hsum
  have hsplit := sum_open_add_closed a.trades
  rw [hsum, bookedOpen, ← hsplit, add_sub_cancel_left]

/-- The starting capital shown is off by what the open trades have booked. -/
theorem Since.capital (h : Since epoch start a) {closed open_ : List Trade}
    (hlisted : (closed ++ open_).Perm (a.trades.map BrokerTrade.view)) (stale staleView : Bool) :
    (demoSnapshot date now epoch riskRows (.read closed open_ stale)
      ⟨true, some a.nav, some a.balance, staleView⟩).capital =
      ⟨some (start + a.bookedOpen), some (a.nav - (start + a.bookedOpen))⟩ := by
  have htotal := h.totalPnl date now riskRows hlisted
  have hstart : a.balance - ((a.trades.map BrokerTrade.booked).sum - a.bookedOpen) =
      start + a.bookedOpen := by
    rw [h.balance]
    ring
  simp only [demoSnapshot, Snapshot.readTrades, if_true, Option.isSome_some, demoCapital,
    Option.bind_some, htotal, Option.map_some, hstart]

/-- In every state of every run the dashboard shows the capital of the epoch if and only if the
trades open then have booked nothing in sum. -/
theorem capital_iff (hrun : Relation.ReflTransGen (Step epoch) ⟨start, []⟩ a)
    {closed open_ : List Trade}
    (hlisted : (closed ++ open_).Perm (a.trades.map BrokerTrade.view)) (stale staleView : Bool) :
    (demoSnapshot date now epoch riskRows (.read closed open_ stale)
      ⟨true, some a.nav, some a.balance, staleView⟩).capital = ⟨some start, some (a.nav - start)⟩ ↔
      a.bookedOpen = 0 := by
  rw [(since_of_run hrun).capital date now riskRows hlisted stale staleView]
  constructor
  · intro h
    have hstart := Option.some.inj (congrArg Capital.start h)
    linarith
  · intro h
    rw [h, add_zero]

section Runs

private def eurusd : BrokerTrade :=
  ⟨"7", "aif-run", "EUR_USD", 100, 1, 3000, 3000, 0, 0, 0, some (99 / 100), some (103 / 100), none⟩

/-- A trade that is opened, scaled out of once and closed. -/
private def scaledOut : BrokerTrade := Happening.apply eurusd (.partialClose 1000 50)
private def closedOut : BrokerTrade := Happening.apply scaledOut (.close 300 (51 / 50) 30)

private theorem run_scaledOut :
    Relation.ReflTransGen (Step 0) ⟨1000, []⟩ ⟨1000 + 50, [scaledOut]⟩ :=
  .head (.opened _ eurusd (by decide +kernel) (by decide) rfl ⟨rfl, rfl⟩)
    (.single (.happened 1000 [] [] eurusd rfl (.partialClose 1000 50)))

/-- Once the trade is closed, the capital of the epoch is back. -/
theorem capital_iff_closed :
    (demoSnapshot (fun _ => 0) 400 0 (fun _ => none) (.read [closedOut.view] [] false)
      ⟨true, some 1080, some 1080, false⟩).capital = ⟨some 1000, some 80⟩ := by
  have hrun : Relation.ReflTransGen (Step 0) ⟨1000, []⟩ ⟨1000 + 50 + 30, [closedOut]⟩ :=
    run_scaledOut.tail (.happened (1000 + 50) [] [] scaledOut rfl (.close 300 (51 / 50) 30))
  have hlisted : ([closedOut.view] ++ []).Perm ([closedOut].map BrokerTrade.view) := List.Perm.refl _
  have hcapital := (capital_iff (fun _ => 0) 400 (fun _ => none) hrun hlisted false false).mpr
    (by decide +kernel)
  have hnav : (⟨1000 + 50 + 30, [closedOut]⟩ : DemoAccount).nav = 1080 := by decide +kernel
  have hbalance : (1000 + 50 + 30 : ℚ) = 1080 := by norm_num
  have hchange : (1080 - 1000 : ℚ) = 80 := by norm_num
  rw [hnav, hchange] at hcapital
  simp only [hbalance] at hcapital
  exact hcapital

/-- While it is open, the profit of the scale-out counts as capital. -/
theorem scale_out_moves_the_start : ∃ a closed open_,
    Relation.ReflTransGen (Step 0) ⟨1000, []⟩ a ∧
    (closed ++ open_).Perm (a.trades.map BrokerTrade.view) ∧
    (demoSnapshot (fun _ => 0) 400 0 (fun _ => none) (.read closed open_ false)
      ⟨true, some a.nav, some a.balance, false⟩).capital = ⟨some 1050, some 0⟩ :=
  ⟨_, [], [scaledOut.view], run_scaledOut, List.Perm.refl _, by decide +kernel⟩

end Runs

end DemoAccount

end MarketSystem.DemoMetrics
