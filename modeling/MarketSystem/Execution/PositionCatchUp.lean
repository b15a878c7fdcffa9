import MarketSystem.Data.MarketEvidence
import MarketSystem.Execution.PaperWriters
import Mathlib.Data.List.Chain

/-!
# Catch-up of open positions

`catch_up_position` reads the eligible bars once, after the watermark of the
position it finds, and then applies them one by one: each bar is applied to
freshly loaded durable state and saved under the compare-and-swap. Any number of
calls run at the same time, each may end between any two of its transactions, and
other writers commit in between.

The world carries a history of what was committed for the symbol, so that
statements about whole runs can be made: bars applied by calls, and changes of
the position by other writers.
-/
namespace MarketSystem.PositionCatchUp

open Library Database

/-- `uuid4`: an id that no closed trade carries in the database it is drawn for. -/
structure Uuid4 where
  draw : Database → String
  fresh : ∀ db, ∀ t ∈ db.closedTrades, t.tradeId ≠ draw db

/-- One bar that a call committed: the position it was applied to, the position it
left and the trades it closed. -/
structure Applied where
  before : PaperPosition
  bar : MarketBar
  tradeId : String
  after : Option PaperPosition
  closed : List ClosedTrade

/-- One committed change of the position under the symbol. -/
inductive Commit
  | bar (applied : Applied)
  | other (before after : Option PaperPosition)

namespace Commit

def before : Commit → Option PaperPosition
  | bar applied => some applied.before
  | other before _ => before

def after : Commit → Option PaperPosition
  | bar applied => applied.after
  | other _ after => after

end Commit

structure World where
  db : Database
  history : List Commit

/-- The position the broker holds under the symbol. -/
def positionOf (b : PaperBroker) (symbol : String) : Option PaperPosition :=
  b.account.openPositions.get? symbol

/-! ## The call -/

/-- The arguments of one call. -/
structure Call where
  accountId : String
  symbol : String
  asOf : Instant
  evidence : Evidence
  ownerKey : Option String
  uuid4 : Uuid4

inductive CatchUpStatus
  | noOp
  | upToDate
  | applied
  | closed
  | stale
  deriving DecidableEq, Repr

structure CatchUpResult where
  symbol : String
  status : CatchUpStatus
  applied : List Instant
  closedBy : Option Instant
  watermark : Option Instant
  deriving DecidableEq, Repr

abbrev Loaded := Except String (Option PaperAccount × Orders × Fills)

/-- `_load`: the statements of `load_paper`. -/
def load (call : Call) : Program World Loaded := loadPaperReads World.db call.accountId

/-- One bar: `process_bar` on the loaded broker, then `save_paper` under the state it was
loaded with. A successful save is one commit of the history. -/
def saveBar (call : Call) (broker : PaperBroker) (position : PaperPosition) (bar : MarketBar)
    (w : World) : Except String (Bool × List ClosedTrade) × World :=
  let tradeId := call.uuid4.draw w.db
  let (processed, closed) := TradeManager.processBar broker bar.toBar tradeId
  match commit (savePaper processed call.ownerKey call.symbol (some (stateOf broker))) w.db with
  | (.ok true, db) =>
      let applied := ⟨position, bar, tradeId, positionOf processed call.symbol, closed⟩
      (.ok (true, closed), { db := db, history := w.history ++ [.bar applied] })
  | (.ok false, db) => (.ok (false, closed), { w with db := db })
  | (.error e, db) => (.error e, { w with db := db })

/-- The end of a call: the durable watermark is read once more. -/
def finish (call : Call) (applied : List Instant) (stale : Bool) :
    Program World (Except String CatchUpResult) := do
  match ← load call with
  | .error e => pure (.error e)
  | .ok (none, _, _) => pure (.error "AttributeError")
  | .ok (some account, _, _) =>
      let status := if stale then CatchUpStatus.stale
        else if applied = [] then .upToDate else .applied
      pure (.ok ⟨call.symbol, status, applied, none,
        (account.openPositions.get? call.symbol).map (·.watermark)⟩)

/-- The loop over the eligible bars. -/
def applyBars (call : Call) : List MarketBar → List Instant →
    Program World (Except String CatchUpResult)
  | [], applied => finish call applied false
  | bar :: rest, applied => do
      match ← load call with
      | .error e => pure (.error e)
      | .ok (none, _, _) => pure (.error "AttributeError")
      | .ok (some account, orders, fills) =>
          match account.openPositions.get? call.symbol with
          | none => finish call applied false
          | some position =>
              if bar.start ≤ position.watermark then finish call applied false
              else
                let broker : PaperBroker := { account := account, orders := orders, fills := fills }
                match ← Program.call (saveBar call broker position bar) with
                | .error e => pure (.error e)
                | .ok (false, _) => finish call applied true
                | .ok (true, closed) =>
                    let applied := applied ++ [bar.start]
                    if closed = [] then applyBars call rest applied
                    else pure (.ok ⟨call.symbol, .closed, applied, some bar.start, none⟩)

/-- `catch_up_position`. -/
def catchUpPosition (call : Call) : Program World (Except String CatchUpResult) := do
  match ← load call with
  | .error e => pure (.error e)
  | .ok (none, _, _) => pure (.ok ⟨call.symbol, .noOp, [], none, none⟩)
  | .ok (some account, _, _) =>
      match account.openPositions.get? call.symbol with
      | none => pure (.ok ⟨call.symbol, .noOp, [], none, none⟩)
      | some position =>
          match call.evidence.eligibleBars call.symbol position.watermark call.asOf with
          | .error e => pure (.error e)
          | .ok bars => applyBars call bars []

/-! ## Other writers -/

/-- What another writer adds to the history. -/
def change (before after : Option PaperPosition) : List Commit :=
  if before = after then [] else [.other before after]

/-- Another writer commits: a save computed from the durable state, or a transaction that
leaves the PAPER tables alone. -/
inductive OtherWriter (accountId symbol : String) : World → World → Prop
  | save {w : World} {a b : PaperBroker} (hshows : w.db.Shows a)
      (hid : a.account.accountId = accountId) (hwrites : a.Writing b) :
      OtherWriter accountId symbol w
        ⟨w.db.persist b, w.history ++ change (positionOf a symbol) (positionOf b symbol)⟩
  | tables {w : World} {db : Database} (haccounts : db.paperAccounts = w.db.paperAccounts)
      (horders : db.paperOrders = w.db.paperOrders) (hfills : db.paperFills = w.db.paperFills)
      (hpositions : db.paperPositions = w.db.paperPositions)
      (htrades : db.closedTrades = w.db.closedTrades) :
      OtherWriter accountId symbol w ⟨db, w.history⟩

/-- The position was on record in this commit. -/
def Commit.Mentions (c : Commit) (p : PaperPosition) : Prop :=
  c.before = some p ∨ c.after = some p

/-- A position that opens is not older than what positions of the symbol have reached. -/
def OpensLater (w w' : World) : Prop :=
  ∀ before q, w'.history = w.history ++ [.other before (some q)] →
    before.map (·.positionId) ≠ some q.positionId →
    ∀ c ∈ w.history, ∀ p, c.Mentions p → p.watermark ≤ q.openedAt

/-! ## What a history says -/

def applications (history : List Commit) : List Applied :=
  history.filterMap (fun c => match c with
    | .bar applied => some applied
    | .other _ _ => none)

theorem mem_applications {history : List Commit} {a : Applied} :
    a ∈ applications history ↔ .bar a ∈ history := by
  simp only [applications, List.mem_filterMap]
  constructor
  · rintro ⟨c, hc, he⟩
    cases c with
    | bar applied =>
      obtain rfl := Option.some.inj he
      exact hc
    | other before after => cases he
  · exact fun h => ⟨_, h, rfl⟩

/-- The commit is what one `process_bar` does to the position, on any account. -/
def Applied.Faithful (a : Applied) : Prop :=
  ∀ b : PaperBroker, positionOf b a.bar.symbol = some a.before →
    let result := TradeManager.processBar b a.bar.toBar a.tradeId
    positionOf result.1 a.bar.symbol = a.after ∧ result.2 = a.closed ∧
      result.1.account.closedTrades = b.account.closedTrades ++ a.closed ∧
      result.1.account.realizedPnl =
        b.account.realizedPnl + (a.closed.map (·.netPnl)).sum

/-- No applicable bar lies between the watermark and the bar. -/
def Applied.Next (evidence : Evidence) (symbol : String) (a : Applied) : Prop :=
  evidence.Applicable symbol a.bar ∧ a.before.watermark < a.bar.start ∧
    ∀ e, evidence.Applicable symbol e → a.before.watermark < e.start → a.bar.start ≤ e.start

/-- An earlier bar on a position comes before a later one. -/
def Applied.Before (a b : Applied) : Prop :=
  a.before.positionId = b.before.positionId → a.bar.start < b.bar.start

/-- The bar stays behind the position: that position is closed for good, or its watermark
has reached the bar. -/
def Applied.Past (symbol : String) (b : PaperBroker) (a : Applied) : Prop :=
  (∃ t ∈ b.account.closedTrades, t.positionId = a.before.positionId) ∨
    ∃ q, positionOf b symbol = some q ∧ q.positionId = a.before.positionId ∧
      a.bar.start ≤ q.watermark

/-- What the history of a symbol says about the durable broker. -/
structure Chronicle (evidence : Evidence) (symbol : String) (history : List Commit)
    (b : PaperBroker) : Prop where
  linked : history.IsChain (fun c d => d.before = c.after)
  latest : history.getLast?.map Commit.after = some (positionOf b symbol)
  top : ∀ q, positionOf b symbol = some q → ∀ c ∈ history, ∀ p, c.Mentions p →
    p.watermark ≤ q.watermark
  past : ∀ a ∈ applications history, a.Past symbol b
  ordered : (applications history).Pairwise Applied.Before
  next : ∀ a ∈ applications history, a.Next evidence symbol
  faithful : ∀ a ∈ applications history, a.Faithful
  booked : ∀ a ∈ applications history, ∀ t ∈ a.closed, t ∈ b.account.closedTrades

/-- A position of the history had reached the instant. -/
def Reached (history : List Commit) (instant : Instant) : Prop :=
  ∃ c ∈ history, ∃ p, c.Mentions p ∧ instant ≤ p.watermark

theorem Reached.mono {h h' : List Commit} {t : Instant} (hr : Reached h t) (hp : h <+: h') :
    Reached h' t := by
  obtain ⟨c, hc, hm⟩ := hr
  exact ⟨c, hp.subset hc, hm⟩

section Chronicle

variable {evidence : Evidence} {symbol : String} {history : List Commit} {b c : PaperBroker}

theorem applications_append (h h' : List Commit) :
    applications (h ++ h') = applications h ++ applications h' := by
  simp [applications]

theorem positionOf_mem {p : PaperPosition} (h : positionOf b symbol = some p) :
    p ∈ b.account.openPositions ∧ p.symbol = symbol :=
  Table.get?_eq_some.mp h

/-- The durable position is on record. -/
theorem Chronicle.mentions (h : Chronicle evidence symbol history b) {p : PaperPosition}
    (hp : positionOf b symbol = some p) : ∃ c ∈ history, c.Mentions p := by
  have hl := h.latest
  cases hlast : history.getLast? with
  | none => simp [hlast] at hl
  | some last =>
    have hafter : last.after = some p := by simpa [hlast, hp] using hl
    exact ⟨last, List.mem_of_getLast? hlast, .inr hafter⟩

theorem Chronicle.reached (h : Chronicle evidence symbol history b) {p : PaperPosition}
    (hp : positionOf b symbol = some p) {t : Instant} :
    Reached history t ↔ t ≤ p.watermark := by
  constructor
  · rintro ⟨c, hc, q, hq, ht⟩
    exact ht.trans (h.top p hp c hc q hq)
  · intro ht
    obtain ⟨c, hc, hm⟩ := h.mentions hp
    exact ⟨c, hc, p, hm, ht⟩

/-- Brokers with the same comparison value satisfy the same history. -/
theorem Chronicle.of_stateOf (h : Chronicle evidence symbol history b)
    (he : stateOf b = stateOf c) : Chronicle evidence symbol history c := by
  obtain ⟨-, hp, ht, -, -⟩ := paperState_eq_iff.mp he
  have hpos : positionOf b symbol = positionOf c symbol := Table.get?_eq_of_mem_iff hp symbol
  refine { linked := h.linked, latest := hpos ▸ h.latest, top := hpos ▸ h.top, past := ?_,
           ordered := h.ordered, next := h.next, faithful := h.faithful, booked := ?_ }
  · intro a ha
    rcases h.past a ha with ⟨t, hmem, hid⟩ | ⟨q, hq, hrest⟩
    · exact .inl ⟨t, ht.mem_iff.mp hmem, hid⟩
    · exact .inr ⟨q, hpos ▸ hq, hrest⟩
  · exact fun a ha t hmem => ht.mem_iff.mp (h.booked a ha t hmem)

/-- A later broker leaves applied bars behind it. -/
theorem Applied.Past.later {a : Applied} (hlater : b.Later c) (hc : c.Sound)
    (h : a.Past symbol b) : a.Past symbol c := by
  rcases h with ⟨t, ht, hid⟩ | ⟨q, hq, hid, hle⟩
  · exact .inl ⟨t, hlater.trades t ht, hid⟩
  · obtain ⟨hmem, hsymbol⟩ := positionOf_mem hq
    rcases hlater.positions q hmem with ⟨t, ht, hid'⟩ | ⟨r, hr, hid', hsymbol', -⟩
    · exact .inl ⟨t, ht, hid'.trans hid⟩
    · have hw := hlater.watermark_le hc hmem hr hid'
      refine .inr ⟨r, ?_, hid'.trans hid, hle.trans hw⟩
      exact Table.get?_eq_some.mpr ⟨hr, hsymbol'.trans hsymbol⟩

/-! ## Another writer commits -/

/-- Positions of a later broker are at least as far as everything on record, unless one of
them opens too early. -/
theorem Chronicle.top_later (h : Chronicle evidence symbol history b) (hlater : b.Later c)
    (hc : c.Sound)
    (hopens : ∀ q, positionOf c symbol = some q →
      (positionOf b symbol).map (·.positionId) ≠ some q.positionId →
      ∀ d ∈ history, ∀ p, d.Mentions p → p.watermark ≤ q.openedAt)
    {q : PaperPosition} (hq : positionOf c symbol = some q) :
    ∀ d ∈ history, ∀ p, d.Mentions p → p.watermark ≤ q.watermark := by
  intro d hd p hp
  obtain ⟨hmem, hsymbol⟩ := positionOf_mem hq
  by_cases hid : (positionOf b symbol).map (·.positionId) = some q.positionId
  · obtain ⟨r, hr, hrid⟩ := Option.map_eq_some_iff.mp hid
    have hw := hlater.watermark_le hc (positionOf_mem hr).1 hmem hrid.symm
    exact (h.top r hr d hd p hp).trans hw
  · exact (hopens q hq hid d hd p hp).trans (hc.position q hmem).opened

theorem Chronicle.change (h : Chronicle evidence symbol history b) (hlater : b.Later c)
    (hc : c.Sound)
    (hopens : ∀ q, positionOf c symbol = some q →
      (positionOf b symbol).map (·.positionId) ≠ some q.positionId →
      ∀ d ∈ history, ∀ p, d.Mentions p → p.watermark ≤ q.openedAt) :
    Chronicle evidence symbol (history ++ change (positionOf b symbol) (positionOf c symbol))
      c := by
  have hpast : ∀ a ∈ applications history, a.Past symbol c := fun a ha =>
    (h.past a ha).later hlater hc
  have hbooked : ∀ a ∈ applications history, ∀ t ∈ a.closed, t ∈ c.account.closedTrades :=
    fun a ha t ht => hlater.trades t (h.booked a ha t ht)
  by_cases he : positionOf b symbol = positionOf c symbol
  · have hnil : PositionCatchUp.change (positionOf b symbol) (positionOf c symbol) = [] :=
      if_pos he
    rw [hnil, List.append_nil]
    exact { h with
      latest := he ▸ h.latest
      top := fun q hq => h.top_later hlater hc hopens hq
      past := hpast
      booked := hbooked }
  · have hone : PositionCatchUp.change (positionOf b symbol) (positionOf c symbol) =
        [.other (positionOf b symbol) (positionOf c symbol)] := if_neg he
    have happ : applications (history ++ [.other (positionOf b symbol) (positionOf c symbol)]) =
        applications history := by
      rw [applications_append]
      simp [applications]
    rw [hone]
    refine { linked := ?_, latest := ?_, top := ?_, past := ?_, ordered := ?_, next := ?_,
             faithful := ?_, booked := ?_ }
    · refine h.linked.append (List.isChain_singleton _) ?_
      intro d hd e he'
      obtain rfl : Commit.other (positionOf b symbol) (positionOf c symbol) = e := by
        simpa using he'
      have hl := h.latest
      rw [Option.mem_def.mp hd] at hl
      exact (Option.some.inj hl).symm
    · simp [Commit.after]
    · intro q hq d hd p hp
      have htop := h.top_later hlater hc hopens hq
      rcases List.mem_append.mp hd with hd | hd
      · exact htop d hd p hp
      · obtain rfl := List.mem_singleton.mp hd
        rcases hp with hp | hp
        · obtain ⟨d', hd', hm⟩ := h.mentions hp
          exact htop d' hd' p hm
        · obtain rfl : q = p := Option.some.inj (hq.symm.trans hp)
          exact le_refl _
    · rwa [happ]
    · rw [happ]; exact h.ordered
    · rw [happ]; exact h.next
    · rw [happ]; exact h.faithful
    · rwa [happ]

/-! ## A call commits a bar -/

theorem actsOn_of_watermark {p : PaperPosition} {bar : MarketBar} (hp : p.WellFormed)
    (hsymbol : bar.symbol = p.symbol) (h : p.watermark < bar.start) :
    TradeManager.actsOn bar.toBar p = true := by
  have hopened : p.openedAt < bar.start := hp.opened.trans_lt h
  simp only [TradeManager.actsOn, hp.isOpen, hp.multiplier, hsymbol, MarketBar.toBar_symbol,
    MarketBar.toBar_timestamp, MarketBar.toBar_validOhlc, hopened, decide_true, Bool.and_true,
    Bool.true_and]
  unfold PaperPosition.watermark at h
  cases hl : p.lastProcessedAt with
  | none => rfl
  | some last =>
    rw [hl] at h
    exact decide_eq_true h

/-- What one application makes of the history. -/
theorem Chronicle.apply (h : Chronicle evidence symbol history b) (hb : b.Sound)
    {p : PaperPosition} (hp : positionOf b symbol = some p) {bar : MarketBar}
    (happ : evidence.Applicable symbol bar) (hstart : p.watermark < bar.start)
    (hnext : ∀ e, evidence.Applicable symbol e → e.start < bar.start → Reached history e.start)
    {tradeId : String} (hfresh : ∀ t ∈ b.account.closedTrades, t.tradeId ≠ tradeId) :
    let result := TradeManager.processBar b bar.toBar tradeId
    let a : Applied := ⟨p, bar, tradeId, positionOf result.1 symbol, result.2⟩
    Chronicle evidence symbol (history ++ [.bar a]) result.1 ∧
      (result.2 = [] → Reached (history ++ [.bar a]) bar.start) := by
  intro result a
  obtain rfl : bar.symbol = symbol := happ.2.1
  obtain ⟨hmem, hpsymbol⟩ := positionOf_mem hp
  have hacts := actsOn_of_watermark (hb.position p hmem) hpsymbol.symm hstart
  have hwrites : b.Writes result.1 := .processBar rfl hfresh
  have hc : result.1.Sound := hwrites.sound hb
  have hlater : b.Later result.1 := hwrites.later hb
  have houtcome := fun (d : PaperBroker) (hd : positionOf d bar.symbol = some p) =>
    @TradeManager.processBar_outcome d bar.toBar p tradeId rfl hd hacts
  obtain ⟨hafter, hclosed, htrades, -⟩ := houtcome b hp
  have hfaithful : a.Faithful := by
    intro d hd
    obtain ⟨h1, h2, h3, h4⟩ := houtcome d hd
    exact ⟨h1.trans hafter.symm, h2.trans hclosed.symm, h3.trans (by rw [← hclosed]),
      h4.trans (by rw [← hclosed])⟩
  have hheld : ∀ q, positionOf result.1 bar.symbol = some q →
      q.positionId = p.positionId ∧ q.watermark = bar.start := by
    intro q hq
    have he : (TradeManager.outcome p bar.toBar tradeId).1 = some q := hafter.symm.trans hq
    unfold TradeManager.outcome at he
    cases hexit : TradeManager.exitOf p bar.toBar with
    | some exit => simp [hexit] at he
    | none =>
      simp only [hexit, Option.some.injEq] at he
      subst he
      exact ⟨rfl, rfl⟩
  have happs : applications (history ++ [.bar a]) = applications history ++ [a] := by
    rw [applications_append]
    simp [applications]
  have hbefore : ∀ a' ∈ applications history, a'.Before a := by
    intro a' ha' hid
    rcases h.past a' ha' with ⟨t, ht, htid⟩ | ⟨q, hq, -, hle⟩
    · exact absurd (htid.trans hid) (hb.apart p hmem t ht)
    · obtain rfl : q = p := Option.some.inj (hq.symm.trans hp)
      exact hle.trans_lt hstart
  have hpast : a.Past bar.symbol result.1 := by
    cases hexit : TradeManager.exitOf p bar.toBar with
    | none =>
      have he : positionOf result.1 bar.symbol = some (TradeManager.held p bar.toBar) :=
        hafter.trans (by simp [TradeManager.outcome, hexit])
      exact .inr ⟨_, he, rfl, le_refl _⟩
    | some exit =>
      refine .inl ⟨TradeManager.closedTrade tradeId p exit.1 bar.start exit.2, ?_, rfl⟩
      rw [htrades]
      simp [TradeManager.outcome, hexit]
  refine ⟨{ linked := ?_, latest := ?_, top := ?_, past := ?_, ordered := ?_, next := ?_,
            faithful := ?_, booked := ?_ }, ?_⟩
  · refine h.linked.append (List.isChain_singleton _) ?_
    intro d hd e he
    obtain rfl : Commit.bar a = e := by simpa using he
    have hl := h.latest
    rw [Option.mem_def.mp hd] at hl
    exact (hp.symm.trans (Option.some.inj hl).symm)
  · simp [Commit.after, a]
  · intro q hq d hd r hr
    obtain ⟨-, hw⟩ := hheld q hq
    rw [hw]
    rcases List.mem_append.mp hd with hd | hd
    · exact (h.top p hp d hd r hr).trans hstart.le
    · obtain rfl := List.mem_singleton.mp hd
      rcases hr with hr | hr
      · obtain rfl : p = r := Option.some.inj hr
        exact hstart.le
      · obtain rfl : q = r := Option.some.inj (hq.symm.trans hr)
        exact hw.le
  · intro a' ha'
    rw [happs] at ha'
    rcases List.mem_append.mp ha' with ha' | ha'
    · exact (h.past a' ha').later hlater hc
    · obtain rfl := List.mem_singleton.mp ha'
      exact hpast
  · rw [happs]
    refine List.pairwise_append.mpr ⟨h.ordered, List.pairwise_singleton _ _, ?_⟩
    intro a' ha' d hd
    rw [List.mem_singleton.mp hd]
    exact hbefore a' ha'
  · intro a' ha'
    rw [happs] at ha'
    rcases List.mem_append.mp ha' with ha' | ha'
    · exact h.next a' ha'
    · obtain rfl := List.mem_singleton.mp ha'
      refine ⟨happ, hstart, fun e he hlt => ?_⟩
      by_contra hge
      -- a bar in between would have been reached already
      exact absurd ((h.reached hp).mp (hnext e he (not_le.mp hge))) (not_le.mpr hlt)
  · intro a' ha'
    rw [happs] at ha'
    rcases List.mem_append.mp ha' with ha' | ha'
    · exact h.faithful a' ha'
    · obtain rfl := List.mem_singleton.mp ha'
      exact hfaithful
  · intro a' ha' t ht
    rw [happs] at ha'
    rcases List.mem_append.mp ha' with ha' | ha'
    · exact hlater.trades t (h.booked a' ha' t ht)
    · obtain rfl := List.mem_singleton.mp ha'
      have ht' : t ∈ (TradeManager.outcome p bar.toBar tradeId).2 := hclosed ▸ ht
      rw [htrades]
      exact List.mem_append_right _ ht'
  · intro hnil
    have he : (TradeManager.outcome p bar.toBar tradeId).2 = [] := hclosed.symm.trans hnil
    cases hexit : TradeManager.exitOf p bar.toBar with
    | some exit => simp [TradeManager.outcome, hexit] at he
    | none =>
      have hq : positionOf result.1 bar.symbol = some (TradeManager.held p bar.toBar) :=
        hafter.trans (by simp [TradeManager.outcome, hexit])
      exact ⟨.bar a, by simp, TradeManager.held p bar.toBar, .inr hq, le_refl _⟩

end Chronicle

/-! ## Calls keep the history right -/

/-- The durable broker is sound and the history describes it; nobody rewrites history. -/
def discipline (accountId symbol : String) (evidence : Evidence) : Discipline World where
  inv w := ∃ b, w.db.Shows b ∧ b.Sound ∧ b.account.accountId = accountId ∧
    Chronicle evidence symbol w.history b
  rely w w' := w.history <+: w'.history
  guar w w' := w.history <+: w'.history
  rely_refl _ := List.prefix_refl _
  rely_trans h h' := h.trans h'
  guar_refl _ := List.prefix_refl _

section Call

variable {call : Call}

/-- The discipline of a call. -/
abbrev Call.discipline (call : Call) : Discipline World :=
  PositionCatchUp.discipline call.accountId call.symbol call.evidence

/-- A load sees the account of the call, and a position that was durable. -/
def Sees (call : Call) (loaded : Loaded) (w : World) : Prop :=
  ∀ account orders fills, loaded = .ok (some account, orders, fills) →
    account.accountId = call.accountId ∧
      ∀ p, account.openPositions.get? call.symbol = some p → Reached w.history p.watermark

theorem load_holds (call : Call) (w : World) :
    (load call).Holds call.discipline (Sees call) w := by
  have hA : Program.Observes call.discipline
      (fun w : World => w.db.paperAccounts.get? call.accountId)
      (fun row _ => ∀ a, row = some a → a.accountId = call.accountId) :=
    { now := fun w _ a ha => (Table.get?_eq_some.mp ha).2
      stable := fun _ _ _ _ h => h }
  have hP : Program.Observes call.discipline
      (fun w : World => w.db.paperPositions.rows.filter (fun p => decide (p.status = .open)))
      (fun rows w => ∀ p ∈ rows, p.symbol = call.symbol → Reached w.history p.watermark) := by
    refine { now := ?_, stable := ?_ }
    · rintro w ⟨b, hshows, -, -, hchronicle⟩ p hp hsymbol
      obtain ⟨hp, hopen⟩ := List.mem_filter.mp hp
      have hmem : p ∈ b.account.openPositions :=
        (hshows.positions p).mp ⟨hp, of_decide_eq_true hopen⟩
      have hpos : positionOf b call.symbol = some p := Table.get?_eq_some.mpr ⟨hmem, hsymbol⟩
      exact (hchronicle.reached hpos).mpr (le_refl _)
    · intro rows w w' hr h p hp hsymbol
      exact (h p hp hsymbol).mono hr
  have htrue : ∀ {β : Type} (f : World → β),
      Program.Observes call.discipline f (fun _ _ => True) := fun _ =>
    { now := fun _ _ => trivial, stable := fun _ _ _ _ _ => trivial }
  refine (loadPaperReads_holds hA (htrue _) (htrue _) hP (htrue _) w).mono ?_
  intro loaded w' _ h account orders fills he
  obtain ⟨-, -, ⟨row, hrow, hencode⟩, hrest⟩ := h (some account) orders fills he
  refine ⟨?_, ?_⟩
  · cases row with
    | none => cases hencode
    | some row =>
      rw [accountId_of_encode (Option.some.inj hencode), hrow row rfl]
  · intro p hp
    obtain ⟨hmem, hsymbol⟩ := Table.get?_eq_some.mp hp
    exact (hrest account rfl).1 p hmem hsymbol

theorem finish_holds (call : Call) (applied : List Instant) (stale : Bool) {w : World}
    (hw : call.discipline.inv w) :
    (finish call applied stale).Holds call.discipline (fun _ _ => True) w := by
  refine Program.Holds.bind ((load_holds call w).mono ?_) hw
  intro loaded w' _ _
  match loaded with
  | .error e => exact fun _ _ _ => trivial
  | .ok (none, _, _) => exact fun _ _ _ => trivial
  | .ok (some account, _, _) => exact fun _ _ _ => trivial

/-- The bars still to apply: in order, applicable, and with nothing left out. -/
structure Remaining (call : Call) (history : List Commit) (bars : List MarketBar) : Prop where
  sorted : bars.Pairwise (fun a b => a.start < b.start)
  applicable : ∀ bar ∈ bars, call.evidence.Applicable call.symbol bar
  complete : ∀ bar ∈ bars, ∀ e, call.evidence.Applicable call.symbol e → e.start < bar.start →
    Reached history e.start ∨ e ∈ bars

theorem Remaining.mono {h h' : List Commit} {bars : List MarketBar}
    (hr : Remaining call h bars) (hp : h <+: h') : Remaining call h' bars :=
  { hr with complete := fun bar hbar e he hlt =>
      (hr.complete bar hbar e he hlt).imp (fun h => h.mono hp) id }

theorem Remaining.head {h : List Commit} {bar : MarketBar} {rest : List MarketBar}
    (hr : Remaining call h (bar :: rest)) (e : MarketBar)
    (he : call.evidence.Applicable call.symbol e) (hlt : e.start < bar.start) :
    Reached h e.start := by
  rcases hr.complete bar List.mem_cons_self e he hlt with h | hmem
  · exact h
  · rcases List.mem_cons.mp hmem with rfl | hmem
    · exact absurd hlt (lt_irrefl _)
    · exact absurd hlt (not_lt.mpr ((List.pairwise_cons.mp hr.sorted).1 e hmem).le)

theorem Remaining.tail {h : List Commit} {bar : MarketBar} {rest : List MarketBar}
    (hr : Remaining call h (bar :: rest)) (hbar : Reached h bar.start) :
    Remaining call h rest where
  sorted := (List.pairwise_cons.mp hr.sorted).2
  applicable := fun b hb => hr.applicable b (List.mem_cons_of_mem _ hb)
  complete := by
    intro b hb e he hlt
    rcases hr.complete b (List.mem_cons_of_mem _ hb) e he hlt with h | hmem
    · exact .inl h
    · rcases List.mem_cons.mp hmem with rfl | hmem
      · exact .inl hbar
      · exact .inr hmem

theorem remaining_eligible {history : List Commit} {watermark : Instant} {bars : List MarketBar}
    (h : call.evidence.eligibleBars call.symbol watermark call.asOf = .ok bars)
    (hr : Reached history watermark) : Remaining call history bars := by
  obtain ⟨hsorted, hmem⟩ := Evidence.eligibleBars_ok h
  refine { sorted := hsorted, applicable := fun bar hb => ((hmem bar).mp hb).1, complete := ?_ }
  intro bar hbar e he hlt
  obtain ⟨hbar, -, hend⟩ := (hmem bar).mp hbar
  by_cases hafter : watermark < e.start
  · refine .inr ((hmem e).mpr ⟨he, hafter, ?_⟩)
    have hsame : e.timeframe = bar.timeframe := he.2.2.1.trans hbar.2.2.1.symm
    unfold MarketBar.end_ at hend ⊢
    rw [hsame]
    exact (Int.add_le_add_right hlt.le _).trans hend
  · obtain ⟨c, hc, p, hp, hle⟩ := hr
    exact .inl ⟨c, hc, p, hp, (not_lt.mp hafter).trans hle⟩

/-- What the transaction of one bar does: nothing at all unless it commits. -/
theorem saveBar_cases (call : Call) (broker : PaperBroker) (position : PaperPosition)
    (bar : MarketBar) (w : World) :
    (∃ e, saveBar call broker position bar w = (.error e, w)) ∨
    (∃ closed, saveBar call broker position bar w = (.ok (false, closed), w)) ∨
    (∃ db, savePaper (TradeManager.processBar broker bar.toBar (call.uuid4.draw w.db)).1
        call.ownerKey call.symbol (some (stateOf broker)) w.db = .ok (true, db) ∧
      let result := TradeManager.processBar broker bar.toBar (call.uuid4.draw w.db)
      let applied : Applied := ⟨position, bar, call.uuid4.draw w.db,
        positionOf result.1 call.symbol, result.2⟩
      saveBar call broker position bar w =
        (.ok (true, result.2), ⟨db, w.history ++ [.bar applied]⟩)) := by
  cases hs : savePaper (TradeManager.processBar broker bar.toBar (call.uuid4.draw w.db)).1
      call.ownerKey call.symbol (some (stateOf broker)) w.db with
  | error e =>
    refine .inl ⟨e, ?_⟩
    simp only [saveBar, commit_error hs]
  | ok result =>
    obtain ⟨saved, db⟩ := result
    cases saved with
    | false =>
      obtain rfl := savePaper_false hs
      refine .inr (.inl ⟨(TradeManager.processBar broker bar.toBar
        (call.uuid4.draw w.db)).2, ?_⟩)
      simp only [saveBar, commit_ok hs]
    | true =>
      refine .inr (.inr ⟨db, rfl, ?_⟩)
      simp only [saveBar, commit_ok hs]

/-- The step of a call: a bar is committed to the position the call has just loaded, or
nothing is. -/
theorem saveBar_step {account : PaperAccount} {orders : Orders} {fills : Fills}
    {position : PaperPosition} {bar : MarketBar} {rest : List MarketBar} {w : World}
    (hw : call.discipline.inv w) (hid : account.accountId = call.accountId)
    (hposition : account.openPositions.get? call.symbol = some position)
    (hstart : position.watermark < bar.start) (hr : Remaining call w.history (bar :: rest)) :
    let broker : PaperBroker := { account := account, orders := orders, fills := fills }
    let result := saveBar call broker position bar w
    call.discipline.inv result.2 ∧ w.history <+: result.2.history ∧
      (result.1 = .ok (true, []) → Remaining call result.2.history rest) := by
  intro broker result
  rcases saveBar_cases call broker position bar w with ⟨e, he⟩ | ⟨closed, he⟩ | ⟨db, hsave, he⟩
  · have hres : result = (.error e, w) := he
    rw [hres]
    exact ⟨hw, List.prefix_refl _, by simp⟩
  · have hres : result = (.ok (false, closed), w) := he
    rw [hres]
    exact ⟨hw, List.prefix_refl _, by simp⟩
  · obtain ⟨b, hshows, hb, hbid, hchronicle⟩ := hw
    have hwid : (TradeManager.processBar broker bar.toBar (call.uuid4.draw w.db)).1.account.accountId
        = b.account.accountId :=
      (TradeManager.processBar_accountId broker _ rfl).trans (hid.trans hbid.symm)
    obtain ⟨hbroker, hsame, rfl⟩ := savePaper_true hshows hwid hsave
    have hsound : broker.Sound := sound_of_stateOf hb hsame
    have hstory := hchronicle.of_stateOf hsame
    have hfresh : ∀ t ∈ broker.account.closedTrades, t.tradeId ≠ call.uuid4.draw w.db :=
      fun t ht => call.uuid4.fresh w.db t (hbroker.mem_trades.mpr ht)
    obtain ⟨hnew, hreached⟩ := hstory.apply hsound hposition
      (hr.applicable bar List.mem_cons_self) hstart hr.head hfresh
    have hwrites : broker.Writes (TradeManager.processBar broker bar.toBar
        (call.uuid4.draw w.db)).1 := .processBar rfl hfresh
    have hshows' := hbroker.persist (hwrites.later hsound) (hwrites.sound hsound)
    have hres : result = _ := he
    rw [hres]
    refine ⟨⟨_, hshows', hwrites.sound hsound, hwid.trans hbid, hnew⟩,
      List.prefix_append _ _, fun hok => ?_⟩
    have hnil : (TradeManager.processBar broker bar.toBar (call.uuid4.draw w.db)).2 = [] := by
      simpa using hok
    exact (hr.mono (List.prefix_append _ _)).tail (hreached hnil)

theorem applyBars_holds (call : Call) (bars : List MarketBar) (applied : List Instant) {w : World}
    (hw : call.discipline.inv w) (hr : Remaining call w.history bars) :
    (applyBars call bars applied).Holds call.discipline (fun _ _ => True) w := by
  induction bars generalizing applied w with
  | nil => exact finish_holds call applied false hw
  | cons bar rest ih =>
    have hload := (load_holds call w).frame (Q := fun w => Remaining call w.history (bar :: rest))
      (fun _ _ hp h => h.mono hp) (fun _ _ hp h => h.mono hp) hr
    refine Program.Holds.bind (hload.mono ?_) hw
    rintro loaded w₁ hw₁ ⟨hsees, hr₁⟩
    match loaded with
    | .error e => exact fun _ _ _ => trivial
    | .ok (none, _, _) => exact fun _ _ _ => trivial
    | .ok (some account, orders, fills) =>
      have hid : account.accountId = call.accountId := (hsees account orders fills rfl).1
      cases hposition : account.openPositions.get? call.symbol with
      | none =>
        simp only [hposition]
        exact finish_holds call applied false hw₁
      | some position =>
        simp only [hposition]
        by_cases hstart : bar.start ≤ position.watermark
        · simp only [hstart, if_true]
          exact finish_holds call applied false hw₁
        · simp only [hstart, if_false]
          refine Program.Holds.call (fun w₂ hrely hw₂ => ?_)
          obtain ⟨hinv, hguar, hnext⟩ := @saveBar_step call _ orders fills _ _ _ _ hw₂ hid
            hposition (not_le.mp hstart) (hr₁.mono hrely)
          refine ⟨hinv, hguar, ?_⟩
          split
          · exact fun _ _ _ => trivial
          · exact finish_holds call applied true hinv
          · rename_i closed heq
            split_ifs with hnil
            · exact ih (applied ++ [bar.start]) hinv (hnext (hnil ▸ heq))
            · exact fun _ _ _ => trivial

theorem catchUpPosition_holds (call : Call) {w : World} (hw : call.discipline.inv w) :
    (catchUpPosition call).Holds call.discipline (fun _ _ => True) w := by
  refine Program.Holds.bind ((load_holds call w).mono ?_) hw
  intro loaded w₁ hw₁ hsees
  match loaded with
  | .error e => exact fun _ _ _ => trivial
  | .ok (none, _, _) => exact fun _ _ _ => trivial
  | .ok (some account, orders, fills) =>
    cases hposition : account.openPositions.get? call.symbol with
    | none =>
      simp only [hposition]
      exact fun _ _ _ => trivial
    | some position =>
      simp only [hposition]
      cases heligible : call.evidence.eligibleBars call.symbol position.watermark call.asOf with
      | error e => exact fun _ _ _ => trivial
      | ok bars =>
        have hreached := (hsees account orders fills rfl).2 position hposition
        exact applyBars_holds call bars [] hw₁ (remaining_eligible heligible hreached)

end Call

/-! ## The sequential run -/

/-- `process_bar` with one bar after the other, and nothing in between. -/
def runBars (b : PaperBroker) (bars : List Applied) : PaperBroker :=
  bars.foldl (fun b a => (TradeManager.processBar b a.bar.toBar a.tradeId).1) b

/-- What a sequential run over the same bars makes of an account that holds the first
position: the last position, the same trades and their profit. -/
structure Replays (symbol : String) (bars : List Applied) (b : PaperBroker) : Prop where
  position : ∀ a ∈ bars.getLast?, positionOf (runBars b bars) symbol = a.after
  trades : (runBars b bars).account.closedTrades =
    b.account.closedTrades ++ bars.flatMap (·.closed)
  realized : (runBars b bars).account.realizedPnl =
    b.account.realizedPnl + ((bars.flatMap (·.closed)).map (·.netPnl)).sum

theorem replays_of_chain {symbol : String} {bars : List Applied} {b : PaperBroker}
    (hchain : bars.IsChain (fun a a' => some a'.before = a.after))
    (hfaithful : ∀ a ∈ bars, a.bar.symbol = symbol ∧ a.Faithful)
    (hfirst : ∀ a ∈ bars.head?, positionOf b symbol = some a.before) :
    Replays symbol bars b := by
  induction bars generalizing b with
  | nil => exact { position := by simp, trades := by simp [runBars], realized := by simp [runBars] }
  | cons a rest ih =>
    obtain ⟨rfl, hone⟩ := hfaithful a List.mem_cons_self
    obtain ⟨hposition, -, htrades, hrealized⟩ := hone b (hfirst a rfl)
    have hrest := ih (b := (TradeManager.processBar b a.bar.toBar a.tradeId).1) hchain.tail
      (fun a' ha' => hfaithful a' (List.mem_cons_of_mem _ ha'))
      (fun a' ha' => hposition.trans (hchain.rel_head? ha').symm)
    refine { position := ?_, trades := ?_, realized := ?_ }
    · intro last hlast
      cases rest with
      | nil =>
        obtain rfl : a = last := by simpa using hlast
        exact hposition
      | cons a' rest' => exact hrest.position last (by simpa [List.getLast?_cons_cons] using hlast)
    · change (runBars _ rest).account.closedTrades = _
      rw [hrest.trades, htrades, List.flatMap_cons, List.append_assoc]
    · change (runBars _ rest).account.realizedPnl = _
      rw [hrest.realized, hrealized, List.flatMap_cons, List.map_append, List.sum_append, add_assoc]

theorem Chronicle.replays {evidence : Evidence} {symbol : String} {history : List Commit}
    {b : PaperBroker} (h : Chronicle evidence symbol history b) {before after : List Commit}
    {bars : List Applied} (he : history = before ++ bars.map .bar ++ after) (c : PaperBroker)
    (hfirst : ∀ a ∈ bars.head?, positionOf c symbol = some a.before) :
    Replays symbol bars c := by
  have hmem : ∀ a ∈ bars, a ∈ applications history := by
    intro a ha
    rw [mem_applications, he]
    simp [ha]
  have hlinked := h.linked
  rw [he] at hlinked
  have hchain := (List.isChain_map _).mp hlinked.left_of_append.right_of_append
  exact replays_of_chain hchain
    (fun a ha => ⟨(h.next a (hmem a ha)).1.2.1, h.faithful a (hmem a ha)⟩) hfirst

/-- Another writer keeps the history right, as long as no position opens too early. -/
theorem otherWriter_step {accountId symbol : String} {evidence : Evidence} {w w' : World}
    (hw : (discipline accountId symbol evidence).inv w) (h : OtherWriter accountId symbol w w')
    (hopens : OpensLater w w') :
    (discipline accountId symbol evidence).inv w' ∧ w.history <+: w'.history := by
  obtain ⟨b, hshows, hb, hid, hchronicle⟩ := hw
  cases h with
  | @save a c hshows' hid' hwrites =>
    have hsame : stateOf b = stateOf a := hshows.stateOf_eq hshows' (hid.trans hid'.symm)
    have ha : a.Sound := sound_of_stateOf hb hsame
    obtain ⟨hc, hlater⟩ := hwrites.sound_later ha
    refine ⟨⟨c, hshows'.persist hlater hc, hc, ?_, ?_⟩, List.prefix_append _ _⟩
    · exact hlater.accountId.trans hid'
    · refine (hchronicle.of_stateOf hsame).change hlater hc (fun q hq hne => ?_)
      have he : change (positionOf a symbol) (positionOf c symbol) =
          [.other (positionOf a symbol) (some q)] := by
        rw [hq]
        refine if_neg (fun heq => hne ?_)
        rw [heq]
        rfl
      exact hopens (positionOf a symbol) q (by simp only [he]) hne
  | tables haccounts horders hfills hpositions htrades =>
    refine ⟨⟨b, ?_, hb, hid, hchronicle⟩, List.prefix_refl _⟩
    exact {
      account := by simpa only [haccounts] using hshows.account
      orders := by simpa only [horders] using hshows.orders
      fills := by simpa only [hfills] using hshows.fills
      positions := by simpa only [hpositions] using hshows.positions
      trades := by simpa only [htrades] using hshows.trades
      closed := by simpa only [hpositions, htrades] using hshows.closed }

/-! ## Exactly once, in order, nothing skipped -/

/-- A pair of a position and a bar, as it is applied. -/
def Applied.pair (a : Applied) : String × Instant := (a.before.positionId, a.bar.start)

/-- What has been committed for the symbol, in one state of a run. -/
structure ExactlyOnce (accountId symbol : String) (evidence : Evidence) (w : World) : Prop where
  once : ((applications w.history).map Applied.pair).Nodup
  ordered : (applications w.history).Pairwise Applied.Before
  complete : ∀ a ∈ applications w.history, a.Next evidence symbol
  sequential : ∀ before bars after, w.history = before ++ bars.map .bar ++ after →
    ∀ b, (∀ a ∈ bars.head?, positionOf b symbol = some a.before) → Replays symbol bars b
  durable : ∃ b, w.db.Shows b ∧ b.account.accountId = accountId ∧
    w.history.IsChain (fun c d => d.before = c.after) ∧
    w.history.getLast?.map Commit.after = some (positionOf b symbol) ∧
    (∀ a ∈ applications w.history, ∀ t ∈ a.closed, t ∈ b.account.closedTrades) ∧
    b.account.realizedPnl = (b.account.closedTrades.map (·.netPnl)).sum

theorem exactlyOnce_of_inv {accountId symbol : String} {evidence : Evidence} {w : World}
    (h : (discipline accountId symbol evidence).inv w) :
    ExactlyOnce accountId symbol evidence w := by
  obtain ⟨b, hshows, hb, hid, hchronicle⟩ := h
  refine { once := ?_, ordered := hchronicle.ordered, complete := hchronicle.next,
           sequential := fun _ _ _ he c hc => hchronicle.replays he c hc,
           durable := ⟨b, hshows, hid, hchronicle.linked, hchronicle.latest, hchronicle.booked,
             hb.realized⟩ }
  refine List.pairwise_map.mpr (hchronicle.ordered.imp ?_)
  intro a a' hbefore heq
  obtain ⟨hposition, hstart⟩ := Prod.mk.inj heq
  exact (hbefore hposition).ne hstart

/-- The history at the beginning: the position that is found. -/
def found (db : Database) (b : PaperBroker) (symbol : String) : World :=
  ⟨db, [.other none (positionOf b symbol)]⟩

theorem inv_found {accountId symbol : String} {evidence : Evidence} {db : Database}
    {b : PaperBroker} (hshows : db.Shows b) (hb : b.Sound)
    (hid : b.account.accountId = accountId) :
    (discipline accountId symbol evidence).inv (found db b symbol) := by
  refine ⟨b, hshows, hb, hid, ?_⟩
  have hnone : applications [.other none (positionOf b symbol)] = [] := rfl
  refine { linked := List.isChain_singleton _, latest := rfl, top := ?_, past := ?_,
           ordered := by simp [found, hnone], next := ?_, faithful := ?_, booked := ?_ }
  · intro q hq c hc p hp
    obtain rfl := List.mem_singleton.mp hc
    rcases hp with hp | hp
    · cases hp
    · obtain rfl : q = p := Option.some.inj (hq.symm.trans hp)
      exact le_refl _
  · simp [found, hnone]
  · simp [found, hnone]
  · simp [found, hnone]
  · simp [found, hnone]

/-- The calls of `catch_up_position` for one account and symbol over the same evidence. -/
def Caller (accountId symbol : String) (evidence : Evidence)
    (p : Program World (Except String CatchUpResult)) : Prop :=
  ∃ call : Call, call.accountId = accountId ∧ call.symbol = symbol ∧
    call.evidence = evidence ∧ p = catchUpPosition call

/-- Any number of calls with any other writers in between, none of which opens a position
behind what the symbol has reached: in every state of the run the bars were applied exactly
once, in order and without a gap, as by one sequential run; and a call that loses the
compare-and-swap commits nothing. -/
theorem catch_up_exactly_once {accountId symbol : String} {evidence : Evidence} {db : Database}
    {b : PaperBroker} (hshows : db.Shows b) (hsound : b.Sound)
    (hid : b.account.accountId = accountId) {pool : Pool World (Except String CatchUpResult)}
    (hrun : Relation.ReflTransGen
      (PoolStep (Caller accountId symbol evidence)
        (fun w w' => OtherWriter accountId symbol w w' ∧ OpensLater w w'))
      ⟨found db b symbol, []⟩ pool) :
    ExactlyOnce accountId symbol evidence pool.store ∧
      ∀ call broker position bar w closed,
        (saveBar call broker position bar w).1 = .ok (false, closed) →
          (saveBar call broker position bar w).2 = w := by
  refine ⟨exactlyOnce_of_inv ?_, ?_⟩
  · refine (pool_sound (fun _ _ => True) ?_ (fun _ _ _ h => h) ?_
      (inv_found hshows hsound hid) hrun).1
    · exact fun w w' hw h => otherWriter_step hw h.1 h.2
    · rintro p ⟨call, rfl, rfl, rfl, rfl⟩ w hw
      exact catchUpPosition_holds call hw
  · intro call broker position bar w closed hlost
    rcases saveBar_cases call broker position bar w with ⟨e, he⟩ | ⟨closed', he⟩ | ⟨db', -, he⟩
    · rw [he]
    · rw [he]
    · rw [he] at hlost
      cases hlost

/-! ## A run with one call, and one in which the position is exchanged -/

/-- An id longer than every id in use. -/
def longerId (db : Database) : String :=
  String.ofList (List.replicate ((db.closedTrades.rows.map (·.tradeId.length)).sum + 1) 'x')

theorem longerId_fresh (db : Database) : ∀ t ∈ db.closedTrades, t.tradeId ≠ longerId db := by
  intro t ht he
  have hmem : t.tradeId.length ∈ db.closedTrades.rows.map (·.tradeId.length) :=
    List.mem_map.mpr ⟨t, ht, rfl⟩
  have hle := List.single_le_sum (fun _ _ => Nat.zero_le _) _ hmem
  have hlength : t.tradeId.length = (db.closedTrades.rows.map (·.tradeId.length)).sum + 1 := by
    conv_lhs => rw [he]
    simp [longerId]
  omega

def sampleUuid4 : Uuid4 := ⟨longerId, longerId_fresh⟩

theorem no_volume : ∀ v, (none : Option ℚ) = some v → 0 ≤ v := by
  intro v h
  cases h

/-- A quiet five-minute bar. -/
def sampleBar (start : Instant) : MarketBar where
  symbol := "EURUSD"
  timeframe := .m5
  start := start
  open_ := 100
  high := 101
  low := 199 / 2
  close := 100
  isClosed := true
  positive := by norm_num
  coherent := by norm_num
  volume_nonneg := no_volume

def sampleEvidence : Evidence :=
  .committed [sampleBar 300000000, sampleBar 600000000, sampleBar 900000000]

def sampleOrder (orderId : String) (status : OrderStatus) : PaperOrder where
  orderId := orderId
  runId := orderId
  symbol := "EURUSD"
  side := .long
  quantity := 1
  plannedEntry := 100
  stop := 99
  target := 104
  contractMultiplier := some 1
  equityAtSubmission := some 10000
  asOf := some 0
  status := status

def samplePosition : PaperPosition where
  positionId := "P1"
  originOrderId := "O1"
  runId := "O1"
  symbol := "EURUSD"
  side := .long
  quantity := 1
  plannedEntry := 100
  entryPrice := 100
  stop := 99
  target := 104
  openedAt := 0
  lastPrice := some 100
  contractMultiplier := some 1

def sampleBroker : PaperBroker where
  account :=
    { accountId := "A"
      startingEquity := 10000
      cash := 10000
      equity := 10000
      openPositions := ⟨[samplePosition], by simp⟩ }
  orders := ⟨[sampleOrder "O1" .filled], by simp⟩

def sampleDb : Database where
  paperAccounts := ⟨[encodeAccount sampleBroker.account], by simp⟩
  paperOrders := sampleBroker.orders
  paperPositions := ⟨[samplePosition], by simp⟩

def sampleCall : Call where
  accountId := "A"
  symbol := "EURUSD"
  asOf := 1200000000
  evidence := sampleEvidence
  ownerKey := none
  uuid4 := sampleUuid4

/-- The world after the call has applied two bars. -/
def halfway : Program World (Except String CatchUpResult) × World :=
  (catchUpPosition sampleCall).runFor 17 (found sampleDb sampleBroker "EURUSD")


theorem sampleDb_shows : sampleDb.Shows sampleBroker := by
  have h : sampleDb.loadPaper "A" =
      .ok (some sampleBroker.account, sampleBroker.orders, sampleBroker.fills) := by rfl
  exact shows_of_loadPaper h (by decide)

theorem sampleBroker_sound : sampleBroker.Sound where
  position := by
    intro p hp
    obtain rfl := List.mem_singleton.mp hp
    exact { isOpen := rfl, multiplier := by decide +kernel, opened := by decide }
  identity := by
    intro p hp q hq _
    rw [List.mem_singleton.mp hp, List.mem_singleton.mp hq]
  apart := by simp [sampleBroker]
  trades := by simp [sampleBroker]
  exposure := by
    intro p _ o ho hpending
    rw [List.mem_singleton.mp ho] at hpending
    cases hpending
  pending := by
    intro o ho o' _ hpending _ _
    rw [List.mem_singleton.mp ho] at hpending
    cases hpending
  realized := rfl
  unrealized := by decide +kernel
  equity := by decide +kernel

/-- A writer that loads, applies `f` and saves, with nobody in between. -/
def otherSave (f : PaperBroker → PaperBroker) (w : World) : World :=
  if w.db.closedRowsTraded then
    match w.db.durable "A" with
    | some b => ⟨w.db.persist (f b),
        w.history ++ change (positionOf b "EURUSD") (positionOf (f b) "EURUSD")⟩
    | none => w
  else w

theorem otherSave_steps {f : PaperBroker → PaperBroker} (hf : ∀ b : PaperBroker, b.Writing (f b)) (w : World) :
    Relation.ReflTransGen (OtherWriter "A" "EURUSD") w (otherSave f w) := by
  unfold otherSave
  split_ifs with hclosed
  · cases hd : w.db.durable "A" with
    | none => exact .refl
    | some b =>
      obtain ⟨hshows, hid⟩ := shows_of_durable hd hclosed
      exact .single (.save hshows hid (hf b))
  · exact .refl

/-- The open position is closed at the market. -/
def closing (b : PaperBroker) : PaperBroker :=
  if b.account.closedTrades.all (fun t => decide (t.tradeId ≠ "T1")) then
    match b.closeMarket "EURUSD" 100 700000000 "TIME_EXIT_MAX_HOLD" "O1" "T1" with
    | .ok (b', _) => b'
    | .error _ => b
  else b

theorem writing_closing (b : PaperBroker) : b.Writing (closing b) := by
  unfold closing
  split_ifs with hid
  · cases h : b.closeMarket "EURUSD" 100 700000000 "TIME_EXIT_MAX_HOLD" "O1" "T1" with
    | error e => exact .refl
    | ok result =>
      refine .single (.closeMarket (fun t ht => ?_) h)
      simpa using List.all_eq_true.mp hid t ht
  · exact .refl

/-- A plan of an older cycle is submitted on the free symbol. -/
def submitting (b : PaperBroker) : PaperBroker :=
  if b.account.openPositions.get? "EURUSD" = none
      ∧ b.orders.rows.all (fun o => decide (o.orderId ≠ "O2" ∧ o.status ≠ .pending)) then
    { b with orders := b.orders.put (sampleOrder "O2" .pending) }
  else b

theorem writing_submitting (b : PaperBroker) : b.Writing (submitting b) := by
  unfold submitting
  split_ifs with h
  · have horders : ∀ o ∈ b.orders, o.orderId ≠ "O2" ∧ o.status ≠ .pending := fun o ho => by
      simpa using List.all_eq_true.mp h.2 o ho
    refine .single ?_
    simpa using @PaperBroker.Writes.submit b (sampleOrder "O2" .pending) rfl
      (fun o ho => (horders o ho).1) h.1 (fun o ho hp => absurd hp (horders o ho).2) []
  · exact .refl

/-- The bar after that plan fills the order. -/
def filling (b : PaperBroker) : PaperBroker :=
  match b.orders.get? "O2" with
  | none => b
  | some order =>
      if b.fills.rows.all (fun f => decide (f.fillId ≠ "F2"))
          ∧ b.account.openPositions.rows.all (fun p => decide (p.positionId ≠ "P2"))
          ∧ b.account.closedTrades.all (fun t => decide (t.positionId ≠ "P2")) then
        match b.processNextBar order (sampleBar 300000000).toBar "F2" "P2" with
        | .ok (b', _) => b'
        | .error _ => b
      else b

theorem writing_filling (b : PaperBroker) : b.Writing (filling b) := by
  unfold filling
  split
  · exact .refl
  · rename_i order horder
    split_ifs with hids
    · cases h : b.processNextBar order (sampleBar 300000000).toBar "F2" "P2" with
      | error e => exact .refl
      | ok result =>
        refine .single (.nextBar (Table.get?_eq_some.mp horder).1 ?_ ?_ ?_ h)
        · exact fun f hf => by simpa using List.all_eq_true.mp hids.1 f hf
        · exact fun p hp => by simpa using List.all_eq_true.mp hids.2.1 p hp
        · exact fun t ht => by simpa using List.all_eq_true.mp hids.2.2 t ht
    · exact .refl

/-- The call goes on after the position was exchanged behind its back. -/
def resumed : Program World (Except String CatchUpResult) × World :=
  halfway.1.runFor 6 (otherSave filling (otherSave submitting (otherSave closing halfway.2)))

theorem halfway_reached {env : World → World → Prop} :
    Relation.ReflTransGen (PoolStep (Caller "A" "EURUSD" sampleEvidence) env)
      ⟨found sampleDb sampleBroker "EURUSD", []⟩ ⟨halfway.2, [halfway.1]⟩ :=
  .head (.start ⟨sampleCall, rfl, rfl, rfl, rfl⟩) (runs_beside [] [] 17 _ _)

theorem catch_up_exactly_once_sample :
    ExactlyOnce "A" "EURUSD" sampleEvidence halfway.2 ∧
      (applications halfway.2.history).map Applied.pair =
        [("P1", 300000000), ("P1", 600000000)] :=
  ⟨(catch_up_exactly_once sampleDb_shows sampleBroker_sound rfl halfway_reached).1,
    by decide +kernel⟩

theorem resumed_reached :
    Relation.ReflTransGen (PoolStep (Caller "A" "EURUSD" sampleEvidence)
      (OtherWriter "A" "EURUSD"))
      ⟨found sampleDb sampleBroker "EURUSD", []⟩ ⟨resumed.2, [resumed.1]⟩ := by
  have hwriters := ((otherSave_steps writing_closing halfway.2).trans
    (otherSave_steps writing_submitting _)).trans (otherSave_steps writing_filling _)
  exact (halfway_reached.trans (runs_env _ hwriters)).trans (runs_beside [] [] 6 _ _)

theorem resumed_skips : (applications resumed.2.history).any (fun a =>
    decide (a.before.watermark < 600000000 ∧ 600000000 < a.bar.start)) = true := by
  decide +kernel

/-- A position that opens behind the bars a call has passed loses the bars in between. -/
theorem catch_up_skips_bars : sampleDb.Shows sampleBroker ∧ sampleBroker.Sound ∧
    ∃ pool, Relation.ReflTransGen (PoolStep (Caller "A" "EURUSD" sampleEvidence)
        (OtherWriter "A" "EURUSD")) ⟨found sampleDb sampleBroker "EURUSD", []⟩ pool ∧
      ¬ ExactlyOnce "A" "EURUSD" sampleEvidence pool.store := by
  refine ⟨sampleDb_shows, sampleBroker_sound, _, resumed_reached, fun h => ?_⟩
  obtain ⟨a, ha, hskip⟩ := List.any_eq_true.mp resumed_skips
  obtain ⟨hbefore, hafter⟩ := of_decide_eq_true hskip
  have happ : sampleEvidence.Applicable "EURUSD" (sampleBar 600000000) :=
    ⟨by simp [sampleEvidence, Evidence.bars], rfl, rfl, rfl⟩
  exact absurd ((h.complete a ha).2.2 _ happ hbefore) (not_le.mpr hafter)

end MarketSystem.PositionCatchUp
