import Mathlib.Algebra.BigOperators.Group.List.Basic
import Mathlib.Tactic.Linarith
import MarketSystem.Execution.DailyLossSteps

/-!
# Deposits and withdrawals are not profit or loss

The account has a ledger of transfers, each under its transaction id. An
observation is a NAV together with the id the summary was taken at; what it says
about trading is the NAV less everything transferred up to that id. Each flag that
remembers an amount is related to the observation the amount came from, through
every subset of accesses failing.
-/
namespace MarketSystem.TransferAccounting

open Library Fallible DailyLossLimit LossCheck

/-! ## The account -/

/-- A transfer of funds under its transaction id. -/
structure Transfer where
  id : ℕ
  amount : ℚ
  deriving DecidableEq, Repr

def net (transfers : List Transfer) : ℚ := (transfers.map Transfer.amount).sum

def upTo (ledger : List Transfer) (id : ℕ) : ℚ := net (ledger.filter (fun t => t.id ≤ id))

def between (ledger : List Transfer) (after upto : ℕ) : List Transfer :=
  ledger.filter (fun t => after < t.id ∧ t.id ≤ upto)

@[simp] theorem net_nil : net [] = 0 := rfl

@[simp] theorem net_cons (t : Transfer) (ts : List Transfer) :
    net (t :: ts) = t.amount + net ts := rfl

theorem net_perm {ts us : List Transfer} (h : ts.Perm us) : net ts = net us :=
  (h.map Transfer.amount).sum_eq

/-- The transfers of a range make up the difference. -/
theorem net_between {ledger : List Transfer} {after upto : ℕ} (h : after ≤ upto) :
    net (between ledger after upto) = upTo ledger upto - upTo ledger after := by
  induction ledger with
  | nil => simp [between, upTo]
  | cons t ledger ih =>
    unfold between upTo at ih ⊢
    simp only [List.filter_cons, decide_eq_true_eq]
    by_cases hafter : t.id ≤ after
    · rw [if_neg (by omega), if_pos (hafter.trans h), if_pos hafter, ih, net_cons, net_cons]
      ring
    · by_cases hupto : t.id ≤ upto
      · rw [if_pos (by omega), if_pos hupto, if_neg hafter, net_cons, net_cons, ih]
        ring
      · rw [if_neg (by omega), if_neg hupto, if_neg hafter]
        exact ih

/-- What was transferred up to the cursor; nothing is counted before there is one. -/
def counted (ledger : List Transfer) (cursor : Option ℕ) : ℚ := (cursor.map (upTo ledger)).getD 0

/-! ## The broker -/

/-- A transfer as `transfers_since` reads it. -/
def transfer? : Entry → Option Transfer
  | .transaction type (some id) (some amount) =>
      if type = "TRANSFER_FUNDS" then some ⟨id, amount⟩ else none
  | _ => none

theorem netTransfers_ok {upto : ℕ} {entries : List Entry} {amount : ℚ}
    (h : netTransfers upto entries = .ok amount) :
    amount = net ((entries.filterMap transfer?).filter (fun t => t.id ≤ upto)) := by
  induction entries generalizing amount with
  | nil =>
    cases h
    rfl
  | cons e entries ih =>
    cases e with
    | malformed => simp [netTransfers] at h
    | transaction type id value =>
      unfold netTransfers at h
      by_cases htype : type = "TRANSFER_FUNDS"
      · rw [if_neg (not_not.mpr htype)] at h
        cases id with
        | none => simp at h
        | some id =>
          cases value with
          | none => simp at h
          | some value =>
            have htransfer : transfer? (.transaction type (some id) (some value)) =
                some ⟨id, value⟩ := if_pos htype
            rw [List.filterMap_cons_some htransfer]
            cases hrest : netTransfers upto entries with
            | error e => simp [hrest, Except.map] at h
            | ok rest =>
              simp only [hrest, Except.map, Except.ok.injEq] at h
              subst h
              rw [List.filter_cons]
              by_cases hid : id ≤ upto
              · simp only [hid, if_true, decide_true]
                rw [net_cons, ih hrest]
              · simp only [hid, if_false, decide_false, Bool.false_eq_true]
                exact ih hrest
      · rw [if_pos htype] at h
        have htransfer : transfer? (.transaction type id value) = none := by
          cases id with
          | none => rfl
          | some id =>
            cases value with
            | none => rfl
            | some value => exact if_neg htype
        rw [List.filterMap_cons_none htransfer]
        exact ih h

/-- The transaction id of the summary. -/
def marker (broker : Broker) : Option ℕ :=
  match broker.balance with
  | .ok balance => balance.lastTransactionId
  | .error _ => none

/-- The broker lists every transfer after an id and up to its summary, and lists it once.
Later ones may be listed too. -/
def Honest (ledger : List Transfer) (broker : Broker) : Prop :=
  ∀ current, marker broker = some current → ∀ after entries,
    broker.transactions after = .ok entries →
    ((entries.filterMap transfer?).filter (fun t => t.id ≤ current)).Perm
      (between ledger after current)

theorem Honest.net {ledger : List Transfer} {broker : Broker} (h : Honest ledger broker)
    {current after : ℕ} {amount : ℚ} (hcurrent : marker broker = some current)
    (hle : after ≤ current)
    (hok : (broker.transactions after).bind (netTransfers current) = .ok amount) :
    amount = upTo ledger current - upTo ledger after := by
  cases hlisted : broker.transactions after with
  | error e => simp [hlisted, Except.bind] at hok
  | ok entries =>
    rw [hlisted] at hok
    rw [netTransfers_ok hok, net_perm (h current hcurrent after entries hlisted),
      net_between hle]

/-! ## What the flags stand for -/

/-- The transfers counted since an observation. One made before the first cursor is taken as
made at it: transfers are never counted retroactively. -/
def since (ledger : List Transfer) (w : World) (o : Observation) : ℚ :=
  counted ledger (cursorOf w.store) - counted ledger (o.cursor.or w.trace.firstCursor)

/-- The cursor and what it went through. -/
structure Cursors (ledger : List Transfer) (w : World) : Prop where
  cursor : w.store .dlTxId = (cursorOf w.store).map Value.txId
  first : w.trace.firstCursor.isSome = (cursorOf w.store).isSome
  seen : ∀ o, w.trace.last = some o ∨ w.trace.e0 = some o ∨ w.trace.dd = some o →
    o.cursor.isSome = true → w.trace.firstCursor.isSome = true
  none : w.trace.firstCursor = none → w.trace.applied = []
  applied : ∀ a ∈ w.trace.applied, a.after ≤ a.upto ∧
    a.net = upTo ledger a.upto - upTo ledger a.after
  once : ∀ first current, w.trace.firstCursor = some first → cursorOf w.store = some current →
    first ≤ current ∧ ∀ id, w.trace.applied.countP (fun a => a.after < id ∧ id ≤ a.upto) =
      if first < id ∧ id ≤ current then 1 else 0

/-- The remembered NAV, as any later moment may take it for a baseline. -/
structure Pending (ledger : List Transfer) (time : Instant) (w : World) : Prop where
  at_ : ∀ a, parseAt (w.store .dlLastAt) = some a → a ≤ time
  nav : ∀ t b, time ≤ t → baseline w.store t = some b → ∃ o, w.trace.last = some o ∧
    b = o.nav + since ledger w o - w.trace.unremembered

/-- The state of the day: E0 and the transfers since. -/
def Opened (ledger : List Transfer) (w : World) : Prop :=
  ∃ e0 transfers o, w.store .dlE0 = some (.decimal e0) ∧
    w.store .dlTransfers = some (.decimal transfers) ∧ w.trace.e0 = some o ∧
    e0 + transfers = o.nav + since ledger w o

def Day (ledger : List Transfer) (offset : Instant → Instant) (time : Instant) (w : World) :
    Prop :=
  ∀ d, w.store .dlDay = some d → ∃ k, d = .day k ∧ k ≤ dayKey offset time ∧
    (k = dayKey offset time → Opened ledger w)

/-- The observation the drawdown is measured from; a configured one is as of the first cursor. -/
def baseObservation (l : Limit) (w : World) : Option Observation :=
  match l.startEquityOverride with
  | some b => some ⟨b, none⟩
  | none => w.trace.dd

/-- The drawdown baseline and the transfers since. -/
def Base (ledger : List Transfer) (l : Limit) (w : World) : Prop :=
  l.Unbased w ∨ ∃ o, baseObservation l w = some o ∧
    l.ddStart w.store = some (o.nav + since ledger w o)

structure Accounts (ledger : List Transfer) (offset : Instant → Instant) (l : Limit)
    (time : Instant) (w : World) : Prop where
  cursors : Cursors ledger w
  pending : Pending ledger time w
  day : Day ledger offset time w
  base : Base ledger l w

variable {ledger : List Transfer} {offset : Instant → Instant} {l : Limit} {time : Instant}
  {w w' : World}

theorem accounts_start : Accounts ledger offset l time (start emptyStore) where
  cursors := ⟨rfl, rfl, by simp [start], fun _ => rfl, by simp [start], by simp [start]⟩
  pending := ⟨by simp [start, emptyStore, parseAt], by
    simp [start, emptyStore, baseline, positive, dec]⟩
  day := by simp [Day, start, emptyStore]
  base := by
    cases h : l.startEquityOverride with
    | none => exact .inl ⟨h, rfl⟩
    | some b =>
      refine .inr ⟨⟨b, none⟩, by simp [baseObservation, h], ?_⟩
      simp [Limit.ddStart, h, since, start, emptyStore, cursorOf, counted, dec]

/-- Time passes. -/
theorem Accounts.later (hzone : Monotone (dayKey offset)) {time' : Instant} (hle : time ≤ time')
    (h : Accounts ledger offset l time w) : Accounts ledger offset l time' w where
  cursors := h.cursors
  pending := ⟨fun a ha => (h.pending.at_ a ha).trans hle,
    fun t b ht => h.pending.nav t b (hle.trans ht)⟩
  day := by
    intro d hd
    obtain ⟨k, hk, hbefore, hopened⟩ := h.day d hd
    refine ⟨k, hk, hbefore.trans (hzone hle), fun hsame => hopened ?_⟩
    exact le_antisymm hbefore (hsame ▸ hzone hle)
  base := h.base

/-! ## A committed transfer -/

/-- The writes to the drawdown's transfers, and those to the day or to the pending baseline. -/
def baseFlags (l : Limit) (store : Flags) (net : ℚ) : List (Flag × Value) :=
  if l.startEquityOverride.isSome ∨ (store .ddStart).isSome then
    [(.ddTransfers, .decimal ((dec (store .ddTransfers)).getD 0 + net))] else []

def dayFlags (store : Flags) (net : ℚ) (key : ℤ) (now : Instant) : List (Flag × Value) :=
  if store .dlDay = some (.day key) then
    [(.dlTransfers, .decimal ((dec (store .dlTransfers)).getD 0 + net))]
  else match baseline store now with
    | some b => [(.dlLastNav, .decimal (b + net))]
    | none => []

theorem setFlags_single (store : Flags) (f : Flag) (value : Value) :
    setFlags store [(f, value)] = Function.update store f (some value) := rfl

theorem transferFlags_eq (l : Limit) (store : Flags) (net : ℚ) (key : ℤ) (now : Instant) :
    transferFlags l store net key now = baseFlags l store net ++ dayFlags store net key now := rfl

theorem mem_baseFlags {l : Limit} {store : Flags} {net : ℚ} {f : Flag}
    (h : f ∈ (baseFlags l store net).map Prod.fst) : f = .ddTransfers := by
  unfold baseFlags at h
  split_ifs at h <;> simp_all

theorem mem_dayFlags {store : Flags} {net : ℚ} {key : ℤ} {now : Instant} {f : Flag}
    (h : f ∈ (dayFlags store net key now).map Prod.fst) :
    f = .dlTransfers ∨ (f = .dlLastNav ∧ store .dlDay ≠ some (.day key)) := by
  unfold dayFlags at h
  split_ifs at h
  · simp_all
  · cases hb : baseline store now <;> simp_all

/-- What a committed transfer leaves in each flag. -/
structure Posted (l : Limit) (net : ℚ) (id : ℕ) (key : ℤ) (now : Instant) (store store' : Flags) :
    Prop where
  txId : store' .dlTxId = some (.txId id)
  ddTransfers : (dec (store' .ddTransfers)).getD 0 = (dec (store .ddTransfers)).getD 0 +
    (if l.startEquityOverride.isSome ∨ (store .ddStart).isSome then net else 0)
  dlTransfers : ∀ t, store .dlTransfers = some (.decimal t) →
    store' .dlTransfers = some (.decimal (if store .dlDay = some (.day key) then t + net else t))
  inDay : store .dlDay = some (.day key) → store' .dlLastNav = store .dlLastNav
  pending : store .dlDay ≠ some (.day key) →
    ((net = 0 ∨ baseline store now = none) ∧ store' .dlLastNav = store .dlLastNav) ∨
      ∃ b, baseline store now = some b ∧ store' .dlLastNav = some (.decimal (b + net))
  others : ∀ f, f ∉ [Flag.dlTxId, .ddTransfers, .dlTransfers, .dlLastNav] → store' f = store f

/-- A cursor without a transfer. -/
theorem posted_cursor {key : ℤ} {id : ℕ} {now : Instant} {store store' : Flags}
    (h : store' = Function.update store .dlTxId (some (.txId id))) :
    Posted l 0 id key now store store' := by
  subst h
  refine ⟨Function.update_self _ _ _, by simp, fun t ht => by simpa using ht, fun _ => by simp,
    fun _ => .inl ⟨.inl rfl, by simp⟩, fun f hf => ?_⟩
  simp only [List.mem_cons, not_or] at hf
  exact Function.update_of_ne hf.1 _ _

theorem posted_transfer {net : ℚ} {key : ℤ} {id : ℕ} {now : Instant} {store store' : Flags}
    (h : store' = setFlags (setFlags (Function.update store .dlTxId (some (.txId id)))
      (baseFlags l store net)) (dayFlags store net key now)) :
    Posted l net id key now store store' := by
  -- each flag is written in one place at most
  have hday : ∀ f, f ≠ .dlTransfers → f ≠ .dlLastNav → store' f =
      setFlags (Function.update store .dlTxId (some (.txId id))) (baseFlags l store net) f := by
    intro f h₁ h₂
    rw [h]
    refine setFlags_of_not_mem fun hf => ?_
    rcases mem_dayFlags hf with hf | ⟨hf, -⟩
    · exact h₁ hf
    · exact h₂ hf
  have hbase : ∀ (s : Flags) f, f ≠ .ddTransfers → setFlags s (baseFlags l store net) f = s f :=
    fun s f hne => setFlags_of_not_mem fun hf => hne (mem_baseFlags hf)
  have hcursor : ∀ f, f ≠ .ddTransfers → f ≠ .dlTxId →
      setFlags (Function.update store .dlTxId (some (.txId id))) (baseFlags l store net) f =
        store f := by
    intro f h₁ h₂
    rw [hbase _ f h₁, Function.update_of_ne h₂]
  refine ⟨?_, ?_, fun t ht => ?_, fun hin => ?_, fun hin => ?_, fun f hf => ?_⟩
  · rw [hday _ (by simp) (by simp), hbase _ _ (by simp), Function.update_self]
  · rw [hday _ (by simp) (by simp)]
    unfold baseFlags
    split_ifs
    · simp [setFlags, dec]
    · simp [setFlags]
  · have hsame := hcursor .dlTransfers (by simp) (by simp)
    rw [h]
    unfold dayFlags
    split_ifs
    · rw [ht, setFlags_single, Function.update_self]
      rfl
    · cases baseline store now with
      | none => exact hsame.trans ht
      | some b =>
        dsimp only
        rw [setFlags_single, Function.update_of_ne (by simp), hsame, ht]
  · rw [h, setFlags_of_not_mem fun hf => ?_, hcursor _ (by simp) (by simp)]
    rcases mem_dayFlags hf with hf | ⟨-, hf⟩
    · cases hf
    · exact hf hin
  · rw [h]
    unfold dayFlags
    rw [if_neg hin]
    cases baseline store now with
    | none => exact .inl ⟨.inr rfl, hcursor _ (by simp) (by simp)⟩
    | some b =>
      right
      dsimp only
      rw [setFlags_single, Function.update_self]
      exact ⟨b, rfl, rfl⟩
  · simp only [List.mem_cons, List.not_mem_nil, not_or, or_false] at hf
    rw [hday _ hf.2.2.1 hf.2.2.2, hcursor _ hf.2.1 hf.1]

theorem posted_of_committed {net : ℚ} {id : ℕ} {now : Instant}
    (h : Committed offset l net id now w w') :
    Posted l net id (dayKey offset now) now w.store w'.store := by
  by_cases hnet : net = 0
  · subst hnet
    apply posted_cursor
    rw [h.store, if_pos rfl]
    rfl
  · apply posted_transfer
    rw [h.store, if_neg hnet, transferFlags_eq]
    simp only [setFlags, cursorFlag, List.foldl_append]
    rfl

/-- Every observation has seen the committed transfers more. -/
theorem since_committed {net : ℚ} {id : ℕ} {now : Instant}
    (h : Committed offset l net id now w w') (hc : Cursors ledger w)
    (hnet : net = counted ledger (some id) - counted ledger ((cursorOf w.store).or (some id)))
    {o : Observation} (hseen : o.cursor.isSome = true → w.trace.firstCursor.isSome = true) :
    since ledger w' o = since ledger w o + net := by
  have hcursor : cursorOf w'.store = some id := by
    unfold cursorOf
    rw [(posted_of_committed h).txId]
  unfold since
  rw [hcursor, h.trace, hnet]
  cases hstored : cursorOf w.store with
  | some c =>
    have hfirst := hc.first
    rw [hstored] at hfirst
    obtain ⟨f, hf⟩ := Option.isSome_iff_exists.mp hfirst
    simp only [Trace.apply, hf, Option.or_some, Option.getD_some]
    ring
  | none =>
    have hfirst : w.trace.firstCursor = none := by
      have := hc.first
      rw [hstored] at this
      simpa using this
    have ho : o.cursor = none := by
      rw [hfirst] at hseen
      simpa using hseen
    simp only [Trace.apply, hfirst, ho, Option.none_or]
    ring

theorem baseline_decimal {store : Flags} {v : ℚ} (h : store .dlLastNav = some (.decimal v))
    {t : Instant} {b : ℚ} (hb : baseline store t = some b) : b = v := by
  unfold baseline at hb
  rw [h] at hb
  cases hpos : positive (dec (some (.decimal v))) with
  | none => simp [hpos] at hb
  | some p =>
    obtain ⟨hv, -⟩ := positive_eq_some.mp hpos
    cases hat : parseAt (store .dlLastAt) with
    | none => simp [hpos, hat] at hb
    | some a =>
      simp only [hpos, hat, Option.ite_none_right_eq_some, Option.some.injEq] at hb
      rw [← hb.2]
      exact (Option.some.inj hv).symm

theorem baseline_same {store store' : Flags} (hnav : store' .dlLastNav = store .dlLastNav)
    (hat : store' .dlLastAt = store .dlLastAt) (t : Instant) :
    baseline store' t = baseline store t := by
  unfold baseline
  rw [hnav, hat]

/-- A baseline that is no good now will not become good. -/
theorem baseline_none_later {store : Flags} {now t : Instant}
    (hat : ∀ a, parseAt (store .dlLastAt) = some a → a ≤ now) (hle : now ≤ t)
    (h : baseline store now = none) : baseline store t = none := by
  unfold baseline at h ⊢
  cases hpos : positive (dec (store .dlLastNav)) with
  | none => rfl
  | some last =>
    cases ha : parseAt (store .dlLastAt) with
    | none => rfl
    | some a =>
      have hnow := hat a ha
      simp only [hpos, ha, ite_eq_right_iff, reduceCtorEq, imp_false, not_and, not_le] at h
      have hage : LAST_NAV_MAX_AGE < now - a := h (sub_nonneg.mpr hnow)
      have hlater : now - a ≤ t - a := sub_le_sub_right hle a
      dsimp only
      rw [if_neg fun hfresh => absurd hfresh.2 (not_le.mpr (hage.trans_le hlater))]

/-- How the cursor moves: set once, then forward, with the transfers of the range. -/
def Advances (ledger : List Transfer) (w : World) (net : ℚ) (id : ℕ) : Prop :=
  (cursorOf w.store = none ∧ net = 0) ∨
    ∃ c, cursorOf w.store = some c ∧ c ≤ id ∧ net = upTo ledger id - upTo ledger c

theorem Advances.net {net : ℚ} {id : ℕ} (h : Advances ledger w net id) :
    net = counted ledger (some id) - counted ledger ((cursorOf w.store).or (some id)) := by
  rcases h with ⟨hnone, rfl⟩ | ⟨c, hc, -, rfl⟩
  · simp [hnone]
  · simp [hc, counted]

section Committed

variable {net : ℚ} {id : ℕ} (h : Committed offset l net id time w w')
  (ha : Accounts ledger offset l time w) (hstep : Advances ledger w net id)

include h in
theorem cursor_committed : cursorOf w'.store = some id := by
  unfold cursorOf
  rw [(posted_of_committed h).txId]

include h in
theorem unremembered_committed : w'.trace.unremembered = w.trace.unremembered +
    (if w.store .dlDay = some (.day (dayKey offset time)) then net else 0) := by
  rw [h.trace]
  by_cases hday : w.store .dlDay = some (.day (dayKey offset time))
  · by_cases hnet : net = 0
    · simp [Trace.apply, hnet]
    · simp [Trace.apply, hnet, hday]
  · simp [Trace.apply, hday]

include h ha hstep

theorem since_advances {o : Observation}
    (ho : w.trace.last = some o ∨ w.trace.e0 = some o ∨ w.trace.dd = some o) :
    since ledger w' o = since ledger w o + net :=
  since_committed h ha.cursors hstep.net (ha.cursors.seen o ho)

theorem cursors_committed : Cursors ledger w' := by
  have hcursor := cursor_committed h
  have hold := ha.cursors
  have hfirst := hold.first
  rcases hstep with ⟨hnone, hnet⟩ | ⟨c, hc, hle, hnet⟩
  · -- the first cursor
    rw [hnone] at hfirst
    have hfirst : w.trace.firstCursor = none := by simpa using hfirst
    have htrace : w'.trace.firstCursor = some id ∧ w'.trace.applied = [] := by
      rw [h.trace]
      simp [Trace.apply, hnone, hfirst, hold.none hfirst]
    refine ⟨?_, by rw [htrace.1, hcursor], fun o _ _ => by rw [htrace.1]; rfl,
      fun _ => htrace.2, fun a hmem => ?_, fun f current hf hcur => ?_⟩
    · rw [hcursor]
      exact (posted_of_committed h).txId
    · rw [htrace.2] at hmem
      exact absurd hmem List.not_mem_nil
    · rw [htrace.1] at hf
      rw [hcursor] at hcur
      cases hf
      cases hcur
      refine ⟨le_refl _, fun x => ?_⟩
      rw [htrace.2, if_neg (by omega)]
      rfl
  · -- a range after it
    rw [hc] at hfirst
    obtain ⟨f₀, hf₀⟩ := Option.isSome_iff_exists.mp hfirst
    have htrace : w'.trace.firstCursor = some f₀ ∧
        w'.trace.applied = w.trace.applied ++ [⟨c, id, net⟩] := by
      rw [h.trace]
      simp [Trace.apply, hc, hf₀]
    obtain ⟨hle₀, honce⟩ := hold.once f₀ c hf₀ hc
    refine ⟨?_, by rw [htrace.1, hcursor]; rfl, fun o _ _ => by rw [htrace.1]; rfl,
      by simp [htrace.1], fun a hmem => ?_, fun f current hf hcur => ?_⟩
    · rw [hcursor]
      exact (posted_of_committed h).txId
    · rw [htrace.2] at hmem
      rcases List.mem_append.mp hmem with hmem | hmem
      · exact hold.applied a hmem
      · rw [List.mem_singleton.mp hmem]
        exact ⟨hle, hnet⟩
    · rw [htrace.1] at hf
      rw [hcursor] at hcur
      cases hf
      cases hcur
      refine ⟨hle₀.trans hle, fun x => ?_⟩
      rw [htrace.2, List.countP_append, honce x, List.countP_singleton]
      simp only [decide_eq_true_eq]
      split_ifs <;> omega

theorem pending_committed : Pending ledger time w' := by
  have hposted := posted_of_committed h
  have hunremembered := unremembered_committed h
  have hat : w'.store .dlLastAt = w.store .dlLastAt := hposted.others _ (by simp)
  have hlast : w'.trace.last = w.trace.last := by rw [h.trace]; rfl
  refine ⟨fun a ha' => ha.pending.at_ a (by rw [← hat]; exact ha'), fun t b ht hb => ?_⟩
  by_cases hday : w.store .dlDay = some (.day (dayKey offset time))
  · rw [baseline_same (hposted.inDay hday) hat] at hb
    obtain ⟨o, ho, hnav⟩ := ha.pending.nav t b ht hb
    refine ⟨o, hlast.trans ho, ?_⟩
    rw [hnav, since_advances h ha hstep (.inl ho), hunremembered, if_pos hday]
    ring
  · rw [if_neg hday] at hunremembered
    rcases hposted.pending hday with ⟨hnothing, hsame⟩ | ⟨b₀, hb₀, hnew⟩
    · rw [baseline_same hsame hat] at hb
      rcases hnothing with hnet | hnone
      · obtain ⟨o, ho, hnav⟩ := ha.pending.nav t b ht hb
        refine ⟨o, hlast.trans ho, ?_⟩
        rw [hnav, since_advances h ha hstep (.inl ho), hunremembered, hnet]
        ring
      · rw [baseline_none_later ha.pending.at_ ht hnone] at hb
        cases hb
    · obtain ⟨o, ho, hnav⟩ := ha.pending.nav time b₀ (le_refl _) hb₀
      refine ⟨o, hlast.trans ho, ?_⟩
      rw [baseline_decimal hnew hb, hnav, since_advances h ha hstep (.inl ho), hunremembered]
      ring

theorem day_committed : Day ledger offset time w' := by
  have hposted := posted_of_committed h
  intro d hd
  rw [hposted.others .dlDay (by simp)] at hd
  obtain ⟨k, rfl, hle, hopened⟩ := ha.day d hd
  refine ⟨k, rfl, hle, fun hk => ?_⟩
  obtain ⟨e0, transfers, o, he0, htransfers, ho, hsum⟩ := hopened hk
  have ho' : w'.trace.e0 = some o := by
    rw [h.trace]
    exact ho
  have hdl := hposted.dlTransfers transfers htransfers
  rw [if_pos (hk ▸ hd)] at hdl
  refine ⟨e0, transfers + net, o, ?_, hdl, ho', ?_⟩
  · rw [hposted.others .dlE0 (by simp), he0]
  · rw [since_advances h ha hstep (.inr (.inl ho)), ← add_assoc, hsum, add_assoc]

theorem base_committed : Base ledger l w' := by
  have hposted := posted_of_committed h
  have hstart : w'.store .ddStart = w.store .ddStart := hposted.others _ (by simp)
  have hdd := hposted.ddTransfers
  rcases ha.base with hunbased | ⟨o, ho, hbase⟩
  · exact .inl ⟨hunbased.1, hstart.trans hunbased.2⟩
  · right
    have hbased : l.startEquityOverride.isSome ∨ (w.store .ddStart).isSome := by
      unfold Limit.ddStart at hbase
      cases hover : l.startEquityOverride with
      | some v => exact .inl rfl
      | none =>
        right
        cases hs : w.store .ddStart with
        | some v => rfl
        | none => simp [hover, hs, dec, positive] at hbase
    rw [if_pos hbased] at hdd
    have hsince : since ledger w' o = since ledger w o + net := by
      apply since_committed h ha.cursors hstep.net
      unfold baseObservation at ho
      cases hover : l.startEquityOverride with
      | some v =>
        rw [hover] at ho
        cases ho
        simp
      | none =>
        rw [hover] at ho
        exact ha.cursors.seen o (.inr (.inr ho))
    refine ⟨o, ?_, ?_⟩
    · unfold baseObservation at ho ⊢
      rw [h.trace]
      exact ho
    · unfold Limit.ddStart at hbase ⊢
      rw [hstart, hdd, hsince]
      cases hv : l.startEquityOverride.or (positive (dec (w.store .ddStart))) with
      | none => simp [hv] at hbase
      | some v =>
        simp only [hv, Option.some.injEq] at hbase ⊢
        rw [← add_assoc, hbase, add_assoc]

theorem accounts_committed : Accounts ledger offset l time w' :=
  ⟨cursors_committed h ha hstep, pending_committed h ha hstep, day_committed h ha hstep,
    base_committed h ha hstep⟩

end Committed

/-! ## The other steps leave the cursor where it is -/

theorem since_now (hc : Cursors ledger w) (nav : ℚ) :
    since ledger w ⟨nav, cursorOf w.store⟩ = 0 := by
  have hfirst := hc.first
  unfold since
  cases hcur : cursorOf w.store with
  | none =>
    rw [hcur] at hfirst
    have hfirst : w.trace.firstCursor = none := by simpa using hfirst
    simp [hfirst]
  | some c => simp

/-- The same cursor under the same history. -/
structure Unmoved (w w' : World) : Prop where
  txId : w'.store .dlTxId = w.store .dlTxId
  first : w'.trace.firstCursor = w.trace.firstCursor
  applied : w'.trace.applied = w.trace.applied

theorem Unmoved.cursor (h : Unmoved w w') : cursorOf w'.store = cursorOf w.store := by
  unfold cursorOf
  rw [h.txId]

theorem Unmoved.since (h : Unmoved w w') (o : Observation) :
    since ledger w' o = since ledger w o := by
  unfold TransferAccounting.since
  rw [h.cursor, h.first]

/-- New observations are made under the cursor at hand. -/
theorem Cursors.unmoved (h : Unmoved w w') (hc : Cursors ledger w)
    (hseen : ∀ o, w'.trace.last = some o ∨ w'.trace.e0 = some o ∨ w'.trace.dd = some o →
      (w.trace.last = some o ∨ w.trace.e0 = some o ∨ w.trace.dd = some o) ∨
        o.cursor = cursorOf w.store) : Cursors ledger w' where
  cursor := by rw [h.txId, h.cursor, hc.cursor]
  first := by rw [h.first, h.cursor, hc.first]
  seen := by
    intro o ho hcursor
    rw [h.first]
    rcases hseen o ho with hold | hnew
    · exact hc.seen o hold hcursor
    · rw [hc.first, ← hnew]
      exact hcursor
  none := by
    rw [h.first, h.applied]
    exact hc.none
  applied := by
    rw [h.applied]
    exact hc.applied
  once := by
    rw [h.first, h.applied, h.cursor]
    exact hc.once

theorem Pending.unmoved (h : Unmoved w w') (hp : Pending ledger time w)
    (hnav : w'.store .dlLastNav = w.store .dlLastNav)
    (hat : w'.store .dlLastAt = w.store .dlLastAt) (hlast : w'.trace.last = w.trace.last)
    (hun : w'.trace.unremembered = w.trace.unremembered) : Pending ledger time w' where
  at_ := by
    rw [hat]
    exact hp.at_
  nav := by
    intro t b ht hb
    rw [baseline_same hnav hat] at hb
    obtain ⟨o, ho, hsum⟩ := hp.nav t b ht hb
    exact ⟨o, hlast.trans ho, by rw [h.since, hun, hsum]⟩

theorem Opened.unmoved (h : Unmoved w w') (ho : Opened ledger w)
    (he0 : w'.store .dlE0 = w.store .dlE0)
    (htransfers : w'.store .dlTransfers = w.store .dlTransfers)
    (htrace : w'.trace.e0 = w.trace.e0) : Opened ledger w' := by
  obtain ⟨e0, transfers, o, h₁, h₂, h₃, hsum⟩ := ho
  exact ⟨e0, transfers, o, he0.trans h₁, htransfers.trans h₂, htrace.trans h₃,
    by rw [h.since, hsum]⟩

theorem Day.unmoved (h : Unmoved w w') (hd : Day ledger offset time w)
    (hday : w'.store .dlDay = w.store .dlDay) (he0 : w'.store .dlE0 = w.store .dlE0)
    (htransfers : w'.store .dlTransfers = w.store .dlTransfers)
    (htrace : w'.trace.e0 = w.trace.e0) : Day ledger offset time w' := by
  intro d hd'
  obtain ⟨k, hk, hle, hopened⟩ := hd d (hday ▸ hd')
  exact ⟨k, hk, hle, fun hsame => (hopened hsame).unmoved h he0 htransfers htrace⟩

theorem Base.unmoved (h : Unmoved w w') (hb : Base ledger l w)
    (hstart : w'.store .ddStart = w.store .ddStart)
    (htransfers : w'.store .ddTransfers = w.store .ddTransfers)
    (htrace : w'.trace.dd = w.trace.dd) : Base ledger l w' := by
  rcases hb with hunbased | ⟨o, ho, hbase⟩
  · exact .inl ⟨hunbased.1, hstart.trans hunbased.2⟩
  · refine .inr ⟨o, ?_, ?_⟩
    · unfold baseObservation at ho ⊢
      rw [htrace]
      exact ho
    · unfold Limit.ddStart at hbase ⊢
      rw [hstart, htransfers, h.since]
      exact hbase

theorem Accounts.haltPart (ha : Accounts ledger offset l time w) {key : ℤ}
    (h : HaltPart key w w') : Accounts ledger offset l time w' := by
  have hs := fun f h₁ h₂ => h.store f h₁ h₂
  have hunmoved : Unmoved w w' := ⟨hs _ (by simp) (by simp), by rw [h.trace], by rw [h.trace]⟩
  exact ⟨ha.cursors.unmoved hunmoved fun o ho => .inl (h.trace ▸ ho),
    ha.pending.unmoved hunmoved (hs _ (by simp) (by simp)) (hs _ (by simp) (by simp))
      (by rw [h.trace]) (by rw [h.trace]),
    ha.day.unmoved hunmoved (hs _ (by simp) (by simp)) (hs _ (by simp) (by simp))
      (hs _ (by simp) (by simp)) (by rw [h.trace]),
    ha.base.unmoved hunmoved (hs _ (by simp) (by simp)) (hs _ (by simp) (by simp))
      (by rw [h.trace])⟩

/-- The remembered NAV is still to be completed by transfers that are in the day's own sum. -/
def Incomplete (offset : Instant → Instant) (time : Instant) (w : World) : Prop :=
  w.store .dlDay ≠ some (.day (dayKey offset time)) ∧ (baseline w.store time).isSome = true ∧
    w.trace.unremembered ≠ 0

theorem Accounts.rolled (ha : Accounts ledger offset l time w) {nav : ℚ}
    (hcomplete : ¬ Incomplete offset time w)
    (hday : w.store .dlDay ≠ some (.day (dayKey offset time)))
    (h : Rolled (dayKey offset time) nav time w w') : Accounts ledger offset l time w' := by
  have hunmoved : Unmoved w w' := ⟨h.others _ (by simp), by rw [h.trace], by rw [h.trace]⟩
  refine ⟨ha.cursors.unmoved hunmoved fun o ho => ?_,
    ha.pending.unmoved hunmoved (h.others _ (by simp)) (h.others _ (by simp)) (by rw [h.trace])
      (by rw [h.trace]), fun d hd => ?_,
    ha.base.unmoved hunmoved (h.others _ (by simp)) (h.others _ (by simp)) (by rw [h.trace])⟩
  · rw [h.trace] at ho
    rcases ho with ho | ho | ho
    · exact .inl (.inl ho)
    · cases hb : baseline w.store time with
      | none =>
        simp only [e0Observation, hb, Option.some.injEq] at ho
        exact .inr (by rw [← ho])
      | some b =>
        simp only [e0Observation, hb] at ho
        exact .inl (.inl ho)
    · exact .inl (.inr (.inr ho))
  · rw [h.day] at hd
    cases hd
    refine ⟨_, rfl, le_refl _, fun _ => ?_⟩
    have htrace : w'.trace.e0 = e0Observation (baseline w.store time) nav w := by rw [h.trace]
    cases hb : baseline w.store time with
    | none =>
      refine ⟨nav, 0, ⟨nav, cursorOf w.store⟩, by rw [h.e0, hb]; rfl, h.transfers,
        by rw [htrace, hb]; rfl, ?_⟩
      rw [hunmoved.since, since_now ha.cursors]
    | some b =>
      obtain ⟨o, ho, hsum⟩ := ha.pending.nav time b (le_refl _) hb
      have hzero : w.trace.unremembered = 0 := by
        by_contra hne
        exact hcomplete ⟨hday, by rw [hb]; rfl, hne⟩
      refine ⟨b, 0, o, by rw [h.e0, hb]; rfl, h.transfers, by rw [htrace, hb]; exact ho, ?_⟩
      rw [hunmoved.since, hsum, hzero]
      ring

theorem Accounts.halfRolled (ha : Accounts ledger offset l time w)
    (hday : w.store .dlDay ≠ some (.day (dayKey offset time))) (h : HalfRolled w w') :
    Accounts ledger offset l time w' := by
  have hrest := h.rest
  have htrace : w'.trace = w.trace := by rw [hrest]
  have hunmoved : Unmoved w w' := ⟨h.others _ (by simp), by rw [htrace], by rw [htrace]⟩
  refine ⟨ha.cursors.unmoved hunmoved fun o ho => .inl (htrace ▸ ho),
    ha.pending.unmoved hunmoved (h.others _ (by simp)) (h.others _ (by simp)) (by rw [htrace])
      (by rw [htrace]), fun d hd => ?_,
    ha.base.unmoved hunmoved (h.others _ (by simp)) (h.others _ (by simp)) (by rw [htrace])⟩
  rw [h.others .dlDay (by simp)] at hd
  obtain ⟨k, rfl, hle, -⟩ := ha.day d hd
  -- the day that is being left is not the one of now
  exact ⟨k, rfl, hle, fun hk => absurd (hk ▸ hd) hday⟩

theorem Accounts.based (ha : Accounts ledger offset l time w) {nav : ℚ} (hnav : 0 < nav)
    (hunbased : l.Unbased w) (h : Based nav w w') : Accounts ledger offset l time w' := by
  have hunmoved : Unmoved w w' := ⟨h.others _ (by simp), by rw [h.trace], by rw [h.trace]⟩
  refine ⟨ha.cursors.unmoved hunmoved fun o ho => ?_,
    ha.pending.unmoved hunmoved (h.others _ (by simp)) (h.others _ (by simp)) (by rw [h.trace])
      (by rw [h.trace]),
    ha.day.unmoved hunmoved (h.others _ (by simp)) (h.others _ (by simp)) (h.others _ (by simp))
      (by rw [h.trace]), .inr ⟨⟨nav, cursorOf w.store⟩, ?_, ?_⟩⟩
  · rw [h.trace] at ho
    rcases ho with ho | ho | ho
    · exact .inl (.inl ho)
    · exact .inl (.inr (.inl ho))
    · cases ho
      exact .inr rfl
  · unfold baseObservation
    rw [hunbased.1, h.trace]
  · unfold Limit.ddStart
    rw [hunbased.1, h.ddStart, h.ddTransfers, hunmoved.since, since_now ha.cursors]
    have hpos : positive (dec (some (.decimal nav))) = some nav := positive_eq_some.mpr ⟨rfl, hnav⟩
    rw [Option.none_or, hpos]
    simp [dec]

theorem Accounts.unbased (ha : Accounts ledger offset l time w) (hunbased : l.Unbased w) :
    Accounts ledger offset l time (w.write .ddTransfers none) := by
  have hs : ∀ f, f ≠ .ddTransfers → (w.write .ddTransfers none).store f = w.store f :=
    fun f hf => Function.update_of_ne hf _ _
  have hunmoved : Unmoved w (w.write .ddTransfers none) := ⟨hs _ (by simp), rfl, rfl⟩
  exact ⟨ha.cursors.unmoved hunmoved fun o ho => .inl ho,
    ha.pending.unmoved hunmoved (hs _ (by simp)) (hs _ (by simp)) rfl rfl,
    ha.day.unmoved hunmoved (hs _ (by simp)) (hs _ (by simp)) (hs _ (by simp)) rfl,
    .inl ⟨hunbased.1, (hs _ (by simp)).trans hunbased.2⟩⟩

theorem Accounts.remembered (ha : Accounts ledger offset l time w) {nav : ℚ}
    (h : Remembered nav time w w') : Accounts ledger offset l time w' := by
  -- what both ends of an interrupted write have in common
  have hwritten : ∀ w' : World,
      (∀ f, f ≠ .dlLastNav → f ≠ .dlLastAt → w'.store f = w.store f) →
      w'.trace = { w.trace with last := some ⟨nav, cursorOf w.store⟩, unremembered := 0 } →
      w'.store .dlLastNav = some (.decimal nav) →
      (∀ a, parseAt (w'.store .dlLastAt) = some a → a ≤ time) →
      Accounts ledger offset l time w' := by
    intro w' hs htrace hnav hat
    have hunmoved : Unmoved w w' :=
      ⟨hs _ (by simp) (by simp), by rw [htrace], by rw [htrace]⟩
    refine ⟨ha.cursors.unmoved hunmoved fun o ho => ?_, ⟨hat, fun t b _ hb => ?_⟩,
      ha.day.unmoved hunmoved (hs _ (by simp) (by simp)) (hs _ (by simp) (by simp))
        (hs _ (by simp) (by simp)) (by rw [htrace]),
      ha.base.unmoved hunmoved (hs _ (by simp) (by simp)) (hs _ (by simp) (by simp))
        (by rw [htrace])⟩
    · rw [htrace] at ho
      rcases ho with ho | ho | ho
      · cases ho
        exact .inr rfl
      · exact .inl (.inr (.inl ho))
      · exact .inl (.inr (.inr ho))
    · refine ⟨⟨nav, cursorOf w.store⟩, by rw [htrace], ?_⟩
      rw [baseline_decimal hnav hb, hunmoved.since, since_now ha.cursors, htrace]
      ring
  rcases h with rfl | rfl | rfl
  · exact ha
  · exact hwritten _ (fun f h₁ _ => Function.update_of_ne h₁ _ _) rfl (by simp)
      ha.pending.at_
  · refine hwritten _ (fun f h₁ h₂ => ?_) rfl ?_ (fun a ha => ?_)
    · simp [h₁, h₂]
    · simp
    · simp only [World.write_store, World.retrace_store, Function.update_self, parseAt,
        Option.some.injEq] at ha
      exact ha.ge

/-! ## A check -/

structure Check where
  at_ : Instant
  plannedRisk : Option (Option ℚ)
  broker : Broker

/-- What trading has made of the account at an observation, up to what it started with. -/
def result (ledger : List Transfer) (first : Option ℕ) (o : Observation) : ℚ :=
  o.nav - counted ledger (o.cursor.or first)

theorem since_eq (hc : Cursors ledger w) (nav : ℚ) (o : Observation) :
    nav - (o.nav + since ledger w o) =
      result ledger w.trace.firstCursor ⟨nav, cursorOf w.store⟩ -
        result ledger w.trace.firstCursor o := by
  have hnow := since_now hc nav
  unfold since at hnow ⊢
  unfold result
  linarith

/-- An evaluated check compares results of trading: for the day with the observation that
fixed E0, for the drawdown with the one the baseline comes from. -/
structure Fair (ledger : List Transfer) (l : Limit) (broker : Broker) (before : World)
    (d : LossDecision) (after : World) : Prop where
  daily : ∀ status pnl, d.daily = some status → status.pnl = some pnl →
    ∃ nav o limit, (∃ balance, broker.balance = .ok balance ∧ balance.equity = some nav) ∧
      after.trace.e0 = some o ∧
      pnl = result ledger after.trace.firstCursor ⟨nav, marker broker⟩ -
        result ledger after.trace.firstCursor o ∧
      status.limitAmount = some limit ∧ (status.breached = true ↔ pnl ≤ -limit)
  drawdown : ∀ status, d.daily = some status →
    ∃ nav o base, (∃ balance, broker.balance = .ok balance ∧ balance.equity = some nav) ∧
      baseObservation l after = some o ∧ base = o.nav + since ledger after o ∧
      (d.ddHalted = true ↔ ((before.store .ddHalt).isSome = true ∨ before.latch.dd = true) ∨
        (0 < base ∧ result ledger after.trace.firstCursor ⟨nav, marker broker⟩ -
          result ledger after.trace.firstCursor o ≤ -(DRAWDOWN_FRACTION * base)))

theorem fair_of_none {broker : Broker} {d : LossDecision} (h : d.daily = none) :
    Fair ledger l broker w d w' :=
  ⟨fun _ _ hd => absurd (h.symm.trans hd) (by simp),
    fun _ hd => absurd (h.symm.trans hd) (by simp)⟩

theorem dailyLossStatus_pnl {e0 transfers : Option ℚ} {nav fraction pnl : ℚ}
    {plannedRisk : Option (Option ℚ)}
    (h : (dailyLossStatus e0 (some nav) transfers plannedRisk fraction).pnl = some pnl) :
    ∃ e t, e0 = some e ∧ transfers = some t ∧ pnl = nav - e - t ∧
      (dailyLossStatus e0 (some nav) transfers plannedRisk fraction).limitAmount =
        some (fraction * e) ∧
      ((dailyLossStatus e0 (some nav) transfers plannedRisk fraction).breached = true ↔
        pnl ≤ -(fraction * e)) := by
  unfold dailyLossStatus at h ⊢
  cases he : positive e0 with
  | none => simp [he] at h
  | some e =>
    cases hn : positive (some nav) with
    | none => simp [he, hn] at h
    | some n =>
      cases transfers with
      | none => simp [he, hn] at h
      | some t =>
        cases hf : positive (some fraction) with
        | none => simp [he, hn, hf] at h
        | some f =>
          obtain ⟨he', -⟩ := positive_eq_some.mp he
          obtain ⟨hn', -⟩ := positive_eq_some.mp hn
          obtain ⟨hf', -⟩ := positive_eq_some.mp hf
          cases hn'
          cases hf'
          subst he'
          simp only [he, hn, hf] at h ⊢
          split_ifs at h ⊢ with h₁ h₂
          · cases h
            exact ⟨e, t, rfl, rfl, rfl, rfl, by simpa using h₂⟩
          · cases plannedRisk with
            | none =>
              cases h
              exact ⟨e, t, rfl, rfl, rfl, rfl, by simpa using h₂⟩
            | some risk =>
              cases risk with
              | none => simp at h₁
              | some risk =>
                dsimp only at h ⊢
                split_ifs at h ⊢
                · cases h
                  exact ⟨e, t, rfl, rfl, rfl, rfl, by simpa using h₂⟩
                · cases h
                  exact ⟨e, t, rfl, rfl, rfl, rfl, by simpa using h₂⟩

theorem drawdownStatus_breached {start nav : ℚ} (hnav : 0 < nav) :
    (drawdownStatus (some start) (some nav)).breached = true ↔
      0 < start ∧ nav - start ≤ -(DRAWDOWN_FRACTION * start) := by
  have hn : positive (some nav) = some nav := positive_eq_some.mpr ⟨rfl, hnav⟩
  unfold drawdownStatus
  by_cases hs : 0 < start
  · have hp : positive (some start) = some start := positive_eq_some.mpr ⟨rfl, hs⟩
    simp only [hp, hn, decide_eq_true_eq]
    constructor
    · intro h
      exact ⟨hs, by linarith⟩
    · rintro ⟨-, h⟩
      linarith
  · have hp : positive (some start) = none := by simpa [positive] using hs
    simp only [hp, Bool.false_eq_true, false_iff, not_and]
    exact fun h => absurd h hs

theorem Accounts.turned (ha : Accounts ledger offset l time w) {nav : ℚ}
    (hcomplete : ¬ Incomplete offset time w) (h : Turned (dayKey offset time) nav time w w') :
    Accounts ledger offset l time w' := by
  rcases h with ⟨-, rfl⟩ | ⟨hday, h⟩
  · exact ha
  · exact ha.rolled hcomplete hday h

theorem Accounts.prepared (ha : Accounts ledger offset l time w) {nav : ℚ} (hnav : 0 < nav)
    (hcomplete : ¬ Incomplete offset time w)
    (h : Prepared l nav (dayKey offset time) time w w') : Accounts ledger offset l time w' := by
  obtain ⟨w₁, hturned, ⟨-, rfl⟩ | ⟨hunbased, hbased⟩⟩ := h.steps
  · exact ha.turned hcomplete hturned
  · exact (ha.turned hcomplete hturned).based hnav hunbased hbased

theorem Accounts.unprepared (ha : Accounts ledger offset l time w) {nav : ℚ}
    (hcomplete : ¬ Incomplete offset time w)
    (h : Unprepared l nav (dayKey offset time) time w w') : Accounts ledger offset l time w' := by
  rcases h with rfl | ⟨hday, h⟩ | ⟨w₁, hturned, hunbased, rfl | rfl⟩
  · exact ha
  · exact ha.halfRolled hday h
  · exact ha.turned hcomplete hturned
  · exact (ha.turned hcomplete hturned).unbased hunbased

theorem Accounts.evaluated (ha : Accounts ledger offset l time w) {nav : Option ℚ}
    {plannedRisk : Option (Option ℚ)} {d : LossDecision} (hcomplete : ¬ Incomplete offset time w)
    (h : Evaluated l nav plannedRisk (dayKey offset time) time w d w') :
    Accounts ledger offset l time w' := by
  cases h with
  | invalid _ => exact ha
  | nonPositive _ _ hpart _ _ _ _ => exact ha.haltPart hpart
  | unreadable _ _ h => exact ha.unprepared hcomplete h
  | judged _ hpos hprepared hpart hremembered _ =>
    exact ((ha.prepared hpos hcomplete hprepared).haltPart hpart).remembered hremembered

theorem prepared_ddHalt {nav : ℚ} {key : ℤ} (h : Prepared l nav key time w w') :
    w'.store .ddHalt = w.store .ddHalt ∧ w'.latch.dd = w.latch.dd := by
  obtain ⟨w₁, hturned, hbased⟩ := h.steps
  have h₁ : w₁.store .ddHalt = w.store .ddHalt ∧ w₁.latch.dd = w.latch.dd := by
    rcases hturned with ⟨-, rfl⟩ | ⟨-, h⟩
    · exact ⟨rfl, rfl⟩
    · exact ⟨h.others _ (by simp), h.dd⟩
  rcases hbased with ⟨-, rfl⟩ | ⟨-, h⟩
  · exact h₁
  · exact ⟨(h.others _ (by simp)).trans h₁.1, by rw [h.latch, h₁.2]⟩

/-- From the state that is judged to the one the check leaves. -/
theorem unmoved_judged {nav : ℚ} {key : ℤ} {w₁ w₂ : World} (hpart : HaltPart key w₁ w₂)
    (hremembered : Remembered nav time w₂ w') :
    Unmoved w₁ w' ∧ w'.trace.e0 = w₁.trace.e0 ∧ w'.trace.dd = w₁.trace.dd := by
  have htx := hpart.store .dlTxId (by simp) (by simp)
  have htrace := hpart.trace
  rcases hremembered with rfl | rfl | rfl
  · exact ⟨⟨htx, by rw [htrace], by rw [htrace]⟩, by rw [htrace], by rw [htrace]⟩
  · exact ⟨⟨by simpa using htx, by simp [htrace], by simp [htrace]⟩, by simp [htrace],
      by simp [htrace]⟩
  · exact ⟨⟨by simpa using htx, by simp [htrace], by simp [htrace]⟩, by simp [htrace],
      by simp [htrace]⟩

/-- An evaluation whose cursor is that of the summary. -/
theorem fair_evaluated (ha : Accounts ledger offset l time w) {balance : Balance} {broker : Broker}
    {plannedRisk : Option (Option ℚ)} {d : LossDecision} (hcomplete : ¬ Incomplete offset time w)
    (hbalance : broker.balance = .ok balance) (hcursor : cursorOf w.store = marker broker)
    (h : Evaluated l balance.equity plannedRisk (dayKey offset time) time w d w') :
    Fair ledger l broker w d w' := by
  cases h with
  | invalid _ => exact fair_of_none rfl
  | nonPositive _ _ _ _ _ hnone _ => exact fair_of_none hnone
  | unreadable _ _ _ => exact fair_of_none rfl
  | @judged nav w₁ w₂ _ _ hnav hpos hprepared hpart hremembered hjudged =>
    have hacc := ha.prepared hpos hcomplete hprepared
    obtain ⟨hunmoved, he0, hdd⟩ := unmoved_judged hpart hremembered
    have hmarker : cursorOf w₁.store = marker broker := by
      rw [← hcursor]
      obtain ⟨w₀, hturned, hbased⟩ := hprepared.steps
      have h₀ : w₀.store .dlTxId = w.store .dlTxId := by
        rcases hturned with ⟨-, rfl⟩ | ⟨-, h⟩
        · rfl
        · exact h.others _ (by simp)
      have h₁ : w₁.store .dlTxId = w₀.store .dlTxId := by
        rcases hbased with ⟨-, rfl⟩ | ⟨-, h⟩
        · rfl
        · exact h.others _ (by simp)
      unfold cursorOf
      rw [h₁, h₀]
    have hgap := fun o => since_eq hacc.cursors nav o
    rw [hmarker, ← hunmoved.first] at hgap
    refine ⟨fun status pnl hd hpnl => ?_, fun status _ => ?_⟩
    · obtain ⟨k, hk, -, hopened⟩ := hacc.day _ hprepared.day
      obtain ⟨e0, transfers, o, hflag, hsum, ho, heq⟩ := hopened (by cases hk; rfl)
      rw [hjudged.daily, Option.some.injEq] at hd
      rw [← hd] at hpnl ⊢
      obtain ⟨e, t, he, ht, hpnl', hlimit, hbreach⟩ := dailyLossStatus_pnl hpnl
      refine ⟨nav, o, _, ⟨balance, hbalance, hnav⟩, he0.trans ho, ?_, hlimit, hbreach⟩
      rw [hflag] at he
      rw [hsum] at ht
      cases ht
      cases (positive_eq_some.mp he).1
      rw [← hgap o, ← heq, hpnl']
      ring
    · rcases hacc.base with hunbased | ⟨o, ho, hbase⟩
      · -- the baseline has just been set
        exfalso
        obtain ⟨w₀, -, ⟨hnot, rfl⟩ | ⟨-, hset⟩⟩ := hprepared.steps
        · exact hnot hunbased
        · have := hunbased.2
          rw [hset.ddStart] at this
          cases this
      · have hbefore := prepared_ddHalt hprepared
        refine ⟨nav, o, _, ⟨balance, hbalance, hnav⟩, ?_, rfl, ?_⟩
        · unfold baseObservation at ho ⊢
          rw [hdd]
          exact ho
        · rw [hjudged.drawdown, hbase, Bool.or_eq_true, Bool.or_eq_true,
            drawdownStatus_breached hpos, hgap o, hunmoved.since, hbefore.1, hbefore.2]

theorem marker_eq {broker : Broker} {balance : Balance} (h : broker.balance = .ok balance) :
    marker broker = balance.lastTransactionId := by
  unfold marker
  rw [h]

/-- A committed transfer does not make a complete state incomplete. -/
theorem complete_committed {net : ℚ} {id : ℕ} (h : Committed offset l net id time w w')
    (hcomplete : ¬ Incomplete offset time w) : ¬ Incomplete offset time w' := by
  rintro ⟨hday, hbaseline, hun⟩
  have hposted := posted_of_committed h
  rw [hposted.others .dlDay (by simp)] at hday
  rw [unremembered_committed h, if_neg hday, add_zero] at hun
  refine hcomplete ⟨hday, ?_, hun⟩
  rcases hposted.pending hday with ⟨-, hsame⟩ | ⟨b, hb, -⟩
  · rw [baseline_same hsame (hposted.others .dlLastAt (by simp))] at hbaseline
    exact hbaseline
  · rw [hb]
    rfl

/-- Once the transfers are reconciled, the cursor is that of the summary. -/
structure Settled (ledger : List Transfer) (offset : Instant → Instant) (l : Limit)
    (time : Instant) (broker : Broker) (w w' : World) : Prop where
  accounts : Accounts ledger offset l time w'
  complete : ¬ Incomplete offset time w'
  cursor : cursorOf w'.store = marker broker
  ddHalt : w'.store .ddHalt = w.store .ddHalt
  dd : w'.latch.dd = w.latch.dd

theorem settled_of_reconciled (ha : Accounts ledger offset l time w) {balance : Balance}
    {broker : Broker} (hcomplete : ¬ Incomplete offset time w) (hhonest : Honest ledger broker)
    (hforward : ∀ c i, cursorOf w.store = some c → marker broker = some i → c ≤ i)
    (hbalance : broker.balance = .ok balance)
    (h : Reconciled offset l time balance broker w w') :
    Settled ledger offset l time broker w w' := by
  have hmarker := marker_eq hbalance
  rcases h with ⟨hsame, rfl⟩ | ⟨current, net, hcurrent, h, hnet⟩
  · exact ⟨ha, hcomplete, by rw [← hsame, hmarker], rfl, rfl⟩
  · have hmark : marker broker = some current := hmarker.trans hcurrent
    have hstep : Advances ledger w net current := by
      rcases hnet with ⟨hnone, hnet⟩ | ⟨c, hc, hok⟩
      · exact .inl ⟨by unfold cursorOf; rw [hnone], hnet⟩
      · have hle := hforward c current hc hmark
        exact .inr ⟨c, hc, hle, hhonest.net hmark hle hok⟩
    exact ⟨accounts_committed h ha hstep, complete_committed h hcomplete,
      (cursor_committed h).trans hmark.symm, (posted_of_committed h).others _ (by simp),
      by rw [h.latch]⟩

theorem Fair.from_settled {broker : Broker} {d : LossDecision} {w₁ : World}
    (hs : Settled ledger offset l time broker w w₁) (h : Fair ledger l broker w₁ d w') :
    Fair ledger l broker w d w' where
  daily := h.daily
  drawdown := by
    rw [← hs.ddHalt, ← hs.dd]
    exact h.drawdown

/-- What a check does to the accounts. -/
structure CheckSpec (ledger : List Transfer) (offset : Instant → Instant) (l : Limit) (c : Check)
    (w : World) (d : LossDecision) (w' : World) : Prop where
  accounts : Accounts ledger offset l c.at_ w'
  cursor : cursorOf w'.store = cursorOf w.store ∨ cursorOf w'.store = marker c.broker
  fair : Fair ledger l c.broker w d w'

theorem evaluated_cursor {nav : Option ℚ} {plannedRisk : Option (Option ℚ)} {key : ℤ}
    {d : LossDecision} (h : Evaluated l nav plannedRisk key time w d w') :
    cursorOf w'.store = cursorOf w.store := by
  have hturned : ∀ v w₁, Turned key v time w w₁ → w₁.store .dlTxId = w.store .dlTxId := by
    rintro v w₁ (⟨-, rfl⟩ | ⟨-, h⟩)
    · rfl
    · exact h.others _ (by simp)
  have htx : w'.store .dlTxId = w.store .dlTxId := by
    cases h with
    | invalid _ => rfl
    | nonPositive _ _ hpart _ _ _ _ => exact hpart.store _ (by simp) (by simp)
    | unreadable _ _ h =>
      rcases h with rfl | ⟨-, h⟩ | ⟨w₁, h, -, rfl | rfl⟩
      · rfl
      · exact h.others _ (by simp)
      · exact hturned _ _ h
      · simpa using hturned _ _ h
    | judged _ _ hprepared hpart hremembered _ =>
      rw [(unmoved_judged hpart hremembered).1.txId]
      obtain ⟨w₀, hw₀, ⟨-, rfl⟩ | ⟨-, hset⟩⟩ := hprepared.steps
      · exact hturned _ _ hw₀
      · exact (hset.others _ (by simp)).trans (hturned _ _ hw₀)
  unfold cursorOf
  rw [htx]

theorem Accounts.haltedOnly (ha : Accounts ledger offset l time w) {key : ℤ} {d : LossDecision}
    (h : HaltedOnly l key w d w') :
    Accounts ledger offset l time w' ∧ cursorOf w'.store = cursorOf w.store := by
  obtain ⟨daily, dd, hseen, -⟩ := h.seen
  refine ⟨ha.haltPart hseen.haltPart, ?_⟩
  unfold cursorOf
  rw [hseen.haltPart.store .dlTxId (by simp) (by simp)]

theorem checkSpec_of_checked {c : Check} (ha : Accounts ledger offset l c.at_ w)
    {d : LossDecision} (hcomplete : ¬ Incomplete offset c.at_ w)
    (hhonest : Honest ledger c.broker)
    (hforward : ∀ i j, cursorOf w.store = some i → marker c.broker = some j → i ≤ j)
    (h : Checked offset l c.at_ c.plannedRisk c.broker w d w') :
    CheckSpec ledger offset l c w d w' := by
  cases h with
  | unavailable h =>
    obtain ⟨hacc, hcursor⟩ := ha.haltedOnly h
    exact ⟨hacc, .inl hcursor, fair_of_none h.daily⟩
  | unusable hbalance hreconciled hevaluated h =>
    have hs := settled_of_reconciled ha hcomplete hhonest hforward hbalance hreconciled
    obtain ⟨hacc, hcursor⟩ := (hs.accounts.evaluated hs.complete hevaluated).haltedOnly h
    exact ⟨hacc, .inr (hcursor.trans ((evaluated_cursor hevaluated).trans hs.cursor)),
      fair_of_none h.daily⟩
  | evaluated hbalance hreconciled hevaluated _ _ =>
    have hs := settled_of_reconciled ha hcomplete hhonest hforward hbalance hreconciled
    exact ⟨hs.accounts.evaluated hs.complete hevaluated,
      .inr ((evaluated_cursor hevaluated).trans hs.cursor),
      (fair_evaluated hs.accounts hs.complete hbalance hs.cursor hevaluated).from_settled hs⟩

/-! ## Runs -/

/-- A check that was made, with the states around it. -/
structure Made where
  check : Check
  before : World
  outcome : Except String LossDecision
  after : World

/-- Checks one after the other, under one oracle for all their accesses. -/
def checks (offset : Instant → Instant) (l : Limit) (fails : ℕ → Bool) :
    List Check → ℕ × World → List Made
  | [], _ => []
  | c :: rest, s =>
      let (outcome, s') :=
        (LossCheck.lossCheck offset l c.at_ c.plannedRisk c.broker).run fails s
      ⟨c, s.2, outcome, s'.2⟩ :: checks offset l fails rest s'

theorem checks_cons (offset : Instant → Instant) (l : Limit) (fails : ℕ → Bool) (c : Check)
    (rest : List Check) (s : ℕ × World) :
    let r := (LossCheck.lossCheck offset l c.at_ c.plannedRisk c.broker).run fails s
    checks offset l fails (c :: rest) s = ⟨c, s.2, r.1, r.2.2⟩ :: checks offset l fails rest r.2 :=
  rfl

/-- Time does not run backwards, nor do the ids of the summaries. -/
def Follows (a b : Check) : Prop :=
  a.at_ ≤ b.at_ ∧ ∀ i j, marker a.broker = some i → marker b.broker = some j → i ≤ j

/-- In a run no check starts a day from a remembered NAV that is incomplete, up to some check. -/
theorem made_spec (hzone : Monotone (dayKey offset)) {fails : ℕ → Bool} {requests : List Check}
    {s : ℕ × World} (ha : Accounts ledger offset l time s.2)
    (htime : ∀ c ∈ requests, time ≤ c.at_)
    (hforward : ∀ i, cursorOf s.2.store = some i → ∀ c ∈ requests, ∀ j,
      marker c.broker = some j → i ≤ j)
    (horder : requests.Pairwise Follows) (hhonest : ∀ c ∈ requests, Honest ledger c.broker)
    {before after : List Made} {m : Made}
    (hrun : checks offset l fails requests s = before ++ m :: after)
    (hcomplete : ∀ m' ∈ before ++ [m], ¬ Incomplete offset m'.check.at_ m'.before) :
    ∃ d, m.outcome = .ok d ∧ CheckSpec ledger offset l m.check m.before d m.after := by
  induction requests generalizing s time before with
  | nil => exact absurd hrun (by simp [checks])
  | cons c rest ih =>
    have hensures := @Ensures.run _ _ _ fails s _
      (lossCheck_ensures offset l c.at_ c.plannedRisk c.broker s.2)
    obtain ⟨d, hd, hchecked⟩ := hensures
    rw [checks_cons] at hrun
    generalize (LossCheck.lossCheck offset l c.at_ c.plannedRisk c.broker).run fails s = r at *
    have hc : c ∈ c :: rest := List.mem_cons_self
    have hat : Accounts ledger offset l c.at_ s.2 := ha.later hzone (htime c hc)
    have hfirst : ¬ Incomplete offset c.at_ s.2 → CheckSpec ledger offset l c s.2 d r.2.2 :=
      fun hcomplete => checkSpec_of_checked hat hcomplete (hhonest c hc)
        (fun i j hi hj => hforward i hi c hc j hj) hchecked
    obtain ⟨hfollows, horder⟩ := List.pairwise_cons.mp horder
    cases before with
    | nil =>
      obtain ⟨rfl, -⟩ := List.cons.inj hrun
      exact ⟨d, hd, hfirst (hcomplete _ (List.mem_append_right _ List.mem_cons_self))⟩
    | cons m₀ before =>
      obtain ⟨rfl, hrest⟩ := List.cons.inj hrun
      have hspec := hfirst (hcomplete _ List.mem_cons_self)
      refine ih hspec.accounts (fun c' hc' => (hfollows c' hc').1) (fun i hi c' hc' j hj => ?_)
        horder (fun c' hc' => hhonest c' (List.mem_cons_of_mem _ hc')) hrest
        (fun m' hm' => hcomplete m' (List.mem_cons_of_mem _ hm'))
      rcases hspec.cursor with hsame | hmarker
      · exact hforward i (hsame ▸ hi) c' (List.mem_cons_of_mem _ hc') j hj
      · exact (hfollows c' hc').2 i j (hmarker ▸ hi) hj

/-- In a run from an empty file where no check starts a day from a remembered NAV that misses
transfers of the day before, every transfer after the first cursor is counted once, and every
evaluation compares results of trading. -/
theorem transfers_are_no_result (offset : Instant → Instant) (hzone : Monotone (dayKey offset))
    (l : Limit) (fails : ℕ → Bool) (ledger : List Transfer) (requests : List Check)
    (horder : requests.Pairwise Follows) (hhonest : ∀ c ∈ requests, Honest ledger c.broker)
    {before after : List Made} {m : Made}
    (hrun : checks offset l fails requests (0, start emptyStore) = before ++ m :: after)
    (hcomplete : ∀ m' ∈ before ++ [m], ¬ Incomplete offset m'.check.at_ m'.before) :
    Cursors ledger m.after ∧ ∃ d, m.outcome = .ok d ∧
      Fair ledger l m.check.broker m.before d m.after := by
  cases requests with
  | nil => exact absurd hrun (by simp [checks])
  | cons c rest =>
    have hfollows := (List.pairwise_cons.mp horder).1
    obtain ⟨d, hd, hspec⟩ := @made_spec ledger offset l c.at_ hzone fails (c :: rest)
      (0, start emptyStore) accounts_start
      (fun c' hc' => by
        rcases List.mem_cons.mp hc' with rfl | hc'
        · exact le_refl _
        · exact (hfollows c' hc').1)
      (fun i hi => absurd hi (by simp [start, emptyStore, cursorOf])) horder hhonest before after m
      hrun hcomplete
    exact ⟨hspec.accounts.cursors, d, hd, hspec.fair⟩

instance (offset : Instant → Instant) (time : Instant) (w : World) :
    Decidable (Incomplete offset time w) := inferInstanceAs (Decidable (_ ∧ _ ∧ _))

/-! ## Samples -/

/-- A broker that answers with its ledger. -/
def statement (ledger : List Transfer) (nav : ℚ) (id : ℕ) : Broker :=
  ⟨.ok ⟨some nav, some id⟩, fun after => .ok ((ledger.filter (fun t => after < t.id)).map
    (fun t => .transaction "TRANSFER_FUNDS" (some t.id) (some t.amount)))⟩

theorem honest_statement (ledger : List Transfer) (nav : ℚ) (id : ℕ) :
    Honest ledger (statement ledger nav id) := by
  intro current _ after entries hentries
  obtain rfl := Except.ok.inj hentries
  have hread : ∀ ts : List Transfer, (ts.map (fun t => Entry.transaction "TRANSFER_FUNDS"
      (some t.id) (some t.amount))).filterMap transfer? = ts := by
    intro ts
    rw [List.filterMap_map]
    exact List.filterMap_some
  rw [hread, List.filter_filter]
  apply List.Perm.of_eq
  exact List.filter_congr fun t _ => by simp [and_comm]

def sampleLedger : List Transfer := [⟨7, 100⟩]

def sampleLimit : Limit := Limit.make (some LIMIT_FRACTION) true none

/-- A deposit late in one day, seen by the last check of that day, and the first check of the
next day. -/
def sampleChecks : List Check :=
  [⟨0, none, statement sampleLedger 1000 5⟩, ⟨HOUR, none, statement sampleLedger 1100 7⟩,
    ⟨24 * HOUR, none, statement sampleLedger 1100 7⟩]

def sampleRun (fails : ℕ → Bool) : List Made :=
  checks newYorkWinter sampleLimit fails sampleChecks (0, start emptyStore)

theorem transfers_are_no_result_sample :
    ∃ before m, sampleRun (fun _ => false) = before ++ [m] ∧ Cursors sampleLedger m.after ∧
      ∃ d, m.outcome = .ok d ∧
        Fair sampleLedger sampleLimit m.check.broker m.before d m.after := by
  have hfollows : sampleChecks.Pairwise Follows := by
    simp [sampleChecks, Follows, marker, statement, HOUR]
  have hrun : ∃ a b c, sampleRun (fun _ => false) = [a, b] ++ c :: [] := ⟨_, _, _, rfl⟩
  obtain ⟨a, b, c, hrun⟩ := hrun
  refine ⟨[a, b], c, hrun, transfers_are_no_result newYorkWinter dayKey_newYorkWinter sampleLimit
    (fun _ => false) sampleLedger sampleChecks hfollows (fun c hc => ?_) hrun ?_⟩
  · simp only [sampleChecks, List.mem_cons, List.not_mem_nil, or_false] at hc
    rcases hc with rfl | rfl | rfl
    · exact honest_statement _ _ _
    · exact honest_statement _ _ _
    · exact honest_statement _ _ _
  · have hall : ∀ m' ∈ sampleRun (fun _ => false),
        ¬ Incomplete newYorkWinter m'.check.at_ m'.before := by decide +kernel
    exact hrun ▸ hall

/-- One failed read between the deposit's commit and `_remember`: the deposit is the next
day's profit, although trading has made nothing since the observation E0 came from. -/
theorem deposit_as_profit :
    (sampleRun (fun n => decide (n = 29))).map (fun m =>
        (m.outcome.toOption.bind (fun d => d.daily.bind DailyLossStatus.pnl), m.after.trace.e0)) =
      [(some 0, some ⟨1000, some 5⟩), (none, some ⟨1000, some 5⟩),
        (some 100, some ⟨1000, some 5⟩)] ∧
    result sampleLedger (some 5) ⟨1100, some 7⟩ - result sampleLedger (some 5) ⟨1000, some 5⟩ = 0 := by
  constructor
  · decide +kernel
  · decide +kernel

end MarketSystem.TransferAccounting
