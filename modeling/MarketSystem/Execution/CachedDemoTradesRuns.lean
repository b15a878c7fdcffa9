import MarketSystem.Execution.CachedDemoTrades
import MarketSystem.Library.Runs
import Mathlib.Tactic.Linarith

/-!
# How old cached demo trades are

The dictionaries of the cache are functions of the refreshes that ended: the cache holds what the
last one left, and the good read is the last usable one. With the refreshes in flight that is all
a run has to remember.
-/
namespace MarketSystem.CachedDemoTrades

open Library

variable {κ δ ι : Type} [DecidableEq κ] [DecidableEq ι]

/-! ### The dictionaries and the refreshes -/

/-- The last usable read, of any `since`. -/
def goodOf : List (Settled κ δ) → Option (κ × ℚ × Trades δ)
  | [] => none
  | e :: rest =>
    match e.outcome.usableTrades with
    | some trades => some (e.since, e.endedAt, trades)
    | none => goodOf rest

/-- The last usable read of one `since`, with the end of its refresh. -/
def lastGood : List (Settled κ δ) → κ → Option (ℚ × Trades δ)
  | [], _ => none
  | e :: rest, since =>
    match e.outcome.usableTrades with
    | some trades => if e.since = since then some (e.endedAt, trades) else lastGood rest since
    | none => lastGood rest since

/-- What the last refresh left in the cache. -/
def entryOf (ttl : ℚ) : List (Settled κ δ) → Option (κ × ℚ × Result δ)
  | [] => none
  | e :: rest =>
    (({ good := goodOf rest } : Cache κ δ).settle ttl e.since e.outcome e.endedAt).2.cache

section Dictionaries

variable {ttl : ℚ} {c : Cache κ δ} {since : κ}

theorem lookup_eq_some_iff {α : Type} {dict : Option (κ × α)} {value : α} :
    lookup dict since = some value ↔ dict = some (since, value) := by
  unfold lookup
  cases dict with
  | none => simp
  | some pair =>
    obtain ⟨key, stored⟩ := pair
    by_cases hkey : key = since <;> simp [hkey]

theorem lastGood_of_goodOf {settled : List (Settled κ δ)} {read : ℚ × Trades δ}
    (h : goodOf settled = some (since, read)) : lastGood settled since = some read := by
  induction settled with
  | nil => cases h
  | cons e rest ih =>
    unfold goodOf at h
    unfold lastGood
    cases husable : e.outcome.usableTrades with
    | none =>
      rw [husable] at h
      exact ih h
    | some trades =>
      rw [husable] at h
      cases h
      exact if_pos rfl

/-- What a refresh stores depends on the good read only. -/
theorem settle_cache (outcome : Fetched δ) (now : ℚ) :
    (c.settle ttl since outcome now).2.cache =
      (({ good := c.good } : Cache κ δ).settle ttl since outcome now).2.cache := by
  unfold Cache.settle
  cases outcome.usableTrades <;> rfl

theorem settle_good (outcome : Fetched δ) (now : ℚ) :
    (c.settle ttl since outcome now).2.good =
      match outcome.usableTrades with
      | some trades => some (since, now, trades)
      | none => c.good := by
  unfold Cache.settle
  cases outcome.usableTrades <;> rfl

theorem settle_inflight (outcome : Fetched δ) (now : ℚ) :
    (c.settle ttl since outcome now).2.inflight = Function.update c.inflight since false := by
  unfold Cache.settle
  cases outcome.usableTrades <;> rfl

/-- A refresh returns what it stores. -/
theorem settle_result (ttl : ℚ) (c : Cache κ δ) (since : κ) (outcome : Fetched δ) (now : ℚ) :
    ∃ storedAt, (c.settle ttl since outcome now).2.cache =
      some (since, storedAt, (c.settle ttl since outcome now).1) := by
  unfold Cache.settle
  cases outcome.usableTrades <;> exact ⟨_, rfl⟩

theorem usableTrades_eq_some_iff {outcome : Fetched δ} {trades : Trades δ} :
    outcome.usableTrades = some trades ↔ outcome = .usable trades := by
  cases outcome <;> simp [Fetched.usableTrades]

theorem result_ne_trades {outcome : Fetched δ} (h : outcome.usableTrades = none)
    {trades : Trades δ} {staleError : Option String} :
    outcome.result ≠ .trades trades staleError := by
  cases outcome with
  | usable read => cases h
  | error code => exact fun hresult => by cases hresult
  | none => exact fun hresult => by cases hresult
  | raised => exact fun hresult => by cases hresult

/-- Trades in the cache: the last refresh read them, or it failed and they are the good read. -/
theorem entry_trades {settled : List (Settled κ δ)} {storedAt : ℚ} {trades : Trades δ}
    {staleError : Option String}
    (h : entryOf ttl settled = some (since, storedAt, .trades trades staleError)) :
    ∃ e rest, settled = e :: rest ∧ e.since = since ∧
      ((staleError = none ∧ e.outcome = .usable trades ∧ storedAt = e.endedAt) ∨
        ∃ goodAt, e.outcome.usableTrades = none ∧ staleError = some e.outcome.failureCode ∧
          goodOf rest = some (since, goodAt, trades) ∧
          e.endedAt - goodAt ≤ tradesStaleMaxSeconds) := by
  cases settled with
  | nil => cases h
  | cons e rest =>
    refine ⟨e, rest, rfl, ?_⟩
    unfold entryOf Cache.settle at h
    cases husable : e.outcome.usableTrades with
    | some read =>
      obtain houtcome := usableTrades_eq_some_iff.mp husable
      simp only [houtcome, Fetched.usableTrades, Fetched.result] at h
      cases h
      exact ⟨rfl, .inl ⟨rfl, houtcome, rfl⟩⟩
    | none =>
      simp only [husable] at h
      cases hgood : lookup (goodOf rest) e.since with
      | none =>
        simp only [hgood, Option.some.injEq, Prod.mk.injEq] at h
        exact absurd h.2.2 (result_ne_trades husable)
      | some read =>
        obtain ⟨goodAt, kept⟩ := read
        by_cases hage : e.endedAt - goodAt ≤ tradesStaleMaxSeconds
        · simp only [hgood, hage, if_true, Option.some.injEq, Prod.mk.injEq] at h
          obtain ⟨rfl, -, hresult⟩ := h
          cases hresult
          exact ⟨rfl, .inr ⟨goodAt, rfl, rfl, lookup_eq_some_iff.mp hgood, hage⟩⟩
        · simp only [hgood, hage, if_false, Option.some.injEq, Prod.mk.injEq] at h
          exact absurd h.2.2 (result_ne_trades husable)

/-- The first section: a cached result that has not expired is served while it is fresh or while
a refresh runs; else the session refreshes, or waits for the refresh that runs. -/
theorem enter_cases (ttl : ℚ) (c : Cache κ δ) (since : κ) (clock clock' : ℚ) :
    (∃ storedAt result, c.cache = some (since, storedAt, result) ∧
      c.expired since result clock = false ∧
      (clock' - storedAt < ttl ∨ c.inflight since = true) ∧
      c.enter ttl since clock clock' = (.served result, c)) ∨
    (c.inflight since = false ∧ c.enter ttl since clock clock' =
      (.owner, { c with inflight := Function.update c.inflight since true })) ∨
    (c.inflight since = true ∧
      (∀ storedAt result, c.cache = some (since, storedAt, result) →
        c.expired since result clock = true) ∧
      c.enter ttl since clock clock' = (.waits, c)) := by
  unfold Cache.enter
  cases hfound : (lookup c.cache since).filter (fun cached => !c.expired since cached.2 clock) with
  | some cached =>
    obtain ⟨storedAt, result⟩ := cached
    rw [Option.filter_eq_some_iff, lookup_eq_some_iff] at hfound
    obtain ⟨hcache, hexpired⟩ := hfound
    have hkept : c.expired since result clock = false := by simpa using hexpired
    by_cases hfresh : clock' - storedAt < ttl
    · exact .inl ⟨storedAt, result, hcache, hkept, .inl hfresh, by simp [hfresh]⟩
    · cases hrunning : c.inflight since with
      | true => exact .inl ⟨storedAt, result, hcache, hkept, .inr rfl, by simp [hfresh]⟩
      | false => exact .inr (.inl ⟨rfl, by simp [hfresh]⟩)
  | none =>
    cases hrunning : c.inflight since with
    | true =>
      refine .inr (.inr ⟨rfl, fun storedAt result hcache => ?_, by simp⟩)
      rw [Option.filter_eq_none_iff] at hfound
      simpa using hfound (storedAt, result) (lookup_eq_some_iff.mpr hcache)
    | false => exact .inr (.inl ⟨rfl, by simp⟩)

/-- What has not expired is either not marked, or its good read is young enough. -/
theorem expired_eq_false {trades : Trades δ} {code : String} {clock goodAt : ℚ}
    (h : c.expired since (.trades trades (some code)) clock = false)
    (hgood : c.good = some (since, goodAt, trades)) : clock - goodAt ≤ tradesStaleMaxSeconds := by
  unfold Cache.expired at h
  simpa [lookup_eq_some_iff.mpr hgood] using h

end Dictionaries

/-! ### What a run keeps -/

namespace Phase

/-- The `since` of a session and the beginning of its call. -/
def call? : Phase κ δ → Option (κ × ℚ)
  | .idle => none
  | .called since began => some (since, began)
  | .waiting since began => some (since, began)
  | .fetching since began => some (since, began)
  | .fetched since began _ => some (since, began)

/-- The session refreshes a `since`: it fetches, or has fetched and not stored yet. -/
def Refreshes (phase : Phase κ δ) (since : κ) : Prop :=
  (∃ began, phase = .fetching since began) ∨ ∃ began outcome, phase = .fetched since began outcome

end Phase

/-- A waiter: a refresh ended since its call, or the one it waits for still runs and the cache
has nothing of its `since` that is not marked stale. -/
def Waits (s : State ι κ δ) (since : κ) (began : ℚ) : Prop :=
  (∃ e ∈ s.settled.head?, began ≤ e.endedAt) ∨
    s.cache.inflight since = true ∧
      ∀ storedAt trades, s.cache.cache ≠ some (since, storedAt, .trades trades none)

/-- What every run keeps. -/
structure Inv (ttl : ℚ) (s : State ι κ δ) : Prop where
  cache : s.cache.cache = entryOf ttl s.settled
  good : s.cache.good = goodOf s.settled
  ended : ∀ e ∈ s.settled, e.endedAt ≤ s.now
  began : ∀ i since began, (s.phase i).call? = some (since, began) → began ≤ s.now
  inflight : ∀ i since, (s.phase i).Refreshes since → s.cache.inflight since = true
  unique : ∀ i j since, (s.phase i).Refreshes since → (s.phase j).Refreshes since → i = j
  waits : ∀ i since began, s.phase i = .waiting since began → Waits s since began

section Steps

variable {ttl : ℚ} {s : State ι κ δ} {session : ι} {since : κ} {began clock : ℚ}

omit [DecidableEq κ] in
theorem refreshes_of_fetch (hphase : s.phase session = .fetching since began)
    {outcome : Fetched δ} {i : ι} {since' : κ}
    (h : ((s.setPhase session (.fetched since began outcome)).phase i).Refreshes since') :
    (s.phase i).Refreshes since' := by
  by_cases hi : i = session
  · subst hi
    have hsince : since = since' := by
      simpa [State.setPhase, Phase.Refreshes] using h
    exact .inl ⟨began, by rw [hphase, hsince]⟩
  · simpa [State.setPhase, hi] using h

/-- A session goes to a phase in which it refreshes nothing. -/
theorem Inv.move (h : Inv ttl s) {phase : Phase κ δ} (hlater : s.now ≤ clock)
    (hbegan : ∀ since began, phase.call? = some (since, began) → began ≤ clock)
    (hrefreshes : ∀ since, ¬ phase.Refreshes since)
    (hwaits : ∀ since began, phase = .waiting since began → Waits s since began) :
    Inv ttl { s.setPhase session phase with now := clock } where
  cache := h.cache
  good := h.good
  ended e he := (h.ended e he).trans hlater
  began i since began hcall := by
    by_cases hi : i = session
    · subst hi
      exact hbegan since began (by simpa [State.setPhase] using hcall)
    · exact (h.began i since began (by simpa [State.setPhase, hi] using hcall)).trans hlater
  inflight i since hi := by
    by_cases his : i = session
    · subst his
      exact absurd (by simpa [State.setPhase] using hi) (hrefreshes since)
    · exact h.inflight i since (by simpa [State.setPhase, his] using hi)
  unique i j since hi hj := by
    by_cases his : i = session
    · subst his
      exact absurd (by simpa [State.setPhase] using hi) (hrefreshes since)
    by_cases hjs : j = session
    · subst hjs
      exact absurd (by simpa [State.setPhase] using hj) (hrefreshes since)
    · exact h.unique i j since (by simpa [State.setPhase, his] using hi)
        (by simpa [State.setPhase, hjs] using hj)
  waits i since began hwaiting := by
    by_cases hi : i = session
    · subst hi
      exact hwaits since began (by simpa [State.setPhase] using hwaiting)
    · exact h.waits i since began (by simpa [State.setPhase, hi] using hwaiting)

/-- A session begins a refresh that nobody else runs. -/
theorem Inv.own (h : Inv ttl s) (hphase : s.phase session = .called since began)
    (hfree : s.cache.inflight since = false) (hlater : s.now ≤ clock) :
    Inv ttl { s.setPhase session (.fetching since began) with
      cache := { s.cache with inflight := Function.update s.cache.inflight since true }
      now := clock } where
  cache := h.cache
  good := h.good
  ended e he := (h.ended e he).trans hlater
  began i since' began' hcall := by
    by_cases hi : i = session
    · subst hi
      have hsame : (s.phase i).call? = some (since', began') := by
        rw [hphase]
        simpa [State.setPhase, Phase.call?] using hcall
      exact (h.began i since' began' hsame).trans hlater
    · exact (h.began i since' began' (by simpa [State.setPhase, hi] using hcall)).trans hlater
  inflight i since' hi := by
    by_cases hsince : since' = since
    · subst hsince
      exact Function.update_self ..
    · refine (Function.update_of_ne hsince _ _).trans ?_
      by_cases his : i = session
      · subst his
        exact absurd (by simpa [State.setPhase, Phase.Refreshes, eq_comm] using hi) hsince
      · exact h.inflight i since' (by simpa [State.setPhase, his] using hi)
  unique i j since' hi hj := by
    have hother : ∀ k, k ≠ session → (s.phase k).Refreshes since' → since' ≠ since := by
      intro k _ hk heq
      subst heq
      exact absurd (h.inflight k since' hk) (by simp [hfree])
    by_cases his : i = session
    · by_cases hjs : j = session
      · exact his.trans hjs.symm
      · subst his
        have hsince : since = since' := by
          simpa [State.setPhase, Phase.Refreshes] using hi
        exact absurd hsince.symm (hother j hjs (by simpa [State.setPhase, hjs] using hj))
    · by_cases hjs : j = session
      · subst hjs
        have hsince : since = since' := by
          simpa [State.setPhase, Phase.Refreshes] using hj
        exact absurd hsince.symm (hother i his (by simpa [State.setPhase, his] using hi))
      · exact h.unique i j since' (by simpa [State.setPhase, his] using hi)
          (by simpa [State.setPhase, hjs] using hj)
  waits i since' began' hwaiting := by
    by_cases hi : i = session
    · subst hi
      simp [State.setPhase] at hwaiting
    · refine (h.waits i since' began' (by simpa [State.setPhase, hi] using hwaiting)).imp_right ?_
      rintro ⟨hinflight, hstale⟩
      refine ⟨?_, hstale⟩
      by_cases hsince : since' = since
      · subst hsince
        exact Function.update_self ..
      · exact (Function.update_of_ne hsince _ _).trans hinflight

/-- A fetch ends; nothing is stored yet. -/
theorem Inv.fetch (h : Inv ttl s) (hphase : s.phase session = .fetching since began)
    (outcome : Fetched δ) : Inv ttl (s.setPhase session (.fetched since began outcome)) where
  cache := h.cache
  good := h.good
  ended := h.ended
  began i since' began' hcall := by
    by_cases hi : i = session
    · subst hi
      have hsame : (s.phase i).call? = some (since', began') := by
        rw [hphase]
        simpa [State.setPhase, Phase.call?] using hcall
      exact h.began i since' began' hsame
    · exact h.began i since' began' (by simpa [State.setPhase, hi] using hcall)
  inflight i since' hi := h.inflight i since' (refreshes_of_fetch hphase hi)
  unique i j since' hi hj :=
    h.unique i j since' (refreshes_of_fetch hphase hi) (refreshes_of_fetch hphase hj)
  waits i since' began' hwaiting := by
    by_cases hi : i = session
    · subst hi
      simp [State.setPhase] at hwaiting
    · exact h.waits i since' began' (by simpa [State.setPhase, hi] using hwaiting)

/-- A refresh ends. Nobody waits for an older one any more. -/
theorem Inv.settle (h : Inv ttl s) {outcome : Fetched δ}
    (hphase : s.phase session = .fetched since began outcome) (hlater : s.now ≤ clock) :
    Inv ttl { s.setPhase session .idle with
      cache := (s.cache.settle ttl since outcome clock).2
      now := clock
      settled := ⟨since, clock, outcome⟩ :: s.settled } where
  cache := by
    show (s.cache.settle ttl since outcome clock).2.cache = _
    rw [settle_cache, h.good]
    rfl
  good := by
    show (s.cache.settle ttl since outcome clock).2.good = _
    rw [settle_good, h.good]
    rfl
  ended e he := by
    cases List.mem_cons.mp he with
    | inl heq =>
      subst heq
      exact le_rfl
    | inr hold => exact (h.ended e hold).trans hlater
  began i since' began' hcall := by
    by_cases hi : i = session
    · subst hi
      simp [State.setPhase, Phase.call?] at hcall
    · exact (h.began i since' began' (by simpa [State.setPhase, hi] using hcall)).trans hlater
  inflight i since' hi := by
    show (s.cache.settle ttl since outcome clock).2.inflight since' = true
    rw [settle_inflight]
    by_cases his : i = session
    · subst his
      simp [State.setPhase, Phase.Refreshes] at hi
    · have hrefreshes : (s.phase i).Refreshes since' := by
        simpa [State.setPhase, his] using hi
      have hsince : since' ≠ since := by
        intro heq
        subst heq
        exact his (h.unique i session since' hrefreshes (.inr ⟨began, outcome, hphase⟩))
      exact (Function.update_of_ne hsince _ _).trans (h.inflight i since' hrefreshes)
  unique i j since' hi hj := by
    by_cases his : i = session
    · subst his
      simp [State.setPhase, Phase.Refreshes] at hi
    by_cases hjs : j = session
    · subst hjs
      simp [State.setPhase, Phase.Refreshes] at hj
    · exact h.unique i j since' (by simpa [State.setPhase, his] using hi)
        (by simpa [State.setPhase, hjs] using hj)
  waits i since' began' hwaiting := by
    by_cases hi : i = session
    · subst hi
      simp [State.setPhase] at hwaiting
    · have hwaits : s.phase i = .waiting since' began' := by
        simpa [State.setPhase, hi] using hwaiting
      refine .inl ⟨_, rfl, ?_⟩
      exact (h.began i since' began' (by rw [hwaits]; rfl)).trans hlater

omit [DecidableEq ι] in
theorem Inv.start (ttl started : ℚ) : Inv ttl ({ now := started } : State ι κ δ) where
  cache := rfl
  good := rfl
  ended e he := absurd he List.not_mem_nil
  began i since began hcall := by cases hcall
  inflight i since hi := by simp [Phase.Refreshes] at hi
  unique i j since hi _ := by simp [Phase.Refreshes] at hi
  waits i since began hwaiting := by cases hwaiting

/-- The step lemma. -/
theorem Inv.step (h : Inv ttl s) (e : Event ι κ δ) : Inv ttl (s.step ttl e).1 := by
  cases e with
  | call session since clock =>
    cases hphase : s.phase session with
    | idle =>
      by_cases hlater : s.now ≤ clock
      · simp only [State.step, hphase, hlater, if_true]
        refine h.move hlater ?_ (by simp [Phase.Refreshes]) (by simp)
        intro since' began' hcall
        cases hcall
        exact le_rfl
      · simpa only [State.step, hphase, hlater, if_false] using h
    | _ => simpa only [State.step, hphase] using h
  | enter session clock clock' =>
    cases hphase : s.phase session with
    | called since began =>
      by_cases hclock : s.now ≤ clock ∧ clock ≤ clock'
      · have hlater : s.now ≤ clock' := hclock.1.trans hclock.2
        have hbegan : began ≤ s.now := h.began session since began (by rw [hphase]; rfl)
        obtain ⟨storedAt, result, -, -, -, henter⟩ | ⟨hfree, henter⟩ | ⟨hrunning, hexpired, henter⟩ :=
          enter_cases ttl s.cache since clock clock'
        · simp only [State.step, hphase, hclock, and_self, if_true, henter]
          exact h.move hlater (by simp [Phase.call?]) (by simp [Phase.Refreshes]) (by simp)
        · simp only [State.step, hphase, hclock, and_self, if_true, henter]
          exact h.own hphase hfree hlater
        · simp only [State.step, hphase, hclock, and_self, if_true, henter]
          refine h.move hlater ?_ (by simp [Phase.Refreshes]) ?_
          · intro since' began' hcall
            cases hcall
            exact hbegan.trans hlater
          · intro since' began' hwaiting
            cases hwaiting
            refine .inr ⟨hrunning, fun storedAt trades hcache => ?_⟩
            cases hexpired storedAt _ hcache
      · simpa only [State.step, hphase, hclock, if_false] using h
    | _ => simpa only [State.step, hphase] using h
  | fetch session outcome =>
    cases hphase : s.phase session with
    | fetching since began =>
      simp only [State.step, hphase]
      exact h.fetch hphase outcome
    | _ => simpa only [State.step, hphase] using h
  | settle session clock =>
    cases hphase : s.phase session with
    | fetched since began outcome =>
      by_cases hlater : s.now ≤ clock
      · simp only [State.step, hphase, hlater, if_true]
        exact h.settle hphase hlater
      · simpa only [State.step, hphase, hlater, if_false] using h
    | _ => simpa only [State.step, hphase] using h
  | wake session =>
    cases hphase : s.phase session with
    | waiting since began =>
      simp only [State.step, hphase]
      exact h.move le_rfl (by simp [Phase.call?]) (by simp [Phase.Refreshes]) (by simp)
    | _ => simpa only [State.step, hphase] using h

end Steps

/-- The run lemma: whatever the sessions do, in any order. -/
theorem inv_run (ttl started : ℚ) (events : List (Event ι κ δ)) :
    Inv ttl (run (fun s e => (State.step ttl s e).1) events { now := started }) :=
  run_invariant (fun _ e h => h.step e) (Inv.start ttl started)

/-! ### What a `get` returns -/

/-- A `get` is about to return an old read: it finds one that is not marked stale while another
session refreshes its `since`, or its wait runs out with the stale read it found expired. -/
def ServesOld (ttl : ℚ) (s : State ι κ δ) : Event ι κ δ → Prop
  | .enter session _ _ => ∃ since began storedAt trades,
      s.phase session = .called since began ∧ s.cache.inflight since = true ∧
      s.cache.cache = some (since, storedAt, .trades trades none) ∧
      max ttl tradesStaleMaxSeconds < began - storedAt
  | .wake session => ∃ since began storedAt goodAt trades code,
      s.phase session = .waiting since began ∧ s.cache.inflight since = true ∧
      s.cache.cache = some (since, storedAt, .trades trades (some code)) ∧
      s.cache.good = some (since, goodAt, trades) ∧
      max ttl tradesStaleMaxSeconds < began - goodAt
  | _ => False

/-- Trades as they are returned: the last good read of their `since`, marked exactly when the
last refresh failed. -/
def Traced (settled : List (Settled κ δ)) (since : κ) (trades : Trades δ)
    (staleError : Option String) (readAt : ℚ) : Prop :=
  lastGood settled since = some (readAt, trades) ∧
    ∃ e rest, settled = e :: rest ∧ e.since = since ∧
      match staleError with
      | none => e.outcome = .usable trades ∧ readAt = e.endedAt
      | some code => e.outcome.usableTrades = none ∧ code = e.outcome.failureCode

section Returns

variable {ttl : ℚ} {s : State ι κ δ} {e : Event ι κ δ} {ret : Return κ δ}

/-- The three places where a `get` returns. -/
theorem step_returns (h : (s.step ttl e).2 = some ret) :
    (∃ session clock clock', e = .enter session clock clock' ∧
      s.phase session = .called ret.since ret.began ∧ s.now ≤ clock ∧ clock ≤ clock' ∧
      (∃ storedAt, s.cache.cache = some (ret.since, storedAt, ret.result) ∧
        s.cache.expired ret.since ret.result clock = false ∧
        (clock' - storedAt < ttl ∨ s.cache.inflight ret.since = true)) ∧
      (s.step ttl e).1.settled = s.settled) ∨
    (∃ session clock outcome, e = .settle session clock ∧
      s.phase session = .fetched ret.since ret.began outcome ∧ s.now ≤ clock ∧
      ret.result = (s.cache.settle ttl ret.since outcome clock).1 ∧
      (s.step ttl e).1.settled = ⟨ret.since, clock, outcome⟩ :: s.settled) ∨
    (∃ session, e = .wake session ∧ s.phase session = .waiting ret.since ret.began ∧
      ret.result = s.cache.waited ret.since ∧ (s.step ttl e).1.settled = s.settled) := by
  cases e with
  | call session since clock =>
    cases hphase : s.phase session with
    | idle =>
      by_cases hlater : s.now ≤ clock <;> simp [State.step, hphase, hlater] at h
    | _ => simp [State.step, hphase] at h
  | enter session clock clock' =>
    cases hphase : s.phase session with
    | called since began =>
      by_cases hclock : s.now ≤ clock ∧ clock ≤ clock'
      · obtain ⟨storedAt, result, hcache, hexpired, hserved, henter⟩ | ⟨-, henter⟩ |
          ⟨-, -, henter⟩ := enter_cases ttl s.cache since clock clock'
        · simp only [State.step, hphase, hclock, and_self, if_true, henter] at h ⊢
          cases h
          exact .inl ⟨session, clock, clock', rfl, hphase, hclock.1, hclock.2,
            ⟨storedAt, hcache, hexpired, hserved⟩, rfl⟩
        · simp [State.step, hphase, hclock, henter] at h
        · simp [State.step, hphase, hclock, henter] at h
      · simp [State.step, hphase, hclock] at h
    | _ => simp [State.step, hphase] at h
  | fetch session outcome =>
    cases hphase : s.phase session with
    | _ => simp [State.step, hphase] at h
  | settle session clock =>
    cases hphase : s.phase session with
    | fetched since began outcome =>
      by_cases hlater : s.now ≤ clock
      · simp only [State.step, hphase, hlater, if_true] at h ⊢
        cases outcome with
        | raised => cases h
        | _ =>
          cases h
          exact .inr (.inl ⟨session, clock, _, rfl, hphase, hlater, rfl, rfl⟩)
      · simp [State.step, hphase, hlater] at h
    | _ => simp [State.step, hphase] at h
  | wake session =>
    cases hphase : s.phase session with
    | waiting since began =>
      simp only [State.step, hphase] at h ⊢
      cases h
      exact .inr (.inr ⟨session, rfl, hphase, rfl, rfl⟩)
    | _ => simp [State.step, hphase] at h

/-- Trades in the cache are traced to the refreshes that ended. -/
theorem traced_of_entry {settled : List (Settled κ δ)} {since : κ} {storedAt : ℚ}
    {trades : Trades δ} {staleError : Option String}
    (h : entryOf ttl settled = some (since, storedAt, .trades trades staleError)) :
    ∃ readAt, Traced settled since trades staleError readAt ∧
      goodOf settled = some (since, readAt, trades) ∧ (staleError = none → readAt = storedAt) ∧
      ∀ e ∈ settled.head?, e.endedAt - readAt ≤ tradesStaleMaxSeconds := by
  obtain ⟨e, rest, rfl, hsince, ⟨rfl, houtcome, hstored⟩ | ⟨goodAt, hfailed, rfl, hgood, hage⟩⟩ :=
    entry_trades h
  · have hgood : goodOf (e :: rest) = some (since, e.endedAt, trades) := by
      simp [goodOf, houtcome, Fetched.usableTrades, hsince]
    refine ⟨e.endedAt, ⟨lastGood_of_goodOf hgood, e, rest, rfl, hsince, houtcome, rfl⟩, hgood,
      fun _ => hstored.symm, ?_⟩
    intro e' he'
    obtain rfl := Option.some.inj he'
    rw [sub_self]
    exact (by decide : (0 : ℚ) ≤ 1800)
  · have hgood' : goodOf (e :: rest) = some (since, goodAt, trades) := by
      simp [goodOf, hfailed, hgood]
    refine ⟨goodAt, ⟨lastGood_of_goodOf hgood', e, rest, rfl, hsince, hfailed, rfl⟩, hgood',
      fun hnone => (nomatch hnone), ?_⟩
    intro e' he'
    obtain rfl := Option.some.inj he'
    exact hage

theorem waited_eq_trades {c : Cache κ δ} {since : κ} {trades : Trades δ}
    {staleError : Option String} (h : c.waited since = .trades trades staleError) :
    ∃ storedAt, c.cache = some (since, storedAt, .trades trades staleError) := by
  unfold Cache.waited at h
  cases hfound : lookup c.cache since with
  | none =>
    rw [hfound] at h
    cases h
  | some cached =>
    obtain ⟨storedAt, result⟩ := cached
    rw [hfound] at h
    subst h
    exact ⟨storedAt, lookup_eq_some_iff.mp hfound⟩

omit [DecidableEq ι] in
/-- A refresh that ended leaves in the cache what its session returns. -/
theorem entryOf_settle (h : Inv ttl s) (since : κ) (outcome : Fetched δ) (clock : ℚ) :
    ∃ storedAt, entryOf ttl (⟨since, clock, outcome⟩ :: s.settled) =
      some (since, storedAt, (s.cache.settle ttl since outcome clock).1) := by
  obtain ⟨storedAt, hstored⟩ :=
    settle_result ttl s.cache since outcome clock
  refine ⟨storedAt, ?_⟩
  rw [← hstored, settle_cache, h.good]
  rfl

theorem stale_le_max (ttl : ℚ) : tradesStaleMaxSeconds ≤ max ttl tradesStaleMaxSeconds :=
  le_max_right ..

/-- Trades that are returned are traced, and too old exactly where they are served unchecked. -/
theorem Inv.returned (h : Inv ttl s) (hret : (s.step ttl e).2 = some ret) {trades : Trades δ}
    {staleError : Option String} (htrades : ret.result = .trades trades staleError) :
    ∃ readAt, Traced (s.step ttl e).1.settled ret.since trades staleError readAt ∧
      (ret.began - readAt ≤ max ttl tradesStaleMaxSeconds ↔ ¬ ServesOld ttl s e) := by
  have hmax := stale_le_max ttl
  obtain ⟨session, clock, clock', rfl, hphase, hlater, hclock, ⟨storedAt, hcache, hexpired, hserved⟩,
      hsettled⟩ | ⟨session, clock, outcome, rfl, hphase, hlater, hresult, hsettled⟩ |
    ⟨session, rfl, hphase, hresult, hsettled⟩ := step_returns hret
  · have hbegan : ret.began ≤ s.now := h.began session _ _ (by rw [hphase]; rfl)
    rw [htrades] at hcache hexpired
    obtain ⟨readAt, htraced, hgood, hstored, -⟩ := traced_of_entry (h.cache ▸ hcache)
    rw [← h.good] at hgood
    refine ⟨readAt, hsettled ▸ htraced, ?_⟩
    constructor
    · rintro hle ⟨since', began', storedAt', trades', hphase', -, hcache', hold⟩
      rw [hphase] at hphase'
      cases hphase'
      rw [hcache] at hcache'
      cases hcache'
      rw [hstored rfl] at hle
      exact absurd hold (not_lt.mpr hle)
    · intro hno
      cases staleError with
      | some code =>
        have hage := expired_eq_false hexpired hgood
        linarith
      | none =>
        rw [hstored rfl]
        cases hserved with
        | inl hfresh =>
          have httl : ttl ≤ max ttl tradesStaleMaxSeconds := le_max_left ..
          linarith
        | inr hrunning =>
          by_contra hold
          exact hno ⟨_, _, storedAt, trades, hphase, hrunning, hcache, not_le.mp hold⟩
  · have hbegan : ret.began ≤ s.now := h.began session _ _ (by rw [hphase]; rfl)
    obtain ⟨storedAt, hentry⟩ := entryOf_settle h ret.since outcome clock
    rw [← hresult, htrades] at hentry
    obtain ⟨readAt, htraced, -, -, hage⟩ := traced_of_entry hentry
    have hyoung := hage _ rfl
    refine ⟨readAt, hsettled ▸ htraced, fun _ hold => hold, fun _ => ?_⟩
    change clock - readAt ≤ _ at hyoung
    linarith
  · obtain ⟨storedAt, hcache⟩ := waited_eq_trades (hresult.symm.trans htrades)
    obtain ⟨readAt, htraced, hgood, hstored, hage⟩ := traced_of_entry (h.cache ▸ hcache)
    rw [← h.good] at hgood
    refine ⟨readAt, hsettled ▸ htraced, ?_⟩
    constructor
    · rintro hle ⟨since', began', storedAt', goodAt, trades', code, hphase', -, hcache', hgood', hold⟩
      rw [hphase] at hphase'
      cases hphase'
      rw [hgood] at hgood'
      cases hgood'
      exact absurd hold (not_lt.mpr hle)
    · intro hno
      obtain ⟨last, hlast, hbegan⟩ | ⟨hrunning, hmarked⟩ := h.waits session _ _ hphase
      · have hyoung := hage last hlast
        linarith
      · cases staleError with
        | none => exact absurd hcache (hmarked storedAt trades)
        | some code =>
          by_contra hold
          exact hno ⟨_, _, storedAt, readAt, trades, code, hphase, hrunning, hcache, hgood,
            not_le.mp hold⟩

end Returns

/-- In every run: one refresh of a `since` at a time, every read that is returned is the last
good one of its `since`, marked when the last refresh failed, and too old exactly when it is
served unchecked. -/
theorem cached_demo_trades_age_iff (ttl started : ℚ) (events : List (Event ι κ δ)) :
    let s := run (fun s e => (State.step ttl s e).1) events ({ now := started } : State ι κ δ)
    (∀ i j since, (s.phase i).Refreshes since → (s.phase j).Refreshes since → i = j) ∧
      ∀ e ret, (s.step ttl e).2 = some ret → ∀ trades staleError,
        ret.result = .trades trades staleError →
        ∃ readAt, Traced (s.step ttl e).1.settled ret.since trades staleError readAt ∧
          (ret.began - readAt ≤ max ttl tradesStaleMaxSeconds ↔ ¬ ServesOld ttl s e) := by
  intro s
  have h : Inv ttl s := inv_run ttl started events
  exact ⟨h.unique, fun e ret hret trades staleError htrades => h.returned hret htrades⟩

/-- A read that was good two hours ago, and two sessions that come then. -/
def idleRun : List (Event ℕ ℕ ℕ) :=
  [.call 0 7 0, .enter 0 0 0, .fetch 0 (.usable ⟨40, 0⟩), .settle 0 0,
   .call 1 7 7200, .enter 1 7200 7200, .call 2 7 7200]

/-- The second session gets the old read as if it were current. -/
theorem cached_demo_trades_silently_old :
    let s := run (fun s e => (State.step cacheTtlSeconds s e).1) idleRun { now := 0 }
    (s.step cacheTtlSeconds (.enter 2 7200 7200)).2 =
        some ⟨7, 7200, .trades ⟨40, 0⟩ none⟩ ∧
      lastGood s.settled 7 = some (0, ⟨40, 0⟩) ∧
      max cacheTtlSeconds tradesStaleMaxSeconds < (7200 : ℚ) - 0 := by
  decide +kernel

end MarketSystem.CachedDemoTrades
