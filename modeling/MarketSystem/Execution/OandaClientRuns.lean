import MarketSystem.Execution.OandaClient
import Mathlib.Tactic.Linarith

/-!
# What the client sends

Over any sequence of calls: a trading request is sent again only after an answer 429, with which the
broker did nothing, so at most one of its attempts can have been processed, and none where the call
ends with a guard's refusal or with the limit of requests. Every attempt is let through by the
limiter and, when it trades, by a guard that is asked after the wait.
-/
namespace MarketSystem.OandaClient

open OandaBroker (BrokerError Payload Reply decode)

/-! ## Attempts -/

def Tried.refused429 (t : Tried) : Bool :=
  match t.outcome with
  | some (.answer status _ _) => status == 429
  | _ => false

theorem Tried.outcome_of_refused429 {t : Tried} (h : t.refused429 = true) :
    ∃ headers payload, t.outcome = some (.answer 429 headers payload) := by
  unfold Tried.refused429 at h
  split at h
  · rename_i status headers payload heq
    obtain rfl : status = 429 := by simpa using h
    exact ⟨headers, payload, heq⟩
  · cases h

/-- An answer on which a read is repeated. -/
def Tried.serverFailed (t : Tried) : Bool :=
  match t.outcome with
  | some (.answer status _ _) => decide (500 ≤ status)
  | _ => false

/-- Something was sent, and it is not known that the broker did nothing with it. -/
def Tried.processed (t : Tried) : Bool := t.outcome.isSome && !t.refused429

/-- The reply that an attempt ends a call with. A 429 ends it when no attempt is left, or where the
wait that it asks for is no number. -/
def Tried.Ends (t : Tried) (reply : Reply) : Prop :=
  match t.verdict, t.outcome with
  | .error e, none => reply = .error e
  | .ok _, some .timeout => reply = .error .timeout
  | .ok _, some .failure => reply = .error .unavailable
  | .ok _, some (.raised name) => reply = .error (.other name)
  | .ok _, some (.answer status _ payload) =>
    if status = 429 then reply = .error .rateLimited ∨ reply = .error (.other "ValueError")
    else reply = decode status payload
  | _, _ => False

/-- An attempt is for its request, at an address of the practice host, and what was sent was
allowed. -/
structure Tried.Proper (t : Tried) (r : Request) : Prop where
  request : t.request = r
  url : requestUrlOk r.url = true
  allowed : t.outcome.isSome = true → t.verdict = .ok ()

/-- The attempts of a call and its reply, with so many repetitions left. The limit of requests is
reached when none of them is. -/
inductive Explains (r : Request) (left429 leftReads : ℕ) : List Tried → Reply → Prop
  | refused : requestUrlOk r.url = false → Explains r left429 leftReads [] (.error .guard)
  | tried (before : List Tried) (last : Tried) (reply : Reply) :
    (∀ t ∈ before, t.Proper r ∧ (t.refused429 = true ∨ r.method = .get ∧ t.serverFailed = true)) →
    before.countP Tried.refused429 ≤ left429 → before.countP Tried.serverFailed ≤ leftReads →
    last.Proper r → last.Ends reply →
    (last.refused429 = true → reply = .error .rateLimited →
      before.countP Tried.refused429 = left429) →
    Explains r left429 leftReads (before ++ [last]) reply

/-! ## Clients -/

/-- The guard of a trading attempt was asked when the limiter had let it through, with all that was
sent before in view. -/
def Fresh (outside : Outside) (earlier : List Tried) (t : Tried) : Prop :=
  t.request.category = .trading →
    ∃ c : Client, c.tried = earlier ∧ c.now = t.grantedAt ∧ outside.guard c = t.verdict

/-- Attempts of one category are apart, and the limiter knows when the next one may come. -/
structure Sound (options : Options) (outside : Outside) (c : Client) : Prop where
  spaced : c.tried.Pairwise fun (t u : Tried) => t.request.category = u.request.category →
    t.grantedAt + options.interval t.request.category ≤ u.grantedAt
  known : ∀ t ∈ c.tried, ∃ next, c.next t.request.category = some next ∧
    t.grantedAt + options.interval t.request.category ≤ next
  fresh : ∀ earlier t later, c.tried = earlier ++ t :: later → Fresh outside earlier t

section Client

variable {options : Options} {outside : Outside} {r : Request} {c : Client}

theorem Sound.congr {c' : Client} (h : Sound options outside c) (htried : c'.tried = c.tried)
    (hnext : c'.next = c.next) : Sound options outside c' := by
  constructor
  · rw [htried]
    exact h.spaced
  · rw [htried, hnext]
    exact h.known
  · rw [htried]
    exact h.fresh

/-- The limiter lets an attempt through when its time has come. -/
theorem acquire_spec (options : Options) (outside : Outside) (category : Category) (c : Client) :
    (acquire options outside category c).tried = c.tried ∧
    (acquire options outside category c).waits = c.waits ∧
    (∀ next, c.next category = some next → next ≤ (acquire options outside category c).now) ∧
    (∃ next, (acquire options outside category c).next category = some next ∧
      (acquire options outside category c).now + options.interval category ≤ next) ∧
    ∀ k, k ≠ category → (acquire options outside category c).next k = c.next k := by
  unfold acquire
  dsimp only
  by_cases hwait : 0 < (c.next category).getD c.now - c.now
  · rw [if_pos hwait]
    refine ⟨rfl, rfl, ?_, ⟨_, if_pos rfl, ?_⟩, fun k hk => if_neg hk⟩
    · intro next hnext
      have hover : (0 : ℚ) ≤ outside.oversleeps c := NNRat.coe_nonneg _
      simp only [hnext, Option.getD_some, sleep]
      linarith
    · exact add_le_add_left (le_max_left _ _) _
  · rw [if_neg hwait]
    refine ⟨rfl, rfl, ?_, ⟨_, if_pos rfl, ?_⟩, fun k hk => if_neg hk⟩
    · intro next hnext
      rw [hnext, Option.getD_some] at hwait
      linarith
    · exact add_le_add_left (le_max_left _ _) _

/-- One more attempt, at a time that the limiter gave. -/
theorem Sound.attempt {c' : Client} {t : Tried} (h : Sound options outside c)
    (htried : c'.tried = c.tried ++ [t])
    (hafter : ∀ next, c.next t.request.category = some next → next ≤ t.grantedAt)
    (hnext : ∃ next, c'.next t.request.category = some next ∧
      t.grantedAt + options.interval t.request.category ≤ next)
    (hothers : ∀ k, k ≠ t.request.category → c'.next k = c.next k)
    (hfresh : Fresh outside c.tried t) : Sound options outside c' := by
  have hbefore : ∀ u ∈ c.tried, u.request.category = t.request.category →
      u.grantedAt + options.interval u.request.category ≤ t.grantedAt := by
    intro u hu heq
    obtain ⟨next, hn, hle⟩ := h.known u hu
    exact hle.trans (hafter next (heq ▸ hn))
  constructor
  · rw [htried, List.pairwise_append]
    refine ⟨h.spaced, List.pairwise_singleton _ _, ?_⟩
    intro u hu v hv heq
    obtain rfl := List.mem_singleton.mp hv
    exact hbefore u hu heq
  · rw [htried]
    intro u hu
    cases List.mem_append.mp hu with
    | inl hu =>
      by_cases heq : u.request.category = t.request.category
      · obtain ⟨next, hn, hle⟩ := hnext
        refine ⟨next, heq ▸ hn, ?_⟩
        have hu := hbefore u hu heq
        have hinterval : (0 : ℚ) ≤ options.interval t.request.category := NNRat.coe_nonneg _
        linarith
      · rw [hothers _ heq]
        exact h.known u hu
    | inr hu =>
      obtain rfl := List.mem_singleton.mp hu
      exact hnext
  · intro earlier u later heq
    rw [htried] at heq
    cases List.eq_nil_or_concat later with
    | inl hnil =>
      subst hnil
      obtain ⟨hinit, hlast⟩ := List.append_inj' heq rfl
      obtain rfl := List.singleton_inj.mp hlast
      exact hinit ▸ hfresh
    | inr hsnoc =>
      obtain ⟨init, last, rfl⟩ := hsnoc
      rw [List.concat_eq_append, ← List.cons_append, ← List.append_assoc] at heq
      obtain ⟨hinit, -⟩ := List.append_inj' heq rfl
      exact h.fresh earlier u init hinit

/-- What an attempt left, if its address was accepted. -/
structure Sends (options : Options) (outside : Outside) (r : Request) (c c' : Client)
    (result : Except BrokerError (ℕ × List (String × String) × Option Payload)) : Prop where
  sound : Sound options outside c'
  waits : c'.waits = c.waits
  attempt : requestUrlOk r.url = false ∧ result = .error .guard ∧ c'.tried = c.tried ∨
    ∃ t, c'.tried = c.tried ++ [t] ∧ t.Proper r ∧
      match result with
      | .ok (status, headers, payload) => t.verdict = .ok () ∧
          t.outcome = some (.answer status headers payload)
      | .error e => t.refused429 = false ∧ t.Ends (.error e)

theorem send_spec (r : Request) (h : Sound options outside c) :
    Sends options outside r c (send options outside r c).2 (send options outside r c).1 := by
  unfold send
  by_cases hurl : requestUrlOk r.url = false
  · rw [if_pos hurl]
    exact ⟨h.congr rfl rfl, rfl, .inl ⟨hurl, rfl, rfl⟩⟩
  rw [if_neg hurl]
  have hok : requestUrlOk r.url = true := by simpa using hurl
  obtain ⟨htried, hwaits, hafter, hnext, hothers⟩ :=
    acquire_spec options outside r.category c
  generalize acquire options outside r.category c = c₁ at htried hwaits hafter hnext hothers
  dsimp only
  generalize hv : (if r.category = .trading then outside.guard c₁ else .ok ()) = verdict
  have hsame : ∃ t, (if r.category = .trading then c₁.pass (outside.guardTakes c₁) else c₁)
      = { c₁ with now := t } := by
    by_cases htrading : r.category = .trading
    · exact ⟨_, if_pos htrading⟩
    · exact ⟨_, if_neg htrading⟩
  obtain ⟨time, hsame⟩ := hsame
  rw [hsame]
  -- Whatever is recorded of the attempt, the guard was asked at `c₁`.
  have hsound : ∀ o (c' : Client), c'.tried = c.tried ++ [⟨r, c₁.now, verdict, o⟩] →
      c'.next = c₁.next → Sound options outside c' := by
    intro o c' hc' hn
    refine h.attempt hc' hafter (hn ▸ hnext) (hn ▸ hothers) fun htrading => ?_
    exact ⟨c₁, htried, rfl, by rw [← hv]; exact (if_pos htrading).symm⟩
  cases verdict with
  | error e =>
    have hproper : (⟨r, c₁.now, .error e, none⟩ : Tried).Proper r :=
      ⟨rfl, hok, fun hsome => absurd hsome (by simp)⟩
    dsimp only
    by_cases he : e = .guard
    · rw [if_pos he]
      refine ⟨hsound none _ (by simp [Client.fail, htried]) rfl, hwaits, .inr ⟨_, ?_, hproper, rfl, rfl⟩⟩
      simp [Client.fail, htried]
    · rw [if_neg he]
      refine ⟨hsound none _ (by simp [htried]) rfl, hwaits, .inr ⟨_, ?_, hproper, rfl, rfl⟩⟩
      simp [htried]
  | ok u =>
    dsimp only
    generalize outside.transport { c₁ with now := time } r = outcome
    have hproper : (⟨r, c₁.now, .ok u, some outcome⟩ : Tried).Proper r :=
      ⟨rfl, hok, fun _ => rfl⟩
    cases outcome with
    | answer status headers payload =>
      refine ⟨hsound (some (.answer status headers payload)) _ (by simp [Client.pass, htried]) rfl,
        hwaits, .inr ⟨_, ?_, hproper, rfl, rfl⟩⟩
      simp [Client.pass, htried]
    | timeout =>
      refine ⟨hsound (some .timeout) _ (by simp [Client.pass, Client.fail, htried]) rfl, hwaits,
        .inr ⟨_, ?_, hproper, rfl, rfl⟩⟩
      simp [Client.pass, Client.fail, htried]
    | failure =>
      refine ⟨hsound (some .failure) _ (by simp [Client.pass, Client.fail, htried]) rfl, hwaits,
        .inr ⟨_, ?_, hproper, rfl, rfl⟩⟩
      simp [Client.pass, Client.fail, htried]
    | raised name =>
      refine ⟨hsound (some (.raised name)) _ (by simp [Client.pass, htried]) rfl, hwaits,
        .inr ⟨_, ?_, hproper, rfl, rfl⟩⟩
      simp [Client.pass, htried]

/-! ## Calls -/

/-- What a call left: its attempts, which explain its reply, and a bounded wait between each two. -/
structure Calls (options : Options) (outside : Outside) (r : Request) (left429 leftReads : ℕ)
    (c c' : Client) (reply : Reply) : Prop where
  sound : Sound options outside c'
  attempts : ∃ tried waits, c'.tried = c.tried ++ tried ∧ c'.waits = c.waits ++ waits ∧
    waits.length ≤ tried.length ∧
    (∀ w ∈ waits, min (options.backoffBase : ℚ) options.backoffCap ≤ w ∧ w ≤ options.backoffCap) ∧
    Explains r left429 leftReads tried reply

theorem delay429_bounds {headers : List (String × String)} {n : ℕ} {seconds : ℚ}
    (h : delay429 options outside headers n = some seconds) :
    min (options.backoffBase : ℚ) options.backoffCap ≤ seconds ∧ seconds ≤ options.backoffCap := by
  unfold delay429 clampDelay at h
  split at h
  · obtain rfl := Option.some.inj h
    exact ⟨min_le_min_right _ (le_max_right _ _), min_le_right _ _⟩
  · obtain rfl := Option.some.inj h
    exact ⟨min_le_right _ _, le_rfl⟩
  · obtain rfl := Option.some.inj h
    exact ⟨le_rfl, min_le_right _ _⟩
  · cases h

theorem delay5xx_bounds (n : ℕ) :
    min (options.backoffBase : ℚ) options.backoffCap
      ≤ min ((options.backoffBase : ℚ) * 2 ^ n) options.backoffCap := by
  apply min_le_min_right
  have hone : (1 : ℚ) ≤ 2 ^ n := one_le_pow₀ (by norm_num)
  have hbase : (0 : ℚ) ≤ options.backoffBase := NNRat.coe_nonneg _
  nlinarith

theorem sound_backoff (seconds : ℚ) (h : Sound options outside c) :
    Sound options outside (backoff outside c seconds) := h.congr rfl rfl

/-- A repetition in front of the rest of the call. -/
theorem Calls.again {c₁ c₂ : Client} {t : Tried} {seconds : ℚ} {left429 leftReads : ℕ}
    {left429' leftReads' : ℕ} {reply : Reply}
    (htried : c₁.tried = c.tried ++ [t]) (hwaits : c₁.waits = c.waits) (hproper : t.Proper r)
    (hseconds : min (options.backoffBase : ℚ) options.backoffCap ≤ seconds ∧
      seconds ≤ options.backoffCap)
    (hrest : Calls options outside r left429' leftReads' (backoff outside c₁ seconds) c₂ reply)
    (hwhy : t.refused429 = true ∨ r.method = .get ∧ t.serverFailed = true)
    (h429 : left429' + (if t.refused429 then 1 else 0) = left429)
    (hreads : leftReads' + (if t.serverFailed then 1 else 0) ≤ leftReads) :
    Calls options outside r left429 leftReads c c₂ reply := by
  obtain ⟨tried, waits, ht, hw, hlength, hbounds, hexplains⟩ := hrest.attempts
  refine ⟨hrest.sound, t :: tried, seconds :: waits, ?_, ?_, ?_, ?_, ?_⟩
  · rw [ht, show (backoff outside c₁ seconds).tried = c₁.tried from rfl, htried]
    simp
  · rw [hw, show (backoff outside c₁ seconds).waits = c₁.waits ++ [seconds] from rfl, hwaits]
    simp
  · simpa using hlength
  · intro w hw
    cases List.mem_cons.mp hw with
    | inl heq => exact heq ▸ hseconds
    | inr hw => exact hbounds w hw
  · cases hexplains with
    | refused hurl =>
      rw [hproper.url] at hurl
      cases hurl
    | tried before last _ hbefore hcount429 hcountReads hlast hends hused =>
      rw [← List.cons_append]
      refine .tried (t :: before) last reply ?_ ?_ ?_ hlast hends ?_
      · intro u hu
        cases List.mem_cons.mp hu with
        | inl heq => exact heq ▸ ⟨hproper, hwhy⟩
        | inr hu => exact hbefore u hu
      · rw [List.countP_cons]
        omega
      · rw [List.countP_cons]
        omega
      · intro hrefused hlimited
        have := hused hrefused hlimited
        rw [List.countP_cons]
        omega

/-- A call that ends with its first attempt. -/
theorem Calls.one {c₁ c₂ : Client} {t : Tried} {left429 leftReads : ℕ} {reply : Reply}
    (hsound : Sound options outside c₂) (htried : c₁.tried = c.tried ++ [t])
    (hwaits : c₁.waits = c.waits) (hproper : t.Proper r) (hends : t.Ends reply)
    (ht : c₂.tried = c₁.tried) (hw : c₂.waits = c₁.waits)
    (hused : t.refused429 = true → reply = .error .rateLimited → left429 = 0) :
    Calls options outside r left429 leftReads c c₂ reply := by
  refine ⟨hsound, [t], [], by rw [ht, htried], by rw [hw, hwaits]; simp, by simp, by simp, ?_⟩
  exact .tried [] t reply (by simp) (by simp) (by simp) hproper hends fun hrefused hlimited =>
    (hused hrefused hlimited).symm

theorem conclude_spec (status : ℕ) (payload : Option Payload) (c : Client) :
    (conclude status payload c).1 = decode status payload ∧
      (conclude status payload c).2.tried = c.tried ∧ (conclude status payload c).2.waits = c.waits ∧
      (conclude status payload c).2.next = c.next := by
  unfold conclude
  cases decode status payload with
  | ok value => exact ⟨rfl, rfl, rfl, rfl⟩
  | error e => exact ⟨rfl, rfl, rfl, rfl⟩

theorem attempts_spec (r : Request) (attempts429 attempts5xx : ℕ) (h : Sound options outside c)
    (h429 : attempts429 ≤ options.max429) (h5xx : attempts5xx ≤ options.maxReadRetries) :
    Calls options outside r (options.max429 - attempts429) (options.maxReadRetries - attempts5xx) c
      (attempts options outside r attempts429 attempts5xx c).2
      (attempts options outside r attempts429 attempts5xx c).1 := by
  -- On the repetitions that are left.
  induction hn : (options.max429 - attempts429) + (options.maxReadRetries - attempts5xx)
    using Nat.strong_induction_on generalizing attempts429 attempts5xx c with
  | _ n ih =>
    subst hn
    have hsend := send_spec r h
    rw [attempts]
    generalize send options outside r c = sent at hsend
    obtain ⟨result, c₁⟩ := sent
    obtain ⟨hsound, hwaits, hattempt⟩ := hsend
    cases result with
    | error e =>
      cases hattempt with
      | inl hrefused =>
        obtain ⟨hurl, heq, htried⟩ := hrefused
        obtain rfl := Except.error.inj heq
        exact ⟨hsound, [], [], by simpa using htried, by simpa using hwaits, by simp, by simp,
          .refused hurl⟩
      | inr hattempt =>
        obtain ⟨t, htried, hproper, hno, hends⟩ := hattempt
        refine Calls.one hsound htried hwaits hproper hends rfl rfl fun hrefused _ => ?_
        exact absurd hrefused (by simp [hno])
    | ok answer =>
      obtain ⟨status, headers, payload⟩ := answer
      obtain ⟨_, heq, _⟩ | ⟨t, htried, hproper, hverdict, houtcome⟩ := hattempt
      · cases heq
      dsimp only
      by_cases hstatus : status = 429
      · subst hstatus
        have hrefused : t.refused429 = true := by simp [Tried.refused429, houtcome]
        have hserver : t.serverFailed = false := by simp [Tried.serverFailed, houtcome]
        rw [if_pos rfl]
        by_cases hmax : options.max429 ≤ attempts429
        · rw [dif_pos hmax]
          have hends : t.Ends (.error .rateLimited) := by
            simp [Tried.Ends, hverdict, houtcome]
          exact Calls.one (hsound.congr rfl rfl) htried hwaits hproper hends rfl rfl
            fun _ _ => by omega
        · rw [dif_neg hmax]
          cases hdelay : delay429 options outside headers attempts429 with
          | none =>
            have hends : t.Ends (.error (.other "ValueError")) := by
              simp [Tried.Ends, hverdict, houtcome]
            exact Calls.one hsound htried hwaits hproper hends rfl rfl fun _ hlimited => by
              cases hlimited
          | some seconds =>
            have hrest := ih _ (by omega) (attempts429 + 1) attempts5xx
              (sound_backoff seconds hsound) (by omega) h5xx rfl
            refine Calls.again htried hwaits hproper (delay429_bounds hdelay) hrest (.inl hrefused)
              ?_ ?_
            · rw [if_pos hrefused]
              omega
            · rw [if_neg (by simp [hserver])]
              omega
      · rw [if_neg hstatus]
        by_cases hagain : 500 ≤ status ∧ r.method = .get ∧ attempts5xx < options.maxReadRetries
        · rw [dif_pos hagain]
          have hrefused : t.refused429 = false := by simp [Tried.refused429, houtcome, hstatus]
          have hserver : t.serverFailed = true := by
            simp [Tried.serverFailed, houtcome, hagain.1]
          have hrest := ih _ (by omega) attempts429 (attempts5xx + 1)
            (sound_backoff (min ((options.backoffBase : ℚ) * 2 ^ attempts5xx)
              options.backoffCap) hsound) h429 (by omega) rfl
          refine Calls.again htried hwaits hproper ⟨delay5xx_bounds _, min_le_right _ _⟩ hrest
            (.inr ⟨hagain.2.1, hserver⟩) ?_ ?_
          · rw [if_neg (by simp [hrefused])]
            omega
          · rw [if_pos hserver]
            omega
        · rw [dif_neg hagain]
          obtain ⟨hreply, ht, hw, hnext⟩ := conclude_spec status payload c₁
          have hends : t.Ends (conclude status payload c₁).1 := by
            simp [Tried.Ends, hverdict, houtcome, hstatus, hreply]
          have hrefused : t.refused429 = false := by simp [Tried.refused429, houtcome, hstatus]
          exact Calls.one (hsound.congr ht hnext) htried hwaits hproper hends ht hw
            fun hyes _ => absurd hyes (by simp [hrefused])

theorem call_spec (r : Request) (h : Sound options outside c) :
    Calls options outside r options.max429 options.maxReadRetries c (call options outside r c).2
      (call options outside r c).1 :=
  attempts_spec r 0 0 h (Nat.zero_le _) (Nat.zero_le _)

end Client

/-! ## What the reply of a call tells -/

section Explained

variable {r : Request} {left429 leftReads : ℕ} {tried : List Tried} {reply : Reply}

theorem decode_ne (status : ℕ) (payload : Option Payload) :
    decode status payload ≠ .error .guard ∧ decode status payload ≠ .error .rateLimited := by
  unfold decode
  split_ifs
  · cases payload with
    | none => exact ⟨nofun, nofun⟩
    | some value => exact ⟨nofun, nofun⟩
  all_goals exact ⟨nofun, nofun⟩

/-- A trading request is sent again after a 429 only. -/
theorem Explains.refused_before (htrading : r.category = .trading) {before : List Tried}
    (hbefore : ∀ t ∈ before, t.Proper r ∧
      (t.refused429 = true ∨ r.method = .get ∧ t.serverFailed = true)) :
    ∀ t ∈ before, t.refused429 = true := by
  intro t ht
  cases (hbefore t ht).2 with
  | inl hrefused => exact hrefused
  | inr hread =>
    have hdata := r.reads.mpr hread.1
    rw [htrading] at hdata
    cases hdata

theorem not_processed_of_refused {t : Tried} (h : t.refused429 = true) : t.processed = false := by
  simp [Tried.processed, h]

theorem countP_processed (h : ∀ t ∈ tried, t.refused429 = true) :
    tried.countP Tried.processed = 0 := by
  rw [List.countP_eq_zero]
  intro t ht
  simp [not_processed_of_refused (h t ht)]

theorem Explains.processed_le_one (h : Explains r left429 leftReads tried reply)
    (htrading : r.category = .trading) : tried.countP Tried.processed ≤ 1 := by
  cases h with
  | refused => simp
  | tried before last _ hbefore =>
    rw [List.countP_append, countP_processed (Explains.refused_before htrading hbefore), zero_add]
    exact (List.countP_le_length).trans_eq rfl

/-- Nothing was processed where the guard refused or the limit of requests was reached. -/
theorem Explains.not_processed (h : Explains r left429 leftReads tried reply)
    (htrading : r.category = .trading)
    (hreply : reply = .error .guard ∨ reply = .error .rateLimited) :
    tried.countP Tried.processed = 0 := by
  cases h with
  | refused => simp
  | tried before last _ hbefore _ _ _ hends =>
    rw [List.countP_append, countP_processed (Explains.refused_before htrading hbefore), zero_add,
      List.countP_eq_zero]
    intro t ht hprocessed
    obtain rfl := List.mem_singleton.mp ht
    obtain ⟨request, grantedAt, verdict, outcome⟩ := t
    cases outcome with
    | none => cases hprocessed
    | some o =>
      cases verdict with
      | error e => exact hends
      | ok u =>
        cases o with
        | timeout => rcases hreply with rfl | rfl <;> cases hends
        | failure => rcases hreply with rfl | rfl <;> cases hends
        | raised name => rcases hreply with rfl | rfl <;> cases hends
        | answer status headers payload =>
          by_cases hstatus : status = 429
          · subst hstatus
            cases hprocessed
          · have heq : reply = decode status payload := by simpa [Tried.Ends, hstatus] using hends
            cases hreply with
            | inl hguard => exact (decode_ne status payload).1 (heq ▸ hguard)
            | inr hlimited => exact (decode_ne status payload).2 (heq ▸ hlimited)

theorem length_le_counts {before : List Tried} (hbefore : ∀ t ∈ before, t.Proper r ∧
      (t.refused429 = true ∨ r.method = .get ∧ t.serverFailed = true)) :
    before.length ≤ before.countP Tried.refused429 + before.countP Tried.serverFailed := by
  induction before with
  | nil => simp
  | cons t before ih =>
    have hrest := ih fun u hu => hbefore u (List.mem_cons_of_mem _ hu)
    rw [List.countP_cons, List.countP_cons, List.length_cons]
    cases (hbefore t List.mem_cons_self).2 with
    | inl hrefused =>
      rw [if_pos hrefused]
      omega
    | inr hserver =>
      rw [if_pos hserver.2]
      omega

theorem Explains.length_le (h : Explains r left429 leftReads tried reply) :
    tried.length ≤ left429 + leftReads + 1 ∧
      (r.category = .trading → tried.length ≤ left429 + 1) := by
  cases h with
  | refused => simp
  | tried before last _ hbefore h429 hreads =>
    have hlength := length_le_counts hbefore
    rw [List.length_append, List.length_singleton]
    refine ⟨by omega, fun htrading => ?_⟩
    have hall := List.countP_eq_length.mpr (Explains.refused_before htrading hbefore)
    omega

theorem Explains.proper (h : Explains r left429 leftReads tried reply) :
    ∀ t ∈ tried, t.Proper r := by
  cases h with
  | refused => simp
  | tried before last _ hbefore _ _ hlast =>
    intro t ht
    cases List.mem_append.mp ht with
    | inl ht => exact (hbefore t ht).1
    | inr ht => exact List.mem_singleton.mp ht ▸ hlast

/-! ## The attempts as the adapter sees them -/

def Tried.attempt (t : Tried) : OandaBroker.Attempt where
  guard := t.verdict
  transport :=
    match t.outcome with
    | some (.answer status _ payload) => .answer status payload
    | some .timeout => .timeout
    | some (.raised name) => .raised name
    | _ => .failure

def attemptsOf (tried : List Tried) (i : ℕ) : OandaBroker.Attempt :=
  match tried[i]? with
  | some t => t.attempt
  | none => ⟨.ok (), .failure⟩

theorem callTrading_shift (f : ℕ → OandaBroker.Attempt) (retries i : ℕ) :
    OandaBroker.callTrading f retries (i + 1)
      = OandaBroker.callTrading (fun j => f (j + 1)) retries i := by
  induction retries generalizing i with
  | zero =>
    unfold OandaBroker.callTrading
    rfl
  | succ retries ih =>
    unfold OandaBroker.callTrading
    simp only [ih]

theorem callTrading_last {t : Tried} {reply : Reply} (retries : ℕ) (hends : t.Ends reply)
    (hvalue : reply ≠ .error (.other "ValueError"))
    (hused : t.refused429 = true → reply = .error .rateLimited → 0 = retries) :
    OandaBroker.callTrading (attemptsOf [t]) retries 0
      = (if t.outcome.isSome then 1 else 0, reply) := by
  obtain ⟨request, grantedAt, verdict, outcome⟩ := t
  unfold OandaBroker.callTrading
  cases verdict with
  | error e =>
    cases outcome with
    | none => exact Prod.ext rfl hends.symm
    | some o => exact hends.elim
  | ok u =>
    cases outcome with
    | none => exact hends.elim
    | some o =>
      cases o with
      | timeout => exact Prod.ext rfl hends.symm
      | failure => exact Prod.ext rfl hends.symm
      | raised name => exact Prod.ext rfl hends.symm
      | answer status headers payload =>
        by_cases hstatus : status = 429
        · subst hstatus
          have hlimited : reply = .error .rateLimited := by
            have hor : reply = .error .rateLimited ∨ reply = .error (.other "ValueError") := by
              simpa [Tried.Ends] using hends
            exact hor.resolve_right hvalue
          obtain rfl := hused rfl hlimited
          simp [attemptsOf, Tried.attempt, hlimited]
        · have heq : reply = decode status payload := by simpa [Tried.Ends, hstatus] using hends
          simp [attemptsOf, Tried.attempt, hstatus, heq]

/-- A trading call is what the adapter takes it for: a number of attempts of which only those
answered 429 are repeated. The exception is where the wait asked for is no number. -/
theorem Explains.callTrading_eq (h : Explains r left429 leftReads tried reply)
    (htrading : r.category = .trading) (hurl : requestUrlOk r.url = true)
    (hvalue : reply ≠ .error (.other "ValueError")) :
    OandaBroker.callTrading (attemptsOf tried) left429 0
      = (tried.countP (fun t => t.outcome.isSome), reply) := by
  cases h with
  | refused hrefused =>
    rw [hurl] at hrefused
    cases hrefused
  | tried before last _ hbefore h429 hreads _ hends hused =>
    have hall : ∀ t ∈ before, t.refused429 = true ∧ t.Proper r := fun t ht =>
      ⟨Explains.refused_before htrading hbefore t ht, (hbefore t ht).1⟩
    clear hbefore hreads
    induction before generalizing left429 with
    | nil =>
      have hlast := callTrading_last left429 hends hvalue (by simpa using hused)
      rw [List.nil_append, hlast]
      simp [List.countP_cons]
    | cons t before ih =>
      obtain ⟨hrefused, hproper⟩ := hall t List.mem_cons_self
      obtain ⟨headers, payload, houtcome⟩ := Tried.outcome_of_refused429 hrefused
      have hverdict : t.verdict = .ok () := hproper.allowed (by simp [houtcome])
      rw [List.countP_cons, if_pos hrefused] at h429 hused
      obtain ⟨retries, rfl⟩ : ∃ retries, left429 = retries + 1 := ⟨left429 - 1, by omega⟩
      have hleft : before.countP Tried.refused429 ≤ retries := by omega
      have hrest := ih hleft (fun hl hr => by have := hused hl hr; omega)
        fun u hu => hall u (List.mem_cons_of_mem _ hu)
      have hshift : (fun j => attemptsOf (t :: before ++ [last]) (j + 1))
          = attemptsOf (before ++ [last]) := by
        funext j
        simp [attemptsOf]
      have hfirst : attemptsOf (t :: before ++ [last]) 0 = ⟨.ok (), .answer 429 payload⟩ := by
        simp [attemptsOf, Tried.attempt, houtcome, hverdict]
      unfold OandaBroker.callTrading
      rw [hfirst]
      dsimp only
      rw [if_pos rfl, callTrading_shift, hshift, hrest, List.cons_append, List.countP_cons,
        if_pos (by simp [houtcome])]

end Explained

/-! ## Runs -/

/-- A call, its reply and its attempts. -/
structure Call where
  request : Request
  reply : Reply
  tried : List Tried

/-- Calls one after the other, with any time between them. -/
def run (options : Options) (outside : Outside) : List Request → Client → List Call × Client
  | [], c => ([], c)
  | r :: rs, c =>
    let c := c.pass (outside.idles c)
    let (reply, after) := call options outside r c
    let (calls, last) := run options outside rs after
    (⟨r, reply, after.tried.drop c.tried.length⟩ :: calls, last)

def start (now : ℚ) : Client := ⟨now, fun _ => none, none, none, [], []⟩

theorem run_spec {options : Options} {outside : Outside} (rs : List Request) {c : Client}
    (h : Sound options outside c) :
    Sound options outside (run options outside rs c).2 ∧
    (run options outside rs c).2.tried
      = c.tried ++ ((run options outside rs c).1.map Call.tried).flatten ∧
    (∀ w ∈ (run options outside rs c).2.waits, w ∈ c.waits ∨
      min (options.backoffBase : ℚ) options.backoffCap ≤ w ∧ w ≤ options.backoffCap) ∧
    ∀ k ∈ (run options outside rs c).1,
      Explains k.request options.max429 options.maxReadRetries k.tried k.reply := by
  induction rs generalizing c with
  | nil => exact ⟨h, by simp [run], fun w hw => .inl hw, by simp [run]⟩
  | cons r rs ih =>
    have hidle : Sound options outside (c.pass (outside.idles c)) := h.congr rfl rfl
    obtain ⟨hsound, tried, waits, htried, hwaits, -, hbounds, hexplains⟩ := call_spec r hidle
    obtain ⟨hlast, hall, hallWaits, hcalls⟩ := ih hsound
    have hdrop : (call options outside r (c.pass (outside.idles c))).2.tried.drop
        (c.pass (outside.idles c)).tried.length = tried := by
      rw [htried, List.drop_left]
    refine ⟨hlast, ?_, ?_, ?_⟩
    · rw [run]
      dsimp only
      rw [hall, hdrop, htried, List.map_cons, List.flatten_cons, List.append_assoc]
      rfl
    · intro w hw
      cases hallWaits w hw with
      | inr hb => exact .inr hb
      | inl hw =>
        rw [hwaits] at hw
        exact (List.mem_append.mp hw).imp_right (hbounds w)
    · intro k hk
      rw [run] at hk
      dsimp only at hk
      rw [hdrop] at hk
      cases List.mem_cons.mp hk with
      | inl heq => exact heq ▸ hexplains
      | inr hk => exact hcalls k hk

/-- Whatever the broker answers and however long anything takes, over any calls: all attempts are
those of the calls, attempts of one category are apart by the interval of the limiter, and each
trading attempt was put to the guard when the limiter had let it through; each wait stays between
the base and the cap. Each call goes to the practice host, sends nothing that was refused, ends
after a bounded number of attempts and says how its last attempt ended. A trading call can have been
processed once, and not at all where the guard refused it or the limit of requests was reached; it is
the sequence of attempts that the adapter's model starts from. -/
theorem trading_call_processed_once (options : Options) (outside : Outside) (rs : List Request)
    (now : ℚ) :
    let calls := (run options outside rs (start now)).1
    let last := (run options outside rs (start now)).2
    last.tried = (calls.map Call.tried).flatten ∧
    Sound options outside last ∧
    (∀ w ∈ last.waits,
      min (options.backoffBase : ℚ) options.backoffCap ≤ w ∧ w ≤ options.backoffCap) ∧
    ∀ k ∈ calls,
      Explains k.request options.max429 options.maxReadRetries k.tried k.reply ∧
      (∀ t ∈ k.tried, t.Proper k.request) ∧
      k.tried.length ≤ options.max429 + options.maxReadRetries + 1 ∧
      (k.request.category = .trading → k.tried.length ≤ options.max429 + 1 ∧
        k.tried.countP Tried.processed ≤ 1 ∧
        (k.reply = .error .guard ∨ k.reply = .error .rateLimited →
          k.tried.countP Tried.processed = 0) ∧
        (requestUrlOk k.request.url = true → k.reply ≠ .error (.other "ValueError") →
          OandaBroker.callTrading (attemptsOf k.tried) options.max429 0
            = (k.tried.countP (fun t => t.outcome.isSome), k.reply))) := by
  have hstart : Sound options outside (start now) := by
    constructor
    · exact List.Pairwise.nil
    · intro t ht
      exact absurd ht List.not_mem_nil
    · intro earlier t later heq
      exact absurd heq (by simp [start])
  obtain ⟨hsound, htried, hwaits, hcalls⟩ := run_spec rs hstart
  refine ⟨htried, hsound, ?_, ?_⟩
  · intro w hw
    exact (hwaits w hw).resolve_left List.not_mem_nil
  · intro k hk
    have hexplains := hcalls k hk
    refine ⟨hexplains, hexplains.proper, hexplains.length_le.1, fun htrading => ?_⟩
    exact ⟨hexplains.length_le.2 htrading, hexplains.processed_le_one htrading,
      hexplains.not_processed htrading, hexplains.callTrading_eq htrading⟩

end MarketSystem.OandaClient
