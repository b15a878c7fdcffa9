import MarketSystem.Execution.OandaBroker

/-!
# Submitting a client id again

An id is latched before its order is posted, and a latched id is only looked up. The
latch goes when the outcome is known: a rejection, a fill, or an order that rests. From
then on only what the broker shows of the id keeps a second order back, and a resting
order has no trade to show.
-/
namespace MarketSystem.OandaBroker

open Library RrContract RouterEntry
open EurusdPullback (geometryOk)

variable {py : Python} {b : Broker}

/-! ## The POST -/

theorem callTrading_sent (attempts : ℕ → Attempt) (retries i : ℕ) :
    0 < (callTrading attempts retries i).1 ↔ (attempts i).guard = .ok () := by
  unfold callTrading
  cases hguard : (attempts i).guard with
  | error e => simp
  | ok _ =>
    cases htransport : (attempts i).transport with
    | timeout => simp
    | failure => simp
    | raised name => simp
    | answer status payload =>
      simp only [iff_true]
      split_ifs
      · cases retries with
        | zero => simp
        | succ retries => simp
      · simp

/-- Only the latch of its own id changes. -/
theorem send_of_ne (u : Unresolved) (c : Call) (order : Order) {e : String}
    (he : e ≠ clientExtensionId py c.plan.clientId) :
    (send py b u c order).unresolved e = u e :=
  Function.update_of_ne he ..

theorem send_posted (u : Unresolved) (c : Call) (order : Order) :
    (send py b u c order).posted ≠ [] ↔ (c.attempts 0).guard = .ok () := by
  rw [← callTrading_sent c.attempts b.max429 0]
  show List.replicate _ order ≠ [] ↔ _
  rw [ne_eq, List.replicate_eq_nil_iff]
  omega

/-- An unknown outcome leaves the id latched. -/
theorem send_unknown {u : Unresolved} {c : Call} {order : Order} {r : Result}
    (h : (send py b u c order).result = .ok r) (hr : r.status = .unknown) :
    (send py b u c order).unresolved (clientExtensionId py c.plan.clientId) ≠ none := by
  have hresult : interpret py c (callTrading c.attempts b.max429 0).2 = .ok r := h
  show Function.update u _ (latchAfter (interpret py c _)) _ ≠ none
  rw [Function.update_self, hresult]
  simp [latchAfter, hr]

/-! ## A call -/

/-- The checks before the POST let the order through: those of the plan, of the switch, and
what the broker shows. -/
structure Checked (py : Python) (b : Broker) (c : Call) : Prop where
  opens : b.closeOnly = false
  asked : c.request ≠ .limitInvalid
  planned : problem c.plan c.approval = none
  built : ∃ entry stop target order, roundedPrices c.plan = .ok (entry, stop, target) ∧
    geometryOk c.plan.side entry stop target = true ∧ buildOrder py c stop target = .ok order
  allowed : ensureOpenAllowed b c.emergencyActive c.isAllowed = .ok ()
  gate : preSubmitGate py b c (clientExtensionId py c.plan.clientId) = .ok none

/-- What a call can do: leave everything alone, release a latched id whose trade was found,
or send its order. -/
inductive Submitted (py : Python) (b : Broker) (u : Unresolved) (c : Call) : Outcome → Prop
  | kept (result : Except BrokerError Result)
      (hunknown : ∀ r, result = .ok r → r.status = .unknown →
        u (clientExtensionId py c.plan.clientId) ≠ none)
      (hblocked : ¬(u (clientExtensionId py c.plan.clientId) = none ∧ Checked py b c)) :
      Submitted py b u c ⟨result, [], u⟩
  | found (r : Result) (hr : r.status = .accepted)
      (hlatched : u (clientExtensionId py c.plan.clientId) ≠ none) :
      Submitted py b u c
        ⟨.ok r, [], Function.update u (clientExtensionId py c.plan.clientId) none⟩
  | sent (order : Order) (hfree : u (clientExtensionId py c.plan.clientId) = none)
      (hchecked : Checked py b c) : Submitted py b u c (send py b u c order)

/-- A refusal before the POST. -/
theorem Submitted.refused {u : Unresolved} {c : Call} {r : Result} (hr : r.status ≠ .unknown)
    (h : ¬Checked py b c) : Submitted py b u c ⟨.ok r, [], u⟩ := by
  refine .kept _ ?_ (fun hc => h hc.2)
  intro r' hr' hunknown
  cases hr'
  exact absurd hunknown hr

theorem Submitted.raised {u : Unresolved} {c : Call} {e : BrokerError} (h : ¬Checked py b c) :
    Submitted py b u c ⟨.error e, [], u⟩ :=
  .kept _ (fun _ hr => nomatch hr) (fun hc => h hc.2)

theorem resolvePrevious_cases {u : Unresolved} {c : Call}
    (hlatched : u (clientExtensionId py c.plan.clientId) ≠ none) :
    Submitted py b u c (resolvePrevious py u c) := by
  have hkept : ∀ result, Submitted py b u c ⟨result, [], u⟩ := fun result =>
    .kept result (fun _ _ _ => hlatched) (fun hc => hlatched hc.1)
  unfold resolvePrevious
  dsimp only
  split
  · exact .found _ rfl hlatched
  all_goals exact hkept _

theorem submitChecked_cases {u : Unresolved} {c : Call} {entry stop target : ℚ}
    (hasked : c.request ≠ .limitInvalid) (hopens : b.closeOnly = false)
    (hplanned : problem c.plan c.approval = none)
    (hrounded : roundedPrices c.plan = .ok (entry, stop, target))
    (hgeometry : geometryOk c.plan.side entry stop target = true)
    (hallowed : ensureOpenAllowed b c.emergencyActive c.isAllowed = .ok ()) :
    Submitted py b u c (submitChecked py b u c stop target) := by
  unfold submitChecked
  dsimp only
  by_cases hlatch : (u (clientExtensionId py c.plan.clientId)).isSome = true
  · rw [if_pos hlatch]
    exact resolvePrevious_cases (Option.isSome_iff_ne_none.mp hlatch)
  · rw [if_neg hlatch]
    have hfree : u (clientExtensionId py c.plan.clientId) = none := by simpa using hlatch
    cases hgate : preSubmitGate py b c (clientExtensionId py c.plan.clientId) with
    | error e =>
      have hno : ¬Checked py b c := fun hc => nomatch hc.gate.symm.trans hgate
      cases e with
      | auth => exact .raised hno
      | rateLimited => exact .raised hno
      | other name => exact .raised hno
      | timeout => exact .refused (by simp) hno
      | unavailable => exact .refused (by simp) hno
      | rejected status code => exact .refused (by simp) hno
      | malformed => exact .refused (by simp) hno
      | guard => exact .refused (by simp) hno
    | ok verdict =>
      cases verdict with
      | some verdict =>
        have hno : ¬Checked py b c := fun hc => nomatch hc.gate.symm.trans hgate
        cases verdict with
        | already tradeId => exact .refused (by simp) hno
        | refuse reason => exact .refused (by simp) hno
      | none =>
        dsimp only
        cases hbuilt : buildOrder py c stop target with
        | error e =>
          refine .raised (fun hc => ?_)
          obtain ⟨entry', stop', target', order, hrounded', -, hbuilt'⟩ := hc.built
          cases hrounded.symm.trans hrounded'
          exact nomatch hbuilt.symm.trans hbuilt'
        | ok order =>
          exact .sent order hfree ⟨hopens, hasked, hplanned,
            ⟨entry, stop, target, order, hrounded, hgeometry, hbuilt⟩, hallowed, hgate⟩

theorem submitPlan_cases (u : Unresolved) {c : Call} (hasked : c.request ≠ .limitInvalid)
    (hopens : b.closeOnly = false) : Submitted py b u c (submitPlan py b u c) := by
  unfold submitPlan
  dsimp only
  cases hplanned : problem c.plan c.approval with
  | some reason =>
    exact .refused (by simp) (fun hc => nomatch hc.planned.symm.trans hplanned)
  | none =>
    dsimp only
    cases hrounded : roundedPrices c.plan with
    | error e =>
      refine .raised (fun hc => ?_)
      obtain ⟨entry, stop, target, order, hrounded', -, -⟩ := hc.built
      exact nomatch hrounded.symm.trans hrounded'
    | ok prices =>
      obtain ⟨entry, stop, target⟩ := prices
      dsimp only
      cases hgeometry : geometryOk c.plan.side entry stop target with
      | false =>
        refine .refused (by simp) (fun hc => ?_)
        obtain ⟨entry', stop', target', order, hrounded', hgeometry', -⟩ := hc.built
        cases hrounded.symm.trans hrounded'
        exact absurd (hgeometry.symm.trans hgeometry') (by decide)
      | true =>
        rw [if_neg (by decide)]
        cases hallowed : ensureOpenAllowed b c.emergencyActive c.isAllowed with
        | error e => exact .raised (fun hc => nomatch hc.allowed.symm.trans hallowed)
        | ok _ => exact submitChecked_cases hasked hopens hplanned hrounded hgeometry hallowed

/-- The step lemma. -/
theorem submit_cases (u : Unresolved) (c : Call) : Submitted py b u c (submit py b u c) := by
  unfold submit
  by_cases hopens : b.closeOnly = true
  · rw [if_pos hopens]
    exact .raised (fun hc => absurd (hc.opens.symm.trans hopens) (by decide))
  · rw [if_neg hopens]
    rw [Bool.not_eq_true] at hopens
    cases hrequest : c.request with
    | limitInvalid => exact .refused (by simp) (fun hc => hc.asked hrequest)
    | market => exact submitPlan_cases u (by simp [hrequest]) hopens
    | limit price gtdTime => exact submitPlan_cases u (by simp [hrequest]) hopens

/-- What a call needs to post: its id is free, the checks let it through, and the guard of the
first attempt does. -/
theorem posted_submit (u : Unresolved) (c : Call) :
    (submit py b u c).posted ≠ [] ↔ u (clientExtensionId py c.plan.clientId) = none ∧
      Checked py b c ∧ (c.attempts 0).guard = .ok () := by
  generalize hout : submit py b u c = out
  have hcases := hout ▸ submit_cases u c
  cases hcases with
  | kept result hunknown hblocked =>
    simp only [ne_eq, not_true_eq_false, false_iff]
    exact fun h => hblocked ⟨h.1, h.2.1⟩
  | found r hr hlatched =>
    simp only [ne_eq, not_true_eq_false, false_iff]
    exact fun h => hlatched h.1
  | sent order hfree hchecked =>
    rw [send_posted]
    exact ⟨fun h => ⟨hfree, hchecked, h⟩, fun h => h.2.2⟩

/-- An unknown outcome leaves the id latched. -/
theorem latched_of_unknown {u : Unresolved} {c : Call} {r : Result}
    (h : (submit py b u c).result = .ok r) (hr : r.status = .unknown) :
    (submit py b u c).unresolved (clientExtensionId py c.plan.clientId) ≠ none := by
  generalize hout : submit py b u c = out at h
  have hcases := hout ▸ submit_cases u c
  cases hcases with
  | kept result hunknown hblocked => exact hunknown r h hr
  | found r' hr' hlatched =>
    cases h
    exact absurd (hr.symm.trans hr') (by decide)
  | sent order hfree hchecked => exact send_unknown h hr

/-- A latch goes only when the trade of its id was found. -/
theorem accepted_of_released {u : Unresolved} {c : Call} {e : String} (hlatched : u e ≠ none)
    (h : (submit py b u c).unresolved e = none) :
    clientExtensionId py c.plan.clientId = e ∧
      ∃ r, (submit py b u c).result = .ok r ∧ r.status = .accepted := by
  generalize hout : submit py b u c = out at h
  have hcases := hout ▸ submit_cases u c
  cases hcases with
  | kept result hunknown hblocked => exact absurd h hlatched
  | found r hr hl =>
    by_cases he : e = clientExtensionId py c.plan.clientId
    · exact ⟨he.symm, r, rfl, hr⟩
    · exact absurd ((Function.update_of_ne he ..).symm.trans h) hlatched
  | sent order hfree hchecked =>
    have he : e ≠ clientExtensionId py c.plan.clientId := fun he => hlatched (he ▸ hfree)
    exact absurd ((send_of_ne u c order he).symm.trans h) hlatched

/-! ## The calls of an instance -/

/-- A call with the latches it met. -/
structure Record where
  call : Call
  before : Unresolved
  outcome : Outcome

namespace Record

variable (py : Python) (b : Broker) (r : Record)

def clientId : String := r.call.plan.clientId

def extId : String := clientExtensionId py r.clientId

def Answers (statuses : List Status) : Prop :=
  ∃ result, r.outcome.result = .ok result ∧ result.status ∈ statuses

/-- The id is free, and the checks, the reads and the guard let an order through. -/
def LetThrough : Prop :=
  r.before (r.extId py) = none ∧ Checked py b r.call ∧ (r.call.attempts 0).guard = .ok ()

end Record

/-- The records of some calls. -/
def records (py : Python) (b : Broker) : Unresolved → List Call → List Record
  | _, [] => []
  | u, c :: calls => ⟨c, u, submit py b u c⟩ :: records py b (submit py b u c).unresolved calls

/-- An id that was answered is latched until a call with its extension id was answered with what
became of an order. -/
def Settles (py : Python) (history : List Record) (u : Unresolved) : Prop :=
  ∀ r ∈ history, r.Answers [.accepted, .resting, .unknown] → u (r.extId py) ≠ none ∨
    ∃ r' ∈ history, r'.extId py = r.extId py ∧ r'.Answers [.accepted, .resting]

theorem Settles.step {history : List Record} {u : Unresolved} (h : Settles py history u)
    (c : Call) :
    Settles py (history ++ [⟨c, u, submit py b u c⟩]) (submit py b u c).unresolved := by
  intro r hr hanswers
  have hnew : (⟨c, u, submit py b u c⟩ : Record) ∈ history ++ [⟨c, u, submit py b u c⟩] := by simp
  rcases List.mem_append.mp hr with hold | hlast
  · obtain hlatched | ⟨r', hr', hext, hresolved⟩ := h r hold hanswers
    · by_cases hreleased : (submit py b u c).unresolved (r.extId py) = none
      · obtain ⟨hext, result, hok, hstatus⟩ := accepted_of_released hlatched hreleased
        exact .inr ⟨_, hnew, hext, result, hok, by simp [hstatus]⟩
      · exact .inl hreleased
    · exact .inr ⟨r', List.mem_append_left _ hr', hext, hresolved⟩
  · obtain rfl := List.mem_singleton.mp hlast
    obtain ⟨result, hok, hstatus⟩ := hanswers
    by_cases hunknown : result.status = .unknown
    · exact .inl (latched_of_unknown hok hunknown)
    · exact .inr ⟨_, hnew, rfl, result, hok, by simpa [hunknown] using hstatus⟩

/-- The run lemma: what every record has met. -/
theorem settles_records {history : List Record} {u : Unresolved} (h : Settles py history u)
    {calls : List Call} {before after : List Record} {s : Record}
    (hlog : records py b u calls = before ++ s :: after) :
    Settles py (history ++ before) s.before ∧ s.outcome = submit py b s.before s.call := by
  induction calls generalizing history u before with
  | nil => exact absurd hlog (by simp [records])
  | cons c calls ih =>
    cases before with
    | nil =>
      obtain ⟨rfl, -⟩ := List.cons.inj hlog
      exact ⟨by simpa using h, rfl⟩
    | cons r before =>
      obtain ⟨rfl, htail⟩ := List.cons.inj hlog
      simpa using ih (h.step c) htail

/-- A later call for an id that was answered posts nothing. -/
def Idempotent (log : List Record) : Prop :=
  ∀ before s after, log = before ++ s :: after →
    (∃ r ∈ before, r.clientId = s.clientId ∧ r.Answers [.accepted, .resting, .unknown]) →
    s.outcome.posted = []

/-- No call for an id that was answered is let through once its extension id was answered with
a fill or with an order that rests. -/
def HeldBack (py : Python) (b : Broker) (log : List Record) : Prop :=
  ∀ before s after, log = before ++ s :: after →
    (∃ r ∈ before, r.clientId = s.clientId ∧ r.Answers [.accepted, .resting, .unknown]) →
    (∃ r ∈ before, r.extId py = s.extId py ∧ r.Answers [.accepted, .resting]) →
    ¬s.LetThrough py b

/-- Submitting is idempotent exactly in the runs in which what the broker shows holds back every
later call for an id whose order was filled or rests: the latch is gone by then. -/
theorem submission_idempotent_iff (py : Python) (b : Broker) (calls : List Call) :
    Idempotent (records py b (fun _ => none) calls) ↔
      HeldBack py b (records py b (fun _ => none) calls) := by
  have hstart : Settles py [] (fun _ => none) := by
    intro r hr
    cases hr
  constructor
  · intro hidempotent before s after hlog hanswered _ hthrough
    have hposted := hidempotent before s after hlog hanswered
    rw [(settles_records hstart hlog).2] at hposted
    exact (posted_submit s.before s.call).mpr hthrough hposted
  · intro hheld before s after hlog hanswered
    obtain ⟨hsettles, houtcome⟩ := settles_records hstart hlog
    by_contra hposted
    rw [houtcome] at hposted
    have hthrough : s.LetThrough py b := (posted_submit s.before s.call).mp hposted
    obtain ⟨r, hr, hid, hanswers⟩ := hanswered
    have hext : r.extId py = s.extId py := congrArg (clientExtensionId py) hid
    obtain hlatched | ⟨r', hr', hext', hresolved⟩ := hsettles r hr hanswers
    · exact hlatched (hext ▸ hthrough.1)
    · exact hheld before s after hlog ⟨r, hr, hid, hanswers⟩
        ⟨r', hr', hext'.trans hext, hresolved⟩ hthrough

/-- A call whose trade the broker finds is held back. -/
theorem not_letThrough_of_found {r : Record} {tradeId : Text}
    (h : tradeByClientId py r.call.lookup = .ok (some tradeId)) : ¬r.LetThrough py b := by
  intro hthrough
  have hgate := hthrough.2.1.gate
  simp only [preSubmitGate, h] at hgate
  exact nomatch hgate

/-! ## A limit that rests -/

def samplePython : Python where
  sha256hex id := id
  isDecimal c := 48 ≤ c && c ≤ 57
  decimal _ := none

def samplePlan : OrderPlan where
  symbol := "EURUSD"
  side := .long
  quantity := 1000
  plannedEntry := 11 / 10
  stop := 109 / 100
  target := 113 / 100
  clientId := "demo-1"
  sourceRunId := "run-1"
  positive := by norm_num

def sampleApproval : RiskApproval where
  status := .approved
  runId := "run-1"
  symbol := "EURUSD"
  side := .long
  quantity := 1000
  entry := 11 / 10
  stop := 109 / 100
  target := 113 / 100
  positive := by norm_num

def samplePricing : Payload :=
  .obj [(text "prices", .arr [.obj [(text "instrument", .str (text "EUR_USD")),
    (text "tradeable", .bool true),
    (text "bids", .arr [.obj [(text "price", .float (109 / 100))]]),
    (text "asks", .arr [.obj [(text "price", .float (11 / 10))]])]])]

/-- The broker took the limit; it has no trade of it. -/
def sampleCall : Call where
  plan := samplePlan
  approval := some sampleApproval
  request := .limit (some (11 / 10)) "2026-01-05T12:00:00Z"
  emergencyActive := false
  isAllowed := true
  lookup := .error (.rejected 404 (some (text "NO_SUCH_TRADE")))
  openTrades := .ok (.obj [(text "trades", .arr [])])
  pricing := .ok samplePricing
  attempts _ := ⟨.ok (), .answer 201 (some (.obj [(text "orderCreateTransaction",
    .obj [(text "id", .str (text "11")), (text "type", .str (text "LIMIT_ORDER"))])]))⟩
  lookupAfter := .error .timeout

def sampleRecords : List Record :=
  records samplePython ⟨false, false, false, 3⟩ (fun _ => none) [sampleCall, sampleCall]

/-- What the sample shows of a record: whose it is, its status, and how many orders it posted. -/
def Record.shown (r : Record) : String × Option Status × ℕ :=
  (r.clientId, r.outcome.result.toOption.map (·.status), r.outcome.posted.length)

/-- The order rests, and the same id is posted again. -/
theorem resting_limit_posted_again : ¬∀ (py : Python) (b : Broker) (calls : List Call),
    Idempotent (records py b (fun _ => none) calls) := by
  intro h
  have hidempotent : Idempotent sampleRecords := h _ _ _
  have hshown : sampleRecords.map Record.shown =
      [("demo-1", some .resting, 1), ("demo-1", some .resting, 1)] := by decide +kernel
  obtain ⟨r, s, hlog⟩ : ∃ r s, sampleRecords = [r, s] := ⟨_, _, rfl⟩
  rw [hlog, List.map_cons, List.map_singleton] at hshown
  obtain ⟨hr, hs⟩ := List.cons.inj hshown
  obtain ⟨hrid, hr⟩ := Prod.mk.inj hr
  obtain ⟨hsid, hs⟩ := Prod.mk.inj (List.cons.inj hs).1
  have hresting : r.Answers [.accepted, .resting, .unknown] := by
    have hstatus := (Prod.mk.inj hr).1
    cases hresult : r.outcome.result with
    | error e =>
      rw [hresult] at hstatus
      cases hstatus
    | ok result =>
      rw [hresult] at hstatus
      exact ⟨result, hresult, by simp [Option.some.inj hstatus]⟩
  have hposted := hidempotent [r] s [] hlog ⟨r, by simp, hrid.trans hsid.symm, hresting⟩
  have hlength := (Prod.mk.inj hs).2
  rw [hposted] at hlength
  cases hlength

end MarketSystem.OandaBroker
