import MarketSystem.Execution.ConflictPath

/-!
# One outcome per run

Any number of callers submit candidates for any runs, crash and retry, while
other writers change the PAPER account. The journal and the order table of a run
then carry at most one decision.

The invariant records, for each claimed run, whether it is undecided, refused or
reserved. The argument for the unguarded save is about PAPER states: if another
caller refused the run since the load, it did so on a state in between, which
equals the loaded one because no state comes back; so it would have approved.
-/
namespace MarketSystem.ConflictPath

open Library RrContract Database RiskEngine RiskReservation ConflictEngine CandidateIdentity

/-! ## Appending to the journal -/

theorem decisiveRows_append (journal rows : List JournalRow) (runId : String) :
    decisiveRows (journal ++ rows) runId = decisiveRows journal runId ++ decisiveRows rows runId := by
  simp [decisiveRows]

theorem decisiveRows_eq_nil {rows : List JournalRow} {runId : String}
    (h : ∀ row ∈ rows, row.runId = some runId → row.eventType ≠ decisionEvent) :
    decisiveRows rows runId = [] := by
  refine List.filterMap_eq_nil_iff.mpr (fun row hrow => if_neg ?_)
  rintro ⟨hevent, hrun, -⟩
  exact h row hrow hrun hevent

theorem decisions_append {db db' : Database} {rows : List JournalRow} {runId : String}
    (hjournal : db'.journal = db.journal ++ rows)
    (h : ∀ row ∈ rows, row.runId = some runId → row.eventType ≠ decisionEvent) :
    decisions db' runId = decisions db runId := by
  unfold decisions
  rw [hjournal, decisiveRows_append, decisiveRows_eq_nil h, List.append_nil]

theorem claimedFingerprint_append {db db' : Database} {rows : List JournalRow} {runId : String}
    (hjournal : db'.journal = db.journal ++ rows)
    (h : ∀ row ∈ rows, row.runId = some runId → row.eventType ≠ claimEvent) :
    claimedFingerprint db' runId = claimedFingerprint db runId := by
  have hnone : rows.find? (fun row => decide (row.eventType = claimEvent ∧ row.runId = some runId))
      = none := by
    refine List.find?_eq_none.mpr (fun row hrow => ?_)
    simp only [decide_eq_true_eq, not_and]
    exact fun hevent hrun => h row hrow hrun hevent
  unfold claimedFingerprint
  rw [hjournal, List.find?_append, hnone, Option.or_none]

/-- The rows of a run, by event type, that only this path writes. -/
def Neutral (runId : String) (row : JournalRow) : Prop :=
  row.runId = some runId → row.eventType ≠ decisionEvent ∧ row.eventType ≠ claimEvent

/-- Neutral rows change neither the decisions nor the claim of the run. -/
theorem neutral_append {db db' : Database} {rows : List JournalRow} {runId : String}
    (hjournal : db'.journal = db.journal ++ rows) (h : ∀ row ∈ rows, Neutral runId row) :
    decisions db' runId = decisions db runId ∧
      claimedFingerprint db' runId = claimedFingerprint db runId := by
  exact ⟨decisions_append hjournal (fun row hrow hrun => (h row hrow hrun).1),
    claimedFingerprint_append hjournal (fun row hrow hrun => (h row hrow hrun).2)⟩

theorem appendRows_journal (db : Database) (asOf : Instant) (runId symbol : String)
    (rows : List DecisionRow) :
    (appendRows db asOf runId symbol rows).journal = db.journal ++ rows.map (fun row =>
      ⟨some asOf, some runId, some symbol, row.1, row.2.1, "INFO", row.2.2⟩) := by
  induction rows generalizing db with
  | nil => simp [appendRows]
  | cons row rows ih =>
    rw [List.map_cons, List.append_cons]
    exact ih (db.event (some asOf) (some runId) (some symbol) row.1 row.2.1 "INFO" row.2.2)

/-- Rows are appended to the journal; everything else stays. -/
theorem appendRows_eq (db : Database) (asOf : Instant) (runId symbol : String)
    (rows : List DecisionRow) :
    ∃ journal, appendRows db asOf runId symbol rows = { db with journal := journal } := by
  induction rows generalizing db with
  | nil => exact ⟨db.journal, rfl⟩
  | cons row rows ih =>
    obtain ⟨journal, h⟩ :=
      ih (db.event (some asOf) (some runId) (some symbol) row.1 row.2.1 "INFO" row.2.2)
    exact ⟨journal, h⟩

/-! ## Approval -/

/-- What a submission that passed the checks is made of. -/
theorem submission_eq_ok {call : Call} {s : Submission} (h : call.submission = .ok s) :
    s.call = call ∧ candidate call.report = .ok s.setupId ∧
      call.report.tradePlan = some s.plan ∧
      candidateFields call.report call.instrument call.accountId s.setupId call.policy =
        some s.fields := by
  unfold Call.submission at h
  split_ifs at h
  cases hc : candidate call.report with
  | error e => simp [hc] at h
  | ok setupId =>
    simp only [hc] at h
    cases hplan : call.report.tradePlan with
    | none => simp [hplan] at h
    | some plan =>
      cases hfields : candidateFields call.report call.instrument call.accountId setupId
          call.policy with
      | none => simp [hplan, hfields] at h
      | some fields =>
        simp only [hplan, hfields, Except.ok.injEq] at h
        subst h
        exact ⟨rfl, rfl, rfl, hfields⟩

/-- The lineage a valid candidate has. -/
theorem candidate_eq_ok {report : FloorReport} {plan : TradePlan} {setupId : String}
    (hplan : report.tradePlan = some plan) (h : candidate report = .ok setupId) :
    report.finalStatus = "PLAN_READY" ∧ plan.symbol = report.symbol ∧
      plan.runId = some report.runId := by
  unfold candidate at h
  rw [hplan] at h
  cases hsetup : report.setupAssessment with
  | none => simp [hsetup] at h
  | some setup =>
    simp only [hsetup] at h
    split_ifs at h with hready hpolicy hlineage
    push Not at hready hlineage
    obtain ⟨-, hsymbol, hreport, -, hrun⟩ := hlineage
    exact ⟨hready, hsymbol.symm.trans hreport, hrun⟩

/-- A call of the set that passed its own checks. -/
def Submits (calls : Call → Prop) (s : Submission) : Prop :=
  ∃ call, calls call ∧ call.submission = .ok s

/-- The callers of one candidate of a run pass the drawdown gate together. -/
def GatesAgree (calls : Call → Prop) : Prop :=
  ∀ s s', Submits calls s → Submits calls s' → s.call.runId = s'.call.runId →
    s.fields = s'.fields →
    drawdownPasses s.call.policy s.call.drawdownBasis =
      drawdownPasses s'.call.policy s'.call.drawdownBasis

/-- The submission would reserve on the loaded broker. -/
def Submission.Approves (s : Submission) (b : PaperBroker) : Prop :=
  (classify s.candidate (some b.account) b.orders).allows = true ∧
    ∃ broker order record, prepareReservation (s.request b.orders) b.portfolio =
      .approved broker order record

theorem not_approves_of_blocked {sha256 : Json → String} {s : Submission} {attempt : ℕ}
    {a : PaperAccount} {orders : Orders} {fills : Fills} {conflict : ConflictDecision}
    {record : Json} (h : s.verdict sha256 attempt (some a) orders fills = .blocked conflict record) :
    ¬ s.Approves { account := a, orders := orders, fills := fills } := by
  rintro ⟨hallows, b, o, r, hprepare⟩
  have hp : s.prepare (some a) orders fills = .approved b o r := hprepare
  simp [Submission.verdict, hallows, hp] at h

theorem not_approves_of_riskRejected {sha256 : Json → String} {s : Submission} {attempt : ℕ}
    {a : PaperAccount} {orders : Orders} {fills : Fills} {conflict : ConflictDecision}
    {reason : String} {riskRecord record : Json}
    (h : s.verdict sha256 attempt (some a) orders fills =
      .riskRejected conflict reason riskRecord record) :
    ¬ s.Approves { account := a, orders := orders, fills := fills } := by
  rintro ⟨hallows, b, o, r, hprepare⟩
  have hp : s.prepare (some a) orders fills = .approved b o r := hprepare
  simp [Submission.verdict, hallows, hp] at h

/-- Two submissions of one candidate of one run ask the risk engine the same question. -/
theorem same_of_fields {calls : Call → Prop} (hgates : GatesAgree calls) {s s' : Submission}
    (hs : Submits calls s) (hs' : Submits calls s') (hrun : s.call.runId = s'.call.runId)
    (hfields : s.fields = s'.fields) (orders orders' : Orders) :
    (s.request orders).Same (s'.request orders') ∧ s.candidate = s'.candidate := by
  have hgate := hgates s s' hs hs' hrun hfields
  obtain ⟨call, -, hcall⟩ := hs
  obtain ⟨call', -, hcall'⟩ := hs'
  obtain ⟨rfl, hcandidate, hplan, hf⟩ := submission_eq_ok hcall
  obtain ⟨rfl, hcandidate', hplan', hf'⟩ := submission_eq_ok hcall'
  obtain ⟨hready, hsymbol, hrunId⟩ := candidate_eq_ok hplan hcandidate
  obtain ⟨hready', hsymbol', hrunId'⟩ := candidate_eq_ok hplan' hcandidate'
  obtain ⟨⟨plan, hp, hside, hpolicy, hentry, hstop, htarget, hrr, hasOf⟩, hinstrument, -, hfsymbol,
    hsetup, hriskPolicy⟩ := candidateFields_eq_some hf
  obtain ⟨⟨plan', hp', hside', hpolicy', hentry', hstop', htarget', hrr', hasOf'⟩, hinstrument', -,
    hfsymbol', hsetup', hriskPolicy'⟩ := candidateFields_eq_some hf'
  obtain rfl : plan = s.plan := Option.some.inj (hp.symm.trans hplan)
  obtain rfl : plan' = s'.plan := Option.some.inj (hp'.symm.trans hplan')
  rw [← hfields] at hside' hpolicy' hentry' hstop' htarget' hrr' hasOf' hinstrument'
  rw [← hfields] at hfsymbol' hsetup' hriskPolicy'
  have hreport : s.call.report.symbol = s'.call.report.symbol := hfsymbol.symm.trans hfsymbol'
  have hplans : s.plan = s'.plan := by
    rw [TradePlan.mk.injEq]
    refine ⟨?_, hside.trans hside'.symm, hentry.trans hentry'.symm, hstop.trans hstop'.symm,
      htarget.trans htarget'.symm, hrr.trans hrr'.symm, ?_, hasOf.trans hasOf'.symm,
      hpolicy.trans hpolicy'.symm⟩
    · rw [hsymbol, hsymbol', hreport]
    · rw [hrunId, hrunId']
      exact congrArg some hrun
  have hsetups : s.setupId = s'.setupId := hsetup.symm.trans hsetup'
  have hpolicies : s.call.policy = s'.call.policy := hriskPolicy.symm.trans hriskPolicy'
  refine ⟨?_, ?_⟩
  · exact {
      plan := hplans
      instrument := hinstrument.trans hinstrument'.symm
      setupId := congrArg some hsetups
      policy := hpolicies
      drawdown := by
        change drawdownPasses s.call.policy s.call.drawdownBasis =
          drawdownPasses s.call.policy s'.call.drawdownBasis
        rw [hgate, hpolicies]
      tradePlan := hplan.trans ((congrArg some hplans).trans hplan'.symm)
      finalStatus := hready.trans hready'.symm
      runId := hrun
      symbol := hreport }
  · simp only [Submission.candidate, hreport, hplans, hsetups]

/-- Equal PAPER states are decided alike by the callers of one candidate. -/
theorem approves_of_same {calls : Call → Prop} (hgates : GatesAgree calls) {s s' : Submission}
    (hs : Submits calls s) (hs' : Submits calls s') (hrun : s.call.runId = s'.call.runId)
    (hfields : s.fields = s'.fields) {b b' : PaperBroker} (he : stateOf b = stateOf b')
    (hnone : PaperBroker.runOrder b.orders s.call.runId = none) (h : s.Approves b) :
    s'.Approves b' := by
  obtain ⟨hsame, hcandidate⟩ := same_of_fields hgates hs hs' hrun hfields b.orders b'.orders
  obtain ⟨ha, hp, -, ho, -⟩ := paperState_eq_iff.mp he
  obtain ⟨hallows, hprepare⟩ := h
  refine ⟨?_, prepareReservation_of_same hsame ha hp ho hnone hprepare⟩
  rw [← hcandidate]
  obtain ⟨hid, hposition, horders⟩ := allows_classify.mp hallows
  refine allows_classify.mpr ⟨hid, ?_, fun o hmem => horders o ((ho o).mpr hmem)⟩
  rw [← Table.get?_eq_of_mem_iff hp]
  exact hposition

/-! ## What a run of callers and other writers may show -/

section Outcome

variable (sha256 : Json → String) (accountId : String) (calls : Call → Prop)

/-- A client of the store is one call of the set. -/
def Caller (p : Submitting) : Prop :=
  ∃ call, calls call ∧ p = submitWithConflictControl sha256 call

/-- Another writer commits: a save computed from the durable state, or a transaction that
leaves the PAPER tables alone. Decisions, claims and orders of the runs of the calls are
not its business. -/
inductive OtherWriter : Database → Database → Prop
  | save {db : Database} {a b : PaperBroker} (hshows : db.Shows a)
      (hid : a.account.accountId = accountId) (hwrites : a.Writing b)
      (hjournal : ∀ call, calls call → ∀ e ∈ b.journal, Neutral call.runId (rowOf e))
      (horders : ∀ call, calls call → ∀ o ∈ b.orders, o.runId = call.runId →
        ∃ o' ∈ a.orders, o'.orderId = o.orderId) :
      OtherWriter db (db.persist b)
  | tables {db db' : Database} (haccounts : db'.paperAccounts = db.paperAccounts)
      (horders : db'.paperOrders = db.paperOrders) (hfills : db'.paperFills = db.paperFills)
      (hpositions : db'.paperPositions = db.paperPositions)
      (htrades : db'.closedTrades = db.closedTrades) (rows : List JournalRow)
      (hjournal : db'.journal = db.journal ++ rows)
      (hrows : ∀ call, calls call → ∀ row ∈ rows, Neutral call.runId row) :
      OtherWriter db db'

/-- A decision row names the order. -/
def Names (row : Json) (o : PaperOrder) : Prop :=
  decisionOf row = "RESERVED" ∧ row.get "order_id" = .str o.orderId

/-- The order or the decision belongs to the claimed candidate. -/
def Carries (print : String) (row : Json) : Prop := row.get "candidate_fingerprint" = .str print

/-- One outcome of a run, for a store that was once `start`. -/
structure OneOutcome (start db : Database) (runId : String) : Prop where
  oneOrder : ∀ o ∈ db.paperOrders, ∀ o' ∈ db.paperOrders, o.runId = runId → o'.runId = runId →
    o = o'
  oneDecision : (decisions db runId).length ≤ 1
  reserved : ∀ row ∈ decisions db runId, decisionOf row = "RESERVED" →
    ∃ o ∈ db.paperOrders, o.runId = runId ∧ Names row o
  ordered : ∀ o ∈ db.paperOrders, o.runId = runId →
    (∃ o₀ ∈ start.paperOrders, o₀.runId = runId) ∨
      ∃ row ∈ decisions db runId, Names row o ∧
        ∃ s, Submits calls s ∧ s.call.runId = runId ∧ orderMatches o s.fields = true ∧
          claimedFingerprint db runId = some (fingerprint sha256 s.fields)
  exclusive : ∀ row ∈ decisions db runId, decisionOf row ≠ "RESERVED" →
    ∀ o ∈ db.paperOrders, o.runId ≠ runId
  candidate : ∀ row ∈ decisions db runId, ∃ print, claimedFingerprint db runId = some print ∧
    Carries print row

/-! ## The invariant of a run -/

/-- The state of a claimed run: undecided, refused or reserved. -/
inductive Decided (db : Database) (runId print : String) : Prop
  | undecided (hrows : decisions db runId = []) (horders : ∀ o ∈ db.paperOrders, o.runId ≠ runId)
  | refused (row : Json) (hrows : decisions db runId = [row]) (hnot : decisionOf row ≠ "RESERVED")
      (hcarries : Carries print row) (horders : ∀ o ∈ db.paperOrders, o.runId ≠ runId)
  | reserved (row : Json) (order : PaperOrder) (hrows : decisions db runId = [row])
      (hnames : Names row order) (hcarries : Carries print row) (hmem : order ∈ db.paperOrders)
      (hrun : order.runId = runId) (hone : ∀ o ∈ db.paperOrders, o.runId = runId → o = order)
      (s : Submission) (hs : Submits calls s) (hsrun : s.call.runId = runId)
      (hprint : fingerprint sha256 s.fields = print) (hmatches : orderMatches order s.fields = true)

/-- A run without a claim is as it was at the start. -/
structure Unclaimed (start db : Database) (runId : String) : Prop where
  rows : decisions db runId = []
  one : ∀ o ∈ db.paperOrders, ∀ o' ∈ db.paperOrders, o.runId = runId → o'.runId = runId → o = o'
  old : ∀ o ∈ db.paperOrders, o.runId = runId → ∃ o₀ ∈ start.paperOrders, o₀.runId = runId

structure RunInv (start db : Database) (runId : String) : Prop where
  unclaimed : claimedFingerprint db runId = none → Unclaimed start db runId
  claimed : ∀ print, claimedFingerprint db runId = some print →
    Decided sha256 calls db runId print

variable {sha256 accountId calls}

theorem RunInv.oneOutcome {start db : Database} {runId : String}
    (h : RunInv sha256 calls start db runId) : OneOutcome sha256 calls start db runId := by
  cases hclaim : claimedFingerprint db runId with
  | none =>
    obtain ⟨hrows, hone, hold⟩ := h.unclaimed hclaim
    exact {
      oneOrder := hone
      oneDecision := by simp [hrows]
      reserved := by simp [hrows]
      ordered := fun o ho hrun => .inl (hold o ho hrun)
      exclusive := by simp [hrows]
      candidate := by simp [hrows] }
  | some print =>
    cases h.claimed print hclaim with
    | undecided hrows horders =>
      exact {
        oneOrder := fun o ho _ _ hrun _ => absurd hrun (horders o ho)
        oneDecision := by simp [hrows]
        reserved := by simp [hrows]
        ordered := fun o ho hrun => absurd hrun (horders o ho)
        exclusive := by simp [hrows]
        candidate := by simp [hrows] }
    | refused row hrows hnot hcarries horders =>
      exact {
        oneOrder := fun o ho _ _ hrun _ => absurd hrun (horders o ho)
        oneDecision := by simp [hrows]
        reserved := by simp [hrows, hnot]
        ordered := fun o ho hrun => absurd hrun (horders o ho)
        exclusive := fun _ _ _ => horders
        candidate := by simpa [hrows] using ⟨print, hclaim, hcarries⟩ }
    | reserved row order hrows hnames hcarries hmem hrun hone s hs hsrun hprint hmatches =>
      refine {
        oneOrder := fun o ho o' ho' hr hr' => (hone o ho hr).trans (hone o' ho' hr').symm
        oneDecision := by simp [hrows]
        reserved := by simpa [hrows] using fun _ => ⟨order, hmem, hrun, hnames⟩
        ordered := ?_
        exclusive := by simp [hrows, hnames.1]
        candidate := by simpa [hrows] using ⟨print, hclaim, hcarries⟩ }
      intro o ho hr
      obtain rfl := hone o ho hr
      exact .inr ⟨row, by simp [hrows], hnames, s, hs, hsrun, hmatches, by rw [hclaim, hprint]⟩

/-- The orders of a run are the same up to their status. -/
structure SameOrders (db db' : Database) (runId : String) : Prop where
  kept : ∀ o ∈ db.paperOrders, ∃ o' ∈ db'.paperOrders, o' = { o with status := o'.status }
  none_new : ∀ o' ∈ db'.paperOrders, o'.runId = runId →
    ∃ o ∈ db.paperOrders, o' = { o with status := o'.status }

/-- What is said about a run survives every change of the status of its order. -/
theorem RunInv.congr {start db db' : Database} {runId : String}
    (h : RunInv sha256 calls start db runId) (hsame : SameOrders db db' runId)
    (hrows : decisions db' runId = decisions db runId)
    (hclaim : claimedFingerprint db' runId = claimedFingerprint db runId) :
    RunInv sha256 calls start db' runId := by
  have hnone : (∀ o ∈ db.paperOrders, o.runId ≠ runId) → ∀ o ∈ db'.paperOrders, o.runId ≠ runId := by
    intro hno o' ho' hrun
    obtain ⟨o, ho, he⟩ := hsame.none_new o' ho' hrun
    rw [he] at hrun
    exact hno o ho hrun
  refine ⟨fun hunclaimed => ?_, fun print hprint => ?_⟩
  · obtain ⟨hempty, hone, hold⟩ := h.unclaimed (hclaim ▸ hunclaimed)
    refine ⟨hrows.trans hempty, ?_, ?_⟩
    · intro a ha b hb hra hrb
      obtain ⟨a₀, ha₀, hea⟩ := hsame.none_new a ha hra
      obtain ⟨b₀, hb₀, heb⟩ := hsame.none_new b hb hrb
      have hra₀ : a₀.runId = runId := by rw [hea] at hra; exact hra
      have hrb₀ : b₀.runId = runId := by rw [heb] at hrb; exact hrb
      obtain rfl := hone a₀ ha₀ b₀ hb₀ hra₀ hrb₀
      exact Table.eq_of_key ha hb (by rw [hea, heb])
    · intro a ha hra
      obtain ⟨a₀, ha₀, hea⟩ := hsame.none_new a ha hra
      have hra₀ : a₀.runId = runId := by rw [hea] at hra; exact hra
      exact hold a₀ ha₀ hra₀
  · cases h.claimed print (hclaim ▸ hprint) with
    | undecided hempty horders => exact .undecided (hrows.trans hempty) (hnone horders)
    | refused row hone hnot hcarries horders =>
      exact .refused row (hrows.trans hone) hnot hcarries (hnone horders)
    | reserved row order honly hnames hcarries hmem hrun hone s hs hsrun hfp hmatches =>
      obtain ⟨order', hmem', he⟩ := hsame.kept order hmem
      refine .reserved row order' (hrows.trans honly) ?_ hcarries hmem' ?_ ?_ s hs hsrun hfp ?_
      · rw [he]
        exact hnames
      · rw [he]
        exact hrun
      · intro o ho hr
        obtain ⟨o₀, ho₀, he₀⟩ := hsame.none_new o ho hr
        have hr₀ : o₀.runId = runId := by rw [he₀] at hr; exact hr
        obtain rfl := hone o₀ ho₀ hr₀
        exact Table.eq_of_key ho hmem' (by rw [he₀, he])
      · rw [he]
        exact hmatches

/-! ## The discipline of the store -/

/-- The durable broker of the account. -/
structure Durable (accountId : String) (db : Database) (b : PaperBroker) : Prop where
  shows_ : db.Shows b
  sound : b.Sound
  accountId : b.account.accountId = accountId

/-- The durable broker is unique up to the order of rows. -/
theorem Durable.stateOf_eq {db : Database} {a b : PaperBroker} (ha : Durable accountId db a)
    (hb : Durable accountId db b) : stateOf a = stateOf b :=
  ha.shows_.stateOf_eq hb.shows_ (ha.accountId.trans hb.accountId.symm)

theorem Durable.later {db : Database} {a b : PaperBroker} (ha : Durable accountId db a)
    (hb : Durable accountId db b) : a.Later b :=
  later_of_stateOf (PaperBroker.Later.refl a) (ha.stateOf_eq hb)

variable (sha256 accountId calls) in
/-- A caller of the claimed candidate refused on a state between `a` and `b`, or has no
account to decide on. -/
def RefusedBetween (runId print : String) (a b : PaperBroker) : Prop :=
  ∃ s, Submits calls s ∧ s.call.runId = runId ∧ fingerprint sha256 s.fields = print ∧
    (s.call.accountId ≠ accountId ∨
      ∃ m : PaperBroker, m.Sound ∧ a.Later m ∧ m.Later b ∧ ¬ s.Approves m)

theorem RefusedBetween.widen {runId print : String} {a a' b b' : PaperBroker}
    (h : RefusedBetween sha256 accountId calls runId print a b) (ha : a'.Later a)
    (hb : b.Later b') : RefusedBetween sha256 accountId calls runId print a' b' := by
  obtain ⟨s, hs, hrun, hprint, hwhy⟩ := h
  refine ⟨s, hs, hrun, hprint, hwhy.imp id ?_⟩
  rintro ⟨m, hm, ham, hmb, hnot⟩
  exact ⟨m, hm, ha.trans ham, hmb.trans hb, hnot⟩

variable (sha256 accountId calls) in
/-- Every refusal of the run up to `db` that `known` does not list was made after `a`. -/
def Explained (runId : String) (known : List Json) (db : Database) (a b : PaperBroker) : Prop :=
  ∀ row ∈ decisions db runId, row ∉ known → decisionOf row ≠ "RESERVED" →
    ∃ print, claimedFingerprint db runId = some print ∧
      RefusedBetween sha256 accountId calls runId print a b

variable (sha256 accountId calls) in
/-- How the store may change: claims stay, the account moves forward, and refusals are
explained by the states in between. -/
structure Evolves (db db' : Database) : Prop where
  claims : ∀ runId print, claimedFingerprint db runId = some print →
    claimedFingerprint db' runId = some print
  later : ∀ a, Durable accountId db a → ∃ b, Durable accountId db' b ∧ a.Later b ∧
    ∀ call, calls call →
      Explained sha256 accountId calls call.runId (decisions db call.runId) db' a b

theorem Evolves.refl (db : Database) : Evolves sha256 accountId calls db db where
  claims := fun _ _ h => h
  later := fun a ha => ⟨a, ha, PaperBroker.Later.refl a, fun _ _ _ hrow hnew => absurd hrow hnew⟩

/-- Explanations add up along the way. -/
theorem Explained.extend {runId : String} {known : List Json} {db db' : Database}
    {a b c : PaperBroker}
    (hclaims : ∀ print, claimedFingerprint db runId = some print →
      claimedFingerprint db' runId = some print)
    (h : Explained sha256 accountId calls runId known db a b)
    (h' : Explained sha256 accountId calls runId (decisions db runId) db' b c)
    (hab : a.Later b) (hbc : b.Later c) :
    Explained sha256 accountId calls runId known db' a c := by
  intro row hrow hnew hnot
  by_cases hold : row ∈ decisions db runId
  · obtain ⟨print, hprint, hrefused⟩ := h row hold hnew hnot
    exact ⟨print, hclaims print hprint, hrefused.widen (PaperBroker.Later.refl a) hbc⟩
  · obtain ⟨print, hprint, hrefused⟩ := h' row hrow hold hnot
    exact ⟨print, hprint, hrefused.widen hab (PaperBroker.Later.refl c)⟩

theorem Evolves.trans {db db' db'' : Database} (h : Evolves sha256 accountId calls db db')
    (h' : Evolves sha256 accountId calls db' db'') : Evolves sha256 accountId calls db db'' where
  claims := fun runId print hp => h'.claims runId print (h.claims runId print hp)
  later := by
    intro a ha
    obtain ⟨b, hb, hab, hexplained⟩ := h.later a ha
    obtain ⟨c, hc, hbc, hexplained'⟩ := h'.later b hb
    refine ⟨c, hc, hab.trans hbc, fun call hcall => ?_⟩
    exact (hexplained call hcall).extend (h'.claims call.runId) (hexplained' call hcall) hab hbc

variable (sha256 accountId calls) in
structure Inv (start db : Database) : Prop where
  durable : ∃ b, Durable accountId db b
  others : ∀ id, id ≠ accountId → db.paperAccounts.get? id = none
  run : ∀ call, calls call → RunInv sha256 calls start db call.runId

variable (sha256 accountId calls) in
/-- The discipline of the store: everybody keeps the invariant and lets it evolve. -/
def discipline (start : Database) : Discipline Database where
  inv := Inv sha256 accountId calls start
  rely := Evolves sha256 accountId calls
  guar := Evolves sha256 accountId calls
  rely_refl := Evolves.refl
  rely_trans := Evolves.trans
  guar_refl := Evolves.refl

/-- A change that moves the account from one durable broker to another and leaves the
decisions and claims of the runs alone is an evolution. -/
theorem Evolves.of_durable {db db' : Database} {a b : PaperBroker} (ha : Durable accountId db a)
    (hb : Durable accountId db' b) (hab : a.Later b)
    (hclaims : ∀ runId print, claimedFingerprint db runId = some print →
      claimedFingerprint db' runId = some print)
    (hexplained : ∀ call, calls call →
      Explained sha256 accountId calls call.runId (decisions db call.runId) db' a b) :
    Evolves sha256 accountId calls db db' where
  claims := hclaims
  later := by
    intro a' ha'
    have hlater : a'.Later a := ha'.later ha
    refine ⟨b, hb, hlater.trans hab, fun call hcall row hrow hnew hnot => ?_⟩
    obtain ⟨print, hprint, hrefused⟩ := hexplained call hcall row hrow hnew hnot
    exact ⟨print, hprint, hrefused.widen hlater (PaperBroker.Later.refl b)⟩

theorem claims_of_append {db db' : Database} {rows : List JournalRow}
    (hjournal : db'.journal = db.journal ++ rows) (runId print : String)
    (h : claimedFingerprint db runId = some print) :
    claimedFingerprint db' runId = some print :=
  claimedFingerprint_of_prefix ⟨rows, hjournal.symm⟩ h

theorem explained_of_neutral {db db' : Database} {rows : List JournalRow} {runId : String}
    (hjournal : db'.journal = db.journal ++ rows) (hrows : ∀ row ∈ rows, Neutral runId row)
    (a b : PaperBroker) :
    Explained sha256 accountId calls runId (decisions db runId) db' a b := by
  intro row hrow hnew
  rw [(neutral_append hjournal hrows).1] at hrow
  exact absurd hrow hnew

/-- What a save writes over the durable broker is durable. -/
theorem Durable.persist {db : Database} {a b : PaperBroker} (ha : Durable accountId db a)
    (hlater : a.Later b) (hb : b.Sound) : Durable accountId (db.persist b) b where
  shows_ := ha.shows_.persist hlater hb
  sound := hb
  accountId := hlater.accountId.trans ha.accountId

theorem persist_others {db : Database} {b : PaperBroker} (hid : b.account.accountId = accountId)
    (h : ∀ id, id ≠ accountId → db.paperAccounts.get? id = none) (id : String)
    (hne : id ≠ accountId) : (db.persist b).paperAccounts.get? id = none := by
  have hkey : (encodeAccount b.account).accountId ≠ id := fun he => hne (he.symm.trans hid)
  rw [(persist_fields db b).1, Table.get?_put_of_ne hkey]
  exact h id hne

/-- A save that adds no order of the run keeps the orders of the run. -/
theorem sameOrders_persist {db : Database} {a b : PaperBroker} {runId : String}
    (ha : Durable accountId db a) (hb : Durable accountId (db.persist b) b) (hlater : a.Later b)
    (horders : ∀ o ∈ b.orders, o.runId = runId → ∃ o' ∈ a.orders, o'.orderId = o.orderId) :
    SameOrders db (db.persist b) runId where
  kept := by
    intro o ho
    obtain ⟨o', ho', he, -⟩ := hlater.orders o ((ha.shows_.orders o).mp ho)
    exact ⟨o', (hb.shows_.orders o').mpr ho', he⟩
  none_new := by
    intro o' ho' hrun
    have hmem := (hb.shows_.orders o').mp ho'
    obtain ⟨o, ho, hid⟩ := horders o' hmem hrun
    obtain ⟨o'', ho'', he, -⟩ := hlater.orders o ho
    have hkey : o''.orderId = o'.orderId := by rw [he]; exact hid
    obtain rfl : o'' = o' := Table.eq_of_key ho'' hmem hkey
    exact ⟨o, (ha.shows_.orders o).mpr ho, he⟩

theorem sameOrders_of_eq {db db' : Database} {runId : String}
    (h : db'.paperOrders = db.paperOrders) : SameOrders db db' runId where
  kept := fun o ho => ⟨o, h ▸ ho, rfl⟩
  none_new := fun o ho _ => ⟨o, h ▸ ho, rfl⟩

/-- Other writers keep the invariant and let the store evolve. -/
theorem otherWriter_step {start db db' : Database} (hinv : Inv sha256 accountId calls start db)
    (h : OtherWriter accountId calls db db') :
    Inv sha256 accountId calls start db' ∧ Evolves sha256 accountId calls db db' := by
  cases h with
  | @save a b hshows hid hwrites hjournal horders =>
    obtain ⟨l, hl⟩ := hinv.durable
    have hsound : a.Sound := sound_of_stateOf hl.sound
      (hl.shows_.stateOf_eq hshows (hl.accountId.trans hid.symm))
    have ha : Durable accountId db a := ⟨hshows, hsound, hid⟩
    obtain ⟨hb, hlater⟩ := hwrites.sound_later hsound
    have hdurable := ha.persist hlater hb
    have hrows := persist_journal db b
    have hneutral : ∀ call, calls call → ∀ row ∈ b.journal.map rowOf, Neutral call.runId row := by
      intro call hcall row hrow
      obtain ⟨e, he, rfl⟩ := List.mem_map.mp hrow
      exact hjournal call hcall e he
    refine ⟨⟨⟨b, hdurable⟩, persist_others hdurable.accountId hinv.others, ?_⟩, ?_⟩
    · intro call hcall
      obtain ⟨hsame, hclaim⟩ := neutral_append hrows (hneutral call hcall)
      exact (hinv.run call hcall).congr
        (sameOrders_persist ha hdurable hlater (horders call hcall)) hsame hclaim
    · exact .of_durable ha hdurable hlater (claims_of_append hrows)
        (fun call hcall => explained_of_neutral hrows (hneutral call hcall) a b)
  | tables haccounts horders hfills hpositions htrades rows hjournal hrows =>
    obtain ⟨l, hl⟩ := hinv.durable
    have hdurable : Durable accountId db' l :=
      ⟨hl.shows_.congr haccounts horders hfills hpositions htrades, hl.sound, hl.accountId⟩
    refine ⟨⟨⟨l, hdurable⟩, by rw [haccounts]; exact hinv.others, ?_⟩, ?_⟩
    · intro call hcall
      obtain ⟨hsame, hclaim⟩ := neutral_append hjournal (hrows call hcall)
      exact (hinv.run call hcall).congr (sameOrders_of_eq horders) hsame hclaim
    · exact .of_durable hl hdurable (PaperBroker.Later.refl l) (claims_of_append hjournal)
        (fun call hcall => explained_of_neutral hjournal (hrows call hcall) l l)

/-! ## What one transaction of a call does -/

theorem loadPaper_orders {db : Database} {id : String} {account : Option PaperAccount}
    {orders : Orders} {fills : Fills} (h : db.loadPaper id = .ok (account, orders, fills)) :
    orders = db.paperOrders := by
  unfold loadPaper at h
  cases hrow : db.paperAccounts.get? id with
  | none =>
    simp only [hrow, Except.ok.injEq, Prod.mk.injEq] at h
    exact h.2.1.symm
  | some row =>
    simp only [hrow] at h
    split at h
    · cases h
    · simp only [Except.ok.injEq, Prod.mk.injEq] at h
      exact h.2.1.symm

theorem priorDecision_isSome {db : Database} {runId : String} :
    (priorDecision db runId).isSome = false ↔ decisions db runId = [] := by
  simp [priorDecision]

theorem runOrder_isSome {orders : Orders} {runId : String} :
    (PaperBroker.runOrder orders runId).isSome = false ↔ ∀ o ∈ orders, o.runId ≠ runId := by
  rw [Option.isSome_eq_false_iff, Option.isNone_iff_eq_none, runOrder_eq_none]

theorem hasHistory_false {db : Database} {id runId : String}
    (h : hasHistory id runId db = .ok false) :
    decisions db runId = [] ∧ ∀ o ∈ db.paperOrders, o.runId ≠ runId := by
  unfold hasHistory at h
  cases hload : db.loadPaper id with
  | error e => simp [hload] at h
  | ok loaded =>
    obtain ⟨account, orders, fills⟩ := loaded
    simp only [hload, Except.ok.injEq, Bool.or_eq_false_iff] at h
    obtain rfl := loadPaper_orders hload
    exact ⟨priorDecision_isSome.mp h.2, runOrder_isSome.mp h.1⟩

/-- A claim of a run without history starts it undecided. -/
theorem claim_step {start db db' : Database} {s : Submission} {claim : Claim}
    (hinv : Inv sha256 accountId calls start db)
    (h : claimRun sha256 s.call.runId s.call.report.symbol s.fields s.call.asOf
      (hasHistory s.call.accountId s.call.runId) s.call.ownerKey db = .ok (claim, db')) :
    Inv sha256 accountId calls start db' ∧ Evolves sha256 accountId calls db db' ∧
      (claim = .claimed ∨ claim = .same →
        claimedFingerprint db' s.call.runId = some (fingerprint sha256 s.fields)) := by
  rcases claimRun_ok h with ⟨rfl, hsame, hne⟩ | ⟨rfl, hnone, hhistory, rfl⟩
  · exact ⟨hinv, Evolves.refl _, fun hc => hsame (hc.resolve_left hne)⟩
  · obtain ⟨hempty, horders⟩ := hasHistory_false hhistory
    generalize hdb : db.event _ _ _ _ _ _ _ = db'
    have hjournal : db'.journal = db.journal ++ [⟨some s.call.asOf, some s.call.runId,
        some s.call.report.symbol, "conflict_engine", claimEvent, "INFO",
        claimPayload sha256 s.fields⟩] := by rw [← hdb]; rfl
    have hclaim : claimedFingerprint db' s.call.runId = some (fingerprint sha256 s.fields) := by
      unfold claimedFingerprint at hnone ⊢
      rw [hjournal, List.find?_append, Option.map_eq_none_iff.mp hnone]
      simp [claimPayload]
    have hdecisions : ∀ runId, decisions db' runId = decisions db runId := by
      refine fun runId => decisions_append hjournal (fun row hrow _ => ?_)
      rw [List.mem_singleton.mp hrow]
      simp [claimEvent, decisionEvent]
    obtain ⟨l, hl⟩ := hinv.durable
    have hdurable : Durable accountId db' l := by
      rw [← hdb]
      exact ⟨hl.shows_.congr rfl rfl rfl rfl rfl, hl.sound, hl.accountId⟩
    have hpaper : db'.paperOrders = db.paperOrders := by rw [← hdb]; rfl
    refine ⟨⟨⟨l, hdurable⟩, ?_, ?_⟩, ?_, fun _ => hclaim⟩
    · rw [← hdb]
      exact hinv.others
    · intro call hcall
      by_cases hrun : call.runId = s.call.runId
      · rw [hrun]
        refine ⟨fun hunclaimed => by simp [hclaim] at hunclaimed, fun print hprint => ?_⟩
        exact .undecided ((hdecisions _).trans hempty) (by rw [hpaper]; exact horders)
      · refine (hinv.run call hcall).congr (sameOrders_of_eq hpaper) (hdecisions _) ?_
        refine claimedFingerprint_append hjournal (fun row hrow he => ?_)
        obtain rfl := List.mem_singleton.mp hrow
        exact absurd (Option.some.inj he).symm hrun
    · refine .of_durable hl hdurable (PaperBroker.Later.refl l) (claims_of_append hjournal) ?_
      intro call _ row hrow hnew
      rw [hdecisions] at hrow
      exact absurd hrow hnew

theorem commitDecisionRows_ok {s : Submission} {print : String} {expected : PaperState}
    {rows : List DecisionRow} {db db' : Database} {outcome : CommitOutcome}
    (h : commitDecisionRows s print expected rows db = .ok (outcome, db')) :
    db' = db ∨
    (claimedFingerprint db s.call.runId = some print ∧ decisions db s.call.runId = [] ∧
      (∀ o ∈ db.paperOrders, o.runId ≠ s.call.runId) ∧
      (∃ account orders fills, db.loadPaper s.call.accountId = .ok (account, orders, fills) ∧
        paperState account orders fills = expected) ∧
      db' = appendRows db s.call.asOf s.call.runId s.call.report.symbol rows) := by
  unfold commitDecisionRows at h
  dsimp only at h
  split_ifs at h with howner hclaim
  · exact .inl (congrArg Prod.snd (Except.ok.inj h)).symm
  · cases hload : db.loadPaper s.call.accountId with
    | error e => simp [hload] at h
    | ok loaded =>
      obtain ⟨account, orders, fills⟩ := loaded
      simp only [hload] at h
      split_ifs at h with hdecided hstate
      · exact .inl (congrArg Prod.snd (Except.ok.inj h)).symm
      · exact .inl (congrArg Prod.snd (Except.ok.inj h)).symm
      · push Not at hclaim hstate
        simp only [not_or, Bool.not_eq_true] at hdecided
        obtain rfl := loadPaper_orders hload
        exact .inr ⟨hclaim, priorDecision_isSome.mp hdecided.1,
          runOrder_isSome.mp hdecided.2, ⟨account, _, fills, rfl, hstate⟩,
          (congrArg Prod.snd (Except.ok.inj h)).symm⟩

/-! ## Decision records -/

/-- What a decision row says, whatever risk summary it carries. -/
theorem decisionRecord_get (s : Submission) (attempt : ℕ) (conflict : ConflictDecision)
    {risk : List (String × Json)} (hrisk : risk = [] ∨ ∃ record policy, risk = riskSummary record policy)
    (decision executionStatus : String) (orderId : Option String) :
    let record := s.decisionRecord sha256 attempt conflict risk decision executionStatus orderId
    decisionOf record = decision ∧ Carries (fingerprint sha256 s.fields) record ∧
      record.get "order_id" = .ofOption orderId := by
  intro record
  refine ⟨?_, ?_, ?_⟩
  · simp [record, Submission.decisionRecord, Submission.baseRecord, Json.merge, decisionOf]
  · rcases hrisk with rfl | ⟨r, policy, rfl⟩ <;>
      simp [record, Submission.decisionRecord, Submission.baseRecord, Json.merge, Carries,
        riskSummary]
  · simp [record, Submission.decisionRecord, Submission.baseRecord, Json.merge]

/-- The rows a refusal journals: exactly one of them decides the run. -/
structure Refusal (s : Submission) (print : String) (rows : List DecisionRow) : Prop where
  decides : ∃ record, decisiveRows (rows.map (fun row =>
      ⟨some s.call.asOf, some s.call.runId, some s.call.report.symbol, row.1, row.2.1, "INFO",
        row.2.2⟩)) s.call.runId = [record] ∧ decisionOf record ≠ "RESERVED" ∧ Carries print record
  noClaim : ∀ row ∈ rows, row.2.1 ≠ claimEvent

/-- A refusal keeps the invariant and is explained by the state it was made on. -/
theorem refusal_step {start db db' : Database} {s : Submission} (hs : Submits calls s)
    {expected : PaperState} {rows : List DecisionRow}
    (hrefusal : Refusal s (fingerprint sha256 s.fields) rows)
    (hwhy : s.call.accountId ≠ accountId ∨ ∃ b : PaperBroker, expected = stateOf b ∧ ¬ s.Approves b)
    (hinv : Inv sha256 accountId calls start db) {outcome : CommitOutcome}
    (h : commitDecisionRows s (fingerprint sha256 s.fields) expected rows db = .ok (outcome, db')) :
    Inv sha256 accountId calls start db' ∧ Evolves sha256 accountId calls db db' := by
  rcases commitDecisionRows_ok h with rfl | ⟨hclaim, hempty, horders, ⟨account, orders, fills,
    hload, hstate⟩, rfl⟩
  · exact ⟨hinv, Evolves.refl _⟩
  · have hjournal := appendRows_journal db s.call.asOf s.call.runId s.call.report.symbol rows
    obtain ⟨journal, hrest⟩ := appendRows_eq db s.call.asOf s.call.runId s.call.report.symbol rows
    generalize appendRows db s.call.asOf s.call.runId s.call.report.symbol rows = db' at *
    obtain ⟨record, hdecides, hnot, hcarries⟩ := hrefusal.decides
    obtain ⟨l, hl⟩ := hinv.durable
    have hdurable : Durable accountId db' l := by
      rw [hrest]
      exact ⟨hl.shows_.congr rfl rfl rfl rfl rfl, hl.sound, hl.accountId⟩
    have hpaper : db'.paperOrders = db.paperOrders := by rw [hrest]
    have hdecisions : decisions db' s.call.runId = [record] := by
      unfold decisions at hempty ⊢
      rw [hjournal, decisiveRows_append, hempty, hdecides, List.nil_append]
    have hclaims : ∀ runId, claimedFingerprint db' runId = claimedFingerprint db runId := by
      refine fun runId => claimedFingerprint_append hjournal (fun row hrow _ => ?_)
      obtain ⟨r, hr, rfl⟩ := List.mem_map.mp hrow
      exact hrefusal.noClaim r hr
    have hothers : ∀ runId, runId ≠ s.call.runId → decisions db' runId = decisions db runId := by
      refine fun runId hne => decisions_append hjournal (fun row hrow he => ?_)
      obtain ⟨r, -, rfl⟩ := List.mem_map.mp hrow
      exact absurd (Option.some.inj he).symm hne
    have hrefused : RefusedBetween sha256 accountId calls s.call.runId
        (fingerprint sha256 s.fields) l l := by
      refine ⟨s, hs, rfl, rfl, ?_⟩
      by_cases hid : s.call.accountId = accountId
      · refine .inr ?_
        obtain ⟨b, hb, happroves⟩ := hwhy.resolve_left (not_not_intro hid)
        obtain ⟨a, o, f, hload', hstate'⟩ := hl.shows_.loadPaper
        rw [hl.accountId, ← hid, hload] at hload'
        obtain ⟨rfl, rfl, rfl⟩ : account = some a ∧ orders = o ∧ fills = f := by
          simpa using hload'
        have he : stateOf l = stateOf b := hstate'.symm.trans (hstate.trans hb)
        refine ⟨b, sound_of_stateOf hl.sound he, later_of_stateOf (PaperBroker.Later.refl l) he,
          later_of_stateOf (PaperBroker.Later.refl b) he.symm, happroves⟩
      · exact .inl hid
    refine ⟨⟨⟨l, hdurable⟩, by rw [hrest]; exact hinv.others, ?_⟩, ?_⟩
    · intro call hmem
      by_cases hrun : call.runId = s.call.runId
      · rw [hrun]
        refine ⟨fun hunclaimed => by simp [hclaims, hclaim] at hunclaimed, fun print hprint => ?_⟩
        rw [hclaims, hclaim] at hprint
        obtain rfl := Option.some.inj hprint
        exact .refused record hdecisions hnot hcarries (by rw [hpaper]; exact horders)
      · exact (hinv.run call hmem).congr (sameOrders_of_eq hpaper) (hothers _ hrun) (hclaims _)
    · refine .of_durable hl hdurable (PaperBroker.Later.refl l)
        (fun runId print hp => (hclaims runId).trans hp) (fun call _ row hrow hnew _ => ?_)
      by_cases hrun : call.runId = s.call.runId
      · rw [hrun, hclaims]
        exact ⟨_, hclaim, hrefused⟩
      · rw [hothers _ hrun] at hrow
        exact absurd hrow hnew

/-! ## Reservations -/

/-- A verdict to reserve was approved on an account that exists. -/
theorem verdict_reserved {s : Submission} {attempt : ℕ} {account : Option PaperAccount}
    {orders : Orders} {fills : Fills} {conflict : ConflictDecision} {broker : PaperBroker}
    {order : PaperOrder} {record : Json}
    (h : s.verdict sha256 attempt account orders fills = .reserved conflict broker order record) :
    ∃ a b r, account = some a ∧ (classify s.candidate (some a) orders).allows = true ∧
      prepareReservation (s.request orders) ⟨a, orders, fills⟩ = .approved b order r ∧
      broker = b.event (some s.call.asOf) s.call.runId s.call.report.symbol order.orderId
        decisionEvent record ∧
      Names record order ∧ Carries (fingerprint sha256 s.fields) record := by
  unfold Submission.verdict at h
  dsimp only at h
  split_ifs at h with hallows
  cases account with
  | none => simp [Submission.prepare] at h
  | some a =>
    have hp : s.prepare (some a) orders fills =
      prepareReservation (s.request orders) ⟨a, orders, fills⟩ := rfl
    cases hprepare : prepareReservation (s.request orders) ⟨a, orders, fills⟩ with
    | rejected reason r jr => simp [hp, hprepare] at h
    | approved b o r =>
      simp only [hp, hprepare, Verdict.reserved.injEq] at h
      obtain ⟨-, rfl, rfl, rfl⟩ := h
      obtain ⟨hdecision, hcarries, hid⟩ := @decisionRecord_get sha256 s attempt
        (classify s.candidate (some a) orders) _ (.inr ⟨r, s.call.policy, rfl⟩) "RESERVED"
        "SUBMITTED" (some o.orderId)
      exact ⟨a, b, r, rfl, by simpa using hallows, hprepare, rfl, ⟨hdecision, hid⟩, hcarries⟩

/-- The events of an approved preparation: the submission and the risk decision. -/
theorem prepareReservation_journal {request : Request} {p : Portfolio} {b : PaperBroker}
    {order : PaperOrder} {record : RiskRecord}
    (h : prepareReservation request p = .approved b order record) :
    ∀ e ∈ b.journal, e.eventType = "ORDER_SUBMITTED" ∨ e.eventType = "RISK_V2_DECISION" := by
  unfold prepareReservation at h
  dsimp only at h
  split_ifs at h
  generalize hsub : PaperBroker.submitPlan _ _ _ _ = submitted at h
  obtain ⟨b', order'⟩ := submitted
  cases order' with
  | none => cases h
  | some built =>
    simp only [Prepared.approved.injEq] at h
    obtain ⟨rfl, -, -⟩ := h
    have hsubmitted : ∀ e ∈ b'.journal, e.eventType = "ORDER_SUBMITTED" := by
      unfold PaperBroker.submitPlan at hsub
      split at hsub
      · cases hsub
      · split at hsub
        · obtain ⟨rfl, -⟩ := Prod.mk.injEq .. ▸ hsub
          simp [Portfolio.broker]
        · split at hsub
          · cases hsub
          · obtain ⟨rfl, -⟩ := Prod.mk.injEq .. ▸ hsub
            simp [Portfolio.broker, PaperBroker.event]
    intro e he
    rcases List.mem_append.mp he with he | he
    · exact .inl (hsubmitted e he)
    · exact .inr (by rw [List.mem_singleton.mp he])

variable (sha256 calls) in
/-- No two candidates of the calls have one fingerprint. -/
def CollisionFree : Prop :=
  ∀ s s', Submits calls s → Submits calls s' →
    fingerprint sha256 s.fields = fingerprint sha256 s'.fields → s.fields.asJson = s'.fields.asJson

variable (sha256 accountId calls) in
/-- What a caller knows between its reads and its save: the claim is its own, and since
the loaded state nobody has refused the run except on a state in between. -/
structure Ready (s : Submission) (loaded : PaperBroker) (db : Database) : Prop where
  claimed : claimedFingerprint db s.call.runId = some (fingerprint sha256 s.fields)
  later : ∃ l, Durable accountId db l ∧ loaded.Later l ∧
    Explained sha256 accountId calls s.call.runId [] db loaded l

theorem Ready.stable {s : Submission} {loaded : PaperBroker} {db db' : Database}
    (hcall : calls s.call) (h : Ready sha256 accountId calls s loaded db)
    (hev : Evolves sha256 accountId calls db db') : Ready sha256 accountId calls s loaded db' where
  claimed := hev.claims _ _ h.claimed
  later := by
    obtain ⟨l, hl, hlater, hexplained⟩ := h.later
    obtain ⟨l', hl', hlater', hexplained'⟩ := hev.later l hl
    exact ⟨l', hl', hlater.trans hlater', hexplained.extend (hev.claims s.call.runId)
      (hexplained' s.call hcall) hlater hlater'⟩

/-- A run whose caller may still save its approval has not been refused: the refusal would
have been made on the very state that the caller approved. -/
theorem not_refused {s : Submission} (hs : Submits calls s) (hgates : GatesAgree calls)
    (hsha : CollisionFree sha256 calls) {loaded : PaperBroker} {db : Database}
    (hready : Ready sha256 accountId calls s loaded db)
    (hid : s.call.accountId = accountId) {l : PaperBroker} (hl : Durable accountId db l)
    (he : stateOf l = stateOf loaded)
    (hnone : PaperBroker.runOrder loaded.orders s.call.runId = none) (happroves : s.Approves loaded)
    {row : Json} (hrow : row ∈ decisions db s.call.runId) : decisionOf row = "RESERVED" := by
  by_contra hnot
  obtain ⟨l', hl', hlater, hexplained⟩ := hready.later
  obtain ⟨print, hprint, s', hs', hrun, hfp, hwhy⟩ := hexplained row hrow (by simp) hnot
  rw [hready.claimed] at hprint
  obtain rfl := Option.some.inj hprint
  have hfields : s.fields = s'.fields :=
    CandidateFields.asJson_injective (hsha s s' hs hs' hfp.symm)
  rcases hwhy with hother | ⟨m, hm, hsm, hml, hrefuses⟩
  · obtain ⟨call, -, hcall⟩ := hs
    obtain ⟨call', -, hcall'⟩ := hs'
    obtain ⟨rfl, -, -, hf⟩ := submission_eq_ok hcall
    obtain ⟨rfl, -, -, hf'⟩ := submission_eq_ok hcall'
    obtain ⟨-, -, hacc, -⟩ := candidateFields_eq_some hf
    obtain ⟨-, -, hacc', -⟩ := candidateFields_eq_some hf'
    exact hother (by rw [← hacc', ← hfields, hacc, hid])
  · have hsame : stateOf m = stateOf loaded :=
      stateOf_between hsm hml hm hl'.sound ((hl'.stateOf_eq hl).trans he)
    exact hrefuses (approves_of_same hgates hs hs' hrun.symm hfields hsame.symm hnone happroves)

/-- The broker a caller saves: the loaded one with the order of the candidate. -/
structure Reservation (s : Submission) (loaded broker : PaperBroker) (order : PaperOrder)
    (record : Json) : Prop where
  sound : broker.Sound
  later : loaded.Later broker
  orders : ∀ o, o ∈ broker.orders ↔ o = order ∨ o ∈ loaded.orders
  runId : order.runId = s.call.runId
  matches_ : orderMatches order s.fields = true
  journal : ∀ e ∈ broker.journal, e.eventType = "ORDER_SUBMITTED" ∨
    e.eventType = "RISK_V2_DECISION" ∨ (e.eventType = decisionEvent ∧ e.runId = s.call.runId)
  decides : decisiveRows (broker.journal.map rowOf) s.call.runId = [record]

theorem verdict_account {s : Submission} (hs : Submits calls s) {attempt : ℕ}
    {a : PaperAccount} {orders : Orders} {fills : Fills} {conflict : ConflictDecision}
    {broker : PaperBroker} {order : PaperOrder} {record : Json}
    (hnone : PaperBroker.runOrder orders s.call.runId = none)
    (h : s.verdict sha256 attempt (some a) orders fills =
      .reserved conflict broker order record) : broker.account = a := by
  obtain ⟨a', b, r, ha, -, hprepare, rfl, -, -⟩ := verdict_reserved h
  obtain rfl := Option.some.inj ha
  obtain ⟨call, -, hcall⟩ := hs
  obtain ⟨rfl, -, hplan, -⟩ := submission_eq_ok hcall
  obtain ⟨-, -, -, -, -, -, -, -, -, haccount, -, -⟩ :=
    @prepareReservation_approved (s.request orders) _ _ _ _ hplan hnone hprepare
  exact haccount

theorem reservation_of_verdict {s : Submission} (hs : Submits calls s) {attempt : ℕ}
    {a : PaperAccount} {orders : Orders} {fills : Fills} {conflict : ConflictDecision}
    {broker : PaperBroker} {order : PaperOrder} {record : Json}
    (hsound : PaperBroker.Sound { account := a, orders := orders, fills := fills })
    (hnone : PaperBroker.runOrder orders s.call.runId = none)
    (h : s.verdict sha256 attempt (some a) orders fills =
      .reserved conflict broker order record) :
    Reservation s { account := a, orders := orders, fills := fills } broker order record ∧
      s.Approves { account := a, orders := orders, fills := fills } ∧
      Names record order ∧ Carries (fingerprint sha256 s.fields) record := by
  obtain ⟨a', b, r, ha, hallows, hprepare, rfl, hnames, hcarries⟩ := verdict_reserved h
  obtain rfl := Option.some.inj ha
  obtain ⟨call, -, hcall⟩ := hs
  obtain ⟨rfl, hcandidate, hplan, hfields⟩ := submission_eq_ok hcall
  obtain ⟨planAsOf, quantity, multiplier, -, horder, -, -, -, hsymbol, haccount, hfills, horders⟩ :=
    @prepareReservation_approved (s.request orders) _ _ _ _ hplan hnone hprepare
  obtain ⟨⟨plan, hplan', hside, -, hentry, hstop, htarget, -, -⟩, -, -, hfsymbol, hfsetup, -⟩ :=
    candidateFields_eq_some hfields
  obtain ⟨hlentry, hlstop, hltarget⟩ := candidateFields_levels hfields
  obtain rfl : plan = s.plan := Option.some.inj (hplan'.symm.trans hplan)
  obtain ⟨-, hposition, hpending⟩ := allows_classify.mp hallows
  have hosymbol : order.symbol = s.candidate.symbol := by rw [horder]; rfl
  have hfresh : ∀ o ∈ orders, o.orderId ≠ order.orderId := by
    rw [horder]
    exact s.call.uuid4.fresh orders
  let loaded : PaperBroker := { account := a, orders := orders, fills := fills }
  let submitted : PaperBroker := { loaded with orders := orders.put order }
  let saved := b.event (some s.call.asOf) s.call.runId s.call.report.symbol order.orderId
    decisionEvent record
  have haccount' : submitted.account = saved.account := haccount.symm
  have hfills' : submitted.fills = saved.fills := hfills.symm
  have he : stateOf submitted = stateOf saved := by
    refine paperState_eq_iff.mpr ⟨congrArg encodeAccount haccount', ?_, ?_, ?_, ?_⟩
    · exact fun p => by rw [haccount']
    · rw [haccount']
    · exact fun o => (horders o).symm
    · exact fun f => by rw [hfills']
  have hsubmitted : submitted.Sound := by
    refine @PaperBroker.Sound.submit _ _ order hsound hfresh ?_ ?_ rfl rfl
    · rw [hosymbol]; exact hposition
    · intro o ho hp
      rw [hosymbol]
      exact hpending o ho hp
  have hlater : loaded.Later submitted :=
    @PaperBroker.Later.submit _ _ order hfresh rfl rfl rfl
  have hjournal := prepareReservation_journal hprepare
  refine ⟨{ sound := sound_of_stateOf hsubmitted he, later := later_of_stateOf hlater he,
            orders := ?_, runId := ?_, matches_ := ?_, journal := ?_, decides := ?_ },
    ⟨hallows, b, order, r, hprepare⟩, hnames, hcarries⟩
  · intro o
    refine (horders o).trans ?_
    rw [Table.mem_put]
    exact or_congr_right (and_iff_left_of_imp (hfresh o))
  · rw [horder]
    rfl
  · have hl1 : toDecimal order.plannedEntry = some s.fields.entry := by
      rw [horder]; exact hentry ▸ hlentry
    have hl2 : toDecimal order.stop = some s.fields.stop := by
      rw [horder]; exact hstop ▸ hlstop
    have hl3 : toDecimal order.target = some s.fields.target := by
      rw [horder]; exact htarget ▸ hltarget
    have ho1 : order.symbol = s.fields.symbol := by rw [horder]; exact hfsymbol.symm
    have ho2 : order.side = s.fields.side := by rw [horder]; exact hside
    have ho3 : order.setupId = some s.fields.setupId := by
      rw [horder]; exact congrArg some hfsetup.symm
    simp [orderMatches, hl1, hl2, hl3, ho1, ho2, ho3]
  · intro e hmem
    rcases List.mem_append.mp hmem with hmem | hmem
    · exact (hjournal e hmem).imp id .inl
    · rw [List.mem_singleton.mp hmem]
      exact .inr (.inr ⟨rfl, rfl⟩)
  · have hrest : decisiveRows (b.journal.map rowOf) s.call.runId = [] := by
      refine decisiveRows_eq_nil (fun row hrow _ => ?_)
      obtain ⟨e, hmem, rfl⟩ := List.mem_map.mp hrow
      rcases hjournal e hmem with h | h <;> simp [rowOf, h, decisionEvent]
    change decisiveRows ((b.journal ++ [_]).map rowOf) s.call.runId = [record]
    rw [List.map_append, decisiveRows_append, hrest]
    simp [decisiveRows, rowOf, hnames.1, decisive]

/-- A save that commits reserves the run: it was undecided. -/
theorem reservation_step {start db db' : Database} {s : Submission} (hs : Submits calls s)
    (hcall : calls s.call) (hgates : GatesAgree calls) (hsha : CollisionFree sha256 calls)
    (hid : s.call.accountId = accountId) {loaded broker : PaperBroker} {order : PaperOrder}
    {record : Json} (hr : Reservation s loaded broker order record)
    (happroves : s.Approves loaded) (hnames : Names record order)
    (hcarries : Carries (fingerprint sha256 s.fields) record)
    (hnone : PaperBroker.runOrder loaded.orders s.call.runId = none)
    (hready : Ready sha256 accountId calls s loaded db)
    (hinv : Inv sha256 accountId calls start db) (haccount : loaded.account.accountId = accountId)
    {symbol : String} (hsave : savePaper broker s.call.ownerKey symbol
      (some (stateOf loaded)) db = .ok (true, db')) :
    Inv sha256 accountId calls start db' ∧ Evolves sha256 accountId calls db db' := by
  obtain ⟨l, hl⟩ := hinv.durable
  have hbroker : broker.account.accountId = l.account.accountId :=
    hr.later.accountId.trans (haccount.trans hl.accountId.symm)
  obtain ⟨hshows, he, rfl⟩ := savePaper_true hl.shows_ hbroker hsave
  have hloaded : Durable accountId db loaded :=
    ⟨hshows, sound_of_stateOf hl.sound he, haccount⟩
  have hdurable := hloaded.persist hr.later hr.sound
  have hjournal := persist_journal db broker
  have hrunOrders := runOrder_eq_none.mp hnone
  have hclaims : ∀ runId, claimedFingerprint (db.persist broker) runId =
      claimedFingerprint db runId := by
    refine fun runId => claimedFingerprint_append hjournal (fun row hrow _ => ?_)
    obtain ⟨e, hmem, rfl⟩ := List.mem_map.mp hrow
    rcases hr.journal e hmem with h | h | ⟨h, -⟩ <;> simp [rowOf, h, claimEvent, decisionEvent]
  have hothers : ∀ runId, runId ≠ s.call.runId →
      decisions (db.persist broker) runId = decisions db runId := by
    refine fun runId hne => decisions_append hjournal (fun row hrow hrun => ?_)
    obtain ⟨e, hmem, rfl⟩ := List.mem_map.mp hrow
    rcases hr.journal e hmem with h | h | ⟨-, h⟩
    · simp [rowOf, h, decisionEvent]
    · simp [rowOf, h, decisionEvent]
    · exact absurd ((Option.some.inj hrun).symm.trans h) hne
  have hdecisions : decisions (db.persist broker) s.call.runId =
      decisions db s.call.runId ++ [record] := by
    unfold decisions
    rw [hjournal, decisiveRows_append, hr.decides]
  have hmem : ∀ o, o ∈ (db.persist broker).paperOrders ↔ o = order ∨ o ∈ loaded.orders :=
    fun o => (hdurable.shows_.orders o).trans (hr.orders o)
  refine ⟨⟨⟨broker, hdurable⟩, persist_others hdurable.accountId hinv.others, ?_⟩, ?_⟩
  · intro call hmemCall
    by_cases hrun : call.runId = s.call.runId
    · rw [hrun]
      have hclaimed := (hclaims s.call.runId).trans hready.claimed
      refine ⟨fun hunclaimed => by simp [hclaimed] at hunclaimed, fun print hprint => ?_⟩
      obtain rfl := Option.some.inj (hprint.symm.trans hclaimed)
      cases (hinv.run s.call hcall).claimed _ hready.claimed with
      | undecided hrows horders =>
        refine .reserved record order (by rw [hdecisions, hrows, List.nil_append]) hnames hcarries
          ((hmem order).mpr (.inl rfl)) hr.runId ?_ s hs rfl rfl hr.matches_
        intro o ho hor
        rcases (hmem o).mp ho with rfl | ho
        · rfl
        · exact absurd hor (hrunOrders o ho)
      | refused row hrows hnot =>
        have hmemRow : row ∈ decisions db s.call.runId := by simp [hrows]
        exact absurd (not_refused hs hgates hsha hready hid hl he hnone happroves hmemRow) hnot
      | reserved row other hrows _ _ hother hotherRun =>
        exact absurd hotherRun (hrunOrders other ((hshows.orders other).mp hother))
    · refine (hinv.run call hmemCall).congr
        (sameOrders_persist hloaded hdurable hr.later (fun o ho hor => ?_))
        (hothers _ hrun) (hclaims _)
      rcases (hr.orders o).mp ho with rfl | ho
      · exact absurd (hor.symm.trans hr.runId) hrun
      · exact ⟨o, ho, rfl⟩
  · refine .of_durable hloaded hdurable hr.later
      (fun runId print hp => (hclaims runId).trans hp) (fun call _ row hrow hnew hnot => ?_)
    by_cases hrun : call.runId = s.call.runId
    · rw [hrun, hdecisions] at hrow
      rcases List.mem_append.mp hrow with hrow | hrow
      · exact absurd (hrun ▸ hrow) hnew
      · rw [List.mem_singleton.mp hrow] at hnot
        exact absurd hnames.1 hnot
    · rw [hothers _ hrun] at hrow
      exact absurd hrow hnew

/-! ## Loading -/

variable (accountId) in
/-- A broker like this was durable at some time before. -/
def Past (M : PaperBroker → Prop) (db : Database) : Prop :=
  ∃ b l, M b ∧ Durable accountId db l ∧ b.Later l

theorem Past.later {M : PaperBroker → Prop} {db : Database} {l : PaperBroker}
    (h : Past accountId M db) (hl : Durable accountId db l) : ∃ b, M b ∧ b.Later l := by
  obtain ⟨b, l', hb, hl', hlater⟩ := h
  exact ⟨b, hb, later_of_stateOf hlater (hl'.stateOf_eq hl)⟩

theorem Past.stable {M : PaperBroker → Prop} {db db' : Database} (h : Past accountId M db)
    (hev : Evolves sha256 accountId calls db db') : Past accountId M db' := by
  obtain ⟨b, l, hb, hl, hlater⟩ := h
  obtain ⟨l', hl', hlater', -⟩ := hev.later l hl
  exact ⟨b, l', hb, hl', hlater.trans hlater'⟩

/-- What a statement reads describes a broker that was durable when it ran. -/
theorem observes_past {β : Type} {start : Database} {M : β → PaperBroker → Prop}
    {f : Database → β} (h : ∀ db b, Durable accountId db b → M (f db) b) :
    Program.Observes (discipline sha256 accountId calls start) f
      (fun v db => Past accountId (M v) db) where
  now := by
    intro db hinv
    obtain ⟨b, hb⟩ := hinv.durable
    exact ⟨b, b, h db b hb, hb, PaperBroker.Later.refl b⟩
  stable := fun _ _ _ hev h => h.stable hev

/-- A load put together from different times is not later than the durable broker. -/
theorem later_of_parts {a : PaperAccount} {orders : Orders} {fills : Fills} {l : PaperBroker}
    (haccount : ∃ b : PaperBroker, encodeAccount a = encodeAccount b.account ∧ b.Later l)
    (horders : ∃ b : PaperBroker, (∀ o, o ∈ orders → o ∈ b.orders) ∧ b.Later l)
    (hfills : ∃ b : PaperBroker, (∀ f, f ∈ fills → f ∈ b.fills) ∧ b.Later l)
    (hpositions : ∃ b : PaperBroker, (∀ p, p ∈ a.openPositions.rows → p ∈ b.account.openPositions) ∧ b.Later l)
    (htrades : ∃ b : PaperBroker, (∀ t, t ∈ a.closedTrades → t ∈ b.account.closedTrades) ∧ b.Later l) :
    PaperBroker.Later { account := a, orders := orders, fills := fills } l := by
  obtain ⟨b₁, he, h₁⟩ := haccount
  obtain ⟨b₂, ho, h₂⟩ := horders
  obtain ⟨b₃, hf, h₃⟩ := hfills
  obtain ⟨b₄, hp, h₄⟩ := hpositions
  obtain ⟨b₅, ht, h₅⟩ := htrades
  obtain ⟨hid, hstart, hcash, -⟩ := PaperAccount.mk.injEq .. ▸ he
  exact {
    accountId := h₁.accountId.trans hid.symm
    startingEquity := h₁.startingEquity.trans hstart.symm
    cash := h₁.cash.trans hcash.symm
    orders := fun o hmem => h₂.orders o (ho o hmem)
    fills := fun f hmem => h₃.fills f (hf f hmem)
    trades := fun t hmem => h₅.trades t (ht t hmem)
    positions := fun p hmem => h₄.positions p (hp p hmem) }

variable (accountId) in
/-- What a call knows of the state it loaded: it is the account of the store, as it was, or
there is no account to decide on. -/
def Loaded (s : Submission) (account : Option PaperAccount) (orders : Orders) (fills : Fills)
    (db : Database) : Prop :=
  (s.call.accountId = accountId ∧ ∃ a l, account = some a ∧ a.accountId = accountId ∧
    Durable accountId db l ∧
    PaperBroker.Later { account := a, orders := orders, fills := fills } l) ∨
  (s.call.accountId ≠ accountId ∧ account = none)

theorem Loaded.stable {s : Submission} {account : Option PaperAccount} {orders : Orders}
    {fills : Fills} {db db' : Database} (h : Loaded accountId s account orders fills db)
    (hev : Evolves sha256 accountId calls db db') :
    Loaded accountId s account orders fills db' := by
  rcases h with ⟨hid, a, l, ha, haid, hl, hlater⟩ | h
  · obtain ⟨l', hl', hlater', -⟩ := hev.later l hl
    exact .inl ⟨hid, a, l', ha, haid, hl', hlater.trans hlater'⟩
  · exact .inr h

theorem load_holds (start : Database) (s : Submission) (db : Database) :
    (load s).Holds (discipline sha256 accountId calls start) (fun loaded db =>
      ∀ account orders fills, loaded = .ok (account, orders, fills) →
        Loaded accountId s account orders fills db) db := by
  have hA : Program.Observes (discipline sha256 accountId calls start)
      (fun db : Database => (id db).paperAccounts.get? s.call.accountId)
      (fun row db => (s.call.accountId = accountId ∧ ∃ r, row = some r ∧
          r.accountId = accountId ∧
          Past accountId (fun b => encodeAccount r = encodeAccount b.account) db) ∨
        (s.call.accountId ≠ accountId ∧ row = none)) := by
    refine { now := ?_, stable := ?_ }
    · intro db hinv
      by_cases hid : s.call.accountId = accountId
      · obtain ⟨b, hb⟩ := hinv.durable
        obtain ⟨r, hr, he⟩ := Option.map_eq_some_iff.mp hb.shows_.account
        rw [hb.accountId, ← hid] at hr
        refine .inl ⟨hid, r, hr, (Table.get?_eq_some.mp hr).2.trans hid, b, b, he, hb, ?_⟩
        exact PaperBroker.Later.refl b
      · exact .inr ⟨hid, hinv.others _ hid⟩
    · rintro row db db' hev (⟨hid, r, hr, hrid, hpast⟩ | h)
      · exact .inl ⟨hid, r, hr, hrid, hpast.stable hev⟩
      · exact .inr h
  have hO : Program.Observes (discipline sha256 accountId calls start)
      (fun db : Database => (id db).paperOrders)
      (fun orders => Past accountId (fun b => ∀ o, o ∈ orders → o ∈ b.orders)) :=
    observes_past (fun db b hb o => (hb.shows_.orders o).mp)
  have hF : Program.Observes (discipline sha256 accountId calls start)
      (fun db : Database => (id db).paperFills)
      (fun fills => Past accountId (fun b => ∀ f, f ∈ fills → f ∈ b.fills)) :=
    observes_past (fun db b hb f => (hb.shows_.fills f).mp)
  have hP : Program.Observes (discipline sha256 accountId calls start)
      (fun db : Database =>
        (id db).paperPositions.rows.filter (fun p => decide (p.status = .open)))
      (fun rows => Past accountId (fun b => ∀ p, p ∈ rows → p ∈ b.account.openPositions)) := by
    refine observes_past (fun db b hb p hmem => ?_)
    obtain ⟨hmem, hopen⟩ := List.mem_filter.mp hmem
    exact (hb.shows_.positions p).mp ⟨hmem, of_decide_eq_true hopen⟩
  have hT : Program.Observes (discipline sha256 accountId calls start)
      (fun db : Database => (id db).closedTrades.rows)
      (fun trades => Past accountId (fun b => ∀ t, t ∈ trades → t ∈ b.account.closedTrades)) :=
    observes_past (fun db b hb t => hb.shows_.mem_trades.mp)
  refine (loadPaperReads_holds hA hO hF hP hT db).mono ?_
  intro loaded db' hinv h account orders fills he
  obtain ⟨horders, hfills, ⟨row, hrow, hencode⟩, hrest⟩ := h account orders fills he
  rcases hrow with ⟨hid, r, rfl, hrid, hpast⟩ | ⟨hid, rfl⟩
  · obtain ⟨a, rfl, hae⟩ := Option.map_eq_some_iff.mp hencode
    obtain ⟨l, hl⟩ := hinv.durable
    obtain ⟨hpositions, htrades⟩ := hrest a rfl
    refine .inl ⟨hid, a, l, rfl, (accountId_of_encode hae).trans hrid, hl, ?_⟩
    refine later_of_parts ?_ (horders.later hl) (hfills.later hl) (hpositions.later hl)
      (htrades.later hl)
    obtain ⟨b, hb, hlater⟩ := hpast.later hl
    exact ⟨b, hae.trans hb, hlater⟩
  · exact .inr ⟨hid, by simpa using hencode⟩

/-! ## The call -/

theorem refusal_of_blocked {s : Submission} {attempt : ℕ} {account : Option PaperAccount}
    {orders : Orders} {fills : Fills} {conflict : ConflictDecision} {record : Json}
    (h : s.verdict sha256 attempt account orders fills = .blocked conflict record) :
    Refusal s (fingerprint sha256 s.fields) [(source, decisionEvent, record)] := by
  unfold Submission.verdict at h
  dsimp only at h
  split_ifs at h with hallows
  · simp only [Verdict.blocked.injEq] at h
    obtain ⟨-, rfl⟩ := h
    obtain ⟨hdecision, hcarries, -⟩ := @decisionRecord_get sha256 s attempt
      (classify s.candidate account orders) [] (.inl rfl) "BLOCKED" "NOT_SUBMITTED" none
    refine ⟨⟨_, ?_, by rw [hdecision]; decide, hcarries⟩, by simp [claimEvent, decisionEvent]⟩
    simp [decisiveRows, hdecision, decisive]
  · cases hprepare : s.prepare account orders fills <;> simp [hprepare] at h

theorem refusal_of_riskRejected {s : Submission} {attempt : ℕ} {account : Option PaperAccount}
    {orders : Orders} {fills : Fills} {conflict : ConflictDecision} {reason : String}
    {riskRecord record : Json} (h : s.verdict sha256 attempt account orders fills =
      .riskRejected conflict reason riskRecord record) :
    Refusal s (fingerprint sha256 s.fields)
      [("risk_engine_v2", "RISK_V2_DECISION", riskRecord), (source, decisionEvent, record)] := by
  unfold Submission.verdict at h
  dsimp only at h
  split_ifs at h with hallows
  cases hprepare : s.prepare account orders fills with
  | approved b o r => simp [hprepare] at h
  | rejected why r jr =>
    simp only [hprepare, Verdict.riskRejected.injEq] at h
    obtain ⟨-, -, -, rfl⟩ := h
    obtain ⟨hdecision, hcarries, -⟩ := @decisionRecord_get sha256 s attempt
      (classify s.candidate account orders) _ (.inr ⟨r, s.call.policy, rfl⟩) "RISK_REJECTED"
      "NOT_SUBMITTED" none
    refine ⟨⟨_, ?_, by rw [hdecision]; decide, hcarries⟩, by simp [claimEvent, decisionEvent]⟩
    simp [decisiveRows, hdecision, decisive, decisionEvent]

section Program

variable {start db : Database} {s : Submission}

theorem reconciled_holds (attempts : ℕ) (hinv : Inv sha256 accountId calls start db) :
    (reconciled sha256 s attempts).Holds (discipline sha256 accountId calls start)
      (fun _ _ => True) db := by
  refine Program.Holds.bind ((load_holds start s db).mono ?_) hinv
  intro loaded db' _ _
  match loaded with
  | .error e => exact fun _ _ _ => trivial
  | .ok (account, orders, fills) =>
    refine Program.Holds.read_now (fun db'' _ _ => ?_)
    dsimp only
    split_ifs <;> exact fun _ _ _ => trivial

/-- The observation of a stale attempt journals one row at most. -/
theorem observeStale_ok {db' : Database} {print : String} {decided : Bool}
    (h : observeStale s print db = .ok (decided, db')) :
    db' = db ∨ ∃ row : JournalRow, row.eventType = staleEvent ∧
      db' = { db with journal := db.journal ++ [row] } := by
  unfold observeStale at h
  dsimp only at h
  by_cases hlost : slotLost s.call.ownerKey s.call.report.symbol db = true
  · simp [hlost] at h
  rw [if_neg hlost] at h
  cases hhistory : hasHistory s.call.accountId s.call.runId db with
  | error e => simp [hhistory] at h
  | ok found =>
    cases found with
    | true =>
      simp only [hhistory, Except.ok.injEq, Prod.mk.injEq] at h
      exact .inl h.2.symm
    | false =>
      simp only [hhistory] at h
      split_ifs at h
      · exact .inl (congrArg Prod.snd (Except.ok.inj h)).symm
      · exact .inr ⟨_, rfl, (congrArg Prod.snd (Except.ok.inj h)).symm⟩

/-- It decides nothing. -/
theorem observeStale_step {db' : Database} {print : String} {decided : Bool}
    (hinv : Inv sha256 accountId calls start db)
    (h : observeStale s print db = .ok (decided, db')) :
    Inv sha256 accountId calls start db' ∧ Evolves sha256 accountId calls db db' := by
  rcases observeStale_ok h with rfl | ⟨row, hevent, rfl⟩
  · exact ⟨hinv, Evolves.refl _⟩
  · refine otherWriter_step hinv (.tables rfl rfl rfl rfl rfl [row] rfl (fun call _ r hr => ?_))
    rw [List.mem_singleton.mp hr]
    intro _
    rw [hevent]
    decide

theorem afterDoubleStale_holds :
    (afterDoubleStale sha256 s).Holds (discipline sha256 accountId calls start)
      (fun _ _ => True) db := by
  refine Program.Holds.call (fun db' _ hinv => ?_)
  generalize hcommit : commit (observeStale s (fingerprint sha256 s.fields)) db' = result
  obtain ⟨reply, db''⟩ := result
  rcases commit_cases hcommit with ⟨decided, rfl, htx⟩ | ⟨e, rfl, rfl⟩
  · obtain ⟨hinv', hev⟩ := observeStale_step hinv htx
    refine ⟨hinv', hev, ?_⟩
    cases decided with
    | true => exact reconciled_holds 2 hinv'
    | false => exact fun _ _ _ => trivial
  · exact ⟨hinv, Evolves.refl _, fun _ _ _ => trivial⟩

theorem journalDecision_holds (hs : Submits calls s) {attempt : ℕ} {expected : PaperState}
    {rows : List DecisionRow} {result : ConflictPathResult} {again : Submitting}
    (hrefusal : Refusal s (fingerprint sha256 s.fields) rows)
    (hwhy : s.call.accountId ≠ accountId ∨ ∃ b : PaperBroker, expected = stateOf b ∧ ¬ s.Approves b)
    (hagain : ∀ db', Evolves sha256 accountId calls db db' → Inv sha256 accountId calls start db' →
      again.Holds (discipline sha256 accountId calls start) (fun _ _ => True) db') :
    (journalDecision sha256 s attempt expected rows result again).Holds
      (discipline sha256 accountId calls start) (fun _ _ => True) db := by
  refine Program.Holds.call (fun db' hev hinv => ?_)
  generalize hcommit : commit (commitDecisionRows s (fingerprint sha256 s.fields) expected rows)
    db' = committed
  obtain ⟨reply, db''⟩ := committed
  rcases commit_cases hcommit with ⟨outcome, rfl, htx⟩ | ⟨e, rfl, rfl⟩
  · obtain ⟨hinv', hev'⟩ := refusal_step hs hrefusal hwhy hinv htx
    refine ⟨hinv', hev', ?_⟩
    cases outcome with
    | committed => exact fun _ _ _ => trivial
    | duplicate => exact reconciled_holds attempt hinv'
    | mismatch => exact reconciled_holds attempt hinv'
    | stale => exact hagain db'' (hev.trans hev') hinv'
  · exact ⟨hinv, Evolves.refl _, fun _ _ _ => trivial⟩

/-- The write of a verdict, whatever it is. -/
theorem settle_holds (hs : Submits calls s) (hcall : calls s.call) (hgates : GatesAgree calls)
    (hsha : CollisionFree sha256 calls) {attempt : ℕ} {account : Option PaperAccount}
    {orders : Orders} {fills : Fills} {again : Submitting}
    (hloaded : Loaded accountId s account orders fills db)
    (hclaimed : claimedFingerprint db s.call.runId = some (fingerprint sha256 s.fields))
    (hnone : PaperBroker.runOrder orders s.call.runId = none)
    (hempty : decisions db s.call.runId = [])
    (hagain : ∀ db', Evolves sha256 accountId calls db db' → Inv sha256 accountId calls start db' →
      again.Holds (discipline sha256 accountId calls start) (fun _ _ => True) db') :
    (settle sha256 s attempt (paperState account orders fills)
      (s.verdict sha256 attempt account orders fills) again).Holds
      (discipline sha256 accountId calls start) (fun _ _ => True) db := by
  generalize hverdict : s.verdict sha256 attempt account orders fills = verdict
  cases verdict with
  | blocked conflict record =>
    refine journalDecision_holds hs (refusal_of_blocked hverdict) ?_ hagain
    rcases hloaded with ⟨-, a, l, rfl, -, -, -⟩ | ⟨hid, -⟩
    · exact .inr ⟨_, rfl, not_approves_of_blocked hverdict⟩
    · exact .inl hid
  | riskRejected conflict reason riskRecord record =>
    refine journalDecision_holds hs (refusal_of_riskRejected hverdict) ?_ hagain
    rcases hloaded with ⟨-, a, l, rfl, -, -, -⟩ | ⟨hid, -⟩
    · exact .inr ⟨_, rfl, not_approves_of_riskRejected hverdict⟩
    · exact .inl hid
  | reserved conflict broker order record =>
    rcases hloaded with ⟨hid, a, l, rfl, haid, hl, hlater⟩ | ⟨-, rfl⟩
    · let loaded : PaperBroker := { account := a, orders := orders, fills := fills }
      have hready : Ready sha256 accountId calls s loaded db :=
        ⟨hclaimed, l, hl, hlater, by simp [Explained, hempty]⟩
      refine Program.Holds.call (fun db' hev hinv' => ?_)
      generalize hcommit : commit (savePaper broker s.call.ownerKey s.call.report.symbol
        (some (paperState (some a) orders fills))) db' = committed
      obtain ⟨reply, db''⟩ := committed
      rcases commit_cases hcommit with ⟨saved, rfl, htx⟩ | ⟨e, rfl, rfl⟩
      · cases saved with
        | false =>
          obtain rfl := savePaper_false htx
          exact ⟨hinv', Evolves.refl _, hagain _ hev hinv'⟩
        | true =>
          obtain ⟨l', hl'⟩ := hinv'.durable
          have hsound : loaded.Sound := by
            have hbid : broker.account.accountId = l'.account.accountId := by
              rw [verdict_account hs hnone hverdict]
              exact haid.trans hl'.accountId.symm
            obtain ⟨-, he, -⟩ := @savePaper_true _ _ l' loaded _ _ _ hl'.shows_ hbid htx
            exact sound_of_stateOf hl'.sound he
          obtain ⟨hr, happroves, hnames, hcarries⟩ :=
            reservation_of_verdict hs hsound hnone hverdict
          obtain ⟨hinv'', hev'⟩ := reservation_step hs hcall hgates hsha hid hr happroves hnames
            hcarries hnone (hready.stable hcall hev) hinv' haid htx
          exact ⟨hinv'', hev', fun _ _ _ => trivial⟩
      · exact ⟨hinv', Evolves.refl _, fun _ _ _ => trivial⟩
    · obtain ⟨a, _, _, ha, -⟩ := verdict_reserved hverdict
      cases ha

/-- Every attempt keeps the discipline, as long as the claim is the caller's own. -/
theorem attempts_holds (hs : Submits calls s) (hcall : calls s.call) (hgates : GatesAgree calls)
    (hsha : CollisionFree sha256 calls) (ns : List ℕ)
    (hinv : Inv sha256 accountId calls start db)
    (hclaimed : claimedFingerprint db s.call.runId = some (fingerprint sha256 s.fields)) :
    (attempts sha256 s ns).Holds (discipline sha256 accountId calls start)
      (fun _ _ => True) db := by
  induction ns generalizing db with
  | nil => exact afterDoubleStale_holds
  | cons attempt rest ih =>
    have hkeeps : ∀ a b, Evolves sha256 accountId calls a b →
        claimedFingerprint a s.call.runId = some (fingerprint sha256 s.fields) →
        claimedFingerprint b s.call.runId = some (fingerprint sha256 s.fields) :=
      fun _ _ hev h => hev.claims _ _ h
    have hload := (load_holds start s db).frame hkeeps hkeeps hclaimed
    refine Program.Holds.bind (hload.mono ?_) hinv
    rintro loaded db₁ hinv₁ ⟨hloaded, hclaimed₁⟩
    match loaded with
    | .error e => exact fun _ _ _ => trivial
    | .ok (account, orders, fills) =>
      have hknown := hloaded account orders fills rfl
      dsimp only
      split_ifs with horder
      · exact reconciled_holds attempt hinv₁
      · have hnone : PaperBroker.runOrder orders s.call.runId = none := by simpa using horder
        refine Program.Holds.read_now (fun db₂ hev hinv₂ => ?_)
        split_ifs with hprior
        · exact reconciled_holds attempt hinv₂
        · have hempty := priorDecision_isSome.mp (Bool.not_eq_true _ ▸ hprior)
          have hclaimed₂ := hev.claims _ _ hclaimed₁
          exact settle_holds hs hcall hgates hsha (hknown.stable hev) hclaimed₂ hnone hempty
            (fun db₃ hev₃ hinv₃ => ih hinv₃ (hev₃.claims _ _ hclaimed₂))

end Program

theorem submitWithConflictControl_holds {start db : Database} {call : Call} (hcall : calls call)
    (hgates : GatesAgree calls) (hsha : CollisionFree sha256 calls) :
    (submitWithConflictControl sha256 call).Holds (discipline sha256 accountId calls start)
      (fun _ _ => True) db := by
  unfold submitWithConflictControl
  cases hsubmission : call.submission with
  | error reason => exact fun _ _ _ => trivial
  | ok s =>
    have hs : Submits calls s := ⟨call, hcall, hsubmission⟩
    obtain ⟨rfl, -, -, -⟩ := submission_eq_ok hsubmission
    refine Program.Holds.call (fun db' _ hinv => ?_)
    generalize hcommit : commit (claimRun sha256 s.call.runId s.call.report.symbol s.fields
      s.call.asOf (hasHistory s.call.accountId s.call.runId) s.call.ownerKey) db' = committed
    obtain ⟨reply, db''⟩ := committed
    rcases commit_cases hcommit with ⟨claim, rfl, htx⟩ | ⟨e, rfl, rfl⟩
    · obtain ⟨hinv', hev, hclaimed⟩ := claim_step hinv htx
      refine ⟨hinv', hev, ?_⟩
      cases claim with
      | mismatch => exact fun _ _ _ => trivial
      | unknownHistory => exact fun _ _ _ => trivial
      | claimed => exact attempts_holds hs hcall hgates hsha [1, 2] hinv' (hclaimed (.inl rfl))
      | same => exact attempts_holds hs hcall hgates hsha [1, 2] hinv' (hclaimed (.inr rfl))
    · exact ⟨hinv, Evolves.refl _, fun _ _ _ => trivial⟩

/-- A run nobody has claimed or decided yet, with at most one order. -/
structure Untouched (db : Database) (runId : String) : Prop where
  unclaimed : claimedFingerprint db runId = none
  undecided : decisions db runId = []
  one : ∀ o ∈ db.paperOrders, ∀ o' ∈ db.paperOrders, o.runId = runId → o'.runId = runId → o = o'

/-- The store holds one account, as `b`. -/
structure Account (accountId : String) (db : Database) (b : PaperBroker) : Prop where
  durable : Durable accountId db b
  only : ∀ id, id ≠ accountId → db.paperAccounts.get? id = none

/-- In every run of any number of callers, with crashes, retries and other writers in
between, each run id has one outcome, if the callers of one candidate of a run pass the
drawdown gate together. -/
theorem one_outcome_per_run {db : Database} {b : PaperBroker} (haccount : Account accountId db b)
    (huntouched : ∀ call, calls call → Untouched db call.runId)
    (hsha : CollisionFree sha256 calls) (hgates : GatesAgree calls)
    {pool : Pool Database (Except String ConflictPathResult)}
    (hrun : Relation.ReflTransGen (PoolStep (Caller sha256 calls) (OtherWriter accountId calls))
      ⟨db, []⟩ pool) :
    ∀ call, calls call → OneOutcome sha256 calls db pool.store call.runId := by
  have hinit : Inv sha256 accountId calls db db := by
    refine ⟨⟨b, haccount.durable⟩, haccount.only, fun call hcall => ?_⟩
    obtain ⟨hunclaimed, hempty, hone⟩ := huntouched call hcall
    exact ⟨fun _ => ⟨hempty, hone, fun o ho hr => ⟨o, ho, hr⟩⟩,
      fun print hprint => by simp [hunclaimed] at hprint⟩
  have hinv : Inv sha256 accountId calls db pool.store := by
    refine (pool_sound (d := discipline sha256 accountId calls db) (fun _ _ => True) ?_
      (fun _ _ _ h => h) ?_ hinit hrun).1
    · exact fun _ _ hi h => otherWriter_step hi h
    · rintro p ⟨call, hcall, rfl⟩ db' _
      exact submitWithConflictControl_holds hcall hgates hsha
  exact fun call hcall => (hinv.run call hcall).oneOutcome

end Outcome

/-! ## A run with one caller, and one with two that disagree on the drawdown -/

/-- An id longer than every id in use. -/
def longerId (orders : Orders) : String :=
  String.ofList (List.replicate ((orders.rows.map (·.orderId.length)).sum + 1) 'x')

theorem longerId_fresh (orders : Orders) : ∀ o ∈ orders, o.orderId ≠ longerId orders := by
  intro o ho he
  have hmem : o.orderId.length ∈ orders.rows.map (·.orderId.length) :=
    List.mem_map.mpr ⟨o, ho, rfl⟩
  have hle := List.single_le_sum (fun _ _ => Nat.zero_le _) _ hmem
  have hlength : o.orderId.length = (orders.rows.map (·.orderId.length)).sum + 1 := by
    conv_lhs => rw [he]
    simp [longerId]
  omega

def samplePlan : TradePlan where
  symbol := "XAUUSD"
  side := .long
  entry := 100
  stop := 99
  target := 103
  riskReward := 3
  runId := some "R1"
  asOf := some 0
  policyVersion := some .v2F3

def sampleReport : FloorReport where
  runId := "R1"
  symbol := "XAUUSD"
  finalStatus := "PLAN_READY"
  tradePlan := some samplePlan
  riskDecision := none
  setupAssessment := some ⟨"VALID_SETUP", "XAUUSD", .long, some "S1", some "S1"⟩

/-- A call under a drawdown basis. -/
def sampleCall (basis : Option DrawdownBasis) : Call where
  report := sampleReport
  instrument := some ⟨"XAUUSD", some (1 / 100), some 1, some 1⟩
  accountId := "A"
  asOf := 0
  ownerKey := none
  policy := riskPolicyV2P5
  drawdownBasis := basis
  uuid4 := ⟨longerId, longerId_fresh⟩

/-- The PAPER account itself is the basis. -/
def lenient : Call := sampleCall none

/-- A demo account that has lost a tenth. -/
def strict : Call := sampleCall (some ⟨"OANDA_DEMO", none, some 90000, some 100000⟩)

def sampleBroker : PaperBroker where
  account := { accountId := "A", startingEquity := 10000, cash := 10000, equity := 10000 }

def sampleDb : Database where
  paperAccounts := ⟨[encodeAccount sampleBroker.account], by simp⟩

/-- The digest of the one record that is hashed. -/
def sampleSha256 (_ : Json) : String :=
  "abf05448160c3f65ac7512e7b9f75093221bf2208279ffcf590d1aa7727a4df8"

theorem sampleDb_account : Account "A" sampleDb sampleBroker where
  durable := {
    shows_ := by
      have h : sampleDb.loadPaper "A" =
          .ok (some sampleBroker.account, sampleBroker.orders, sampleBroker.fills) := by rfl
      exact shows_of_loadPaper h (by decide)
    sound := {
      position := by simp [sampleBroker]
      identity := by simp [sampleBroker]
      apart := by simp [sampleBroker]
      trades := by simp [sampleBroker]
      exposure := by simp [sampleBroker]
      pending := by simp [sampleBroker]
      realized := rfl
      unrealized := rfl
      equity := by decide +kernel }
    accountId := rfl }
  only := by
    intro id hne
    refine Table.get?_eq_none.mpr (fun r hr he => hne ?_)
    rw [List.mem_singleton.mp hr] at he
    exact he.symm

theorem sampleDb_untouched : Untouched sampleDb "R1" where
  unclaimed := rfl
  undecided := rfl
  one := by simp [sampleDb]

/-- Both calls submit one candidate. -/
theorem sample_fields {basis : Option DrawdownBasis} {s : Submission}
    (h : (sampleCall basis).submission = .ok s) : s.fields.asJson =
      ((candidateFields sampleReport lenient.instrument "A" "S1" riskPolicyV2P5).map
        CandidateFields.asJson).getD .null := by
  obtain ⟨-, hcandidate, -, hfields⟩ := submission_eq_ok h
  have hok : candidate sampleReport = .ok "S1" := by decide
  have hsetup : s.setupId = "S1" := Except.ok.inj (hcandidate.symm.trans hok)
  have hsome : candidateFields sampleReport lenient.instrument "A" "S1" riskPolicyV2P5 =
      some s.fields := hsetup ▸ hfields
  rw [hsome]
  rfl

/-- One caller: its claim, its reads and its save. -/
def reservedRun : Program Database (Except String ConflictPathResult) × Database :=
  (submitWithConflictControl sampleSha256 lenient).runFor 8 sampleDb

theorem reservedRun_reached : Relation.ReflTransGen
    (PoolStep (Caller sampleSha256 (fun call => call = lenient))
      (OtherWriter "A" (fun call => call = lenient))) ⟨sampleDb, []⟩
    ⟨reservedRun.2, [reservedRun.1]⟩ :=
  .head (.start ⟨lenient, rfl, rfl⟩) (runs_beside [] [] 8 _ _)

theorem one_outcome_per_run_sample :
    OneOutcome sampleSha256 (fun call => call = lenient) sampleDb reservedRun.2 "R1" ∧
      (decisions reservedRun.2 "R1").map decisionOf = ["RESERVED"] := by
  refine ⟨one_outcome_per_run sampleDb_account ?_ ?_ ?_ reservedRun_reached lenient rfl, ?_⟩
  · rintro call rfl
    exact sampleDb_untouched
  · rintro s s' ⟨call, rfl, h⟩ ⟨call', rfl, h'⟩ _
    rw [sample_fields h, sample_fields h']
  · rintro s s' ⟨call, rfl, h⟩ ⟨call', rfl, h'⟩ _ _
    obtain ⟨hs, -⟩ := submission_eq_ok h
    obtain ⟨hs', -⟩ := submission_eq_ok h'
    rw [hs, hs']
  · decide +kernel

/-- The calls of the run with two callers. -/
def bothCalls (call : Call) : Prop := call = lenient ∨ call = strict

/-- The lenient caller up to its save. -/
def lenientReady : Program Database (Except String ConflictPathResult) × Database :=
  (submitWithConflictControl sampleSha256 lenient).runFor 7 sampleDb

/-- Meanwhile the strict caller refuses the run. -/
def strictDone : Program Database (Except String ConflictPathResult) × Database :=
  (submitWithConflictControl sampleSha256 strict).runFor 8 lenientReady.2

/-- The PAPER state is the loaded one, so the lenient save succeeds. -/
def lenientDone : Program Database (Except String ConflictPathResult) × Database :=
  lenientReady.1.runFor 1 strictDone.2

theorem lenientDone_reached : Relation.ReflTransGen
    (PoolStep (Caller sampleSha256 bothCalls) (OtherWriter "A" bothCalls)) ⟨sampleDb, []⟩
    ⟨lenientDone.2, [lenientDone.1, strictDone.1]⟩ := by
  have hready : Relation.ReflTransGen
      (PoolStep (Caller sampleSha256 bothCalls) (OtherWriter "A" bothCalls)) ⟨sampleDb, []⟩
      ⟨lenientReady.2, [lenientReady.1]⟩ :=
    .head (.start ⟨lenient, .inl rfl, rfl⟩) (runs_beside [] [] 7 _ _)
  have hstart : PoolStep (Caller sampleSha256 bothCalls) (OtherWriter "A" bothCalls)
      ⟨lenientReady.2, [lenientReady.1]⟩
      ⟨lenientReady.2, [lenientReady.1, submitWithConflictControl sampleSha256 strict]⟩ :=
    .start ⟨strict, .inr rfl, rfl⟩
  exact ((hready.tail hstart).trans (runs_beside [lenientReady.1] [] 8 _ _)).trans
    (runs_beside [] [strictDone.1] 1 _ _)

/-- A refused run gets an order: two callers of one candidate on one PAPER state decide
differently. -/
theorem refused_run_is_reserved : Account "A" sampleDb sampleBroker ∧
    (∀ call, bothCalls call → Untouched sampleDb call.runId) ∧
    CollisionFree sampleSha256 bothCalls ∧
    ∃ pool, Relation.ReflTransGen
      (PoolStep (Caller sampleSha256 bothCalls) (OtherWriter "A" bothCalls)) ⟨sampleDb, []⟩ pool ∧
      ¬ OneOutcome sampleSha256 bothCalls sampleDb pool.store "R1" := by
  refine ⟨sampleDb_account, ?_, ?_, _, lenientDone_reached, fun h => ?_⟩
  · rintro call (rfl | rfl) <;> exact sampleDb_untouched
  · rintro s s' ⟨call, rfl | rfl, h⟩ ⟨call', rfl | rfl, h'⟩ _ <;>
      rw [sample_fields h, sample_fields h']
  · have htwo : (decisions lenientDone.2 "R1").length = 2 := by decide +kernel
    have hone : (decisions lenientDone.2 "R1").length ≤ 1 := h.oneDecision
    omega

end MarketSystem.ConflictPath
