import MarketSystem.Execution.ConflictEngine
import MarketSystem.Storage.Database

/-!
# Candidate identity

A run is bound to one candidate by a claim row in the journal: check and insert
are one transaction and the row is never changed. The fingerprint is SHA-256 over
the canonical JSON of the fields that give the candidate its economic meaning;
the hash is a parameter here.
-/
namespace MarketSystem.CandidateIdentity

open Library RrContract Database ConflictEngine

/-- `FINGERPRINT_VERSION`. -/
def fingerprintVersion : String := "V2_P6_CANDIDATE_1"

/-- `CLAIM_EVENT`. -/
def claimEvent : String := "RUN_CANDIDATE_CLAIM"

structure InstrumentFields where
  symbol : String
  priceIncrement : ℚ
  quantityIncrement : ℚ
  contractMultiplier : ℚ
  deriving DecidableEq

/-- The record that is hashed. -/
structure CandidateFields where
  accountId : String
  symbol : String
  setupId : String
  side : Side
  plannerPolicy : Policy
  entry : ℚ
  stop : ℚ
  target : ℚ
  declaredRr : ℚ
  planAsOf : Instant
  riskPolicy : RiskPolicy
  instrument : InstrumentFields
  policyVersion : String := conflictPolicyVersion
  deriving DecidableEq

/-- `candidate_fields`; `none` where the source raises. -/
def candidateFields (report : FloorReport) (instrument : Option Instrument)
    (accountId setupId : String) (policy : RiskPolicy)
    (policyVersion : String := conflictPolicyVersion) : Option CandidateFields := do
  let plan ← report.tradePlan
  let plannerPolicy ← plan.policyVersion
  let entry ← toDecimal plan.entry
  let stop ← toDecimal plan.stop
  let target ← toDecimal plan.target
  let declaredRr ← toDecimal plan.riskReward
  let planAsOf ← plan.asOf
  let instrument ← instrument
  let priceIncrement ← instrument.priceIncrement.bind toDecimal
  let quantityIncrement ← instrument.quantityIncrement.bind toDecimal
  let contractMultiplier ← instrument.contractMultiplier.bind toDecimal
  some {
    accountId := accountId
    symbol := report.symbol
    setupId := setupId
    side := plan.side
    plannerPolicy := plannerPolicy
    entry := entry
    stop := stop
    target := target
    declaredRr := declaredRr
    planAsOf := planAsOf
    riskPolicy := policy
    instrument := ⟨instrument.symbol, priceIncrement, quantityIncrement, contractMultiplier⟩
    policyVersion := policyVersion }

/-- Everything a record says about the plan and the instrument it was built from. -/
theorem candidateFields_eq_some {report : FloorReport} {instrument : Option Instrument}
    {accountId setupId : String} {policy : RiskPolicy} {fields : CandidateFields}
    (h : candidateFields report instrument accountId setupId policy = some fields) :
    (∃ plan, report.tradePlan = some plan ∧ plan.side = fields.side ∧
      plan.policyVersion = some fields.plannerPolicy ∧ plan.entry = fields.entry ∧
      plan.stop = fields.stop ∧ plan.target = fields.target ∧
      plan.riskReward = fields.declaredRr ∧ plan.asOf = some fields.planAsOf) ∧
    instrument = some ⟨fields.instrument.symbol, some fields.instrument.priceIncrement,
      some fields.instrument.quantityIncrement, some fields.instrument.contractMultiplier⟩ ∧
    fields.accountId = accountId ∧ fields.symbol = report.symbol ∧ fields.setupId = setupId ∧
    fields.riskPolicy = policy := by
  simp only [candidateFields, Option.bind_eq_bind, Option.bind_eq_some_iff, toDecimal_eq_some] at h
  obtain ⟨plan, hplan, plannerPolicy, hpolicy, entry, ⟨-, rfl⟩, stop, ⟨-, rfl⟩, target,
    ⟨-, rfl⟩, declaredRr, ⟨-, rfl⟩, planAsOf, hasOf, i, rfl, _, ⟨price, hprice, -, rfl⟩, _,
    ⟨step, hstep, -, rfl⟩, _, ⟨contract, hcontract, -, rfl⟩, hfields⟩ := h
  obtain rfl := Option.some.inj hfields
  refine ⟨⟨plan, hplan, rfl, hpolicy, rfl, rfl, rfl, rfl, hasOf⟩, ?_, rfl, rfl, rfl, rfl⟩
  rw [← hprice, ← hstep, ← hcontract]

/-- The levels of a record are positive, so they are read back as they are. -/
theorem candidateFields_levels {report : FloorReport} {instrument : Option Instrument}
    {accountId setupId : String} {policy : RiskPolicy} {fields : CandidateFields}
    (h : candidateFields report instrument accountId setupId policy = some fields) :
    toDecimal fields.entry = some fields.entry ∧ toDecimal fields.stop = some fields.stop ∧
      toDecimal fields.target = some fields.target := by
  simp only [candidateFields, Option.bind_eq_bind, Option.bind_eq_some_iff] at h
  obtain ⟨plan, -, _, -, entry, hentry, stop, hstop, target, htarget, _, -, _, -, _, -, _, -, _, -,
    _, -, hfields⟩ := h
  obtain rfl := Option.some.inj hfields
  rw [toDecimal_eq_some] at hentry hstop htarget
  obtain ⟨h1, rfl⟩ := hentry
  obtain ⟨h2, rfl⟩ := hstop
  obtain ⟨h3, rfl⟩ := htarget
  exact ⟨toDecimal_of_pos h1, toDecimal_of_pos h2, toDecimal_of_pos h3⟩

namespace CandidateFields

/-- The record as it is serialized: sorted keys, and a canonical decimal for each number. -/
def asJson (fields : CandidateFields) : Json :=
  .obj [("account_id", .str fields.accountId),
    ("conflict_policy_version", .str fields.policyVersion),
    ("declared_rr", .num fields.declaredRr), ("entry", .num fields.entry),
    ("fingerprint_version", .str fingerprintVersion),
    ("instrument", .obj [("contract_multiplier", .num fields.instrument.contractMultiplier),
      ("price_increment", .num fields.instrument.priceIncrement),
      ("quantity_increment", .num fields.instrument.quantityIncrement),
      ("symbol", .str fields.instrument.symbol)]),
    ("plan_as_of", .num fields.planAsOf), ("planner_policy", .str fields.plannerPolicy.name),
    ("risk_policy", fields.riskPolicy.asRecord), ("setup_id", .str fields.setupId),
    ("side", .str (sideName fields.side)), ("stop", .num fields.stop),
    ("symbol", .str fields.symbol), ("target", .num fields.target)]

/-- The serialization loses nothing. -/
theorem asJson_injective : Function.Injective asJson := by
  intro a b h
  obtain ⟨_, _, _, _, _, _, _, _, _, _, _, ⟨_, _, _, _⟩, _⟩ := a
  obtain ⟨_, _, _, _, _, _, _, _, _, _, _, ⟨_, _, _, _⟩, _⟩ := b
  simp only [asJson, Json.obj.injEq, List.cons.injEq, Prod.mk.injEq, Json.str.injEq,
    Json.num.injEq, true_and, and_true, Int.cast_inj, Policy.name_injective.eq_iff,
    sideName_injective.eq_iff, RiskPolicy.asRecord_injective.eq_iff] at h
  simp [h]

end CandidateFields

section Claim

variable (sha256 : Json → String)

/-- `fingerprint`. -/
def fingerprint (fields : CandidateFields) : String := sha256 fields.asJson

/-- `claimed_fingerprint`: the first claim row of the run is authoritative. -/
def claimedFingerprint (db : Database) (runId : String) : Option String :=
  (db.journal.find? (fun row => decide (row.eventType = claimEvent ∧ row.runId = some runId))).map
    (fun row => ((row.payload.get "fingerprint").str?).getD "")

inductive Claim
  | claimed
  | same
  | mismatch
  | unknownHistory
  deriving DecidableEq, Repr

/-- The payload of a claim row. -/
def claimPayload (fields : CandidateFields) : Json :=
  .obj [("fingerprint_version", .str fingerprintVersion),
    ("fingerprint", .str (fingerprint sha256 fields)), ("candidate", fields.asJson),
    ("economic_action", .str "NONE"), ("decisive", .bool false)]

/-- A slot key that was given must own the slot of the symbol. -/
def slotLost (ownerKey : Option String) (symbol : String) (db : Database) : Bool :=
  match ownerKey with
  | some key => !db.ownsSlot key symbol
  | none => false

/-- `claim_run`: acquire or verify the claim of the run, in one transaction. -/
def claimRun (runId symbol : String) (fields : CandidateFields) (asOf : Instant)
    (hasHistory : Database → Except String Bool) (ownerKey : Option String) : Tx Claim := fun db =>
  let print := fingerprint sha256 fields
  if slotLost ownerKey symbol db then .error "candidate claim without slot ownership"
  else match claimedFingerprint db runId with
    | some existing => .ok (if existing = print then .same else .mismatch, db)
    | none =>
        match hasHistory db with
        | .error e => .error e
        | .ok true => .ok (.unknownHistory, db)
        | .ok false =>
            .ok (.claimed, db.event (some asOf) (some runId) (some symbol) "conflict_engine"
              claimEvent "INFO" (claimPayload sha256 fields))

end Claim

/-- A claim is never changed by what is appended to the journal. -/
theorem claimedFingerprint_of_prefix {db db' : Database} {runId print : String}
    (hjournal : db.journal <+: db'.journal) (h : claimedFingerprint db runId = some print) :
    claimedFingerprint db' runId = some print := by
  obtain ⟨rows, hrows⟩ := hjournal
  obtain ⟨row, hfind, hprint⟩ := Option.map_eq_some_iff.mp h
  unfold claimedFingerprint
  rw [← hrows, List.find?_append, hfind, Option.some_or, Option.map_some, hprint]

/-- What `claim_run` can do to the database. -/
theorem claimRun_ok {sha256 : Json → String} {runId symbol : String} {fields : CandidateFields}
    {asOf : Instant} {hasHistory : Database → Except String Bool} {ownerKey : Option String}
    {db db' : Database} {claim : Claim}
    (h : claimRun sha256 runId symbol fields asOf hasHistory ownerKey db = .ok (claim, db')) :
    (db' = db ∧ (claim = .same → claimedFingerprint db runId = some (fingerprint sha256 fields)) ∧
      claim ≠ .claimed) ∨
    (claim = .claimed ∧ claimedFingerprint db runId = none ∧ hasHistory db = .ok false ∧
      db' = db.event (some asOf) (some runId) (some symbol) "conflict_engine" claimEvent "INFO"
        (claimPayload sha256 fields)) := by
  unfold claimRun at h
  dsimp only at h
  split_ifs at h
  cases hclaimed : claimedFingerprint db runId with
  | some existing =>
    simp only [hclaimed, Except.ok.injEq, Prod.mk.injEq] at h
    obtain ⟨rfl, rfl⟩ := h
    refine .inl ⟨rfl, ?_, ?_⟩
    · split_ifs with he
      · exact fun _ => congrArg some he
      · exact fun h => by cases h
    · split_ifs <;> simp
  | none =>
    simp only [hclaimed] at h
    cases hhistory : hasHistory db with
    | error e => simp [hhistory] at h
    | ok found =>
      cases found with
      | true =>
        simp only [hhistory, Except.ok.injEq, Prod.mk.injEq] at h
        obtain ⟨rfl, rfl⟩ := h
        exact .inl ⟨rfl, by simp, by simp⟩
      | false =>
        simp only [hhistory, Except.ok.injEq, Prod.mk.injEq] at h
        exact .inr ⟨h.1.symm, rfl, rfl, h.2.symm⟩

end MarketSystem.CandidateIdentity
