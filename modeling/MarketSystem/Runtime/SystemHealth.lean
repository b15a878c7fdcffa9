import MarketSystem.Execution.Contracts
import MarketSystem.Library.Records
import MarketSystem.Library.Refusal
import MarketSystem.Library.Runs
import MarketSystem.Library.Table

/-!
# SYSTEM HEALTH

A passive store of what components report: successes, typed errors, conditions, heartbeats
and progress. Reports may be repeated and may arrive out of order. One transaction keeps the
report under its id and updates the record of its component; the status at a moment is a
projection of that record.
-/
namespace MarketSystem.SystemHealth

open Library

inductive HealthStatus
  | healthy
  | degraded
  | failed
  | stale
  | unknown
  deriving DecidableEq, Repr

/-- A scalar of the evidence. -/
inductive Detail
  | null
  | bool (b : Bool)
  | num (q : ℚ)
  | str (s : String)
  deriving DecidableEq

/-- The evidence, as `sanitize_details` returns it. -/
abbrev Details := Option (List (String × Detail))

/-! ## Classification of errors -/

/-- The members of `ProviderErrorType`. -/
def providerErrorTypes : List String :=
  ["RATE_LIMITED", "BILLING_OR_QUOTA", "TIMEOUT", "AUTH_FAILURE", "PROVIDER_5XX",
    "INVALID_RESPONSE", "MODEL_UNAVAILABLE", "CONNECTION_ERROR", "UNKNOWN_PROVIDER_FAILURE"]

/-- The members of `ComponentErrorType`. -/
def componentErrorTypes : List String :=
  ["SCHEDULER_ERROR", "RISK_ENGINE_ERROR", "PAPER_BROKER_ERROR", "DATABASE_ERROR", "DISK_ERROR",
    "EMAIL_FAILURE", "INTERNAL_ERROR"]

/-- `LEGACY_ERROR_NAMES`. -/
def legacyErrorNames : List (String × String) :=
  [("RATE_LIMITED", "RATE_LIMITED"), ("QUOTA_EXHAUSTED", "BILLING_OR_QUOTA"),
    ("AUTH_ERROR", "AUTH_FAILURE"), ("ACCESS_DENIED", "AUTH_FAILURE"),
    ("INVALID_RESPONSE", "INVALID_RESPONSE"), ("TIMEOUT", "TIMEOUT"),
    ("INVALID_STRUCTURED_RESPONSE", "INVALID_RESPONSE"),
    ("INCOMPLETE_RESPONSE", "INVALID_RESPONSE"), ("MODEL_UNAVAILABLE", "MODEL_UNAVAILABLE"),
    ("CONNECTION_ERROR", "CONNECTION_ERROR"), ("NOT_ENTITLED", "UNKNOWN_PROVIDER_FAILURE"),
    ("PROVIDER_ERROR", "UNKNOWN_PROVIDER_FAILURE"),
    ("PROVIDER_FAILURE", "UNKNOWN_PROVIDER_FAILURE")]

def isUpper (c : Char) : Bool := 'A' ≤ c && c ≤ 'Z'

def isDigit (c : Char) : Bool := '0' ≤ c && c ≤ '9'

def isLower (c : Char) : Bool := 'a' ≤ c && c ≤ 'z'

/-- `_LEGACY`. -/
def legacyName (s : String) : Bool :=
  match s.toList with
  | [] => false
  | c :: rest => isUpper c && decide (rest.length ≤ 63)
      && rest.all (fun c => isUpper c || isDigit c || c == '_')

/-- `_from_status`. -/
def fromStatus (status : ℤ) : Option String :=
  if status = 429 then some "RATE_LIMITED"
  else if status = 402 then some "BILLING_OR_QUOTA"
  else if status = 401 ∨ status = 403 then some "AUTH_FAILURE"
  else if status = 408 ∨ status = 504 then some "TIMEOUT"
  else if 500 ≤ status ∧ status ≤ 599 then some "PROVIDER_5XX"
  else none

/-- `classify_provider_error`: the class, and the name it came under when that is another. -/
def classifyProviderError (kind : Option String) (httpStatus : Option ℤ) (timedOut : Bool) :
    String × Option String :=
  let legacy := kind.filter legacyName
  let mapped := legacy.bind (fun name => legacyErrorNames.lookup name)
  if legacy = some "CONNECTION_ERROR" ∧ timedOut = true then ("TIMEOUT", legacy)
  else if legacy.any (fun name => providerErrorTypes.contains name) = true then
    (legacy.getD "", none)
  else if mapped.isSome = true ∧ legacy ≠ some "PROVIDER_FAILURE"
      ∧ legacy ≠ some "PROVIDER_ERROR" then
    (mapped.getD "", legacy)
  else match httpStatus.bind fromStatus with
    | some byStatus => (byStatus, legacy)
    | none => (if timedOut then "TIMEOUT" else "UNKNOWN_PROVIDER_FAILURE", legacy)

/-! ## Reports -/

/-- What an observation states. -/
inductive Facts
  | success (latencyMs : Option ℚ) (details : Details)
  | error (latencyMs : Option ℚ) (errorType : String) (legacyErrorName reason : Option String)
      (details : Details)
  | state (status : HealthStatus) (reason : Option String) (details : Details)
  | heartbeat
  | progress (stage : String) (reference : Option String)
  deriving DecidableEq

/-- A component, and the provider when there is one: the empty text stands for none. -/
structure Component where
  component : String
  provider : String
  deriving DecidableEq

structure Observation where
  component : Component
  observedAt : Instant
  facts : Facts
  deriving DecidableEq

/-- What a caller reports; a reason and details as they are sanitized. -/
inductive Report
  | success (latencyMs : Option ℚ) (details : Details)
  | error (kind : Option String) (httpStatus : Option ℤ) (timedOut : Bool)
      (componentError reason : Option String) (latencyMs : Option ℚ) (details : Details)
  | state (status : HealthStatus) (reason : Option String) (details : Details)
  | heartbeat
  | progress (stage : String) (reference : Option String)

structure Request where
  observationId : String
  component : String
  provider : Option String
  observedAt : Instant
  report : Report

/-- `_NAME`. -/
def validName (s : String) : Bool :=
  let alphanumeric := fun c => isUpper c || isLower c || isDigit c
  match s.toList with
  | [] => false
  | c :: rest => alphanumeric c && decide (rest.length ≤ 63)
      && rest.all (fun c => alphanumeric c || c == '_' || c == '.' || c == ':' || c == '-')

/-- `_name`. -/
def name (value field : String) : Except String String := do
  require (validName value) (field ++ ": 1-64 chars [A-Za-z0-9_.:-] required")
  pure value

/-- `_name` of what may be missing. -/
def optionalName (value : Option String) (field : String) : Except String String :=
  match value with
  | none => pure ""
  | some value => name value field

/-- `_latency`. -/
def latency (value : Option ℚ) : Except String (Option ℚ) := do
  require (value.all (fun ms => decide (0 ≤ ms)))
    "latency_ms must be a non-negative finite number"
  pure value

def NOT_CONFIGURED : String := "NOT_CONFIGURED"

/-- The facts of a report: `record_success`, `record_error`, `record_state`,
`record_heartbeat` and `record_progress`. -/
def factsOf : Report → Except String Facts
  | .success latencyMs details => do
      let latencyMs ← latency latencyMs
      pure (.success latencyMs details)
  | .error kind httpStatus timedOut componentError reason latencyMs details =>
      match componentError with
      | none =>
          if kind = some NOT_CONFIGURED then
            pure (.state .unknown (some NOT_CONFIGURED) details)
          else do
            let (errorType, legacy) := classifyProviderError kind httpStatus timedOut
            let latencyMs ← latency latencyMs
            pure (.error latencyMs errorType legacy reason details)
      | some componentError => do
          require (componentErrorTypes.contains componentError) "ComponentErrorType"
          let latencyMs ← latency latencyMs
          pure (.error latencyMs componentError none reason details)
  | .state status reason details => do
      require (status ≠ .healthy ∧ status ≠ .failed)
        "record_state accepts STALE, UNKNOWN or DEGRADED only"
      pure (.state status reason details)
  | .heartbeat => pure .heartbeat
  | .progress stage reference => do
      let stage ← name stage "stage"
      let reference ← optionalName reference "reference"
      pure (.progress stage (if reference = "" then none else some reference))

/-- The id and the observation of a request, or why it is refused. -/
def observationOf (request : Request) : Except String (String × Observation) := do
  let facts ← factsOf request.report
  let component ← name request.component "component"
  let provider ← optionalName request.provider "provider"
  let observationId ← name request.observationId "observation_id"
  pure (observationId, ⟨⟨component, provider⟩, request.observedAt, facts⟩)

/-! ## Records -/

structure ComponentHealth where
  component : Component
  status : HealthStatus := .unknown
  lastSuccessAt : Option Instant := none
  lastErrorAt : Option Instant := none
  lastCheckedAt : Option Instant := none
  heartbeatAt : Option Instant := none
  progressAt : Option Instant := none
  progressStage : Option String := none
  progressRef : Option String := none
  consecutiveErrors : ℕ := 0
  latencyMs : Option ℚ := none
  errorType : Option String := none
  legacyErrorName : Option String := none
  sanitizedErrorReason : Option String := none
  details : Details := none
  deriving DecidableEq

/-- The thresholds of the projection, which are positive. -/
structure HealthPolicy where
  failedAfterConsecutiveErrors : ℕ
  heartbeatStaleAfterSeconds : ℚ
  progressStaleAfterSeconds : ℚ

def emptyHealth (component : Component) : ComponentHealth := { component := component }

/-- `_later`. -/
def later (new : Instant) (old : Option Instant) : Bool := old.all (fun old => decide (old ≤ new))

section Core

variable (policy : HealthPolicy)

/-- `_apply`. -/
def apply (record : ComponentHealth) (o : Observation) : ComponentHealth :=
  match o.facts with
  | .heartbeat =>
      if later o.observedAt record.heartbeatAt = true then
        { record with heartbeatAt := some o.observedAt }
      else record
  | .progress stage reference =>
      if later o.observedAt record.progressAt = true then
        { record with
          progressAt := some o.observedAt
          progressStage := some stage
          progressRef := reference }
      else record
  | .state status reason details =>
      if later o.observedAt record.lastCheckedAt = true then
        { record with
          status := status
          lastCheckedAt := some o.observedAt
          errorType := none
          legacyErrorName := none
          sanitizedErrorReason := reason
          details := details }
      else record
  | .success latencyMs details =>
      if later o.observedAt record.lastCheckedAt = true then
        { record with
          status := .healthy
          lastSuccessAt := some o.observedAt
          lastCheckedAt := some o.observedAt
          consecutiveErrors := 0
          latencyMs := latencyMs
          errorType := none
          legacyErrorName := none
          sanitizedErrorReason := none
          details := details }
      else record
  | .error latencyMs errorType legacyErrorName reason details =>
      if later o.observedAt record.lastCheckedAt = true then
        let errors := record.consecutiveErrors + 1
        { record with
          status := if policy.failedAfterConsecutiveErrors ≤ errors then .failed else .degraded
          lastErrorAt := some o.observedAt
          lastCheckedAt := some o.observedAt
          consecutiveErrors := errors
          latencyMs := latencyMs
          errorType := some errorType
          legacyErrorName := legacyErrorName
          sanitizedErrorReason := reason
          details := details }
      else record

structure ObservationRow where
  observationId : String
  observation : Observation
  deriving DecidableEq

/-- The sidecar: the observations in the order of their arrival, and the records. -/
structure Store where
  observations : Table ObservationRow.observationId := Table.empty
  health : Table ComponentHealth.component := Table.empty

/-- `_read`. -/
def Store.read (s : Store) (component : Component) : ComponentHealth :=
  (s.health.get? component).getD (emptyHealth component)

/-- `_observe`: one transaction, which may fail and then leaves the store as it was. -/
def observe (fails : Bool) (id : String) (o : Observation) (s : Store) :
    Except String ComponentHealth × Store :=
  if fails = true then (.error "OperationalError", s)
  else match s.observations.get? id with
    | some previous =>
        if previous.observation ≠ o then (.error "observation_id reused with different content", s)
        else (.ok (s.read o.component), s)
    | none =>
        let record := apply policy (s.read o.component) o
        (.ok record, ⟨s.observations.put ⟨id, o⟩, s.health.put record⟩)

/-- One request of a caller, and whether its transaction fails. -/
structure Call where
  request : Request
  fails : Bool

def handle (s : Store) (call : Call) : Except String ComponentHealth × Store :=
  match observationOf call.request with
  | .error e => (.error e, s)
  | .ok (id, o) => observe policy call.fails id o s

def step (s : Store) (call : Call) : Store := (handle policy s call).2

/-! ## The projection -/

inductive Liveness
  | unknown
  | alive
  | notAlive
  deriving DecidableEq, Repr

inductive Progress
  | unknown
  | advancing
  | stalled
  deriving DecidableEq, Repr

/-- `total_seconds` of a number of microseconds. -/
def seconds (duration : ℤ) : ℚ := (duration : ℚ) / 1000000

/-- An age within the threshold: neither in the future nor too old. -/
def fresh (age limit : ℚ) : Bool := decide (0 ≤ age ∧ age ≤ limit)

/-- `project`: the status, the liveness and the progress at `now`. -/
def project (record : ComponentHealth) (now : Instant) : HealthStatus × Liveness × Progress :=
  let age := fun (at_ : Option Instant) => at_.map (fun at_ => seconds (now - at_))
  let liveness : Liveness := match age record.heartbeatAt with
    | none => .unknown
    | some age => if fresh age policy.heartbeatStaleAfterSeconds then .alive else .notAlive
  let progress : Progress := match age record.progressAt with
    | none => .unknown
    | some age => if fresh age policy.progressStaleAfterSeconds then .advancing else .stalled
  let status := record.status
  let status := if status = .healthy
      ∧ (age record.lastCheckedAt).any (fun age => decide (policy.progressStaleAfterSeconds < age))
        = true
    then HealthStatus.stale else status
  let status := if progress = .stalled ∧ (status = .healthy ∨ status = .unknown)
    then HealthStatus.stale else status
  let status := if liveness = .notAlive ∧ status = .healthy then HealthStatus.stale else status
  (status, liveness, progress)

end Core

end MarketSystem.SystemHealth
