import MarketSystem.Execution.OandaBroker
import Mathlib.Data.NNRat.Defs
import Mathlib.Data.String.Basic

/-!
# The OANDA client

Requests to the practice host: a limiter for each category, a guard right before every attempt of a
trading request, a bounded number of new attempts after a 429 and, for reads, after a failure of the
server. What an attempt comes back with, how long everything takes and what the guard says is
`Outside`; it may depend in any way on what happened before.
-/
namespace MarketSystem.OandaClient

open Library
open OandaBroker (BrokerError Payload Reply decode)

inductive Category
  | data
  | trading
  deriving DecidableEq

inductive Method
  | get
  | post
  | put
  deriving DecidableEq

/-- What an endpoint passes to `_call`. Each of them reads with `DATA` and `GET`, or trades with
`TRADING` and another method. -/
structure Request where
  category : Category
  method : Method
  path : String
  body : Option Payload
  reads : category = .data ↔ method = .get

def PRACTICE_REST_URL : String := "https://api-fxpractice.oanda.com/v3"

def Request.url (r : Request) : String := PRACTICE_REST_URL ++ r.path

/-- `_request_url_ok`. The beginning fixes the scheme, the host and the path that the parts of the
address are compared with, and leaves no place for a user or a port. -/
def requestUrlOk (url : String) : Bool :=
  url.startsWith (PRACTICE_REST_URL ++ "/") && !url.toList.contains '#'

/-- What `float` makes of a text. -/
inductive Number
  | finite (q : ℚ)
  | posInf
  | negInf
  | nan

inductive Transport
  | answer (status : ℕ) (headers : List (String × String)) (payload : Option Payload)
  | timeout
  | failure
  | raised (name : String)

/-- An attempt that the limiter let through: the verdict of the guard, and what was sent came back
with. Without an outcome nothing was sent. -/
structure Tried where
  request : Request
  grantedAt : ℚ
  verdict : Except BrokerError Unit
  outcome : Option Transport

/-- The client. `tried` and `waits` record what it did; nothing reads them. -/
structure Client where
  now : ℚ
  next : Category → Option ℚ
  lastOkAt : Option ℚ
  lastError : Option String
  tried : List Tried
  waits : List ℚ

structure Options where
  max429 : ℕ
  maxReadRetries : ℕ
  backoffBase : ℚ≥0
  backoffCap : ℚ≥0
  interval : Category → ℚ≥0

/-- Everything that the client does not decide. -/
structure Outside where
  /-- How much longer than asked a sleep takes. -/
  oversleeps : Client → ℚ≥0
  /-- The time before a call. -/
  idles : Client → ℚ≥0
  guard : Client → Except BrokerError Unit
  guardTakes : Client → ℚ≥0
  transport : Client → Request → Transport
  transportTakes : Client → ℚ≥0
  /-- `float` of a header; `none` where it raises. -/
  float : String → Option Number

section Client

variable (options : Options) (outside : Outside)

def Client.fail (c : Client) (e : BrokerError) : Client := { c with lastError := some e.name }

def Client.pass (c : Client) (t : ℚ≥0) : Client := { c with now := c.now + t }

/-- `_sleep`. -/
def sleep (c : Client) (seconds : ℚ) : Client := { c with now := c.now + seconds + outside.oversleeps c }

/-- `RateLimiter.acquire`. -/
def acquire (category : Category) (c : Client) : Client :=
  let wait := (c.next category).getD c.now - c.now
  let c := if 0 < wait then sleep outside c wait else c
  { c with
    next := fun k =>
      if k = category then some (max c.now ((c.next category).getD c.now) + options.interval category)
      else c.next k }

/-- `_send`. -/
def send (r : Request) (c : Client) :
    Except BrokerError (ℕ × List (String × String) × Option Payload) × Client :=
  if requestUrlOk r.url = false then (.error .guard, c.fail .guard)
  else
    let c := acquire options outside r.category c
    let grantedAt := c.now
    let verdict := if r.category = .trading then outside.guard c else .ok ()
    let c := if r.category = .trading then c.pass (outside.guardTakes c) else c
    match verdict with
    | .error e =>
      let c := { c with tried := c.tried ++ [⟨r, grantedAt, .error e, none⟩] }
      -- Only a `BrokerGuardError` is caught on its way.
      (.error e, if e = .guard then c.fail e else c)
    | .ok _ =>
      let outcome := outside.transport c r
      let c := c.pass (outside.transportTakes c)
      let c := { c with tried := c.tried ++ [⟨r, grantedAt, .ok (), some outcome⟩] }
      match outcome with
      | .answer status headers payload => (.ok (status, headers, payload), c)
      | .timeout => (.error .timeout, c.fail .timeout)
      | .failure => (.error .unavailable, c.fail .unavailable)
      | .raised name => (.error (.other name), c)

/-- `_retry_after`. -/
def retryAfter (headers : List (String × String)) : Option Number :=
  match headers.find? (fun h => h.1.toLower == "retry-after") with
  | none => none
  | some h => outside.float h.2

/-- `min(max(delay, base), cap)`; a delay that is no number stays one. -/
def clampDelay (base cap : ℚ) : Number → Option ℚ
  | .finite q => some (min (max q base) cap)
  | .posInf => some cap
  | .negInf => some (min base cap)
  | .nan => none

/-- The wait after a 429; `none` where `sleep` refuses it. -/
def delay429 (headers : List (String × String)) (attempts429 : ℕ) : Option ℚ :=
  clampDelay options.backoffBase options.backoffCap
    ((retryAfter outside headers).getD (.finite (options.backoffBase * 2 ^ attempts429)))

/-- A sleep between two attempts. -/
def backoff (c : Client) (seconds : ℚ) : Client :=
  { sleep outside c seconds with waits := c.waits ++ [seconds] }

/-- `_decode`. -/
def conclude (status : ℕ) (payload : Option Payload) (c : Client) : Reply × Client :=
  match decode status payload with
  | .ok value => (.ok value, { c with lastOkAt := some c.now, lastError := none })
  | .error e => (.error e, c.fail e)

/-- The loop of `_call`. -/
def attempts (r : Request) (attempts429 attempts5xx : ℕ) (c : Client) : Reply × Client :=
  match send options outside r c with
  | (.error e, c) => (.error e, c)
  | (.ok (status, headers, payload), c) =>
    if status = 429 then
      if _h : options.max429 ≤ attempts429 then (.error .rateLimited, c.fail .rateLimited)
      else
        match delay429 options outside headers attempts429 with
        | none => (.error (.other "ValueError"), c)
        | some seconds =>
          attempts r (attempts429 + 1) attempts5xx (backoff outside c seconds)
    else if _h : 500 ≤ status ∧ r.method = .get ∧ attempts5xx < options.maxReadRetries then
      attempts r attempts429 (attempts5xx + 1) (backoff outside c
        (min (options.backoffBase * 2 ^ attempts5xx) options.backoffCap))
    else conclude status payload c
  termination_by (options.max429 - attempts429) + (options.maxReadRetries - attempts5xx)

/-- `_call`. -/
def call (r : Request) (c : Client) : Reply × Client := attempts options outside r 0 0 c

end Client

end MarketSystem.OandaClient
