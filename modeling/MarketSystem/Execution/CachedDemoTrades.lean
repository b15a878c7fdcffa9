import MarketSystem.Execution.Contracts
import Mathlib.Logic.Function.Basic

/-!
# The cache of the demo trades

`CachedDemoTrades.get` is two sections under a lock with a fetch in between, or one section and
a wait. Sessions take these steps in any order, each with its own readings of the clock. The
refreshes that ended are recorded, the latest first; no step reads the record.
-/
namespace MarketSystem.CachedDemoTrades

/-- `CACHE_TTL_SECONDS` -/
def cacheTtlSeconds : ℚ := 10
def tradesFailureTtlSeconds : ℚ := 5
def tradesStaleMaxSeconds : ℚ := 1800

/-- A usable read: its two lists and when they were read. -/
structure Trades (δ : Type) where
  lists : δ
  asOf : Instant
  deriving DecidableEq

/-- How a fetch ends. -/
inductive Fetched (δ : Type)
  | usable (trades : Trades δ)
  | error (code : String)
  | none
  | raised
  deriving DecidableEq

/-- What a `get` returns; `staleError` marks the trades as stale. -/
inductive Result (δ : Type)
  | trades (trades : Trades δ) (staleError : Option String)
  | error (code : String)
  | none
  deriving DecidableEq

variable {κ δ ι : Type} [DecidableEq κ] [DecidableEq ι]

/-- `_usable_trades` -/
def Fetched.usableTrades : Fetched δ → Option (Trades δ)
  | .usable trades => some trades
  | _ => .none

/-- `_failure_code` -/
def Fetched.failureCode : Fetched δ → String
  | .error code => code
  | _ => "unavailable"

def Fetched.result : Fetched δ → Result δ
  | .usable trades => .trades trades .none
  | .error code => .error code
  | .none => .none
  | .raised => .none

/-- A dictionary that never has two keys. -/
def lookup {α : Type} (dict : Option (κ × α)) (since : κ) : Option α :=
  match dict with
  | some (key, value) => if key = since then some value else none
  | none => none

/-- `_cache`, `_good` and `_inflight`. -/
structure Cache (κ δ : Type) where
  cache : Option (κ × ℚ × Result δ) := none
  good : Option (κ × ℚ × Trades δ) := none
  inflight : κ → Bool := fun _ => false

namespace Cache

variable (ttl : ℚ) (c : Cache κ δ) (since : κ)

/-- `_expired` -/
def expired (result : Result δ) (clock : ℚ) : Bool :=
  match result with
  | .trades _ (some _) =>
    match lookup c.good since with
    | none => true
    | some (goodAt, _) => decide (tradesStaleMaxSeconds < clock - goodAt)
  | _ => false

/-- How the first section goes on. -/
inductive Entered (δ : Type)
  | served (result : Result δ)
  | owner
  | waits

/-- The first section; the clock may be read twice in it. -/
def enter (clock clock' : ℚ) : Entered δ × Cache κ δ :=
  let owned : Cache κ δ := { c with inflight := Function.update c.inflight since true }
  match (lookup c.cache since).filter (fun cached => !c.expired since cached.2 clock) with
  | some (storedAt, result) =>
    if clock' - storedAt < ttl then (.served result, c)
    else if c.inflight since then (.served result, c)
    else (.owner, owned)
  | none => if c.inflight since then (.waits, c) else (.owner, owned)

/-- The second section: what the fetch gave is stored, or the last good read in its place. -/
def settle (fetched : Fetched δ) (now : ℚ) : Result δ × Cache κ δ :=
  let inflight := Function.update c.inflight since false
  match fetched.usableTrades with
  | some trades =>
    (fetched.result, ⟨some (since, now, fetched.result), some (since, now, trades), inflight⟩)
  | none =>
    let result :=
      match lookup c.good since with
      | some (goodAt, trades) =>
        if now - goodAt ≤ tradesStaleMaxSeconds then .trades trades (some fetched.failureCode)
        else fetched.result
      | none => fetched.result
    let storedAt := now - max 0 (ttl - tradesFailureTtlSeconds)
    (result, ⟨some (since, storedAt, result), c.good, inflight⟩)

/-- The section after a wait. -/
def waited : Result δ :=
  match lookup c.cache since with
  | some (_, result) => result
  | none => .none

end Cache

/-! ### Sessions -/

/-- Where a session is in its `get`, and when the call began. -/
inductive Phase (κ δ : Type)
  | idle
  | called (since : κ) (began : ℚ)
  | waiting (since : κ) (began : ℚ)
  | fetching (since : κ) (began : ℚ)
  | fetched (since : κ) (began : ℚ) (outcome : Fetched δ)

/-- A refresh that ended. -/
structure Settled (κ δ : Type) where
  since : κ
  endedAt : ℚ
  outcome : Fetched δ
  deriving DecidableEq

structure State (ι κ δ : Type) where
  cache : Cache κ δ := {}
  phase : ι → Phase κ δ := fun _ => .idle
  now : ℚ
  settled : List (Settled κ δ) := []

inductive Event (ι κ δ : Type)
  | call (session : ι) (since : κ) (clock : ℚ)
  | enter (session : ι) (clock clock' : ℚ)
  | fetch (session : ι) (outcome : Fetched δ)
  | settle (session : ι) (clock : ℚ)
  | wake (session : ι)

/-- A `get` that returns. -/
structure Return (κ δ : Type) where
  since : κ
  began : ℚ
  result : Result δ
  deriving DecidableEq

namespace State

variable (ttl : ℚ) (s : State ι κ δ)

def setPhase (session : ι) (phase : Phase κ δ) : State ι κ δ :=
  { s with phase := Function.update s.phase session phase }

/-- One step; nothing happens where the session is elsewhere or the clock would run back. -/
def step : Event ι κ δ → State ι κ δ × Option (Return κ δ)
  | .call session since clock =>
    match s.phase session with
    | .idle =>
      if s.now ≤ clock then ({ s.setPhase session (.called since clock) with now := clock }, none)
      else (s, none)
    | _ => (s, none)
  | .enter session clock clock' =>
    match s.phase session with
    | .called since began =>
      if s.now ≤ clock ∧ clock ≤ clock' then
        match s.cache.enter ttl since clock clock' with
        | (.served result, cache) =>
          ({ s.setPhase session .idle with cache := cache, now := clock' },
            some ⟨since, began, result⟩)
        | (.owner, cache) =>
          ({ s.setPhase session (.fetching since began) with cache := cache, now := clock' }, none)
        | (.waits, cache) =>
          ({ s.setPhase session (.waiting since began) with cache := cache, now := clock' }, none)
      else (s, none)
    | _ => (s, none)
  | .fetch session outcome =>
    match s.phase session with
    | .fetching since began => (s.setPhase session (.fetched since began outcome), none)
    | _ => (s, none)
  | .settle session clock =>
    match s.phase session with
    | .fetched since began outcome =>
      if s.now ≤ clock then
        match s.cache.settle ttl since outcome clock with
        | (result, cache) =>
          ({ s.setPhase session .idle with
              cache := cache, now := clock, settled := ⟨since, clock, outcome⟩ :: s.settled },
            -- an exception of the fetch goes on once the section has ended
            match outcome with
            | .raised => none
            | _ => some ⟨since, began, result⟩)
      else (s, none)
    | _ => (s, none)
  | .wake session =>
    match s.phase session with
    | .waiting since began =>
      (s.setPhase session .idle, some ⟨since, began, s.cache.waited since⟩)
    | _ => (s, none)

end State

end MarketSystem.CachedDemoTrades
