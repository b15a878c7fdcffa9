import MarketSystem.Execution.Contracts
import MarketSystem.Library.Paging

/-!
# Reading the demo trades

Two lists, CLOSED and then OPEN, each read in pages by a cursor and with retries. The server is
asked by the number of the GET and the clock by the number of the reading, so both may answer
anything at any moment. The pages of a list are recorded beside it; no function reads them.
-/
namespace MarketSystem.DemoTrades

def tradesPageSize : ℕ := 500
def tradesMaxPages : ℕ := 10
def tradesAttempts : ℕ := 3
/-- `TRADES_REFRESH_DEADLINE_SECONDS` -/
def tradesRefreshDeadlineSeconds : ℚ := 8

inductive TradeState
  | open_
  | closed
  deriving DecidableEq

/-- `safe_trade`, the fields a read looks at. -/
structure SafeTrade where
  id : Option ℕ
  openTime : Option Instant
  state : Option TradeState
  deriving DecidableEq

structure Query where
  state : TradeState
  beforeId : Option ℕ
  deriving DecidableEq

/-- The answer to a GET: a page, or the code of a `ReadOnlyError`. -/
abbrev Server := ℕ → Query → Except String (List SafeTrade)

/-- How many GETs and readings of the clock there have been. -/
structure Ticks where
  gets : ℕ := 0
  reads : ℕ := 0
  deriving DecidableEq

/-- A page that was read: its GET, and the lowest id on it. -/
structure PageRead where
  get : ℕ
  lowest : Option ℕ
  deriving DecidableEq

/-- A list that was read. -/
structure Listing where
  trades : List SafeTrade
  pages : List PageRead
  deriving DecidableEq

def ids (page : List SafeTrade) : List ℕ := page.filterMap (·.id)

/-- The reader: server, clock and the arguments of a read. -/
structure Reader where
  server : Server
  clock : ℕ → ℚ
  since : Option Instant
  maxPages : ℕ := tradesMaxPages

namespace Reader

variable (r : Reader) (state : TradeState)

/-- A trade opened before `since`, or at no readable time, ends the paging. -/
def endsPaging (page : List SafeTrade) : Bool :=
  match r.since with
  | none => false
  | some since => page.any (fun trade => trade.openTime.all (fun at_ => decide (at_ < since)))

/-- The pages from a cursor on, at most `n` of them. -/
def pages (deadline : ℚ) : ℕ → Listing → Option ℕ → Ticks → Except String Listing × Ticks
  | 0, _, _, t => (.error "incomplete", t)
  | n + 1, read, before, t =>
    if deadline - r.clock t.reads ≤ 0 then (.error "deadline", { t with reads := t.reads + 1 })
    else
      match r.server t.gets ⟨state, before⟩ with
      | .error code => (.error code, ⟨t.gets + 1, t.reads + 1⟩)
      | .ok page =>
        let seen := ids read.trades
        let fresh := page.filter (fun trade => trade.id.any (fun id => decide (id ∉ seen)))
        let read := ⟨read.trades ++ fresh, read.pages ++ [⟨t.gets, (ids page).min?⟩]⟩
        let t : Ticks := ⟨t.gets + 1, t.reads + 1⟩
        match (ids page).min? with
        | none => (.ok read, t)
        | some lowest =>
          if page.length < tradesPageSize ∨ lowest ≤ 1 then (.ok read, t)
          else if r.endsPaging page then (.ok read, t)
          else pages deadline n read (some (lowest - 1)) t

/-- `get_trades` -/
def getTrades (deadline : ℚ) (t : Ticks) : Except String Listing × Ticks :=
  match r.pages state deadline (max 1 (min r.maxPages tradesMaxPages)) ⟨[], []⟩ none t with
  | (.error code, t) => (.error code, t)
  | (.ok read, t) =>
    if deadline < r.clock t.reads then (.error "deadline", { t with reads := t.reads + 1 })
    else (.ok read, { t with reads := t.reads + 1 })

/-- `_transient` -/
def transient (code : String) : Bool :=
  decide (code ∈ ["timeout", "unavailable"]) || "http_5".toList.isPrefixOf code.toList

/-- `_read_state`, with `n` attempts left after this one. -/
def readState (deadline : ℚ) : ℕ → Ticks → Except String Listing × Ticks
  | n, t =>
    match r.getTrades state deadline t with
    | (.ok read, t) => (.ok read, t)
    | (.error code, t) =>
      match n with
      | 0 => (.error code, t)
      | n + 1 =>
        if transient code = false then (.error code, t)
        else if deadline ≤ r.clock t.reads then (.error code, { t with reads := t.reads + 1 })
        else readState deadline n { t with reads := t.reads + 1 }

/-- What `demo_trades` returns. -/
inductive Result
  | read (closed opened : Listing)
  | error (code : String)
  | none
  deriving DecidableEq

def tradesErrors : List String := ["incomplete", "deadline"]

def failed (reportErrors : Bool) (code : String) : Result :=
  if code ∈ tradesErrors ∨ reportErrors then .error code else .none

/-- `demo_trades`; `configured` says that there is a token and an account. -/
def demoTrades (configured reportErrors : Bool) (deadlineSeconds : ℚ) : Result × Ticks :=
  let deadline := r.clock 0 + deadlineSeconds
  let t : Ticks := ⟨0, 1⟩
  if configured = false then (if reportErrors then .error "not_configured" else .none, t)
  else
    match r.readState .closed deadline (tradesAttempts - 1) t with
    | (.error code, t) => (failed reportErrors code, t)
    | (.ok closed, t) =>
      match r.readState .open_ deadline (tradesAttempts - 1) t with
      | (.error code, t) => (failed reportErrors code, t)
      | (.ok opened, t) => (.read closed opened, t)

end Reader

end MarketSystem.DemoTrades
