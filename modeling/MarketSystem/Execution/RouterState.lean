import MarketSystem.Execution.Contracts
import MarketSystem.Library.Process
import MarketSystem.Library.Table

/-!
# The state of the demo router

The rows of `broker_demo_trades`, the flags beside them and the book of the broker.
Rows are written by one router; the dashboard stores requests, and the book moves by
itself: a resting order fills or expires, and an open trade reaches its stop or target.
-/
namespace MarketSystem.RouterState

open Library

inductive Status
  | pendingSend
  | open
  | unknown
  | rejected
  | closed
  | closedAtBroker
  | dryRun
  | pendingLimit
  | cancelled
  deriving DecidableEq, Repr

/-- `LIVE_STATUSES`. -/
def LIVE_STATUSES : List Status := [.pendingSend, .open, .unknown, .pendingLimit]

/-- `UNRESOLVED_STATUSES`. -/
def UNRESOLVED_STATUSES : List Status := [.pendingSend, .unknown]

/-- `UNKNOWN`, as the status of an action. -/
def UNKNOWN : String := "UNKNOWN"

/-- A row of `broker_demo_trades`. -/
structure Row where
  clientId : String
  units : ℤ
  entry : ℚ
  stop : ℚ
  initialStop : Option ℚ := none
  tradeId : Option String := none
  fillPrice : Option ℚ := none
  openedAt : Option Instant := none
  stage : Option String := none
  status : Status
  closedReason : Option String := none
  pendingAction : Option String := none
  actionStatus : Option String := none
  createdAt : Instant
  orderKind : Option String := none
  orderId : Option String := none
  unitsRemaining : Option ℤ := none
  deriving DecidableEq

/-- The outcome of an earlier action is not known. -/
abbrev Row.Latched (row : Row) : Prop := row.actionStatus = some UNKNOWN

/-- The rows that `_reconcile_limit` looks after. -/
abbrev Row.IsLimit (row : Row) : Prop :=
  row.status = .pendingLimit ∨ row.orderKind = some "LIMIT" ∧ row.status ∈ UNRESOLVED_STATUSES

/-! ## The broker's book -/

structure OpenTrade where
  tradeId : String
  instrument : String
  price : ℚ
  clientExtId : Option String := none
  stop : Option ℚ := none
  openTime : Option Instant := none
  deriving DecidableEq

/-- A resting order always has an id. -/
structure PendingOrder where
  orderId : String
  clientExtId : Option String
  valid : orderId ≠ ""

theorem PendingOrder.ext_iff {o o' : PendingOrder} :
    o = o' ↔ o.orderId = o'.orderId ∧ o.clientExtId = o'.clientExtId := by
  cases o
  cases o'
  simp

instance : DecidableEq PendingOrder := fun _ _ => decidable_of_iff _ PendingOrder.ext_iff.symm

/-- What rests and what is open. A client id names one order or trade at a time. -/
structure Book where
  orders : List PendingOrder
  trades : List OpenTrade
  /-- The trade that was made under a client id, open or not. -/
  made : String → Option String
  oneOrder : ∀ o ∈ orders, ∀ o' ∈ orders, ∀ e, o.clientExtId = some e →
    o'.clientExtId = some e → o = o'
  oneTrade : ∀ t ∈ trades, ∀ t' ∈ trades, ∀ e, t.clientExtId = some e →
    t'.clientExtId = some e → t = t'
  apart : ∀ o ∈ orders, ∀ t ∈ trades, ∀ e, o.clientExtId = some e → t.clientExtId ≠ some e
  orderIds : ∀ o ∈ orders, ∀ o' ∈ orders, o.orderId = o'.orderId → o = o'

/-- The book without the orders of an id. -/
def Book.withoutOrder (book : Book) (orderId : String) : Book where
  orders := book.orders.filter (fun o => decide (o.orderId ≠ orderId))
  trades := book.trades
  made := book.made
  oneOrder o ho o' ho' := book.oneOrder o (List.mem_of_mem_filter ho) o'
    (List.mem_of_mem_filter ho')
  oneTrade := book.oneTrade
  apart o ho := book.apart o (List.mem_of_mem_filter ho)
  orderIds o ho o' ho' := book.orderIds o (List.mem_of_mem_filter ho) o'
    (List.mem_of_mem_filter ho')

/-- The book without the trades of an id. -/
def Book.withoutTrade (book : Book) (tradeId : String) : Book where
  orders := book.orders
  trades := book.trades.filter (fun t => decide (t.tradeId ≠ tradeId))
  made := book.made
  oneOrder := book.oneOrder
  oneTrade t ht t' ht' := book.oneTrade t (List.mem_of_mem_filter ht) t'
    (List.mem_of_mem_filter ht')
  apart o ho t ht := book.apart o ho t (List.mem_of_mem_filter ht)
  orderIds := book.orderIds

@[simp] theorem mem_orders_withoutOrder {book : Book} {orderId : String} {o : PendingOrder} :
    o ∈ (book.withoutOrder orderId).orders ↔ o ∈ book.orders ∧ o.orderId ≠ orderId := by
  simp [Book.withoutOrder]

@[simp] theorem trades_withoutOrder {book : Book} {orderId : String} :
    (book.withoutOrder orderId).trades = book.trades := rfl

@[simp] theorem orders_withoutTrade {book : Book} {tradeId : String} :
    (book.withoutTrade tradeId).orders = book.orders := rfl

@[simp] theorem mem_trades_withoutTrade {book : Book} {tradeId : String} {t : OpenTrade} :
    t ∈ (book.withoutTrade tradeId).trades ↔ t ∈ book.trades ∧ t.tradeId ≠ tradeId := by
  simp [Book.withoutTrade]

/-- What the market may do: orders leave, trades leave, and a trade comes only from an
order that has left. -/
structure Market (book book' : Book) : Prop where
  orders : ∀ o ∈ book'.orders, o ∈ book.orders
  trades : ∀ t ∈ book'.trades, t ∈ book.trades ∨
    ∃ o ∈ book.orders, o ∉ book'.orders ∧ t.clientExtId = o.clientExtId

theorem Market.refl (book : Book) : Market book book := ⟨fun _ h => h, fun _ h => .inl h⟩

theorem Market.trans {a b c : Book} (hab : Market a b) (hbc : Market b c) : Market a c := by
  refine ⟨fun o ho => hab.orders o (hbc.orders o ho), fun t ht => ?_⟩
  obtain hold | ⟨o, ho, hleft, hext⟩ := hbc.trades t ht
  · obtain hold | ⟨o, ho, hleft, hext⟩ := hab.trades t hold
    · exact .inl hold
    · exact .inr ⟨o, ho, fun hc => hleft (hbc.orders o hc), hext⟩
  · exact .inr ⟨o, hab.orders o ho, hleft, hext⟩

theorem market_withoutOrder (book : Book) (orderId : String) :
    Market book (book.withoutOrder orderId) :=
  ⟨fun _ ho => (mem_orders_withoutOrder.mp ho).1, fun _ ht => .inl ht⟩

theorem market_withoutTrade (book : Book) (tradeId : String) :
    Market book (book.withoutTrade tradeId) :=
  ⟨fun _ ho => ho, fun _ ht => .inl (mem_trades_withoutTrade.mp ht).1⟩

/-! ## The broker's answers -/

/-- What a call that changes the book comes back with. -/
inductive Answer
  | accepted
  | rejected (reason : String)
  | unknown (reason : String)
  /-- `BrokerAuthError` or `BrokerRateLimited`: nothing was processed. -/
  | notProcessed (error : String)
  /-- Any other exception: it may have been processed. -/
  | raised (error : String)
  deriving DecidableEq

/-- The calls that the router makes. A read that fails is `none`. -/
structure Broker where
  openTrades : Book → Option (List OpenTrade)
  pendingOrders : Book → Option (List PendingOrder)
  /-- `trade_id_for_client`, for the extension id. -/
  tradeIdForClient : String → Book → Option (Option String)
  cancelOrder : String → Book → Answer × Book
  closeMarket : String → Book → Answer × Book

/-- Every read shows the book. A resting order is cancelled and an open trade is closed;
what is not there is reported as such. -/
def truthful : Broker where
  openTrades book := some book.trades
  pendingOrders book := some book.orders
  tradeIdForClient ext book := some (book.made ext)
  cancelOrder orderId book :=
    if ∃ o ∈ book.orders, o.orderId = orderId then (.accepted, book.withoutOrder orderId)
    else (.rejected "order_not_found", book)
  closeMarket tradeId book :=
    if ∃ t ∈ book.trades, t.tradeId = tradeId then (.accepted, book.withoutTrade tradeId)
    else (.rejected "no_open_position", book)

/-! ## The store -/

/-- A `drift_clear_request`, as parsed; the actor of a malformed one is missing. -/
structure ClearRequest where
  actor : Option String
  episode : Option String
  deriving DecidableEq

structure World where
  rows : Table Row.clientId
  /-- `flatten_request`. -/
  flattenRequest : Option String := none
  /-- `drift_clear_request`. -/
  driftClear : Option ClearRequest := none
  /-- `drift_episode`. -/
  driftEpisode : Option String := none
  /-- `blocked_reason`. -/
  blocked : Option String := none
  book : Book

/-- A stored text counts when it is not empty. -/
def stored (value : Option String) : Bool :=
  match value with
  | some text => decide (text ≠ "")
  | none => false

/-- The columns that one statement sets. -/
structure Update where
  apply : Row → Row
  keeps : ∀ r, (apply r).clientId = r.clientId

/-- The update of the row of a client id; every other row stays. -/
def Update.at (u : Update) (clientId : String) (r : Row) : Row :=
  if r.clientId = clientId then u.apply r else r

theorem Update.at_clientId (u : Update) (clientId : String) (r : Row) :
    (u.at clientId r).clientId = r.clientId := by
  unfold Update.at
  split_ifs
  · exact u.keeps r
  · rfl

/-- `DemoStateStore.update`. -/
def World.update (s : World) (clientId : String) (u : Update) : World :=
  { s with rows := s.rows.modify (u.at clientId) (u.at_clientId clientId) }

/-- `DemoStateStore.trades`. -/
def World.trades (s : World) (statuses : List Status) : List Row :=
  s.rows.rows.filter (fun r => decide (r.status ∈ statuses))

@[simp] theorem mem_trades {s : World} {statuses : List Status} {r : Row} :
    r ∈ s.trades statuses ↔ r ∈ s.rows ∧ r.status ∈ statuses := by
  simp [World.trades, Table.mem_def]

@[simp] theorem book_update (s : World) (clientId : String) (u : Update) :
    (s.update clientId u).book = s.book := rfl

@[simp] theorem flattenRequest_update (s : World) (clientId : String) (u : Update) :
    (s.update clientId u).flattenRequest = s.flattenRequest := rfl

/-- An update changes its own row and no other. -/
theorem mem_update {s : World} {clientId : String} {u : Update} {r : Row} :
    r ∈ (s.update clientId u).rows ↔
      (∃ r₀ ∈ s.rows, r₀.clientId = clientId ∧ u.apply r₀ = r) ∨
        r ∈ s.rows ∧ r.clientId ≠ clientId := by
  simp only [World.update, Table.mem_modify, Update.at]
  constructor
  · rintro ⟨r₀, hr₀, h⟩
    split_ifs at h with hid
    · exact .inl ⟨r₀, hr₀, hid, h⟩
    · exact .inr (h ▸ ⟨hr₀, hid⟩)
  · rintro (⟨r₀, hr₀, hid, h⟩ | ⟨hr, hid⟩)
    · exact ⟨r₀, hr₀, by rw [if_pos hid, h]⟩
    · exact ⟨r, hr, if_neg hid⟩

end MarketSystem.RouterState
