import MarketSystem.Execution.DemoTrades
import Mathlib.Data.List.Nodup
import Mathlib.Data.List.Pairwise

/-!
# What a read of the demo trades has

The broker opens and closes trades at any moment between two GETs. A list that was read has a
trade exactly when the trade was in the state of the list at the GET of the page that covers its
id; a trade that closes after its CLOSED page and before its OPEN page is in neither list.
-/
namespace MarketSystem.DemoTrades

open Library

/-- A trade: listed from the GET `opens` on, CLOSED from the GET `closes` on. -/
structure BrokerTrade where
  id : ℕ
  openTime : Instant
  opens : ℕ
  closes : Option ℕ
  positive : 0 < id

namespace BrokerTrade

/-- The list a trade is in when a GET is answered. -/
def stateAt (trade : BrokerTrade) (get : ℕ) : Option TradeState :=
  if get < trade.opens then none
  else if trade.closes.any (fun closes => decide (closes ≤ get)) then some .closed
  else some .open_

theorem stateAt_eq_closed_iff {trade : BrokerTrade} {get : ℕ} :
    trade.stateAt get = some .closed ↔
      trade.opens ≤ get ∧ ∃ c, trade.closes = some c ∧ c ≤ get := by
  unfold stateAt
  by_cases hbefore : get < trade.opens
  · simp [hbefore]
  · cases hcloses : trade.closes with
    | none => simp [hbefore]
    | some c =>
      by_cases hle : c ≤ get <;> simp [hbefore, hle, Nat.le_of_not_lt hbefore]

theorem stateAt_eq_open_iff {trade : BrokerTrade} {get : ℕ} :
    trade.stateAt get = some .open_ ↔
      trade.opens ≤ get ∧ ∀ c, trade.closes = some c → get < c := by
  unfold stateAt
  by_cases hbefore : get < trade.opens
  · simp [hbefore]
  · cases hcloses : trade.closes with
    | none => simp [hbefore, Nat.le_of_not_lt hbefore]
    | some c =>
      by_cases hle : c ≤ get
      · simp [hbefore, hle]
      · simp [hbefore, hle, Nat.le_of_not_lt hbefore, Nat.lt_of_not_le hle]

/-- The trade as a GET returns it. -/
def safe (trade : BrokerTrade) (get : ℕ) : SafeTrade :=
  ⟨some trade.id, some trade.openTime, trade.stateAt get⟩

end BrokerTrade

/-- All trades of the account, the newest first. -/
structure Broker where
  trades : List BrokerTrade
  newestFirst : trades.Pairwise (fun a b => b.id < a.id)
  inOrder : trades.Pairwise (fun a b => b.openTime ≤ a.openTime)

namespace Broker

variable (b : Broker)

/-- What a GET returns: the newest trades of its state at or below its cursor. -/
def page (get : ℕ) (q : Query) : List BrokerTrade :=
  Paging.page (·.id) tradesPageSize q.beforeId (fun trade => decide (trade.stateAt get = some q.state))
    b.trades

/-- Every GET that succeeds returns what the broker lists at that moment. -/
def Serves (server : Server) : Prop :=
  ∀ get q page, server get q = .ok page → page = (b.page get q).map (·.safe get)

variable {b} {x y : BrokerTrade}

theorem eq_of_id (hx : x ∈ b.trades) (hy : y ∈ b.trades) (h : x.id = y.id) : x = y := by
  have hnodup : (b.trades.map (·.id)).Nodup :=
    List.pairwise_map.mpr (b.newestFirst.imp (fun hlt => Nat.ne_of_gt hlt))
  exact List.inj_on_of_nodup_map hnodup hx hy h

/-- Open times grow with the ids. -/
theorem openTime_le (hx : x ∈ b.trades) (hy : y ∈ b.trades) (h : x.id ≤ y.id) :
    x.openTime ≤ y.openTime := by
  have hforward : b.trades.Pairwise (fun a c => a.id ≤ c.id → a.openTime ≤ c.openTime) :=
    b.newestFirst.imp (fun hlt hle => absurd hle (Nat.not_le.mpr hlt))
  have hbackward : b.trades.Pairwise (fun a c => c.id ≤ a.id → c.openTime ≤ a.openTime) := by
    refine b.inOrder.imp ?_
    intro a c hle _
    exact hle
  exact hforward.forall_of_forall_of_flip (fun _ _ _ => le_rfl) hbackward hx hy h

end Broker

/-- The GET of the page that covers an id: the first page with an id as low, or the last. -/
def cover : List PageRead → ℕ → ℕ
  | [], _ => 0
  | p :: rest, id =>
    if p.lowest.any (fun lowest => decide (lowest ≤ id)) ∨ rest.isEmpty then p.get
    else cover rest id

/-- What a reader has of one list, from a cursor on, after the GETs from `start` up to `stop`. -/
structure Reads (b : Broker) (state : TradeState) (since : Option Instant) (before : Option ℕ)
    (start stop : ℕ) (trades : List SafeTrade) (pages : List PageRead) : Prop where
  order : start < stop
  read : pages.isEmpty = false
  nodup : (ids trades).Nodup
  listed : ∀ x ∈ trades, ∃ trade ∈ b.trades, ∃ get, start ≤ get ∧ get < stop ∧
    x = trade.safe get ∧ trade.stateAt get = some state ∧ ∀ c, before = some c → trade.id ≤ c
  covered : ∀ trade ∈ b.trades, (∀ c, before = some c → trade.id ≤ c) →
    (∀ s, since = some s → s ≤ trade.openTime) →
    start ≤ cover pages trade.id ∧ cover pages trade.id < stop ∧
      (trade.id ∈ ids trades ↔ trade.stateAt (cover pages trade.id) = some state)

section Page

variable {b : Broker} {get : ℕ} {q : Query} {trade : BrokerTrade}

theorem ids_page : ids ((b.page get q).map (·.safe get)) = (b.page get q).map (·.id) := by
  unfold ids
  rw [List.filterMap_map]
  exact congrFun (List.filterMap_eq_map (f := fun trade : BrokerTrade => trade.id)) _

theorem nodup_page : (ids ((b.page get q).map (·.safe get))).Nodup := by
  rw [ids_page]
  have hsorted : (b.page get q).Pairwise (fun a c => c.id < a.id) :=
    Paging.pairwise_page b.newestFirst
  exact List.pairwise_map.mpr (hsorted.imp (fun hlt => Nat.ne_of_gt hlt))

theorem mem_of_page (h : trade ∈ b.page get q) :
    trade ∈ b.trades ∧ trade.stateAt get = some q.state ∧
      ∀ c, q.beforeId = some c → trade.id ≤ c := by
  obtain ⟨hmem, hlisted, hbefore⟩ := Paging.mem_of_page h
  exact ⟨hmem, of_decide_eq_true hlisted, hbefore⟩

/-- A page that reaches an id has the trade of that id exactly when it is listed. -/
theorem mem_ids_page_iff (htrade : trade ∈ b.trades)
    (hbefore : ∀ c, q.beforeId = some c → trade.id ≤ c)
    (hreached : (b.page get q).length < tradesPageSize ∨
      ∃ y ∈ b.page get q, y.id ≤ trade.id) :
    trade.id ∈ (b.page get q).map (·.id) ↔ trade.stateAt get = some q.state := by
  constructor
  · intro hmem
    obtain ⟨y, hy, hid⟩ := List.mem_map.mp hmem
    obtain ⟨hy', hstate, -⟩ := mem_of_page hy
    obtain rfl := Broker.eq_of_id hy' htrade hid
    exact hstate
  · intro hstate
    exact List.mem_map_of_mem (Paging.mem_page b.newestFirst htrade (decide_eq_true hstate)
      hbefore hreached)

/-- A page that ends the paging reaches every id there is above `since`. -/
theorem reached_of_endsPaging {r : Reader} (h : r.endsPaging ((b.page get q).map (·.safe get)) = true)
    (htrade : trade ∈ b.trades) (hsince : ∀ s, r.since = some s → s ≤ trade.openTime) :
    ∃ y ∈ b.page get q, y.id ≤ trade.id := by
  unfold Reader.endsPaging at h
  cases hs : r.since with
  | none => simp [hs] at h
  | some s =>
    simp only [hs, List.any_map, List.any_eq_true] at h
    obtain ⟨y, hy, hearly⟩ := h
    have hlt : y.openTime < s := by
      simpa [BrokerTrade.safe] using hearly
    refine ⟨y, hy, ?_⟩
    by_contra hno
    have hle := Broker.openTime_le htrade (mem_of_page hy).1 (Nat.le_of_not_le hno)
    exact absurd (hsince s hs) (not_le.mpr (hle.trans_lt hlt))

end Page

/-! ### The pages of one list -/

theorem ids_append (xs ys : List SafeTrade) : ids (xs ++ ys) = ids xs ++ ids ys :=
  List.filterMap_append ..

section Pages

variable {b : Broker} {r : Reader} {state : TradeState} {deadline : ℚ}

/-- One page is a read of its list when it is the last one. -/
theorem reads_last {get : ℕ} {before lowest : Option ℕ}
    (hreached : ∀ trade ∈ b.trades, (∀ c, before = some c → trade.id ≤ c) →
      (∀ s, r.since = some s → s ≤ trade.openTime) →
      (b.page get ⟨state, before⟩).length < tradesPageSize ∨
        ∃ y ∈ b.page get ⟨state, before⟩, y.id ≤ trade.id) :
    Reads b state r.since before get (get + 1) ((b.page get ⟨state, before⟩).map (·.safe get))
      [⟨get, lowest⟩] where
  order := Nat.lt_succ_self get
  read := rfl
  nodup := nodup_page
  listed x hx := by
    obtain ⟨trade, htrade, rfl⟩ := List.mem_map.mp hx
    obtain ⟨hmem, hstate, hbefore⟩ := mem_of_page htrade
    exact ⟨trade, hmem, get, le_rfl, Nat.lt_succ_self get, rfl, hstate, hbefore⟩
  covered trade htrade hbefore hsince := by
    have hcover : cover [⟨get, lowest⟩] trade.id = get := by simp [cover]
    rw [hcover, ids_page]
    exact ⟨le_rfl, Nat.lt_succ_self get,
      mem_ids_page_iff htrade hbefore (hreached trade htrade hbefore hsince)⟩

theorem Reads.id_le {before : Option ℕ} {start stop n c : ℕ} {trades : List SafeTrade}
    {pages : List PageRead} (h : Reads b state r.since before start stop trades pages)
    (hn : n ∈ ids trades) (hc : before = some c) : n ≤ c := by
  obtain ⟨x, hx, hid⟩ := List.mem_filterMap.mp hn
  obtain ⟨trade, -, get, -, -, rfl, -, hbefore⟩ := h.listed x hx
  obtain rfl : trade.id = n := Option.some.inj hid
  exact hbefore c hc

/-- A full page and a read from below its lowest id. -/
theorem Reads.cons {get stop lowest : ℕ} {before : Option ℕ} {trades : List SafeTrade}
    {pages : List PageRead}
    (h : Reads b state r.since (some (lowest - 1)) (get + 1) stop trades pages)
    (hpositive : 1 < lowest)
    (hlowest : (ids ((b.page get ⟨state, before⟩).map (·.safe get))).min? = some lowest) :
    Reads b state r.since before get stop
      ((b.page get ⟨state, before⟩).map (·.safe get) ++ trades) (⟨get, some lowest⟩ :: pages) := by
  rw [ids_page, List.min?_eq_some_iff] at hlowest
  obtain ⟨hmem, hle⟩ := hlowest
  obtain ⟨least, hleast, hleastId⟩ := List.mem_map.mp hmem
  have hbelow : ∀ n ∈ ids trades, n < lowest := by
    intro n hn
    have hcursor := h.id_le hn rfl
    omega
  have hfirst := (mem_of_page hleast).2.2
  refine ⟨Nat.lt_of_succ_lt h.order, rfl, ?_, ?_, ?_⟩
  · rw [ids_append, List.nodup_append]
    refine ⟨nodup_page, h.nodup, ?_⟩
    intro n hn m hm heq
    rw [ids_page] at hn
    exact absurd (hle n hn) (Nat.not_le.mpr (heq ▸ hbelow m hm))
  · intro x hx
    cases List.mem_append.mp hx with
    | inl hpage =>
      obtain ⟨trade, htrade, rfl⟩ := List.mem_map.mp hpage
      obtain ⟨hin, hstate, hbefore⟩ := mem_of_page htrade
      exact ⟨trade, hin, get, le_rfl, Nat.lt_of_succ_lt h.order, rfl, hstate, hbefore⟩
    | inr hlater =>
      obtain ⟨trade, hin, get', hstart, hstop, rfl, hstate, hcursor⟩ := h.listed x hlater
      refine ⟨trade, hin, get', Nat.le_of_succ_le hstart, hstop, rfl, hstate, fun c hc => ?_⟩
      have hlow := hcursor _ rfl
      have hleastLe := hfirst c hc
      omega
  · intro trade htrade hbefore hsince
    rw [ids_append, List.mem_append, ids_page]
    by_cases hreached : lowest ≤ trade.id
    · have hcover : cover (⟨get, some lowest⟩ :: pages) trade.id = get := by
        simp [cover, hreached]
      rw [hcover]
      refine ⟨le_rfl, Nat.lt_of_succ_lt h.order, ?_⟩
      rw [← mem_ids_page_iff htrade hbefore
        (.inr ⟨least, hleast, hleastId.trans_le hreached⟩)]
      constructor
      · rintro (hpage | hlater)
        · exact hpage
        · exact absurd (hbelow _ hlater) (Nat.not_lt.mpr hreached)
      · exact fun hpage => .inl hpage
    · have hcover : cover (⟨get, some lowest⟩ :: pages) trade.id = cover pages trade.id := by
        simp [cover, hreached, h.read]
      obtain ⟨hstart, hstop, hiff⟩ := h.covered trade htrade
        (fun c hc => by obtain rfl := Option.some.inj hc; omega) hsince
      rw [hcover]
      refine ⟨Nat.le_of_succ_le hstart, hstop, ?_⟩
      rw [← hiff]
      constructor
      · rintro (hpage | hlater)
        · exact absurd (hle _ hpage) hreached
        · exact hlater
      · exact fun hlater => .inr hlater

/-- The pages from a cursor on are a read of the list below it. -/
theorem pages_reads (hserves : b.Serves r.server) {n : ℕ} {read read' : Listing}
    {before : Option ℕ} {t t' : Ticks}
    (hseen : ∀ id ∈ ids read.trades, ∃ c, before = some c ∧ c < id)
    (h : r.pages state deadline n read before t = (.ok read', t')) :
    ∃ trades pages, read' = ⟨read.trades ++ trades, read.pages ++ pages⟩ ∧ pages.length ≤ n ∧
      Reads b state r.since before t.gets t'.gets trades pages := by
  induction n generalizing read before t with
  | zero => cases h
  | succ n ih =>
    unfold Reader.pages at h
    by_cases htime : deadline - r.clock t.reads ≤ 0
    · rw [if_pos htime] at h
      cases h
    rw [if_neg htime] at h
    cases hget : r.server t.gets ⟨state, before⟩ with
    | error code =>
      rw [hget] at h
      cases h
    | ok page =>
      obtain rfl := hserves _ _ _ hget
      have hfresh : ((b.page t.gets ⟨state, before⟩).map (·.safe t.gets)).filter
          (fun trade => trade.id.any (fun id => decide (id ∉ ids read.trades))) =
          (b.page t.gets ⟨state, before⟩).map (·.safe t.gets) := by
        rw [List.filter_eq_self]
        intro x hx
        obtain ⟨trade, htrade, rfl⟩ := List.mem_map.mp hx
        have hno : trade.id ∉ ids read.trades := by
          intro hmem
          obtain ⟨c, hc, hlt⟩ := hseen _ hmem
          exact absurd ((mem_of_page htrade).2.2 c hc) (Nat.not_le.mpr hlt)
        simpa [BrokerTrade.safe] using hno
      simp only [hget, hfresh] at h
      cases hlowest : (ids ((b.page t.gets ⟨state, before⟩).map (·.safe t.gets))).min? with
      | none =>
        simp only [hlowest] at h
        cases h
        refine ⟨_, _, rfl, Nat.succ_pos n, reads_last (fun trade _ _ _ => .inl ?_)⟩
        rw [List.min?_eq_none_iff, ids_page, List.map_eq_nil_iff] at hlowest
        rw [hlowest]
        exact Nat.succ_pos _
      | some lowest =>
        simp only [hlowest, List.length_map] at h
        have hleast : ∃ y ∈ b.page t.gets ⟨state, before⟩, y.id = lowest := by
          rw [ids_page, List.min?_eq_some_iff] at hlowest
          exact List.mem_map.mp hlowest.1
        by_cases hshort : (b.page t.gets ⟨state, before⟩).length < tradesPageSize ∨ lowest ≤ 1
        · rw [if_pos hshort] at h
          cases h
          refine ⟨_, _, rfl, Nat.succ_pos n, reads_last (fun trade _ _ _ => ?_)⟩
          refine hshort.imp_right (fun hone => ?_)
          obtain ⟨y, hy, rfl⟩ := hleast
          have hpositive := trade.positive
          exact ⟨y, hy, by omega⟩
        · rw [if_neg hshort] at h
          cases hends : r.endsPaging ((b.page t.gets ⟨state, before⟩).map (·.safe t.gets)) with
          | true =>
            rw [if_pos hends] at h
            cases h
            exact ⟨_, _, rfl, Nat.succ_pos n, reads_last (fun trade htrade _ hsince =>
              .inr (reached_of_endsPaging hends htrade hsince))⟩
          | false =>
            rw [if_neg (by simp [hends])] at h
            have hpositive : 1 < lowest := Nat.not_le.mp (fun hle => hshort (.inr hle))
            have hseen' : ∀ id ∈ ids (read.trades ++
                (b.page t.gets ⟨state, before⟩).map (·.safe t.gets)),
                ∃ c, some (lowest - 1) = some c ∧ c < id := by
              intro id hid
              refine ⟨_, rfl, ?_⟩
              rw [ids_append, List.mem_append] at hid
              obtain ⟨y, hy, rfl⟩ := hleast
              cases hid with
              | inl hold =>
                obtain ⟨c, hc, hlt⟩ := hseen id hold
                have hcursor := (mem_of_page hy).2.2 c hc
                omega
              | inr hpage =>
                have hlow := (List.min?_eq_some_iff.mp hlowest).2 id hpage
                omega
            obtain ⟨trades, pages, rfl, hlength, hreads⟩ := ih hseen' h
            refine ⟨_, _, ?_, ?_, hreads.cons hpositive hlowest⟩
            · simp only [List.append_assoc, List.singleton_append]
            · simpa using hlength

end Pages

/-! ### How many GETs -/

/-- A part of a read that makes at most `n` GETs. -/
def Spends (t t' : Ticks) (n : ℕ) : Prop := t.gets ≤ t'.gets ∧ t'.gets ≤ t.gets + n

theorem Spends.trans {t t' t'' : Ticks} {n m : ℕ} (h : Spends t t' n) (h' : Spends t' t'' m) :
    Spends t t'' (n + m) := by
  obtain ⟨hle, hmost⟩ := h
  obtain ⟨hle', hmost'⟩ := h'
  exact ⟨by omega, by omega⟩

theorem Spends.mono {t t' : Ticks} {n m : ℕ} (h : Spends t t' n) (hle : n ≤ m) : Spends t t' m :=
  ⟨h.1, h.2.trans (Nat.add_le_add_left hle _)⟩

section Gets

variable (r : Reader) (state : TradeState) (deadline : ℚ)

theorem pages_spends (n : ℕ) (read : Listing) (before : Option ℕ) (t : Ticks) :
    Spends t (r.pages state deadline n read before t).2 n := by
  induction n generalizing read before t with
  | zero => exact ⟨le_rfl, le_rfl⟩
  | succ n ih =>
    have hone : Spends t ⟨t.gets + 1, t.reads + 1⟩ (n + 1) := by
      constructor
      · show t.gets ≤ t.gets + 1
        omega
      · show t.gets + 1 ≤ t.gets + (n + 1)
        omega
    unfold Reader.pages
    by_cases htime : deadline - r.clock t.reads ≤ 0
    · rw [if_pos htime]
      exact ⟨le_rfl, Nat.le_add_right _ _⟩
    rw [if_neg htime]
    cases hget : r.server t.gets ⟨state, before⟩ with
    | error code => exact hone
    | ok page =>
      cases hlowest : (ids page).min? with
      | none =>
        simp only [hlowest]
        exact hone
      | some lowest =>
        simp only [hlowest]
        by_cases hshort : page.length < tradesPageSize ∨ lowest ≤ 1
        · rw [if_pos hshort]
          exact hone
        rw [if_neg hshort]
        by_cases hends : r.endsPaging page = true
        · rw [if_pos hends]
          exact hone
        rw [if_neg hends]
        obtain ⟨hle, hmost⟩ := ih ⟨read.trades ++ page.filter (fun trade =>
          trade.id.any (fun id => decide (id ∉ ids read.trades))),
          read.pages ++ [⟨t.gets, some lowest⟩]⟩ (some (lowest - 1)) ⟨t.gets + 1, t.reads + 1⟩
        constructor
        · show t.gets ≤ _
          change t.gets + 1 ≤ _ at hle
          omega
        · show _ ≤ t.gets + (n + 1)
          change _ ≤ t.gets + 1 + n at hmost
          omega

theorem pageCap (maxPages : ℕ) : max 1 (min maxPages tradesMaxPages) ≤ tradesMaxPages := by
  unfold tradesMaxPages
  omega

/-- The paging of one list ends within its page cap. -/
theorem getTrades_spends (t : Ticks) :
    Spends t (r.getTrades state deadline t).2 tradesMaxPages := by
  have hpages := (pages_spends r state deadline
    (max 1 (min r.maxPages tradesMaxPages)) ⟨[], []⟩ none t).mono (pageCap r.maxPages)
  unfold Reader.getTrades
  cases hrun : r.pages state deadline (max 1 (min r.maxPages tradesMaxPages)) ⟨[], []⟩ none t with
  | mk result t' =>
    rw [hrun] at hpages
    cases result with
    | error code => exact hpages
    | ok read =>
      by_cases hlate : deadline < r.clock t'.reads
      · simp only [hlate, if_true]
        exact hpages
      · simp only [hlate, if_false]
        exact hpages

theorem readState_spends (n : ℕ) (t : Ticks) :
    Spends t (r.readState state deadline n t).2 (tradesMaxPages * (n + 1)) := by
  induction n generalizing t with
  | zero =>
    have hone := getTrades_spends r state deadline t
    unfold Reader.readState
    cases hrun : r.getTrades state deadline t with
    | mk result t' =>
      rw [hrun] at hone
      cases result <;> exact hone
  | succ n ih =>
    have hone := getTrades_spends r state deadline t
    have hmore : tradesMaxPages ≤ tradesMaxPages * (n + 1 + 1) := Nat.le_mul_of_pos_right _ (by omega)
    unfold Reader.readState
    cases hrun : r.getTrades state deadline t with
    | mk result t' =>
      rw [hrun] at hone
      cases result with
      | ok read => exact hone.mono hmore
      | error code =>
        by_cases hfatal : Reader.transient code = false
        · simp only [hfatal, if_true]
          exact hone.mono hmore
        by_cases hlate : deadline ≤ r.clock t'.reads
        · simp only [hfatal, hlate, if_true]
          exact hone.mono hmore
        · simp only [hfatal, hlate, if_false]
          have hagain := hone.trans (ih { t' with reads := t'.reads + 1 })
          rwa [show tradesMaxPages * (n + 1 + 1) = tradesMaxPages + tradesMaxPages * (n + 1) by ring]

end Gets

/-! ### A list that was read -/

section Lists

variable {b : Broker} {r : Reader} {state : TradeState} {deadline : ℚ}

theorem getTrades_reads (hserves : b.Serves r.server) {read : Listing} {t t' : Ticks}
    (h : r.getTrades state deadline t = (.ok read, t')) :
    read.pages.length ≤ tradesMaxPages ∧
      Reads b state r.since none t.gets t'.gets read.trades read.pages := by
  unfold Reader.getTrades at h
  cases hpages : r.pages state deadline (max 1 (min r.maxPages tradesMaxPages)) ⟨[], []⟩ none t with
  | mk result t₁ =>
    cases result with
    | error code =>
      rw [hpages] at h
      cases h
    | ok listing =>
      rw [hpages] at h
      by_cases hlate : deadline < r.clock t₁.reads
      · simp only [hlate, if_true] at h
        cases h
      · simp only [hlate, if_false] at h
        obtain ⟨hresult, hticks⟩ := Prod.mk.inj h
        obtain rfl := Except.ok.inj hresult
        obtain ⟨trades, pages, rfl, hlength, hreads⟩ :=
          pages_reads hserves (fun id hid => absurd hid List.not_mem_nil) hpages
        subst hticks
        exact ⟨hlength.trans (pageCap r.maxPages), hreads⟩

/-- Only the last attempt at a list is returned. -/
theorem readState_reads (hserves : b.Serves r.server) {n : ℕ} {read : Listing} {t t' : Ticks}
    (h : r.readState state deadline n t = (.ok read, t')) :
    ∃ start, t.gets ≤ start ∧ read.pages.length ≤ tradesMaxPages ∧
      Reads b state r.since none start t'.gets read.trades read.pages := by
  induction n generalizing t with
  | zero =>
    unfold Reader.readState at h
    cases hone : r.getTrades state deadline t with
    | mk result t₁ =>
      rw [hone] at h
      cases result with
      | error code => cases h
      | ok listing =>
        cases h
        exact ⟨t.gets, le_rfl, getTrades_reads hserves hone⟩
  | succ n ih =>
    have hspends := getTrades_spends r state deadline t
    unfold Reader.readState at h
    cases hone : r.getTrades state deadline t with
    | mk result t₁ =>
      rw [hone] at h hspends
      cases result with
      | ok listing =>
        cases h
        exact ⟨t.gets, le_rfl, getTrades_reads hserves hone⟩
      | error code =>
        by_cases hfatal : Reader.transient code = false
        · simp only [hfatal, if_true] at h
          cases h
        by_cases hlate : deadline ≤ r.clock t₁.reads
        · simp only [hfatal, hlate, if_true] at h
          cases h
        simp only [hfatal, hlate, if_false] at h
        obtain ⟨start, hle, hreads⟩ := ih h
        exact ⟨start, hspends.1.trans hle, hreads⟩

end Lists

/-! ### The two lists -/

/-- The trade closes after its CLOSED page was read and by the time its OPEN page is. -/
def ClosesBetween (trade : BrokerTrade) (closed opened : List PageRead) : Prop :=
  ∃ c, trade.closes = some c ∧ cover closed trade.id < c ∧ c ≤ cover opened trade.id

/-- The trade is in the two lists once, as it was at a GET of the read. -/
def ListedOnce (trade : BrokerTrade) (gets : ℕ) (trades : List SafeTrade) : Prop :=
  (ids trades).count trade.id = 1 ∧ ∃ get < gets, trade.safe get ∈ trades

section Lists

variable {b : Broker} {since : Option Instant} {start stop start' stop' : ℕ}
  {closed opened : List SafeTrade} {closedPages openPages : List PageRead}

theorem Reads.mem_ids {state : TradeState} {trades : List SafeTrade} {pages : List PageRead} {n : ℕ}
    (h : Reads b state since none start stop trades pages) (hn : n ∈ ids trades) :
    ∃ trade ∈ b.trades, trade.id = n ∧ ∃ get, start ≤ get ∧ get < stop ∧
      trade.safe get ∈ trades ∧ trade.stateAt get = some state := by
  obtain ⟨x, hx, hid⟩ := List.mem_filterMap.mp hn
  obtain ⟨trade, htrade, get, hstart, hstop, rfl, hstate, -⟩ := h.listed x hx
  exact ⟨trade, htrade, Option.some.inj hid, get, hstart, hstop, hx, hstate⟩

/-- No trade is in both lists: what was CLOSED is not OPEN later. -/
theorem nodup_lists (hclosed : Reads b .closed since none start stop closed closedPages)
    (hopen : Reads b .open_ since none start' stop' opened openPages) (hle : stop ≤ start') :
    (ids (closed ++ opened)).Nodup := by
  rw [ids_append, List.nodup_append]
  refine ⟨hclosed.nodup, hopen.nodup, ?_⟩
  intro n hn m hm heq
  obtain ⟨x, hx, hxid, get, -, hlt, -, hxstate⟩ := hclosed.mem_ids hn
  obtain ⟨y, hy, hyid, get', hge, -, -, hystate⟩ := hopen.mem_ids hm
  obtain rfl := Broker.eq_of_id hx hy (by omega)
  obtain ⟨-, c, hc, hcle⟩ := BrokerTrade.stateAt_eq_closed_iff.mp hxstate
  have hlater := (BrokerTrade.stateAt_eq_open_iff.mp hystate).2 c hc
  have horder : get < get' := (hlt.trans_le hle).trans_le hge
  omega

/-- A trade is in one of the lists unless it closes between its two pages. -/
theorem mem_ids_lists_iff (hclosed : Reads b .closed since none start stop closed closedPages)
    (hopen : Reads b .open_ since none start' stop' opened openPages)
    {trade : BrokerTrade} (htrade : trade ∈ b.trades) (hopens : trade.opens = 0)
    (hsince : ∀ s, since = some s → s ≤ trade.openTime) :
    trade.id ∈ ids (closed ++ opened) ↔ ¬ ClosesBetween trade closedPages openPages := by
  obtain ⟨-, hclosedStop, hclosedIff⟩ := hclosed.covered trade htrade (by simp) hsince
  obtain ⟨hopenStart, -, hopenIff⟩ := hopen.covered trade htrade (by simp) hsince
  rw [ids_append, List.mem_append, hclosedIff, hopenIff, BrokerTrade.stateAt_eq_closed_iff,
    BrokerTrade.stateAt_eq_open_iff, hopens]
  constructor
  · rintro (⟨-, c, hc, hbefore⟩ | ⟨-, hafter⟩) ⟨c', hc', hlo, hhi⟩
    · obtain rfl := Option.some.inj (hc.symm.trans hc')
      omega
    · have hlater := hafter c' hc'
      omega
  · intro hno
    cases hcloses : trade.closes with
    | none => exact .inr ⟨Nat.zero_le _, fun c hc => by cases hc⟩
    | some c =>
      by_cases hbefore : c ≤ cover closedPages trade.id
      · exact .inl ⟨Nat.zero_le _, c, rfl, hbefore⟩
      · refine .inr ⟨Nat.zero_le _, fun c' hc' => ?_⟩
        obtain rfl := Option.some.inj hc'
        by_contra hlate
        exact hno ⟨c, hcloses, Nat.lt_of_not_le hbefore, Nat.le_of_not_lt hlate⟩

theorem listedOnce_iff (hclosed : Reads b .closed since none start stop closed closedPages)
    (hopen : Reads b .open_ since none start' stop' opened openPages) (hle : stop ≤ start')
    {trade : BrokerTrade} (htrade : trade ∈ b.trades) (hopens : trade.opens = 0)
    (hsince : ∀ s, since = some s → s ≤ trade.openTime) :
    ListedOnce trade stop' (closed ++ opened) ↔ ¬ ClosesBetween trade closedPages openPages := by
  rw [← mem_ids_lists_iff hclosed hopen htrade hopens hsince]
  constructor
  · intro h
    exact List.count_pos_iff.mp (by rw [h.1]; exact Nat.one_pos)
  · intro hmem
    refine ⟨List.count_eq_one_of_mem (nodup_lists hclosed hopen hle) hmem, ?_⟩
    have horder := hopen.order
    rw [ids_append, List.mem_append] at hmem
    cases hmem with
    | inl hin =>
      obtain ⟨x, hx, hid, get, -, hlt, hget, -⟩ := hclosed.mem_ids hin
      obtain rfl := Broker.eq_of_id hx htrade hid
      exact ⟨get, by omega, List.mem_append_left _ hget⟩
    | inr hin =>
      obtain ⟨x, hx, hid, get, -, hlt, hget, -⟩ := hopen.mem_ids hin
      obtain rfl := Broker.eq_of_id hx htrade hid
      exact ⟨get, hlt, List.mem_append_right _ hget⟩

end Lists

/-! ### The read -/

section Read

variable {b : Broker} {r : Reader}

theorem demoTrades_gets (configured reportErrors : Bool) (deadlineSeconds : ℚ) :
    (r.demoTrades configured reportErrors deadlineSeconds).2.gets ≤
      2 * (tradesMaxPages * tradesAttempts) := by
  unfold Reader.demoTrades
  cases configured with
  | false => exact Nat.zero_le _
  | true =>
    have hclosed := readState_spends r .closed (r.clock 0 + deadlineSeconds)
      (tradesAttempts - 1) ⟨0, 1⟩
    simp only [Bool.true_eq_false, if_false]
    cases hrun : r.readState .closed (r.clock 0 + deadlineSeconds) (tradesAttempts - 1) ⟨0, 1⟩ with
    | mk result t =>
      rw [hrun] at hclosed
      cases result with
      | error code => exact hclosed.2.trans (by decide)
      | ok closed =>
        have hopen := hclosed.trans (readState_spends r .open_ (r.clock 0 + deadlineSeconds)
          (tradesAttempts - 1) t)
        cases hrun' : r.readState .open_ (r.clock 0 + deadlineSeconds) (tradesAttempts - 1) t with
        | mk result' t' =>
          rw [hrun'] at hopen
          have hmost : t'.gets ≤ 2 * (tradesMaxPages * tradesAttempts) := hopen.2
          simp only [hrun']
          cases result' with
          | error code => exact hmost
          | ok opened => exact hmost

/-- A read that is returned has both lists, the OPEN one read after the CLOSED one. -/
theorem demoTrades_reads (hserves : b.Serves r.server) {configured reportErrors : Bool}
    {deadlineSeconds : ℚ} {closed opened : Listing} {t : Ticks}
    (h : r.demoTrades configured reportErrors deadlineSeconds = (.read closed opened, t)) :
    ∃ start stop start', stop ≤ start' ∧
      closed.pages.length ≤ tradesMaxPages ∧ opened.pages.length ≤ tradesMaxPages ∧
      Reads b .closed r.since none start stop closed.trades closed.pages ∧
      Reads b .open_ r.since none start' t.gets opened.trades opened.pages := by
  have hfailed : ∀ code, Reader.failed reportErrors code ≠ .read closed opened := by
    intro code hcode
    unfold Reader.failed at hcode
    split_ifs at hcode
  unfold Reader.demoTrades at h
  cases configured with
  | false =>
    cases reportErrors <;> cases h
  | true =>
    simp only [Bool.true_eq_false, if_false] at h
    cases hrun : r.readState .closed (r.clock 0 + deadlineSeconds) (tradesAttempts - 1) ⟨0, 1⟩ with
    | mk result t₁ =>
      rw [hrun] at h
      cases result with
      | error code => exact absurd (Prod.mk.inj h).1 (hfailed code)
      | ok closed' =>
        cases hrun' : r.readState .open_ (r.clock 0 + deadlineSeconds) (tradesAttempts - 1) t₁ with
        | mk result' t₂ =>
          simp only [hrun'] at h
          cases result' with
          | error code => exact absurd (Prod.mk.inj h).1 (hfailed code)
          | ok opened' =>
            cases h
            obtain ⟨start, -, hlength, hclosed⟩ := readState_reads hserves hrun
            obtain ⟨start', hle, hlength', hopen⟩ := readState_reads hserves hrun'
            exact ⟨start, t₁.gets, start', hle, hlength, hlength', hclosed, hopen⟩

/-- Every trade that was there before the read is in it once, exactly when none closes between
its two pages. -/
theorem demo_trades_complete_iff (b : Broker) (r : Reader) (hserves : b.Serves r.server)
    (configured reportErrors : Bool) (deadlineSeconds : ℚ) :
    (r.demoTrades configured reportErrors deadlineSeconds).2.gets ≤
        2 * (tradesMaxPages * tradesAttempts) ∧
      ∀ closed opened t,
        r.demoTrades configured reportErrors deadlineSeconds = (.read closed opened, t) →
        closed.pages.length ≤ tradesMaxPages ∧ opened.pages.length ≤ tradesMaxPages ∧
          (ids (closed.trades ++ opened.trades)).Nodup ∧
          (∀ x ∈ closed.trades ++ opened.trades, ∃ trade ∈ b.trades, ∃ get < t.gets,
            x = trade.safe get) ∧
          ∀ trade ∈ b.trades, trade.opens = 0 → (∀ s, r.since = some s → s ≤ trade.openTime) →
            (ListedOnce trade t.gets (closed.trades ++ opened.trades) ↔
              ¬ ClosesBetween trade closed.pages opened.pages) := by
  refine ⟨demoTrades_gets configured reportErrors deadlineSeconds, ?_⟩
  intro closed opened t h
  obtain ⟨start, stop, start', hle, hlength, hlength', hclosed, hopen⟩ := demoTrades_reads hserves h
  refine ⟨hlength, hlength', nodup_lists hclosed hopen hle, ?_, ?_⟩
  · intro x hx
    have horder := hopen.order
    cases List.mem_append.mp hx with
    | inl hin =>
      obtain ⟨trade, htrade, get, -, hlt, heq, -⟩ := hclosed.listed x hin
      exact ⟨trade, htrade, get, by omega, heq⟩
    | inr hin =>
      obtain ⟨trade, htrade, get, -, hlt, heq, -⟩ := hopen.listed x hin
      exact ⟨trade, htrade, get, hlt, heq⟩
  · intro trade htrade hopens hsince
    exact listedOnce_iff hclosed hopen hle htrade hopens hsince

/-- One trade that closes between the first two GETs. -/
def closingBroker : Broker where
  trades := [⟨7, 0, 0, some 1, by decide⟩]
  newestFirst := List.pairwise_singleton _ _
  inOrder := List.pairwise_singleton _ _

def closingReader : Reader where
  server := fun get q => .ok ((closingBroker.page get q).map (·.safe get))
  clock := fun _ => 0
  since := some 0

theorem closingReader_serves : closingBroker.Serves closingReader.server := by
  intro get q page h
  exact (Except.ok.inj h).symm

/-- The read has no trade at all, although one was open when it began. -/
theorem demo_trades_incomplete :
    closingBroker.Serves closingReader.server ∧
      (∃ trade ∈ closingBroker.trades, trade.opens = 0 ∧ (0 : Instant) ≤ trade.openTime) ∧
      ∃ closed opened t,
        closingReader.demoTrades true false tradesRefreshDeadlineSeconds = (.read closed opened, t) ∧
          closed.trades = [] ∧ opened.trades = [] := by
  refine ⟨closingReader_serves, ⟨_, List.mem_singleton_self _, rfl, le_rfl⟩,
    ⟨[], [⟨0, none⟩]⟩, ⟨[], [⟨1, none⟩]⟩, ⟨2, 5⟩, ?_, rfl, rfl⟩
  decide +kernel

theorem demo_trades_complete_iff_closing :
    (closingReader.demoTrades true false tradesRefreshDeadlineSeconds).2.gets ≤
        2 * (tradesMaxPages * tradesAttempts) ∧
      ∀ closed opened t,
        closingReader.demoTrades true false tradesRefreshDeadlineSeconds = (.read closed opened, t) →
        closed.pages.length ≤ tradesMaxPages ∧ opened.pages.length ≤ tradesMaxPages ∧
          (ids (closed.trades ++ opened.trades)).Nodup ∧
          (∀ x ∈ closed.trades ++ opened.trades, ∃ trade ∈ closingBroker.trades, ∃ get < t.gets,
            x = trade.safe get) ∧
          ∀ trade ∈ closingBroker.trades, trade.opens = 0 →
            (∀ s, closingReader.since = some s → s ≤ trade.openTime) →
            (ListedOnce trade t.gets (closed.trades ++ opened.trades) ↔
              ¬ ClosesBetween trade closed.pages opened.pages) :=
  demo_trades_complete_iff closingBroker closingReader closingReader_serves true false
    tradesRefreshDeadlineSeconds

end Read

end MarketSystem.DemoTrades
