import MarketSystem.Execution.RouterRequests

/-!
# Moves of the router

What a step of the router and of the market around it may change. A limit row is
followed through its stations: it waits with the id of its order, or it is filled and
carries the id of its trade. The market keeps a row in its station, and so does every
step on another row.
-/
namespace MarketSystem.RouterMoves

open Library Program RouterState RouterRequests

section Stations

variable (ext : String → String)

/-- Nothing rests under a client id. -/
def Gone (clientId : String) (book : Book) : Prop :=
  ∀ o ∈ book.orders, o.clientExtId ≠ some (ext clientId)

/-- A trade is open under it. -/
def Traded (clientId : String) (book : Book) : Prop :=
  ∃ t ∈ book.trades, t.clientExtId = some (ext clientId)

/-- A row carries the id of the order that rests for it. -/
def Names (row : Row) (book : Book) : Prop :=
  ∀ o ∈ book.orders, o.clientExtId = some (ext row.clientId) → row.orderId = some o.orderId

/-- A row carries the id of the trade that is open for it. -/
def Holding (row : Row) (book : Book) : Prop :=
  Gone ext row.clientId book ∧
    ∀ t ∈ book.trades, t.clientExtId = some (ext row.clientId) → row.tradeId = some t.tradeId

/-- An order that rests under a client id has a row that will cancel it. -/
def Waiting (clientId : String) (s : World) : Prop :=
  ∀ o ∈ s.book.orders, o.clientExtId = some (ext clientId) →
    ∃ r ∈ s.rows, r.clientId = clientId ∧ r.status = .pendingLimit ∧ ¬r.Latched ∧
      r.orderId = some o.orderId

/-- Nothing rests, and a trade that is open has a row that will close it. -/
def Filled (clientId : String) (s : World) : Prop :=
  Gone ext clientId s.book ∧ ∀ t ∈ s.book.trades, t.clientExtId = some (ext clientId) →
    ∃ r ∈ s.rows, r.clientId = clientId ∧ r.status = .open ∧ ¬r.Latched ∧
      r.tradeId = some t.tradeId

variable {ext}

theorem Gone.market {clientId : String} {book book' : Book} (h : Gone ext clientId book)
    (hm : Market book book') : Gone ext clientId book' :=
  fun o ho => h o (hm.orders o ho)

theorem Gone.waiting {clientId : String} {s : World} (h : Gone ext clientId s.book) :
    Waiting ext clientId s := fun o ho hext => absurd hext (h o ho)

theorem Names.market {row : Row} {book book' : Book} (h : Names ext row book)
    (hm : Market book book') : Names ext row book' :=
  fun o ho => h o (hm.orders o ho)

/-- Where nothing rests no trade begins. -/
theorem Gone.old_trade {clientId : String} {book book' : Book} (h : Gone ext clientId book)
    (hm : Market book book') {t : OpenTrade} (ht : t ∈ book'.trades)
    (hext : t.clientExtId = some (ext clientId)) : t ∈ book.trades := by
  obtain hold | ⟨o, ho, _, hsame⟩ := hm.trades t ht
  · exact hold
  · exact absurd (hsame ▸ hext) (h o ho)

theorem Holding.market {row : Row} {book book' : Book} (h : Holding ext row book)
    (hm : Market book book') : Holding ext row book' :=
  ⟨h.1.market hm, fun t ht hext => h.2 t (h.1.old_trade hm ht hext) hext⟩

/-- What is open for a client id has nothing resting beside it. -/
theorem Traded.gone {clientId : String} {book : Book} (h : Traded ext clientId book) :
    Gone ext clientId book := by
  obtain ⟨t, ht, hext⟩ := h
  exact fun o ho hsame => book.apart o ho t ht _ hsame hext

end Stations

/-- The ids that rows carry are those of the orders that were placed for them, and no two
rows share a client extension. -/
structure Linked (ext : String → String) (s : World) : Prop where
  names : ∀ r ∈ s.rows, r.status = .pendingLimit → Names ext r s.book
  own : ∀ r ∈ s.rows, ∀ o ∈ s.book.orders, r.orderId = some o.orderId →
    o.clientExtId = some (ext r.clientId)
  distinct : ∀ r ∈ s.rows, ∀ r' ∈ s.rows, ext r.clientId = ext r'.clientId →
    r.clientId = r'.clientId

/-! ## Moves -/

/-- From one state to another the market has moved and only the rows of certain client ids
have changed; none of them has become a limit, and the ids are in order. -/
structure Moved (ext : String → String) (ids : List String) (s s' : World) : Prop where
  market : Market s.book s'.book
  others : ∀ r : Row, r.clientId ∉ ids → (r ∈ s'.rows ↔ r ∈ s.rows)
  limits : ∀ r' ∈ s'.rows, r'.IsLimit → ∃ r ∈ s.rows, r.clientId = r'.clientId ∧ r.IsLimit
  linked : Linked ext s → Linked ext s'

section Moves

variable {ext : String → String}

theorem Moved.refl (ids : List String) (s : World) : Moved ext ids s s :=
  ⟨Market.refl _, fun _ _ => Iff.rfl, fun r hr h => ⟨r, hr, rfl, h⟩, id⟩

theorem Moved.trans {ids ids' : List String} {a b c : World} (hab : Moved ext ids a b)
    (hbc : Moved ext ids' b c) : Moved ext (ids ++ ids') a c := by
  refine ⟨hab.market.trans hbc.market, fun r hr => ?_, fun r'' hr'' hlimit => ?_,
    fun h => hbc.linked (hab.linked h)⟩
  · rw [List.mem_append, not_or] at hr
    rw [hbc.others r hr.2, hab.others r hr.1]
  · obtain ⟨r', hr', hid', hlimit'⟩ := hbc.limits r'' hr'' hlimit
    obtain ⟨r, hr, hid, hlimit''⟩ := hab.limits r' hr' hlimit'
    exact ⟨r, hr, hid.trans hid', hlimit''⟩

theorem Moved.mono {ids ids' : List String} {s s' : World} (h : Moved ext ids s s')
    (hsub : ∀ c ∈ ids, c ∈ ids') : Moved ext ids' s s' :=
  ⟨h.market, fun r hr => h.others r (fun hc => hr (hsub _ hc)), h.limits, h.linked⟩

/-- Rows that do not move keep their station. -/
theorem Waiting.moved {clientId : String} {ids : List String} {s s' : World}
    (h : Waiting ext clientId s) (hm : Moved ext ids s s') (hid : clientId ∉ ids) :
    Waiting ext clientId s' := by
  intro o ho hext
  obtain ⟨r, hr, hclient, hrest⟩ := h o (hm.market.orders o ho) hext
  exact ⟨r, (hm.others r (hclient ▸ hid)).mpr hr, hclient, hrest⟩

theorem Filled.moved {clientId : String} {ids : List String} {s s' : World}
    (h : Filled ext clientId s) (hm : Moved ext ids s s')
    (hid : ∀ r ∈ s.rows, r.clientId = clientId → r.status = .open → clientId ∉ ids) :
    Filled ext clientId s' := by
  refine ⟨h.1.market hm.market, fun t ht hext => ?_⟩
  obtain ⟨r, hr, hclient, hopen, hrest⟩ := h.2 t (h.1.old_trade hm.market ht hext) hext
  have hother := hid r hr hclient hopen
  exact ⟨r, (hm.others r (hclient ▸ hother)).mpr hr, hclient, hopen, hrest⟩

/-- The rest of the world during a tick: the book moves, a stored request stays stored, and
nobody else writes rows. -/
def tick : Discipline World where
  inv := fun _ => True
  rely s s' := s'.rows = s.rows ∧ Market s.book s'.book ∧
    (stored s.flattenRequest = true → stored s'.flattenRequest = true)
  guar := fun _ _ => True
  rely_refl _ := ⟨rfl, Market.refl _, id⟩
  rely_trans hab hbc := ⟨hbc.1.trans hab.1, hab.2.1.trans hbc.2.1, fun h => hbc.2.2 (hab.2.2 h)⟩
  guar_refl := fun _ => trivial

/-- Where the rows stay and the book only moves with the market, the ids stay in order. -/
theorem Linked.market {s s' : World} (h : Linked ext s) (hrows : s'.rows = s.rows)
    (hm : Market s.book s'.book) : Linked ext s' := by
  refine ⟨fun r hr hstatus => ?_, fun r hr o ho => ?_, fun r hr r' hr' => ?_⟩
  · exact (h.names r (hrows ▸ hr) hstatus).market hm
  · exact h.own r (hrows ▸ hr) o (hm.orders o ho)
  · exact h.distinct r (hrows ▸ hr) r' (hrows ▸ hr')

theorem moved_of_market {s s' : World} (hrows : s'.rows = s.rows)
    (hm : Market s.book s'.book) : Moved ext [] s s' :=
  ⟨hm, fun r _ => by rw [hrows], fun r hr hlimit => ⟨r, hrows ▸ hr, rfl, hlimit⟩,
    fun h => h.market hrows hm⟩

variable (ext) in
theorem moved_of_rely {s s' : World} (h : tick.rely s s') : Moved ext [] s s' :=
  moved_of_market h.1 h.2.1

variable (ext) in
theorem moved_book {s : World} {book : Book} (h : Market s.book book) :
    Moved ext [] s { s with book := book } :=
  moved_of_market rfl h

/-- Where every row comes from one of the same client id that carries the same order, and a
resting limit from a resting limit, the ids stay in order. -/
theorem Linked.rows {s s' : World} (h : Linked ext s) (hbook : s'.book = s.book)
    (hfrom : ∀ r' ∈ s'.rows, ∃ r ∈ s.rows, r'.clientId = r.clientId ∧
      (r'.status = .pendingLimit → Names ext r' s.book) ∧
      (∀ o ∈ s.book.orders, r'.orderId = some o.orderId →
        o.clientExtId = some (ext r.clientId))) : Linked ext s' := by
  refine ⟨fun r' hr' hstatus => ?_, fun r' hr' o ho horder => ?_,
    fun r₁ hr₁ r₂ hr₂ hsame => ?_⟩
  · obtain ⟨r, _, _, hnames, _⟩ := hfrom r' hr'
    rw [hbook]
    exact hnames hstatus
  · obtain ⟨r, _, hid, _, hown⟩ := hfrom r' hr'
    rw [hbook] at ho
    rw [hid]
    exact hown o ho horder
  · obtain ⟨r₁', hr₁', hid₁, _⟩ := hfrom r₁ hr₁
    obtain ⟨r₂', hr₂', hid₂, _⟩ := hfrom r₂ hr₂
    rw [hid₁, hid₂] at hsame ⊢
    exact h.distinct r₁' hr₁' r₂' hr₂' hsame

/-- An update of one row. -/
theorem moved_update {s : World} {clientId : String} {u : Update}
    (hlimit : ∀ r ∈ s.rows, r.clientId = clientId → (u.apply r).IsLimit → r.IsLimit)
    (hnames : Linked ext s → ∀ r ∈ s.rows, r.clientId = clientId →
      (u.apply r).status = .pendingLimit → Names ext (u.apply r) s.book)
    (hown : Linked ext s → ∀ r ∈ s.rows, r.clientId = clientId → ∀ o ∈ s.book.orders,
      (u.apply r).orderId = some o.orderId → o.clientExtId = some (ext r.clientId)) :
    Moved ext [clientId] s (s.update clientId u) := by
  refine ⟨Market.refl _, fun r hr => ?_, fun r' hr' h => ?_, fun h => h.rows rfl ?_⟩
  · rw [List.mem_singleton] at hr
    rw [mem_update]
    constructor
    · rintro (⟨r₀, _, hid, rfl⟩ | ⟨hr', _⟩)
      · exact absurd ((u.keeps r₀).trans hid) hr
      · exact hr'
    · exact fun h => .inr ⟨h, hr⟩
  · obtain ⟨r₀, hr₀, hid, rfl⟩ | ⟨hr, _⟩ := mem_update.mp hr'
    · exact ⟨r₀, hr₀, (u.keeps r₀).symm, hlimit r₀ hr₀ hid h⟩
    · exact ⟨r', hr, rfl, h⟩
  · intro r' hr'
    obtain ⟨r₀, hr₀, hid, rfl⟩ | ⟨hr, _⟩ := mem_update.mp hr'
    · exact ⟨r₀, hr₀, u.keeps r₀, hnames h r₀ hr₀ hid, hown h r₀ hr₀ hid⟩
    · exact ⟨r', hr, rfl, h.names r' hr, h.own r' hr⟩

/-- An update that neither makes a limit nor touches the order of the row. -/
theorem moved_update_of {s : World} {clientId : String} {u : Update}
    (hlimit : ∀ r, (u.apply r).IsLimit → r.IsLimit)
    (hstatus : ∀ r, (u.apply r).status = .pendingLimit → r.status = .pendingLimit)
    (horder : ∀ r, (u.apply r).orderId = r.orderId) :
    Moved ext [clientId] s (s.update clientId u) := by
  refine moved_update (fun r _ _ => hlimit r) (fun h r hr _ hpending o ho hext => ?_)
    (fun h r hr _ o ho hsame => ?_)
  · rw [horder r]
    rw [u.keeps r] at hext
    exact h.names r hr (hstatus r hpending) o ho hext
  · rw [horder r] at hsame
    exact h.own r hr o ho hsame

/-- The statuses in which a row may be a limit. -/
def LIMIT_STATUSES : List Status := [.pendingSend, .unknown, .pendingLimit]

theorem status_of_isLimit {r : Row} (h : r.IsLimit) : r.status ∈ LIMIT_STATUSES := by
  obtain hpending | ⟨_, hsending⟩ := h
  · simp [hpending, LIMIT_STATUSES]
  · simp only [UNRESOLVED_STATUSES, List.mem_cons, List.not_mem_nil, or_false] at hsending
    obtain hs | hs := hsending <;> simp [hs, LIMIT_STATUSES]

theorem live_of_isLimit {r : Row} (h : r.IsLimit) : r.status ∈ LIVE_STATUSES := by
  have hstatus := status_of_isLimit h
  revert hstatus
  cases r.status <;> decide

/-- An update to a status that no limit has. -/
theorem moved_leaving {s : World} {clientId : String} {u : Update} (status : Status)
    (hset : ∀ r, (u.apply r).status = status) (hstatus : status ∉ LIMIT_STATUSES)
    (horder : ∀ r, (u.apply r).orderId = r.orderId) :
    Moved ext [clientId] s (s.update clientId u) := by
  refine moved_update_of (fun r h => ?_) (fun r h => ?_) horder
  · have hlimit := status_of_isLimit h
    rw [hset r] at hlimit
    exact absurd hlimit hstatus
  · rw [hset r] at h
    rw [h] at hstatus
    exact absurd (by decide) hstatus

theorem moved_ending {s : World} {clientId : String} {status : Status} {reason : String}
    (h : status ∉ LIMIT_STATUSES) :
    Moved ext [clientId] s (s.update clientId (ending status reason)) :=
  moved_leaving status (fun _ => rfl) h (fun _ => rfl)

end Moves

/-! ### First actions -/

section Actions

variable {α : Type} {post : α → World → Prop} {s : World}

theorem holds_pure (ext : String → String) {a : α} (h : ∀ s', Moved ext [] s s' → post a s') :
    (Pure.pure a : Program World α).Holds tick post s :=
  fun s' hr _ => h s' (moved_of_rely ext hr)

theorem holds_update {clientId : String} {u : Update} {k : Unit → Program World α}
    (h : ∀ s', tick.rely s s' → (k ()).Holds tick post (s'.update clientId u)) :
    (update clientId u >>= k).Holds tick post s :=
  Holds.call fun s' hr _ => ⟨trivial, trivial, h s' hr⟩

theorem holds_callBroker {f : Book → Answer × Book} {k : Answer → Program World α}
    (h : ∀ s', tick.rely s s' →
      (k (f s'.book).1).Holds tick post { s' with book := (f s'.book).2 }) :
    (callBroker f >>= k).Holds tick post s :=
  Holds.call fun s' hr _ => ⟨trivial, trivial, h s' hr⟩

theorem holds_readBroker {β : Type} {f : Book → β} {k : β → Program World α}
    (h : ∀ s', tick.rely s s' → (k (f s'.book)).Holds tick post s') :
    (readBroker f >>= k).Holds tick post s :=
  Holds.read_now fun s' hr _ => h s' hr

end Actions

end MarketSystem.RouterMoves
