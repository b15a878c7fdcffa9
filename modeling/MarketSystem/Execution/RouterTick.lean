import MarketSystem.Execution.RouterMoves

/-!
# A tick of the router

What one tick of a flatten leaves at the broker, whatever the market does between two
calls. Reconciliation brings every limit row whose action is not latched to its station,
the cancel loop takes the orders away, and the close loop takes the trades away.
-/
namespace MarketSystem.RouterTick

open Library Program RouterState RouterRequests RouterMoves

/-! ## Cancelling and closing one row -/

section Rows

variable {ext : String → String}

/-- A truthful cancel leaves no order for a row that carries its id. -/
theorem cancelLimit_holds (row : Row) (reason : String) (s : World) :
    (cancelLimit truthful row reason).Holds tick (fun _ s' => Moved ext [row.clientId] s s' ∧
      (Names ext row s.book → Gone ext row.clientId s'.book)) s := by
  have hending : ∀ s₁ : World,
      Moved ext [row.clientId] s₁ (s₁.update row.clientId (ending .cancelled reason)) :=
    fun s₁ => moved_ending (by decide)
  unfold cancelLimit
  cases hid : row.orderId.filter (fun id => decide (id ≠ "")) with
  | none =>
    apply holds_update
    intro s₁ hr
    refine holds_pure ext fun s₂ hm => ?_
    have hmoved := ((moved_of_rely ext hr).trans (hending s₁)).trans hm
    refine ⟨hmoved.mono (by simp), fun hnames o ho hext => ?_⟩
    have hname := hnames o (hmoved.market.orders o ho) hext
    rw [hname] at hid
    simp [Option.filter, o.valid] at hid
  | some orderId =>
    have horder : row.orderId = some orderId := by
      rw [Option.filter_eq_some_iff] at hid
      exact hid.1
    apply holds_callBroker
    intro s₁ hr
    have hm₁ := moved_of_rely ext hr
    by_cases hrests : ∃ o ∈ s₁.book.orders, o.orderId = orderId
    · simp only [truthful, if_pos hrests]
      apply holds_update
      intro s₂ hr₂
      refine holds_pure ext fun s₃ hm => ?_
      have hm₂ := (moved_book ext (market_withoutOrder s₁.book orderId)).trans (moved_of_rely ext hr₂)
      have hmoved := (hm₁.trans hm₂).trans ((hending s₂).trans hm)
      refine ⟨hmoved.mono (by simp), fun hnames o ho hext => ?_⟩
      have hleft := (hr₂.2.1.trans ((hending s₂).trans hm).market).orders o ho
      obtain ⟨hold, hother⟩ := mem_orders_withoutOrder.mp hleft
      have hname := hnames o (hm₁.market.orders o hold) hext
      rw [horder, Option.some.injEq] at hname
      exact hother hname.symm
    · simp only [truthful, if_neg hrests]
      refine holds_pure ext fun s₂ hm => ?_
      refine ⟨(hm₁.trans hm).mono (by simp), fun hnames o ho hext => hrests ⟨o, ?_, ?_⟩⟩
      · exact hm.market.orders o ho
      · have hname := hnames o ((hm₁.trans hm).market.orders o ho) hext
        rw [horder, Option.some.injEq] at hname
        exact hname.symm

/-- A truthful close leaves no trade for a row that carries its id. -/
theorem close_holds (row : Row) (reason : String) (s : World) :
    (close truthful row reason).Holds tick (fun _ s' => Moved ext [row.clientId] s s' ∧
      (Holding ext row s.book → ¬Traded ext row.clientId s'.book)) s := by
  unfold close closeTrade
  cases htrade : row.tradeId with
  | none =>
    refine holds_pure ext fun s₁ hm => ?_
    refine ⟨hm.mono (by simp), fun hholding => ?_⟩
    rintro ⟨t, ht, hext⟩
    have hname := (hholding.market hm.market).2 t ht hext
    rw [htrade] at hname
    cases hname
  | some tradeId =>
    apply holds_callBroker
    intro s₁ hr
    have hm₁ := moved_of_rely ext hr
    by_cases hopen : ∃ t ∈ s₁.book.trades, t.tradeId = tradeId
    · simp only [truthful, if_pos hopen]
      apply holds_update
      intro s₂ hr₂
      refine holds_pure ext fun s₃ hm => ?_
      have hm₂ := (moved_book ext (market_withoutTrade s₁.book tradeId)).trans (moved_of_rely ext hr₂)
      have hend : Moved ext [row.clientId] s₂ (s₂.update row.clientId (ending .closed reason)) :=
        moved_ending (by decide)
      have hrest := hend.trans hm
      refine ⟨((hm₁.trans hm₂).trans hrest).mono (by simp), fun hholding => ?_⟩
      rintro ⟨t, ht, hext⟩
      have hgone : Gone ext row.clientId (s₁.book.withoutTrade tradeId) :=
        (hholding.1.market hm₁.market).market (market_withoutTrade _ _)
      have hleft := hgone.old_trade (hr₂.2.1.trans hrest.market) ht hext
      obtain ⟨hold, hother⟩ := mem_trades_withoutTrade.mp hleft
      have hname := (hholding.market hm₁.market).2 t hold hext
      rw [htrade, Option.some.injEq] at hname
      exact hother hname.symm
    · simp only [truthful, if_neg hopen]
      apply holds_update
      intro s₂ hr₂
      refine holds_pure ext fun s₃ hm => ?_
      have hm₂ := moved_of_rely ext hr₂
      have hend : Moved ext [row.clientId] s₂
          (s₂.update row.clientId (ending .closedAtBroker SL_TP_OR_EXTERNAL)) :=
        moved_ending (by decide)
      have hrest := hend.trans hm
      refine ⟨((hm₁.trans hm₂).trans hrest).mono (by simp), fun hholding => ?_⟩
      rintro ⟨t, ht, hext⟩
      have hholding' := hholding.market hm₁.market
      have hold := hholding'.1.old_trade (hm₂.market.trans hrest.market) ht hext
      have hname := hholding'.2 t hold hext
      rw [htrade, Option.some.injEq] at hname
      exact hopen ⟨t, hold, hname.symm⟩

/-- The rows one after the other: what one visit establishes and the market keeps holds of
every row that is visited. -/
theorem flattenRows_holds {settings : Settings} {act : Row → Program World String}
    {Pre Post : Row → Book → Prop}
    (hpre : ∀ r book book', Market book book' → Pre r book → Pre r book')
    (hpost : ∀ r book book', Market book book' → Post r book → Post r book')
    (hact : ∀ r s, (act r).Holds tick (fun _ s' => Moved ext [r.clientId] s s' ∧
      (Pre r s.book → Post r s'.book)) s) (rows : List Row) (s : World) :
    (flattenRows settings act rows).Holds tick (fun _ s' =>
      Moved ext (rows.map Row.clientId) s s' ∧ (settings.dryRun = false → ∀ r ∈ rows, ¬r.Latched →
        Pre r s.book → Post r s'.book)) s := by
  induction rows generalizing s with
  | nil => exact holds_pure ext fun s' hm => ⟨hm, by simp⟩
  | cons row rows ih =>
    have hrow : (flattenRow settings act row).Holds tick (fun _ s' =>
        Moved ext [row.clientId] s s' ∧ (settings.dryRun = false → ¬row.Latched →
          Pre row s.book → Post row s'.book)) s := by
      unfold flattenRow
      split_ifs with hlatched hdry
      · exact holds_pure ext fun s' hm => ⟨hm.mono (by simp), fun _ h => absurd hlatched h⟩
      · refine holds_pure ext fun s' hm => ⟨hm.mono (by simp), fun h => ?_⟩
        rw [hdry] at h
        cases h
      · exact (hact row s).mono fun _ s' _ h => ⟨h.1, fun _ _ => h.2⟩
    unfold flattenRows
    refine Holds.bind (hrow.mono fun outcome s₁ _ h₁ => ?_) trivial
    refine Holds.bind ((ih s₁).mono fun others s₂ _ h₂ => ?_) trivial
    refine holds_pure ext fun s₃ hm => ?_
    have hmoved := h₁.1.trans (h₂.1.trans hm)
    refine ⟨hmoved.mono (by simp), fun hdry r hr hlatched hp => ?_⟩
    obtain rfl | hr := List.mem_cons.mp hr
    · exact hpost r _ _ (h₂.1.trans hm).market (h₁.2 hdry hlatched hp)
    · exact hpost r _ _ hm.market (h₂.2 hdry r hr hlatched (hpre r _ _ h₁.1.market hp))
/-! ## Reconciling one row -/

theorem lastWith_eq_some {α : Type} {l : List α} {p : α → Bool} {x : α}
    (h : lastWith l p = some x) : x ∈ l ∧ p x = true :=
  ⟨List.mem_reverse.mp (List.mem_of_find?_eq_some h), List.find?_some h⟩

theorem lastWith_eq_none {α : Type} {l : List α} {p : α → Bool} (h : lastWith l p = none)
    {x : α} (hx : x ∈ l) : p x = false := by
  have hall := List.find?_eq_none.mp h x (List.mem_reverse.mpr hx)
  simpa using hall

/-- The open trades as they were read a while ago. -/
structure Snapshot (trades : List OpenTrade) (book : Book) : Prop where
  one : ∀ t ∈ trades, ∀ t' ∈ trades, ∀ e, t.clientExtId = some e → t'.clientExtId = some e → t = t'
  gone : ∀ t ∈ trades, ∀ o ∈ book.orders, ∀ e, t.clientExtId = some e → o.clientExtId ≠ some e
  now : ∀ t ∈ book.trades, ∀ t' ∈ trades, ∀ e, t.clientExtId = some e →
    t'.clientExtId = some e → t ∈ trades

theorem snapshot_read (book : Book) : Snapshot book.trades book :=
  ⟨book.oneTrade, fun t ht o ho e hext hsame => book.apart o ho t ht e hsame hext,
    fun _ ht _ _ _ _ _ => ht⟩

theorem Snapshot.market {trades : List OpenTrade} {book book' : Book}
    (h : Snapshot trades book) (hm : Market book book') : Snapshot trades book' := by
  refine ⟨h.one, fun t ht o ho => h.gone t ht o (hm.orders o ho), ?_⟩
  intro t ht t' ht' e hext hext'
  obtain hold | ⟨o, ho, _, hsame⟩ := hm.trades t ht
  · exact h.now t hold t' ht' e hext hext'
  · exact absurd (hsame ▸ hext) (h.gone t' ht' o ho e hext')

/-- The resting orders as they were read a while ago. -/
structure Listed (orders : List PendingOrder) (book : Book) : Prop where
  all : ∀ o ∈ book.orders, o ∈ orders
  one : ∀ o ∈ orders, ∀ o' ∈ orders, ∀ e, o.clientExtId = some e → o'.clientExtId = some e → o = o'
  ids : ∀ o ∈ orders, ∀ o' ∈ orders, o.orderId = o'.orderId → o = o'

theorem listed_read (book : Book) : Listed book.orders book :=
  ⟨fun _ h => h, book.oneOrder, book.orderIds⟩

theorem Listed.market {orders : List PendingOrder} {book book' : Book}
    (h : Listed orders book) (hm : Market book book') : Listed orders book' :=
  ⟨fun o ho => h.all o (hm.orders o ho), h.one, h.ids⟩

/-- The order that is found for a row is the one that rests for it. -/
theorem Listed.restingFor {orders : List PendingOrder} {book : Book} (h : Listed orders book)
    {row : Row} {o : PendingOrder} (ho : o ∈ book.orders)
    (hext : o.clientExtId = some (ext row.clientId)) : restingFor ext orders row = some o := by
  unfold RouterRequests.restingFor
  cases hfound : lastWith orders (fun o => decide (o.clientExtId = some (ext row.clientId))) with
  | none =>
    have := lastWith_eq_none hfound (h.all o ho)
    simp [hext] at this
  | some o' =>
    obtain ⟨ho', hext'⟩ := lastWith_eq_some hfound
    have hsame := h.one o (h.all o ho) o' ho' _ hext (of_decide_eq_true hext')
    rw [hsame]
    rfl

/-- An order that is found belongs to the row, by its client id or by the id it carries. -/
theorem restingFor_eq_some {orders : List PendingOrder} {row : Row} {o : PendingOrder}
    (h : restingFor ext orders row = some o) :
    o ∈ orders ∧ (o.clientExtId = some (ext row.clientId) ∨ row.orderId = some o.orderId) := by
  unfold RouterRequests.restingFor at h
  rw [Option.orElse_eq_some] at h
  obtain hfound | ⟨_, hfound⟩ := h
  · obtain ⟨ho, hext⟩ := lastWith_eq_some hfound
    exact ⟨ho, .inl (of_decide_eq_true hext)⟩
  · obtain ⟨ho, hid⟩ := lastWith_eq_some hfound
    exact ⟨ho, .inr (of_decide_eq_true hid)⟩
theorem mem_update_self {s : World} {row : Row} (u : Update) (h : row ∈ s.rows) :
    u.apply row ∈ (s.update row.clientId u).rows :=
  mem_update.mpr (.inl ⟨row, h, rfl, rfl⟩)

/-- The row of a resting order takes over its id. -/
theorem moved_restingLimit {s : World} {row : Row} {orders : List PendingOrder}
    {order : PendingOrder} (hrow : row ∈ s.rows) (hlimit : row.IsLimit)
    (hlisted : Listed orders s.book) (hfound : restingFor ext orders row = some order) :
    Moved ext [row.clientId] s (s.update row.clientId (restingLimit order)) := by
  obtain ⟨hmem, hwhose⟩ := restingFor_eq_some hfound
  refine moved_update (fun r hr hid _ => ?_) (fun _ r hr hid _ o ho hext => ?_)
    (fun hlinked r hr hid o ho hsame => ?_)
  · rw [s.rows.eq_of_key hr hrow hid]
    exact hlimit
  · have hext' : o.clientExtId = some (ext row.clientId) := hid ▸ hext
    rw [hlisted.restingFor ho hext', Option.some.injEq] at hfound
    rw [hfound]
    rfl
  · have horder : order.orderId = o.orderId := by simpa [restingLimit] using hsame
    obtain hext | hid' := hwhose
    · rw [hid, ← hlisted.ids order hmem o (hlisted.all o ho) horder]
      exact hext
    · rw [s.rows.eq_of_key hr hrow hid]
      exact hlinked.own row hrow o ho (hid'.trans (congrArg some horder))

/-- A limit without an open trade waits for its cancel with the id of its order. -/
theorem reconcileUnfilled_holds {row : Row} {orders : List PendingOrder} {s : World}
    (hrow : row ∈ s.rows) (hlimit : row.IsLimit) (hlisted : Listed orders s.book)
    (hnames : row.status = .pendingLimit → Names ext row s.book) :
    (reconcileUnfilled ext truthful row orders).Holds tick (fun _ s' =>
      Moved ext [row.clientId] s s' ∧ ((row.Latched → Gone ext row.clientId s.book) →
        Waiting ext row.clientId s')) s := by
  unfold reconcileUnfilled
  cases hfound : restingFor ext orders row with
  | some order =>
    have horder : ∀ o ∈ s.book.orders, o.clientExtId = some (ext row.clientId) → o = order := by
      intro o ho hext
      rw [hlisted.restingFor ho hext] at hfound
      exact Option.some.inj hfound
    dsimp only
    split_ifs with hstatus
    · apply holds_update
      intro s₁ hr
      refine holds_pure ext fun s₂ hm => ?_
      have hm₁ := moved_of_rely ext hr
      have hrow₁ : row ∈ s₁.rows := hr.1 ▸ hrow
      have hupdate := moved_restingLimit hrow₁ hlimit (hlisted.market hm₁.market) hfound
      have hmoved := hm₁.trans (hupdate.trans hm)
      refine ⟨hmoved.mono (by simp), fun hlatched => ?_⟩
      have hwaits : Waiting ext row.clientId (s₁.update row.clientId (restingLimit order)) := by
        intro o ho hext
        have hold := hm₁.market.orders o ho
        refine ⟨_, mem_update_self (restingLimit order) hrow₁, rfl, rfl, ?_, ?_⟩
        · exact fun h => hlatched h o hold hext
        · rw [horder o hold hext]
          rfl
      exact hwaits.moved hm (by simp)
    · refine holds_pure ext fun s₁ hm => ⟨hm.mono (by simp), fun hlatched => ?_⟩
      have hwaits : Waiting ext row.clientId s := fun o ho hext =>
        ⟨row, hrow, rfl, not_not.mp hstatus, fun h => hlatched h o ho hext,
          hnames (not_not.mp hstatus) o ho hext⟩
      exact hwaits.moved hm (by simp)
  | none =>
    have hgone : Gone ext row.clientId s.book := by
      intro o ho hext
      rw [hlisted.restingFor ho hext] at hfound
      cases hfound
    apply holds_readBroker
    intro s₁ hr
    have hm₁ := moved_of_rely ext hr
    simp only [truthful]
    cases s₁.book.made (ext row.clientId) with
    | none =>
      apply holds_update
      intro s₂ hr₂
      refine holds_pure ext fun s₃ hm => ?_
      have hend : Moved ext [row.clientId] s₂
          (s₂.update row.clientId (ending .cancelled "LIMIT_EXPIRED")) :=
        moved_ending (by decide)
      have hmoved := hm₁.trans ((moved_of_rely ext hr₂).trans (hend.trans hm))
      exact ⟨hmoved.mono (by simp), fun _ => (hgone.market hmoved.market).waiting⟩
    | some tradeId =>
      apply holds_update
      intro s₂ hr₂
      refine holds_pure ext fun s₃ hm => ?_
      have hend : Moved ext [row.clientId] s₂
          (s₂.update row.clientId (closedAtBroker tradeId)) :=
        moved_leaving .closedAtBroker (fun _ => rfl) (by decide) (fun _ => rfl)
      have hmoved := hm₁.trans ((moved_of_rely ext hr₂).trans (hend.trans hm))
      exact ⟨hmoved.mono (by simp), fun _ => (hgone.market hmoved.market).waiting⟩
variable (ext) in
/-- What a reconciled limit row is ready for. -/
def Ready (trades : List OpenTrade) (clientId : String) (s : World) : Prop :=
  Waiting ext clientId s ∧
    ((∃ t ∈ trades, t.clientExtId = some (ext clientId)) → Filled ext clientId s)

theorem Ready.moved {trades : List OpenTrade} {clientId : String} {ids : List String}
    {s s' : World} (h : Ready ext trades clientId s) (hm : Moved ext ids s s')
    (hid : clientId ∉ ids) : Ready ext trades clientId s' :=
  ⟨h.1.moved hm hid, fun ht => (h.2 ht).moved hm (fun _ _ _ _ => hid)⟩

theorem reconcileLimit_holds {trades : List OpenTrade} {row : Row}
    {cached : Option (List PendingOrder)} {s : World} (hrow : row ∈ s.rows)
    (hlimit : row.IsLimit) (hseen : Snapshot trades s.book)
    (hcached : ∀ orders, cached = some orders → Listed orders s.book)
    (hnames : row.status = .pendingLimit → Names ext row s.book) :
    (reconcileLimit ext truthful trades row cached).Holds tick (fun out s' =>
      Moved ext [row.clientId] s s' ∧ (∀ orders, out.2 = some orders → Listed orders s'.book) ∧
        ((row.Latched → Gone ext row.clientId s.book) → Ready ext trades row.clientId s')) s := by
  unfold reconcileLimit tradeByExt
  cases hfound : lastWith trades (fun t => decide (t.clientExtId = some (ext row.clientId))) with
  | some trade =>
    obtain ⟨hmem, hext⟩ := lastWith_eq_some hfound
    have hext : trade.clientExtId = some (ext row.clientId) := of_decide_eq_true hext
    apply holds_update
    intro s₁ hr
    refine holds_pure ext fun s₂ hm => ?_
    have hm₁ := moved_of_rely ext hr
    have hrow₁ : row ∈ s₁.rows := hr.1 ▸ hrow
    have hupdate : Moved ext [row.clientId] s₁
        (s₁.update row.clientId (filledLimit row trade)) :=
      moved_leaving .open (fun _ => rfl) (by decide) (fun _ => rfl)
    have hmoved := hm₁.trans (hupdate.trans hm)
    have hgone : Gone ext row.clientId s₁.book := fun o ho =>
      (hseen.market hm₁.market).gone trade hmem o ho _ hext
    refine ⟨hmoved.mono (by simp), fun orders h => (hcached orders h).market hmoved.market,
      fun _ => ⟨(hgone.market (hupdate.trans hm).market).waiting, fun _ => ?_⟩⟩
    -- A trade that is open under the client id now is the one that was read.
    have hfilled : Filled ext row.clientId (s₁.update row.clientId (filledLimit row trade)) := by
      refine ⟨hgone, fun t ht hsame => ?_⟩
      have hread := (hseen.market hm₁.market).now t ht trade hmem _ hsame hext
      rw [hseen.one t hread trade hmem _ hsame hext]
      exact ⟨_, mem_update_self (filledLimit row trade) hrow₁, rfl, rfl,
        by simp [Row.Latched, filledLimit], rfl⟩
    exact hfilled.moved hm (by simp)
  | none =>
    have hnone : ¬∃ t ∈ trades, t.clientExtId = some (ext row.clientId) := by
      rintro ⟨t, ht, hext⟩
      have := lastWith_eq_none hfound ht
      simp [hext] at this
    -- Whether the orders were read before or are read now, the rest is the same.
    have hrest : ∀ s₁ orders, tick.rely s s₁ → Listed orders s₁.book →
        (reconcileUnfilled ext truthful row orders >>= fun _ => Pure.pure (none, some orders) :
          Program World (Option String × Option (List PendingOrder))).Holds tick (fun out s' =>
            Moved ext [row.clientId] s s' ∧
              (∀ orders, out.2 = some orders → Listed orders s'.book) ∧
              ((row.Latched → Gone ext row.clientId s.book) →
                Ready ext trades row.clientId s')) s₁ := by
      intro s₁ orders hr hlisted
      have hm₁ := moved_of_rely ext hr
      refine Holds.bind ((reconcileUnfilled_holds (hr.1 ▸ hrow) hlimit hlisted
        (fun h => (hnames h).market hm₁.market)).mono fun _ s₂ _ h₂ => ?_) trivial
      refine holds_pure ext fun s₃ hm => ?_
      have hmoved := hm₁.trans (h₂.1.trans hm)
      refine ⟨hmoved.mono (by simp), fun orders' h => ?_, fun hlatched => ?_⟩
      · cases h
        exact hlisted.market (h₂.1.trans hm).market
      · have hwaits := h₂.2 (fun h => (hlatched h).market hm₁.market)
        exact ⟨hwaits.moved hm (by simp), fun h => absurd h hnone⟩
    cases cached with
    | some orders => exact hrest s orders (tick.rely_refl s) (hcached orders rfl)
    | none =>
      apply holds_readBroker
      intro s₁ hr
      exact hrest s₁ s₁.book.orders hr (listed_read s₁.book)

variable (ext) in
/-- Rows that are not limits do not become any. -/
theorem reconcileOpen_holds (trades : List OpenTrade) (row : Row) (s : World) :
    (reconcileOpen trades row).Holds tick (fun _ s' => Moved ext [row.clientId] s s') s := by
  unfold reconcileOpen
  cases lastWith trades (fun t => decide (row.tradeId = some t.tradeId)) with
  | none =>
    apply holds_update
    intro s₁ hr
    refine holds_pure ext fun s₂ hm => ?_
    have hend : Moved ext [row.clientId] s₁ (s₁.update row.clientId (gone row)) := by
      unfold gone
      cases closeAction row.pendingAction with
      | some reason => exact moved_ending (by decide)
      | none => exact moved_ending (by decide)
    exact ((moved_of_rely ext hr).trans (hend.trans hm)).mono (by simp)
  | some trade =>
    apply holds_update
    intro s₁ hr
    refine holds_pure ext fun s₂ hm => ?_
    have hsame : ∀ r, ((observed row trade).apply r).status = r.status ∧
        ((observed row trade).apply r).orderKind = r.orderKind ∧
        ((observed row trade).apply r).orderId = r.orderId := by
      intro r
      unfold observed
      dsimp only
      split <;> split_ifs <;> exact ⟨rfl, rfl, rfl⟩
    have hupdate : Moved ext [row.clientId] s₁ (s₁.update row.clientId (observed row trade)) := by
      refine moved_update_of (fun r h => ?_) (fun r h => ?_) (fun r => (hsame r).2.2)
      · unfold Row.IsLimit at h ⊢
        rwa [(hsame r).1, (hsame r).2.1] at h
      · rwa [(hsame r).1] at h
    exact ((moved_of_rely ext hr).trans (hupdate.trans hm)).mono (by simp)

theorem reconcileSent_holds (trades : List OpenTrade) (row : Row) (s : World) :
    (reconcileSent ext truthful trades row).Holds tick
      (fun _ s' => Moved ext [row.clientId] s s') s := by
  unfold reconcileSent
  cases tradeByExt ext trades row.clientId with
  | some trade =>
    apply holds_update
    intro s₁ hr
    refine holds_pure ext fun s₂ hm => ?_
    have hupdate : Moved ext [row.clientId] s₁
        (s₁.update row.clientId (filledMarket row trade)) :=
      moved_leaving .open (fun _ => rfl) (by decide) (fun _ => rfl)
    exact ((moved_of_rely ext hr).trans (hupdate.trans hm)).mono (by simp)
  | none =>
    apply holds_readBroker
    intro s₁ hr
    simp only [truthful]
    cases s₁.book.made (ext row.clientId) with
    | none => exact holds_pure ext fun s₂ hm => ((moved_of_rely ext hr).trans hm).mono (by simp)
    | some tradeId =>
      apply holds_update
      intro s₂ hr₂
      refine holds_pure ext fun s₃ hm => ?_
      have hupdate : Moved ext [row.clientId] s₂
          (s₂.update row.clientId (closedMarket tradeId)) :=
        moved_leaving .closedAtBroker (fun _ => rfl) (by decide) (fun _ => rfl)
      have hm₂ := (moved_of_rely ext hr).trans (moved_of_rely ext hr₂)
      exact (hm₂.trans (hupdate.trans hm)).mono (by simp)

theorem reconcileRow_holds {trades : List OpenTrade} {row : Row}
    {cached : Option (List PendingOrder)} {s : World} (hrow : row ∈ s.rows)
    (hseen : Snapshot trades s.book)
    (hcached : ∀ orders, cached = some orders → Listed orders s.book)
    (hnames : row.status = .pendingLimit → Names ext row s.book) :
    (reconcileRow ext truthful trades row cached).Holds tick (fun out s' =>
      Moved ext [row.clientId] s s' ∧ (∀ orders, out.2 = some orders → Listed orders s'.book) ∧
        (row.IsLimit → (row.Latched → Gone ext row.clientId s.book) →
          Ready ext trades row.clientId s')) s := by
  unfold reconcileRow
  split_ifs with hlimit hopen
  · exact (reconcileLimit_holds hrow hlimit hseen hcached hnames).mono
      fun _ _ _ h => ⟨h.1, h.2.1, fun _ => h.2.2⟩
  · refine Holds.bind ((reconcileOpen_holds ext trades row s).mono fun _ s₁ _ h₁ => ?_) trivial
    refine holds_pure ext fun s₂ hm => ?_
    exact ⟨(h₁.trans hm).mono (by simp), fun orders h =>
      (hcached orders h).market (h₁.trans hm).market, fun h => absurd h hlimit⟩
  · refine Holds.bind ((reconcileSent_holds trades row s).mono fun _ s₁ _ h₁ => ?_) trivial
    refine holds_pure ext fun s₂ hm => ?_
    exact ⟨(h₁.trans hm).mono (by simp), fun orders h =>
      (hcached orders h).market (h₁.trans hm).market, fun h => absurd h hlimit⟩

/-- One visit a row, and later visits leave it alone. -/
theorem reconcileRows_holds {trades : List OpenTrade} {rows : List Row}
    {cached : Option (List PendingOrder)} {s : World}
    (hdistinct : (rows.map Row.clientId).Nodup) (hrows : ∀ r ∈ rows, r ∈ s.rows)
    (hseen : Snapshot trades s.book)
    (hcached : ∀ orders, cached = some orders → Listed orders s.book)
    (hnames : ∀ r ∈ rows, r.status = .pendingLimit → Names ext r s.book) :
    (reconcileRows ext truthful trades rows cached).Holds tick (fun _ s' =>
      Moved ext (rows.map Row.clientId) s s' ∧ ∀ r ∈ rows, r.IsLimit →
        (r.Latched → Gone ext r.clientId s.book) → Ready ext trades r.clientId s') s := by
  induction rows generalizing cached s with
  | nil => exact holds_pure ext fun s' hm => ⟨hm, by simp⟩
  | cons row rows ih =>
    rw [List.map_cons, List.nodup_cons] at hdistinct
    unfold reconcileRows
    refine Holds.bind ((reconcileRow_holds (hrows row List.mem_cons_self) hseen hcached
      (hnames row List.mem_cons_self)).mono fun out s₁ _ h₁ => ?_) trivial
    obtain ⟨hm₁, hcached₁, hready₁⟩ := h₁
    have hrows₁ : ∀ r ∈ rows, r ∈ s₁.rows := fun r hr =>
      (hm₁.others r (fun h => hdistinct.1 (by
        rw [← List.mem_singleton.mp h]
        exact List.mem_map_of_mem hr))).mpr (hrows r (List.mem_cons_of_mem _ hr))
    refine Holds.bind ((ih hdistinct.2 hrows₁ (hseen.market hm₁.market) hcached₁
      (fun r hr h => (hnames r (List.mem_cons_of_mem _ hr) h).market hm₁.market)).mono
        fun others s₂ _ h₂ => ?_) trivial
    refine holds_pure ext fun s₃ hm => ?_
    have hrest := h₂.1.trans hm
    refine ⟨(hm₁.trans hrest).mono (by simp), fun r hr hlimit hlatched => ?_⟩
    obtain rfl | hr := List.mem_cons.mp hr
    · exact (hready₁ hlimit hlatched).moved hrest (by simpa using hdistinct.1)
    · have hready := h₂.2 r hr hlimit (fun h => (hlatched h).market hm₁.market)
      exact hready.moved hm (by simp)
end Rows

/-! ## A tick -/

section Tick

variable {ext : String → String}

theorem rows_driftClearRequest (problems : World → List String) (s : World) :
    (driftClearRequest problems s).rows = s.rows ∧
      (driftClearRequest problems s).book = s.book := by
  unfold driftClearRequest
  cases s.driftClear with
  | none => exact ⟨rfl, rfl⟩
  | some request =>
    dsimp only
    generalize (if s.blocked ≠ some DRIFT then ["not_blocked_by_drift"]
      else if stored request.actor = false then ["request_invalid"]
      else if stored request.episode = false ∨ request.episode ≠ s.driftEpisode then
        ["stale_episode"]
      else problems s) = found
    split_ifs <;> exact ⟨rfl, rfl⟩

theorem rows_settleBlocks (episode : String) (drift : List (String × String)) (s : World) :
    (settleBlocks episode drift s).rows = s.rows ∧
      (settleBlocks episode drift s).book = s.book := by
  have hdrift : ∀ s : World, (blockOnDrift episode drift s).rows = s.rows ∧
      (blockOnDrift episode drift s).book = s.book := by
    intro s
    unfold blockOnDrift
    split_ifs <;> exact ⟨rfl, rfl⟩
  have hunresolved : ∀ s : World, (blockOnUnresolved s).rows = s.rows ∧
      (blockOnUnresolved s).book = s.book := by
    intro s
    unfold blockOnUnresolved
    split_ifs <;> exact ⟨rfl, rfl⟩
  unfold settleBlocks
  rw [(hunresolved _).1, (hunresolved _).2, (rows_driftClearRequest _ _).1,
    (rows_driftClearRequest _ _).2]
  exact hdrift s

/-- Reconciliation against a truthful broker reads the open trades and makes every limit
row ready whose action is not latched. -/
theorem reconcile_holds (episode : String) {s : World} (hlinked : Linked ext s) :
    (reconcile ext truthful episode).Holds tick (fun report s' => ∃ trades ids,
      report = some trades ∧ Moved ext ids s s' ∧ ∀ r ∈ s.rows, r.IsLimit →
        (r.Latched → Gone ext r.clientId s.book) → Waiting ext r.clientId s' ∧
          (Traded ext r.clientId s.book → Filled ext r.clientId s')) s := by
  unfold reconcile
  apply holds_readBroker
  intro s₁ hr
  simp only [truthful]
  refine Holds.read_now fun s₂ hr₂ _ => ?_
  have hm₁ := moved_of_rely ext hr
  have hm₂ := moved_of_rely ext hr₂
  have hlinked₂ := hm₂.linked (hm₁.linked hlinked)
  have hdistinct : ((s₂.trades LIVE_STATUSES).map Row.clientId).Nodup :=
    s₂.rows.nodup.sublist (List.filter_sublist.map _)
  have hloop := @reconcileRows_holds ext s₁.book.trades (s₂.trades LIVE_STATUSES) none s₂
    hdistinct (fun r h => (mem_trades.mp h).1)
    ((snapshot_read s₁.book).market hm₂.market) (fun orders h => by cases h)
    (fun r h => hlinked₂.names r (mem_trades.mp h).1)
  refine Holds.bind (hloop.mono fun matched s₃ _ h₃ => ?_) trivial
  refine Holds.call fun s₄ hr₄ _ => ⟨trivial, trivial, ?_⟩
  refine holds_pure ext fun s₅ hm => ?_
  obtain ⟨hm₃, hready⟩ := h₃
  have hflags := rows_settleBlocks episode ((s₁.book.trades.filter
    (fun t => decide (t.tradeId ∉ matched))).map (fun t => (t.tradeId, t.instrument))) s₄
  have hsettle : Moved ext [] s₄ (settleBlocks episode _ s₄) :=
    moved_of_market hflags.1 (hflags.2 ▸ Market.refl _)
  have hlast := (moved_of_rely ext hr₄).trans (hsettle.trans hm)
  have hall := hm₁.trans (hm₂.trans (hm₃.trans hlast))
  refine ⟨s₁.book.trades, _, rfl, hall, fun r hrow hlimit hlatched => ?_⟩
  have hlive : r ∈ s₂.trades LIVE_STATUSES := by
    rw [mem_trades, hr₂.1, hr.1]
    exact ⟨hrow, live_of_isLimit hlimit⟩
  have hthis := hready r hlive hlimit
    (fun h => ((hlatched h).market hm₁.market).market hm₂.market)
  refine ⟨(hthis.moved hlast (by simp)).1, fun htraded => ?_⟩
  -- The trade was still there when the trades were read, or it never comes back.
  by_cases hread : Traded ext r.clientId s₁.book
  · exact (hthis.moved hlast (by simp)).2 hread
  · have hgone := htraded.gone.market hm₁.market
    have hsince := hm₂.market.trans (hm₃.market.trans hlast.market)
    refine ⟨hgone.market hsince, fun t ht hext => ?_⟩
    exact absurd ⟨t, hgone.old_trade hsince ht hext, hext⟩ hread

/-- What a flatten leaves of the limit rows it began with. -/
structure Flattened (ext : String → String) (s s' : World) : Prop where
  /-- No resting limit of the table has an order that rests. -/
  pending : ∀ r ∈ s'.rows, r.status = .pendingLimit → Gone ext r.clientId s'.book
  /-- What rested for a limit row is cancelled, or has left by itself. -/
  cancelled : ∀ r ∈ s.rows, r.IsLimit → Gone ext r.clientId s'.book
  /-- A limit that had filled has its trade closed. -/
  closed : ∀ r ∈ s.rows, r.IsLimit → Traded ext r.clientId s.book →
    ¬Traded ext r.clientId s'.book

/-- A live router, and no latched limit row whose order rests. A dry run sends nothing, so
there must be nothing to take away. -/
def CanFinish (ext : String → String) (settings : Settings) (s : World) : Prop :=
  ∀ r ∈ s.rows, r.IsLimit →
    if settings.dryRun then Gone ext r.clientId s.book ∧ ¬Traded ext r.clientId s.book
    else r.Latched → Gone ext r.clientId s.book

theorem flattened_of_moved {ids : List String} {s s' : World} (hm : Moved ext ids s s')
    (h : ∀ r ∈ s.rows, r.IsLimit → Gone ext r.clientId s'.book ∧
      (Traded ext r.clientId s.book → ¬Traded ext r.clientId s'.book)) :
    Flattened ext s s' := by
  refine ⟨fun r' hr' hstatus => ?_, fun r hr hlimit => (h r hr hlimit).1,
    fun r hr hlimit => (h r hr hlimit).2⟩
  obtain ⟨r, hr, hid, hlimit⟩ := hm.limits r' hr' (.inl hstatus)
  rw [← hid]
  exact (h r hr hlimit).1

/-- The three stations in a row. -/
theorem flatten_holds {settings : Settings} {episode reason : String} {raw : Option String}
    {s : World} (hlinked : Linked ext s) :
    (flatten ext truthful settings episode raw reason).Holds tick (fun _ s' =>
      Linked ext s' ∧ (CanFinish ext settings s → Flattened ext s s')) s := by
  unfold flatten
  refine Holds.bind ((reconcile_holds episode hlinked).mono fun report s₁ _ h₁ => ?_) trivial
  obtain ⟨trades, ids, rfl, hm₁, hready⟩ := h₁
  refine Holds.read_now fun s₂ hr₂ _ => ?_
  have hm₂ := moved_of_rely ext hr₂
  refine Holds.bind ((@flattenRows_holds ext settings _ (fun r book => Names ext r book)
    (fun r book => Gone ext r.clientId book) (fun r _ _ hm h => h.market hm)
    (fun r _ _ hm h => h.market hm) (fun r s => cancelLimit_holds r reason s) _ s₂).mono
      fun cancelled s₃ _ h₃ => ?_) trivial
  obtain ⟨hm₃, hcancelled⟩ := h₃
  refine Holds.read_now fun s₄ hr₄ _ => ?_
  have hm₄ := moved_of_rely ext hr₄
  refine Holds.bind ((@flattenRows_holds ext settings _ (fun r book => Holding ext r book)
    (fun r book => Gone ext r.clientId book ∧ ¬Traded ext r.clientId book)
    (fun r _ _ hm h => h.market hm)
    (fun r _ _ hm h => ⟨h.1.market hm, fun ⟨t, ht, hext⟩ => h.2 ⟨t, h.1.old_trade hm ht hext, hext⟩⟩)
    (fun r s => (close_holds r reason s).mono fun _ s' _ h =>
      ⟨h.1, fun hholding => ⟨hholding.1.market h.1.market, h.2 hholding⟩⟩) _ s₄).mono
      fun closed s₅ _ h₅ => ?_) trivial
  obtain ⟨hm₅, hclosed⟩ := h₅
  refine Holds.call fun s₆ hr₆ _ => ⟨trivial, trivial, ?_⟩
  refine holds_pure ext fun s₇ hm => ?_
  have hfinish : Moved ext [] s₆ (finishRequest raw s₆) := by
    unfold finishRequest
    split_ifs
    · exact moved_of_market rfl (Market.refl _)
    · exact Moved.refl _ _
  have hlast := (moved_of_rely ext hr₆).trans (hfinish.trans hm)
  have hall := hm₁.trans (hm₂.trans (hm₃.trans (hm₄.trans (hm₅.trans hlast))))
  refine ⟨hall.linked hlinked, fun hcan => flattened_of_moved hall fun r hrow hlimit => ?_⟩
  have hcan := hcan r hrow hlimit
  cases hdry : settings.dryRun with
  | true =>
    rw [if_pos hdry] at hcan
    exact ⟨hcan.1.market hall.market, fun htraded => absurd htraded hcan.2⟩
  | false =>
    rw [if_neg (by simp [hdry])] at hcan
    obtain ⟨hwaits, hfilled⟩ := hready r hrow hlimit hcan
    have hwaits := hwaits.moved hm₂ (by simp)
    have hgone : Gone ext r.clientId s₃.book := by
      intro o ho hext
      have hold := hm₃.market.orders o ho
      obtain ⟨r', hr', hid, hstatus, hlatched, horder⟩ := hwaits o hold hext
      refine hcancelled hdry r' (by simp [hr', hstatus]) hlatched (fun o' ho' hext' => ?_) o ho
        (hid ▸ hext)
      rw [hid] at hext'
      rw [s₂.book.oneOrder o' ho' o hold _ hext' hext]
      exact horder
    have hgone₄ := hgone.market hm₄.market
    refine ⟨hgone₄.market (hm₅.trans hlast).market, fun htraded => ?_⟩
    have hfilled₂ := (hfilled htraded).moved hm₂ (fun _ _ _ _ => by simp)
    have hfilled₄ : Filled ext r.clientId s₄ := by
      refine Filled.moved (Filled.moved hfilled₂ hm₃ fun r' hr' hid hopen hmem => ?_) hm₄
        (fun _ _ _ _ => by simp)
      obtain ⟨r'', hr'', hsame⟩ := List.mem_map.mp hmem
      obtain ⟨hrow'', hstatus⟩ := mem_trades.mp hr''
      rw [s₂.rows.eq_of_key hrow'' hr' (hsame.trans hid.symm), hopen] at hstatus
      simp at hstatus
    rintro ⟨t, ht, hext⟩
    have hold := hfilled₄.1.old_trade (hm₅.trans hlast).market ht hext
    obtain ⟨r', hr', hid, hstatus, hlatched, htrade⟩ := hfilled₄.2 t hold hext
    have hdone := hclosed hdry r' (by simp [hr', hstatus]) hlatched ⟨hid ▸ hfilled₄.1,
      fun t' ht' hext' => ?_⟩
    · rw [hid] at hdone
      exact hdone.2 ⟨t, hdone.1.old_trade hlast.market ht hext, hext⟩
    · rw [hid] at hext'
      rw [s₄.book.oneTrade t' ht' t hold _ hext' hext]
      exact htrade
end Tick

end MarketSystem.RouterTick
