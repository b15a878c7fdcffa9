import MarketSystem.Execution.RouterTick

/-!
# A flatten finishes

A row whose action is latched is passed over by every loop of the tick. Apart from a dry
run, which sends nothing, that is the only way for an order to survive a flatten.
-/
namespace MarketSystem.FlattenFinish

open Library Program RouterState RouterRequests RouterMoves RouterTick

/-! ## What survives -/

section Survival

variable {ext : String → String}

/-- An order rests for a limit row whose action is latched, and no other row can reach it. -/
structure Stuck (ext : String → String) (clientId : String) (o : PendingOrder) (s : World) :
    Prop where
  rests : o ∈ s.book.orders
  whose : o.clientExtId = some (ext clientId)
  row : ∃ r ∈ s.rows, r.clientId = clientId
  latched : ∀ r ∈ s.rows, r.clientId = clientId → r.IsLimit ∧ r.Latched
  others : ∀ r ∈ s.rows, r.clientId ≠ clientId →
    ext r.clientId ≠ ext clientId ∧ r.orderId ≠ some o.orderId

/-- What a row of such a state was when it was read. -/
abbrev Beside (ext : String → String) (clientId : String) (o : PendingOrder) (r : Row) : Prop :=
  if r.clientId = clientId then r.IsLimit ∧ r.Latched
  else ext r.clientId ≠ ext clientId ∧ r.orderId ≠ some o.orderId

variable {clientId : String} {o : PendingOrder}

theorem Stuck.beside {s : World} (h : Stuck ext clientId o s) {r : Row} (hr : r ∈ s.rows) :
    Beside ext clientId o r := by
  unfold Beside
  split_ifs with hid
  · exact h.latched r hr hid
  · exact h.others r hr hid

theorem Stuck.update {s : World} {id : String} {u : Update} (h : Stuck ext clientId o s)
    (hown : id = clientId → ∀ r, r.IsLimit ∧ r.Latched →
      (u.apply r).IsLimit ∧ (u.apply r).Latched)
    (hother : id ≠ clientId → ∀ r, r.orderId ≠ some o.orderId →
      (u.apply r).orderId ≠ some o.orderId) : Stuck ext clientId o (s.update id u) := by
  obtain ⟨r₀, hr₀, hid₀⟩ := h.row
  refine ⟨h.rests, h.whose, ?_, fun r hr hid => ?_, fun r hr hid => ?_⟩
  · by_cases hsame : r₀.clientId = id
    · exact ⟨_, mem_update.mpr (.inl ⟨r₀, hr₀, hsame, rfl⟩), (u.keeps r₀).trans hid₀⟩
    · exact ⟨r₀, mem_update.mpr (.inr ⟨hr₀, hsame⟩), hid₀⟩
  · obtain ⟨r₁, hr₁, hid₁, rfl⟩ | ⟨hr, _⟩ := mem_update.mp hr
    · rw [u.keeps r₁] at hid
      exact hown (hid₁.symm.trans hid) r₁ (h.latched r₁ hr₁ hid)
    · exact h.latched r hr hid
  · obtain ⟨r₁, hr₁, hid₁, rfl⟩ | ⟨hr, _⟩ := mem_update.mp hr
    · rw [u.keeps r₁] at hid ⊢
      obtain ⟨hext, horder⟩ := h.others r₁ hr₁ hid
      exact ⟨hext, hother (hid₁ ▸ hid) r₁ horder⟩
    · exact h.others r hr hid

/-- An update of another row that leaves its order alone. -/
theorem keeps_update {α : Type} {id : String} {u : Update} {k : Unit → Program World α}
    (hid : id ≠ clientId) (horder : ∀ r, (u.apply r).orderId = r.orderId)
    (h : (k ()).Keeps (Stuck ext clientId o)) :
    (update id u >>= k).Keeps (Stuck ext clientId o) :=
  keeps_call_bind (fun _ hs => hs.update (fun hsame => absurd hsame hid)
    (fun _ r hr => by rwa [horder r])) (fun _ _ => h)

/-- The orders were read while it was among them. -/
def Among (o : PendingOrder) (orders : List PendingOrder) : Prop :=
  o ∈ orders ∧ ∀ o' ∈ orders, o'.orderId = o.orderId → o' = o

theorem reconcileUnfilled_keeps {row : Row} {orders : List PendingOrder}
    (hwhose : o.clientExtId = some (ext clientId)) (hrow : Beside ext clientId o row)
    (horders : Among o orders) :
    (reconcileUnfilled ext truthful row orders).Keeps (Stuck ext clientId o) := by
  unfold reconcileUnfilled
  by_cases hid : row.clientId = clientId
  · cases hfound : restingFor ext orders row with
    | some order =>
      dsimp only
      split_ifs
      · refine keeps_call_bind (fun s hs => hs.update (fun _ r hr => ?_)
          (fun h => absurd hid h)) (fun _ _ => keeps_pure _ _)
        exact ⟨.inl rfl, hr.2⟩
      · exact keeps_pure _ _
    | none =>
      -- The order itself would have been found.
      have hnone := ((Option.orElse_eq_none _ _).mp hfound).1
      have := lastWith_eq_none hnone horders.1
      rw [hid, hwhose] at this
      simp at this
  · rw [Beside, if_neg hid] at hrow
    cases hfound : restingFor ext orders row with
    | some order =>
      obtain ⟨hmem, hits⟩ := restingFor_eq_some hfound
      have horder : order.orderId ≠ o.orderId := by
        intro hsame
        have heq := horders.2 order hmem hsame
        obtain hext | horder := hits
        · rw [heq, hwhose, Option.some.injEq] at hext
          exact hrow.1 hext.symm
        · exact hrow.2 (horder.trans (congrArg some hsame))
      dsimp only
      split_ifs
      · refine keeps_call_bind (fun s hs => hs.update (fun h => absurd h hid)
          (fun _ r _ => ?_)) (fun _ _ => keeps_pure _ _)
        simpa [restingLimit] using horder
      · exact keeps_pure _ _
    | none =>
      refine keeps_read_bind fun s _ => ?_
      simp only [truthful]
      cases s.book.made (ext row.clientId) with
      | none => exact keeps_update hid (fun _ => rfl) (keeps_pure _ _)
      | some tradeId => exact keeps_update hid (fun _ => rfl) (keeps_pure _ _)
/-- No trade of the client id was open when the trades were read. -/
abbrev Untraded (ext : String → String) (clientId : String) (trades : List OpenTrade) : Prop :=
  ∀ t ∈ trades, t.clientExtId ≠ some (ext clientId)

theorem tradeByExt_eq_none {trades : List OpenTrade} (h : Untraded ext clientId trades) :
    tradeByExt ext trades clientId = none := by
  cases hfound : tradeByExt ext trades clientId with
  | none => rfl
  | some t =>
    obtain ⟨ht, hext⟩ := lastWith_eq_some hfound
    exact absurd (of_decide_eq_true hext) (h t ht)

theorem reconcileLimit_keeps {trades : List OpenTrade} {row : Row}
    {cached : Option (List PendingOrder)} {s : World} (hs : Stuck ext clientId o s)
    (htrades : Untraded ext clientId trades) (hrow : Beside ext clientId o row)
    (hcached : ∀ orders, cached = some orders → Among o orders) :
    (reconcileLimit ext truthful trades row cached).Holds
      (Discipline.ofInv (Stuck ext clientId o))
      (fun out _ => ∀ orders, out.2 = some orders → Among o orders) s := by
  unfold reconcileLimit
  cases hfound : tradeByExt ext trades row.clientId with
  | some trade =>
    have hid : row.clientId ≠ clientId := by
      intro hid
      rw [hid, tradeByExt_eq_none htrades] at hfound
      cases hfound
    refine Holds.call fun s' _ hs' => ⟨?_, trivial, fun _ _ _ => hcached⟩
    exact hs'.update (fun h => absurd h hid) (fun _ _ h => h)
  | none =>
    have hrest : ∀ s' orders, Stuck ext clientId o s' → Among o orders →
        (reconcileUnfilled ext truthful row orders >>= fun _ => Pure.pure (none, some orders) :
          Program World (Option String × Option (List PendingOrder))).Holds
            (Discipline.ofInv (Stuck ext clientId o))
            (fun out _ => ∀ orders, out.2 = some orders → Among o orders) s' := by
      intro s' orders hs' horders
      have hkeeps := reconcileUnfilled_keeps hs'.whose hrow horders
      refine Holds.bind ((hkeeps s').mono fun _ _ _ _ _ _ _ orders' h => ?_) hs'
      cases h
      exact horders
    cases cached with
    | some orders => exact hrest s orders hs (hcached orders rfl)
    | none =>
      refine Holds.read_now fun s' _ hs' => hrest s' s'.book.orders hs' ⟨hs'.rests, ?_⟩
      exact fun o' ho' hsame => s'.book.orderIds o' ho' o hs'.rests hsame

theorem reconcileRow_keeps {trades : List OpenTrade} {row : Row}
    {cached : Option (List PendingOrder)} {s : World} (hs : Stuck ext clientId o s)
    (htrades : Untraded ext clientId trades) (hrow : Beside ext clientId o row)
    (hcached : ∀ orders, cached = some orders → Among o orders) :
    (reconcileRow ext truthful trades row cached).Holds
      (Discipline.ofInv (Stuck ext clientId o))
      (fun out _ => ∀ orders, out.2 = some orders → Among o orders) s := by
  unfold reconcileRow
  split_ifs with hlimit hopen
  · exact reconcileLimit_keeps hs htrades hrow hcached
  · have hid : row.clientId ≠ clientId := fun hid => hlimit (by simp_all [Beside])
    have hkeeps : (reconcileOpen trades row).Keeps (Stuck ext clientId o) := by
      unfold reconcileOpen
      cases lastWith trades (fun t => decide (row.tradeId = some t.tradeId)) with
      | none =>
        refine keeps_update hid (fun r => ?_) (keeps_pure _ _)
        unfold gone
        cases closeAction row.pendingAction <;> rfl
      | some trade =>
        refine keeps_update hid (fun r => ?_) (keeps_pure _ _)
        unfold observed
        dsimp only
        split <;> split_ifs <;> rfl
    exact Holds.bind ((hkeeps s).mono fun _ _ _ _ _ _ _ => hcached) hs
  · have hid : row.clientId ≠ clientId := fun hid => hlimit (by simp_all [Beside])
    have hkeeps : (reconcileSent ext truthful trades row).Keeps (Stuck ext clientId o) := by
      unfold reconcileSent
      cases tradeByExt ext trades row.clientId with
      | some trade => exact keeps_update hid (fun _ => rfl) (keeps_pure _ _)
      | none =>
        refine keeps_read_bind fun s' _ => ?_
        simp only [truthful]
        cases s'.book.made (ext row.clientId) with
        | none => exact keeps_pure _ _
        | some tradeId => exact keeps_update hid (fun _ => rfl) (keeps_pure _ _)
    exact Holds.bind ((hkeeps s).mono fun _ _ _ _ _ _ _ => hcached) hs

theorem reconcileRows_keeps {trades : List OpenTrade} {rows : List Row}
    {cached : Option (List PendingOrder)} (htrades : Untraded ext clientId trades)
    (hrows : ∀ r ∈ rows, Beside ext clientId o r)
    (hcached : ∀ orders, cached = some orders → Among o orders) :
    (reconcileRows ext truthful trades rows cached).Keeps (Stuck ext clientId o) := by
  induction rows generalizing cached with
  | nil => exact keeps_pure _ _
  | cons row rows ih =>
    refine keeps_of_holds fun s hs => ?_
    refine Holds.bind ((reconcileRow_keeps hs htrades (hrows row List.mem_cons_self)
      hcached).mono fun out s₁ _ hcached₁ => ?_) hs
    have hrest := ih (fun r hr => hrows r (List.mem_cons_of_mem _ hr)) hcached₁
    exact Keeps.bind hrest (fun _ => keeps_pure _ _) s₁

theorem Stuck.flags {s s' : World} (h : Stuck ext clientId o s) (hrows : s'.rows = s.rows)
    (hbook : s'.book = s.book) : Stuck ext clientId o s' := by
  refine ⟨hbook ▸ h.rests, h.whose, hrows ▸ h.row, fun r hr => h.latched r (hrows ▸ hr),
    fun r hr => h.others r (hrows ▸ hr)⟩

theorem reconcile_keeps (episode : String) :
    (reconcile ext truthful episode).Keeps (Stuck ext clientId o) := by
  refine keeps_read_bind fun s hs => ?_
  simp only [truthful]
  refine keeps_read_bind fun s₁ hs₁ => ?_
  have hloop := @reconcileRows_keeps ext clientId o s.book.trades (s₁.trades LIVE_STATUSES) none
    (fun t ht => s.book.apart o hs.rests t ht _ hs.whose)
    (fun r hr => hs₁.beside (mem_trades.mp hr).1) (fun orders h => by cases h)
  refine hloop.bind fun matched => keeps_call_bind (fun s₂ hs₂ => ?_) (fun _ _ => keeps_pure _ _)
  have hflags := rows_settleBlocks episode ((s.book.trades.filter
    (fun t => decide (t.tradeId ∉ matched))).map (fun t => (t.tradeId, t.instrument))) s₂
  exact hs₂.flags hflags.1 hflags.2

/-- A latched row is passed over, and no other row can reach the order. -/
theorem flattenRows_keeps {settings : Settings} {act : Row → Program World String}
    {rows : List Row} (hact : ∀ r ∈ rows, ¬r.Latched → (act r).Keeps (Stuck ext clientId o)) :
    (flattenRows settings act rows).Keeps (Stuck ext clientId o) := by
  induction rows with
  | nil => exact keeps_pure _ _
  | cons row rows ih =>
    have hrow : (flattenRow settings act row).Keeps (Stuck ext clientId o) := by
      unfold flattenRow
      split_ifs with hlatched
      · exact keeps_pure _ _
      · exact keeps_pure _ _
      · exact hact row List.mem_cons_self hlatched
    have hrest := ih (fun r hr => hact r (List.mem_cons_of_mem _ hr))
    exact hrow.bind fun _ => hrest.bind fun _ => keeps_pure _ _

theorem cancelLimit_keeps {row : Row} (reason : String) (hrow : Beside ext clientId o row)
    (hlatched : ¬row.Latched) :
    (cancelLimit truthful row reason).Keeps (Stuck ext clientId o) := by
  have hid : row.clientId ≠ clientId := by
    intro hid
    rw [Beside, if_pos hid] at hrow
    exact hlatched hrow.2
  rw [Beside, if_neg hid] at hrow
  unfold cancelLimit
  cases horder : row.orderId.filter (fun id => decide (id ≠ "")) with
  | none => exact keeps_update hid (fun _ => rfl) (keeps_pure _ _)
  | some orderId =>
    have hother : o.orderId ≠ orderId := by
      rw [Option.filter_eq_some_iff] at horder
      intro h
      exact hrow.2 (h ▸ horder.1)
    refine keeps_call_bind (fun s hs => ?_) (fun s _ => ?_)
    · refine ⟨?_, hs.whose, hs.row, hs.latched, hs.others⟩
      simp only [truthful]
      split_ifs
      · exact mem_orders_withoutOrder.mpr ⟨hs.rests, hother⟩
      · exact hs.rests
    · cases (truthful.cancelOrder orderId s.book).1 with
      | accepted => exact keeps_update hid (fun _ => rfl) (keeps_pure _ _)
      | rejected refusal =>
        dsimp only
        split_ifs <;> exact keeps_pure _ _
      | unknown text => exact keeps_update hid (fun _ => rfl) (keeps_pure _ _)
      | notProcessed error => exact keeps_pure _ _
      | raised error => exact keeps_update hid (fun _ => rfl) (keeps_pure _ _)

theorem close_keeps {row : Row} (reason : String) (hid : row.clientId ≠ clientId) :
    (close truthful row reason).Keeps (Stuck ext clientId o) := by
  have hcall : (closeTrade truthful row).Keeps (Stuck ext clientId o) := by
    unfold closeTrade
    cases row.tradeId with
    | none => exact keeps_pure _ _
    | some tradeId =>
      refine keeps_call fun s hs => ⟨?_, hs.whose, hs.row, hs.latched, hs.others⟩
      simp only [truthful]
      split_ifs <;> exact hs.rests
  refine hcall.bind fun answer => ?_
  cases answer with
  | accepted => exact keeps_update hid (fun _ => rfl) (keeps_pure _ _)
  | rejected refusal =>
    dsimp only
    split_ifs
    · exact keeps_update hid (fun _ => rfl) (keeps_pure _ _)
    · exact keeps_pure _ _
  | unknown text => exact keeps_update hid (fun _ => rfl) (keeps_pure _ _)
  | notProcessed error => exact keeps_pure _ _
  | raised error => exact keeps_update hid (fun _ => rfl) (keeps_pure _ _)

theorem rows_finishRequest (raw : Option String) (s : World) :
    (finishRequest raw s).rows = s.rows ∧ (finishRequest raw s).book = s.book := by
  unfold finishRequest
  split_ifs <;> exact ⟨rfl, rfl⟩

/-- Whatever is asked for, the order still rests after the tick. -/
theorem processRequests_keeps (settings : Settings) (episode : String) :
    (processRequests ext truthful settings episode).Keeps (Stuck ext clientId o) := by
  refine keeps_read_bind fun s _ => ?_
  dsimp only
  cases requested settings s.flattenRequest (s.trades LIVE_STATUSES) with
  | none => exact keeps_pure _ _
  | some reason =>
    refine (reconcile_keeps episode).bind fun report => ?_
    cases report with
    | none => exact keeps_pure _ _
    | some trades =>
      refine keeps_read_bind fun s₁ hs₁ => ?_
      refine (flattenRows_keeps fun r hr => cancelLimit_keeps reason
        (hs₁.beside (mem_trades.mp hr).1)).bind fun cancelled => ?_
      refine keeps_read_bind fun s₂ hs₂ => ?_
      refine (flattenRows_keeps fun r hr hlatched => close_keeps reason fun hid => ?_).bind
        fun closed => ?_
      · obtain ⟨hrow, hopen⟩ := mem_trades.mp hr
        have hlimit := status_of_isLimit (hs₂.latched r hrow hid).1
        rw [List.mem_singleton.mp hopen] at hlimit
        exact absurd hlimit (by decide)
      · refine keeps_call_bind (fun s₃ hs₃ => ?_) (fun _ _ => keeps_pure _ _)
        exact hs₃.flags (rows_finishRequest _ s₃).1 (rows_finishRequest _ s₃).2

/-! ### A dry run -/

/-- A program that never changes the book. -/
abbrev LeavesBook {α : Type} (p : Program World α) : Prop :=
  ∀ book, p.Keeps (fun s => s.book = book)

theorem leavesBook_update {α : Type} (id : String) (u : Update) {k : Unit → Program World α}
    (h : LeavesBook (k ())) : LeavesBook (update id u >>= k) :=
  fun book => keeps_call_bind (fun _ hs => hs) (fun _ _ => h book)

theorem leavesBook_pure {α : Type} (a : α) : LeavesBook (Pure.pure a) :=
  fun _ => keeps_pure _ _

theorem leavesBook_read {α β : Type} {f : World → β} {k : β → Program World α}
    (h : ∀ b, LeavesBook (k b)) : LeavesBook (Program.read f >>= k) :=
  fun book => keeps_read_bind fun s _ => h (f s) book

theorem LeavesBook.bind {α β : Type} {p : Program World α} {k : α → Program World β}
    (hp : LeavesBook p) (hk : ∀ a, LeavesBook (k a)) : LeavesBook (p >>= k) :=
  fun book => (hp book).bind fun a => hk a book

theorem leavesBook_reconcileUnfilled (row : Row) (orders : List PendingOrder) :
    LeavesBook (reconcileUnfilled ext truthful row orders) := by
  unfold reconcileUnfilled
  cases restingFor ext orders row with
  | some order =>
    dsimp only
    split_ifs
    · exact leavesBook_update _ _ (leavesBook_pure _)
    · exact leavesBook_pure _
  | none =>
    refine leavesBook_read fun made => ?_
    match made with
    | none => exact leavesBook_pure _
    | some none => exact leavesBook_update _ _ (leavesBook_pure _)
    | some (some tradeId) => exact leavesBook_update _ _ (leavesBook_pure _)

theorem leavesBook_reconcileRow (trades : List OpenTrade) (row : Row)
    (cached : Option (List PendingOrder)) :
    LeavesBook (reconcileRow ext truthful trades row cached) := by
  unfold reconcileRow
  split_ifs
  · unfold reconcileLimit
    cases tradeByExt ext trades row.clientId with
    | some trade => exact leavesBook_update _ _ (leavesBook_pure _)
    | none =>
      have hbook : LeavesBook (pendingByExt truthful cached) := by
        cases cached with
        | some orders => exact leavesBook_pure _
        | none => exact fun _ => keeps_read _
      refine hbook.bind fun book => ?_
      cases book with
      | none => exact leavesBook_pure _
      | some orders =>
        exact (leavesBook_reconcileUnfilled row orders).bind fun _ => leavesBook_pure _
  · refine LeavesBook.bind ?_ fun _ => leavesBook_pure _
    unfold reconcileOpen
    cases lastWith trades (fun t => decide (row.tradeId = some t.tradeId)) with
    | none => exact leavesBook_update _ _ (leavesBook_pure _)
    | some trade => exact leavesBook_update _ _ (leavesBook_pure _)
  · refine LeavesBook.bind ?_ fun _ => leavesBook_pure _
    unfold reconcileSent
    cases tradeByExt ext trades row.clientId with
    | some trade => exact leavesBook_update _ _ (leavesBook_pure _)
    | none =>
      refine leavesBook_read fun made => ?_
      match made with
      | none => exact leavesBook_pure _
      | some none => exact leavesBook_pure _
      | some (some tradeId) => exact leavesBook_update _ _ (leavesBook_pure _)

theorem leavesBook_reconcile (episode : String) :
    LeavesBook (reconcile ext truthful episode) := by
  have hrows : ∀ trades rows cached,
      LeavesBook (reconcileRows ext truthful trades rows cached) := by
    intro trades rows
    induction rows with
    | nil => exact fun _ => leavesBook_pure _
    | cons row rows ih =>
      exact fun cached => (leavesBook_reconcileRow trades row cached).bind
        fun out => (ih out.2).bind fun _ => leavesBook_pure _
  refine leavesBook_read fun read => ?_
  cases read with
  | none =>
    refine fun book => keeps_call_bind (fun s hs => ?_) (fun _ _ => keeps_pure _ _)
    exact (rows_driftClearRequest _ s).2.trans hs
  | some trades =>
    refine leavesBook_read fun rows => (hrows trades rows none).bind fun matched book => ?_
    refine keeps_call_bind (fun s hs => ?_) (fun _ _ => keeps_pure _ _)
    exact (rows_settleBlocks episode _ s).2.trans hs

/-- A dry run sends nothing. -/
theorem leavesBook_processRequests {settings : Settings} (hdry : settings.dryRun = true)
    (episode : String) : LeavesBook (processRequests ext truthful settings episode) := by
  have hrows : ∀ act rows, LeavesBook (flattenRows settings act rows) := by
    intro act rows
    induction rows with
    | nil => exact leavesBook_pure _
    | cons row rows ih =>
      refine LeavesBook.bind ?_ fun _ => ih.bind fun _ => leavesBook_pure _
      unfold flattenRow
      rw [if_pos hdry]
      split_ifs <;> exact leavesBook_pure _
  refine leavesBook_read fun flags => ?_
  obtain ⟨raw, live⟩ := flags
  dsimp only
  cases requested settings raw live with
  | none => exact leavesBook_pure _
  | some reason =>
    refine (leavesBook_reconcile episode).bind fun report => ?_
    cases report with
    | none => exact leavesBook_pure _
    | some trades =>
      refine leavesBook_read fun limits => (hrows _ limits).bind fun cancelled => ?_
      refine leavesBook_read fun opens => (hrows _ opens).bind fun closed book => ?_
      refine keeps_call_bind (fun s hs => ?_) (fun _ _ => keeps_pure _ _)
      exact (rows_finishRequest _ s).2.trans hs

end Survival

/-! ## A flatten finishes -/

/-- One tick of a flatten, whatever the market does meanwhile. -/
theorem flatten_finishes {ext : String → String} {settings : Settings} {s : World}
    (episode : String) (hlinked : Linked ext s)
    (hrequested : stored s.flattenRequest = true ∨ settings.closingOnly = true) :
    (processRequests ext truthful settings episode).Holds tick (fun _ s' => Flattened ext s s') s
      ↔ CanFinish ext settings s := by
  constructor
  · intro hholds r hr hlimit
    -- The market may also keep still.
    have hdone := (hholds.alone trivial).2
    split_ifs with hdry
    · have hbook := ((@leavesBook_processRequests ext settings hdry episode s.book s).alone rfl).1
      have hgone := hdone.cancelled r hr hlimit
      have hclosed := hdone.closed r hr hlimit
      rw [hbook] at hgone hclosed
      exact ⟨hgone, fun h => hclosed h h⟩
    · intro hlatched o ho hext
      have hstuck : Stuck ext r.clientId o s := by
        refine ⟨ho, hext, ⟨r, hr, rfl⟩, fun r' hr' hid => ?_, fun r' hr' hid => ⟨?_, ?_⟩⟩
        · rw [s.rows.eq_of_key hr' hr hid]
          exact ⟨hlimit, hlatched⟩
        · exact fun hsame => hid (hlinked.distinct r' hr' r hr hsame)
        · intro horder
          have hits := hlinked.own r' hr' o ho horder
          rw [hext, Option.some.injEq] at hits
          exact hid (hlinked.distinct r' hr' r hr hits.symm)
      have hrests := ((processRequests_keeps settings episode s).alone hstuck).1.rests
      exact hdone.cancelled r hr hlimit o hrests hext
  · intro hcan
    refine Holds.read_now fun s₁ hr₁ _ => ?_
    dsimp only
    cases hasked : requested settings s₁.flattenRequest (s₁.trades LIVE_STATUSES) with
    | some reason =>
      have hholds := (@flatten_holds ext settings episode reason s₁.flattenRequest s
        hlinked).stable hr₁
      exact hholds.mono fun _ _ _ h => h.2 hcan
    | none =>
      -- Without a stored request the mode asks, unless no row is live.
      have hidle : s₁.trades LIVE_STATUSES = [] := by
        unfold requested at hasked
        split_ifs at hasked with hraw hmode
        obtain hstored | hclosing := hrequested
        · exact absurd (hr₁.2.2 hstored) hraw
        · by_contra hlive
          exact hmode ⟨hclosing, hlive⟩
      refine holds_pure ext fun s₂ hm => ?_
      refine flattened_of_moved ((moved_of_rely ext hr₁).trans hm) fun r hr hlimit => ?_
      have hlive : r ∈ s₁.trades LIVE_STATUSES :=
        mem_trades.mpr ⟨hr₁.1 ▸ hr, live_of_isLimit hlimit⟩
      rw [hidle] at hlive
      cases hlive

/-! ### The ids stay in order -/

/-- A tick keeps the ids in order, whatever is asked for and whatever is latched. -/
theorem linked_processRequests {ext : String → String} {settings : Settings} {s : World}
    (episode : String) (hlinked : Linked ext s) :
    (processRequests ext truthful settings episode).Holds tick (fun _ s' => Linked ext s') s := by
  refine Holds.read_now fun s₁ hr₁ _ => ?_
  dsimp only
  cases requested settings s₁.flattenRequest (s₁.trades LIVE_STATUSES) with
  | none =>
    exact holds_pure ext fun s₂ hm => hm.linked ((moved_of_rely ext hr₁).linked hlinked)
  | some reason =>
    have hholds := (@flatten_holds ext settings episode reason s₁.flattenRequest s
      hlinked).stable hr₁
    exact hholds.mono fun _ _ _ h => h.1

/-- A submission adds at most the order of its row, under an id that is new. -/
structure Submits (ext : String → String) (row : Row) (rows : Table Row.clientId)
    (submit : Book → LimitAnswer × Book) : Prop where
  orders : ∀ book, ∀ o ∈ (submit book).2.orders, o ∈ book.orders ∨
    o.clientExtId = some (ext row.clientId) ∧ ∀ r ∈ rows, r.orderId ≠ some o.orderId
  resting : ∀ book orderId, (submit book).1 = .resting orderId →
    ∀ o ∈ (submit book).2.orders, o.orderId = orderId ↔
      o.clientExtId = some (ext row.clientId)

/-- A limit that is sent for a new client id keeps the ids in order. -/
theorem linked_sendLimit {ext : String → String} {submit : Book → LimitAnswer × Book}
    {trade : Option OpenTrade} {time : Instant} {row : Row} {s : World}
    (hlinked : Linked ext s) (horder : row.orderId = none)
    (hnew : ∀ r ∈ s.rows, ext r.clientId ≠ ext row.clientId)
    (hsubmit : Submits ext row s.rows submit) :
    (sendLimit submit trade time row).Holds tick (fun _ s' => Linked ext s') s := by
  refine Holds.call fun s₁ hr₁ _ => ⟨trivial, trivial, ?_⟩
  have hlinked₁ := (moved_of_rely ext hr₁).linked hlinked
  unfold insertIntent
  cases hinsert : s₁.rows.insert? { row with status := .pendingSend } with
  | none => exact holds_pure ext fun s₂ hm => hm.linked hlinked₁
  | some rows =>
    have hmem : ∀ r, r ∈ rows ↔ r ∈ s.rows ∨ r = { row with status := .pendingSend } := by
      intro r
      rw [Table.mem_of_insert? hinsert, hr₁.1]
    refine Holds.call fun s₂ hr₂ _ => ⟨trivial, trivial, ?_⟩
    -- Until the answer is written the row carries no order.
    have hrows₂ : ∀ r, r ∈ s₂.rows ↔ r ∈ s.rows ∨ r = { row with status := .pendingSend } := by
      rw [hr₂.1]
      exact hmem
    have hold₂ : ∀ r ∈ s.rows, r ∈ s₁.rows := fun r hr => hr₁.1 ▸ hr
    have hsent : Linked ext { s₂ with book := (submit s₂.book).2 } := by
      refine ⟨fun r hr hstatus o ho hext => ?_, fun r hr o ho hsame => ?_,
        fun r hr r' hr' hext => ?_⟩
      · obtain hr | rfl := (hrows₂ r).mp hr
        · obtain ho | ⟨hits, _⟩ := hsubmit.orders s₂.book o ho
          · exact hlinked₁.names r (hold₂ r hr) hstatus o (hr₂.2.1.orders o ho) hext
          · rw [hits, Option.some.injEq] at hext
            exact absurd hext.symm (hnew r hr)
        · cases hstatus
      · obtain hr | rfl := (hrows₂ r).mp hr
        · obtain ho | ⟨_, hfresh⟩ := hsubmit.orders s₂.book o ho
          · exact hlinked₁.own r (hold₂ r hr) o (hr₂.2.1.orders o ho) hsame
          · exact absurd hsame (hfresh r hr)
        · rw [horder] at hsame
          cases hsame
      · obtain hr | rfl := (hrows₂ r).mp hr <;> obtain hr' | rfl := (hrows₂ r').mp hr'
        · exact hlinked₁.distinct r (hold₂ r hr) r' (hold₂ r' hr') hext
        · exact absurd hext (hnew r hr)
        · exact absurd hext.symm (hnew r' hr')
        · rfl
    refine holds_update fun s₃ hr₃ => holds_pure ext fun s₄ hm => hm.linked ?_
    have hlinked₃ := (moved_of_rely ext hr₃).linked hsent
    refine hlinked₃.rows rfl fun r' hr' => ?_
    obtain ⟨r₀, hr₀, hid, rfl⟩ | ⟨hr, _⟩ := mem_update.mp hr'
    · have hmine : r₀ = { row with status := .pendingSend } := by
        obtain hr | h := (hrows₂ r₀).mp (hr₃.1 ▸ hr₀)
        · exact absurd (congrArg ext hid) (hnew r₀ hr)
        · exact h
      refine ⟨r₀, hr₀, Update.keeps _ r₀, ?_⟩
      cases hanswer : (submit s₂.book).1 with
      | resting orderId =>
        refine ⟨fun _ o ho hext => ?_, fun o ho hsame => ?_⟩
        · have hits := hsubmit.resting s₂.book orderId hanswer o (hr₃.2.1.orders o ho)
          rw [Update.keeps, hid] at hext
          exact congrArg some (hits.mpr hext).symm
        · have hits := hsubmit.resting s₂.book orderId hanswer o (hr₃.2.1.orders o ho)
          rw [hid]
          exact hits.mp (Option.some.inj hsame).symm
      | _ =>
        refine ⟨fun hstatus => (by cases hstatus), fun o _ hsame => ?_⟩
        have hnone : r₀.orderId = some o.orderId := hsame
        rw [hmine, horder] at hnone
        cases hnone
    · exact ⟨r', hr, rfl, hlinked₃.names r' hr, hlinked₃.own r' hr⟩

/-! ### One limit -/

/-- A resting limit of one row, and its order at the broker. -/
def sampleWorld (latched : Bool) : World where
  rows := ⟨[{ clientId := "bd-1", units := 1000, entry := 11 / 10, stop := 109 / 100,
              status := .pendingLimit, createdAt := 0, orderKind := some "LIMIT",
              orderId := some "7",
              pendingAction := if latched then some "CANCEL_LIMIT" else none,
              actionStatus := if latched then some UNKNOWN else none }], by simp⟩
  flattenRequest := some "2026-01-05T10:00:00+00:00"
  book := { orders := [⟨"7", some "bd-1", by simp⟩], trades := [], made := fun _ => none,
            oneOrder := by simp, oneTrade := by simp, apart := by simp, orderIds := by simp }

def live : Settings := ⟨false, false⟩

theorem linked_sampleWorld (latched : Bool) : Linked id (sampleWorld latched) := by
  refine ⟨?_, ?_, ?_⟩ <;> simp [sampleWorld, Table.mem_def, Names]

/-- A limit that is not latched is cancelled. -/
theorem flatten_finishes_unlatched :
    (processRequests id truthful live "e").Holds tick
      (fun _ s' => Flattened id (sampleWorld false) s') (sampleWorld false) :=
  (flatten_finishes "e" (linked_sampleWorld false) (.inl rfl)).mpr fun r hr _ hlatched => by
    rw [Table.mem_def, sampleWorld, List.mem_singleton] at hr
    subst hr
    cases hlatched

/-- A limit whose earlier cancel timed out still rests after the tick. -/
theorem latched_limit_rests :
    (∃ r ∈ ((processRequests id truthful live "e").alone (sampleWorld true)).2.rows.rows,
      r.status = .pendingLimit ∧ r.orderId = some "7") ∧
    ∃ o ∈ ((processRequests id truthful live "e").alone (sampleWorld true)).2.book.orders,
      o.orderId = "7" := by
  decide +kernel

end MarketSystem.FlattenFinish
