import MarketSystem.Execution.PaperWriters

/-!
# The guarded PAPER write

`_guarded_paper_write` loads the durable account, applies a change to it and saves
the result under the state it was loaded with. A stale attempt is discarded and
the change is computed once more from a fresh load. With the halt gate every
attempt is admitted before its load and read again before its save.

The world is the database with what a process reads beside it: the clock and the
halt gate.
-/
namespace MarketSystem.GuardedWrite

open Library Database

structure World where
  db : Database
  /-- `runtime.clock()`. -/
  now : Instant := 0
  /-- The halt gate refuses. -/
  halted : Bool := false

/-- The ids one computation draws from `uuid4`. -/
structure Ids where
  orderId : String
  fillId : String
  positionId : String
  tradeId : String

/-- No row of the loaded account carries one of the ids. -/
structure Ids.Fresh (ids : Ids) (b : PaperBroker) : Prop where
  order : ∀ o ∈ b.orders, o.orderId ≠ ids.orderId
  fill : ∀ f ∈ b.fills, f.fillId ≠ ids.fillId
  position : ∀ p ∈ b.account.openPositions, p.positionId ≠ ids.positionId
  closed : ∀ t ∈ b.account.closedTrades, t.positionId ≠ ids.positionId
  trade : ∀ t ∈ b.account.closedTrades, t.tradeId ≠ ids.tradeId

/-- `uuid4`: ids that no row of the account they are drawn for carries. -/
structure Uuid4 where
  draw : PaperBroker → Ids
  fresh : ∀ b, (draw b).Fresh b

/-- An id longer than every id of a list. -/
def longerThan (ids : List String) : String :=
  String.ofList (List.replicate ((ids.map String.length).sum + 1) 'x')

theorem longerThan_fresh (ids : List String) : ∀ id ∈ ids, id ≠ longerThan ids := by
  intro id hid he
  have hmem : id.length ∈ ids.map String.length := List.mem_map.mpr ⟨id, hid, rfl⟩
  have hle := List.single_le_sum (fun _ _ => Nat.zero_le _) _ hmem
  have hlength : id.length = (ids.map String.length).sum + 1 := by
    conv_lhs => rw [he]
    simp [longerThan]
  omega

/-- A `uuid4` to evaluate runs with: ids longer than those in use. -/
def sampleUuid4 : Uuid4 where
  draw b :=
    { orderId := longerThan (b.orders.rows.map (·.orderId))
      fillId := longerThan (b.fills.rows.map (·.fillId))
      positionId := longerThan (b.account.openPositions.rows.map (·.positionId)
        ++ b.account.closedTrades.map (·.positionId))
      tradeId := longerThan (b.account.closedTrades.map (·.tradeId)) }
  fresh _ :=
    { order := fun o ho => longerThan_fresh _ _ (List.mem_map.mpr ⟨o, ho, rfl⟩)
      fill := fun f hf => longerThan_fresh _ _ (List.mem_map.mpr ⟨f, hf, rfl⟩)
      position := fun p hp => longerThan_fresh _ _
        (List.mem_append_left _ (List.mem_map.mpr ⟨p, hp, rfl⟩))
      closed := fun t ht => longerThan_fresh _ _
        (List.mem_append_right _ (List.mem_map.mpr ⟨t, ht, rfl⟩))
      trade := fun t ht => longerThan_fresh _ _ (List.mem_map.mpr ⟨t, ht, rfl⟩) }

/-- What `apply` does to the loaded broker at a time: whether to save, the result and the
changed broker. An exception of the source is an `error`. -/
abbrev Apply (α : Type) := Instant → Ids → PaperBroker → Except String (Bool × α × PaperBroker)

/-- What a writer is given besides the change. -/
structure Writer where
  accountId : String
  symbol : String
  ownerKey : Option String
  instrument : Option Instrument := none
  rrPolicy : Option RrContract.Policy := none
  uuid4 : Uuid4

/-- `_broker`: the broker over a loaded state. -/
def Writer.broker (w : Writer) (account : PaperAccount) (orders : Orders) (fills : Fills) :
    PaperBroker :=
  { account := account
    instrument := w.instrument
    rrPolicy := w.rrPolicy
    orders := orders
    fills := fills }

/-- `load_paper` from a process. -/
def load (accountId : String) :
    Program World (Except String (Option PaperAccount × Orders × Fills)) :=
  loadPaperReads World.db accountId

/-- A transaction of a process. -/
def transact {α : Type} (tx : Tx α) : Program World (Except String α) :=
  Program.call (fun w => let (r, db) := commit tx w.db; (r, { w with db := db }))

/-- `admit` and `pre_save`: one look at the halt gate. -/
def haltRefused : Program World Bool := .read World.halted

section Write

variable {α : Type} (writer : Writer) (apply : Apply α)

/-- The save of one attempt; `none` when the state was stale. -/
def saveAttempt (broker : PaperBroker) (result : α) (changed : PaperBroker) :
    Program World (Except String (Option (PaperBroker × α))) := do
  if ← haltRefused then pure (.error "HaltRefused")
  else match ← transact (savePaper changed writer.ownerKey writer.symbol
      (some (stateOf broker))) with
    | .error e => pure (.error e)
    | .ok false => pure (.ok none)
    | .ok true => pure (.ok (some (changed, result)))

/-- One attempt: admission, load, change, save. -/
def writeAttempt : Program World (Except String (Option (PaperBroker × α))) := do
  if ← haltRefused then pure (.error "HaltRefused")
  else match ← load writer.accountId with
    | .error e => pure (.error e)
    | .ok (none, _, _) => pure (.error "AttributeError")
    | .ok (some account, orders, fills) => do
        let broker := writer.broker account orders fills
        let now ← .read World.now
        match apply now (writer.uuid4.draw broker) broker with
        | .error e => pure (.error e)
        | .ok (false, result, changed) => pure (.ok (some (changed, result)))
        | .ok (true, result, changed) => saveAttempt writer broker result changed

/-- `_guarded_paper_write`: at most two attempts; `none` when both were stale. -/
def guardedPaperWrite : Program World (Except String (Option (PaperBroker × α))) := do
  match ← writeAttempt writer apply with
  | .error e => pure (.error e)
  | .ok (some written) => pure (.ok (some written))
  | .ok none => writeAttempt writer apply

end Write

/-! ## A save that commits -/

/-- The rows a compare-and-swap found are those of the broker it expected. -/
structure Found (db : Database) (s : PaperBroker) : Prop where
  orders : ∀ o, o ∈ db.paperOrders ↔ o ∈ s.orders
  fills : ∀ f, f ∈ db.paperFills ↔ f ∈ s.fills
  positions : ∀ p, (p ∈ db.paperPositions ∧ p.status = .open) ↔ p ∈ s.account.openPositions
  trades : db.closedTrades.rows.Perm s.account.closedTrades

theorem found_of_loadPaper {db : Database} {accountId : String} {account : Option PaperAccount}
    {orders : Orders} {fills : Fills} {s : PaperBroker}
    (h : db.loadPaper accountId = .ok (account, orders, fills))
    (he : paperState account orders fills = stateOf s) : Found db s := by
  unfold loadPaper at h
  cases hrow : db.paperAccounts.get? accountId with
  | none =>
    simp only [hrow, Except.ok.injEq, Prod.mk.injEq] at h
    obtain ⟨rfl, rfl, rfl⟩ := h
    cases congrArg PaperState.account he
  | some row =>
    simp only [hrow] at h
    cases hopen : (Table.ofList? (db.paperPositions.rows.filter
        (fun p => decide (p.status = .open))) : Option (Table PaperPosition.symbol)) with
    | none => simp [hopen] at h
    | some positions =>
      simp only [hopen, Except.ok.injEq, Prod.mk.injEq] at h
      obtain ⟨rfl, rfl, rfl⟩ := h
      obtain ⟨-, hp, ht, ho, hf⟩ := paperState_eq_iff.mp he
      refine ⟨ho, hf, fun p => ?_, ht⟩
      rw [← hp p]
      change _ ↔ p ∈ positions
      rw [Table.mem_def (t := positions), Table.rows_of_ofList? hopen]
      simp [List.mem_filter, Table.mem_def]

/-- A save that commits owned its slot, found the state it expected and persisted. -/
theorem savePaper_commits {db db' : Database} {b s : PaperBroker} {ownerKey : Option String}
    {symbol : String} (h : savePaper b ownerKey symbol (some (stateOf s)) db = .ok (true, db')) :
    (∀ key, ownerKey = some key → db.ownsSlot key symbol = true) ∧ Found db s ∧
      db' = db.persist b := by
  refine ⟨(savePaper_ok h).1, ?_, ?_⟩
  · unfold savePaper at h
    split_ifs at h
    cases hl : db.loadPaper b.account.accountId with
    | error e => simp [hl] at h
    | ok loaded =>
      obtain ⟨account, orders, fills⟩ := loaded
      simp only [hl] at h
      split_ifs at h with hne
      · cases h
      · exact found_of_loadPaper hl (not_not.mp hne)
  · rcases (savePaper_ok h).2 with ⟨hfalse, -⟩ | ⟨-, h⟩
    · cases hfalse
    · exact h

/-- A save over the state it expected keeps the orders of the broker it saves. -/
theorem Found.mem_orders {db : Database} {s b : PaperBroker} (h : Found db s)
    (hkept : ∀ o ∈ s.orders, ∃ o' ∈ b.orders, o'.orderId = o.orderId) (o : PaperOrder) :
    o ∈ (db.persist b).paperOrders ↔ o ∈ b.orders := by
  rw [(persist_fields db b).2.1]
  refine Table.mem_putAll_of_cover b.orders.nodup (fun r hr => ?_)
  exact hkept r ((h.orders r).mp hr)

/-- And the closed trades of the broker it saves. -/
theorem Found.mem_trades {db : Database} {s b : PaperBroker} (h : Found db s)
    (hkept : ∀ t ∈ s.account.closedTrades, t ∈ b.account.closedTrades)
    (hnodup : (b.account.closedTrades.map (·.tradeId)).Nodup) (t : ClosedTrade) :
    t ∈ (db.persist b).closedTrades ↔ t ∈ b.account.closedTrades := by
  rw [(persist_fields db b).2.2.2.2]
  refine Table.mem_putAll_of_cover hnodup (fun r hr => ?_)
  exact ⟨r, hkept r (h.trades.mem_iff.mp hr), rfl⟩

theorem Found.trades_nodup {db : Database} {s : PaperBroker} (h : Found db s) :
    (s.account.closedTrades.map (·.tradeId)).Nodup :=
  (h.trades.map _).nodup_iff.mp db.closedTrades.nodup

/-! ## Reasoning about a guarded write -/

section Holds

variable {α β : Type} {d : Discipline World} {post : β → World → Prop}

/-- A transaction either commits, and the rest runs on what it left, or raises. -/
theorem transact_holds {tx : Tx α} {k : Except String α → Program World β} {w : World}
    (herror : ∀ e w', d.rely w w' → d.inv w' → (k (.error e)).Holds d post w')
    (hok : ∀ a db' w', d.rely w w' → d.inv w' → tx w'.db = .ok (a, db') →
      d.inv { w' with db := db' } ∧ d.guar w' { w' with db := db' } ∧
        (k (.ok a)).Holds d post { w' with db := db' }) :
    (transact tx >>= k).Holds d post w := by
  refine Program.Holds.call (fun w' hr hi => ?_)
  change d.inv { w' with db := (commit tx w'.db).2 } ∧
    d.guar w' { w' with db := (commit tx w'.db).2 } ∧
    (k (commit tx w'.db).1).Holds d post { w' with db := (commit tx w'.db).2 }
  rcases hc : commit tx w'.db with ⟨r, db'⟩
  rcases commit_cases hc with ⟨a, rfl, htx⟩ | ⟨e, rfl, rfl⟩
  · exact hok a db' w' hr hi htx
  · exact ⟨hi, d.guar_refl w', herror e w' hr hi⟩

/-- What a guarded write leaves behind: `before` holds until it saves, `after` of the
result once it has. -/
def Written (apply : Apply α) (before : World → Prop) (after : α → World → Prop) :
    Except String (Option (PaperBroker × α)) → World → Prop
  | .error _, _ => True
  | .ok none, w => before w
  | .ok (some (_, result)), w => after result w ∨
      (before w ∧ ∃ now ids b changed, apply now ids b = .ok (false, result, changed))

/-- The rule of a guarded write. Only its save has an effect, and the save finds the
broker that the change was applied to. -/
structure Guarded (d : Discipline World) (writer : Writer) (apply : Apply α)
    (before : World → Prop) (after : α → World → Prop) : Prop where
  before_stable : ∀ w w', d.rely w w' → before w → before w'
  after_stable : ∀ a w w', d.rely w w' → after a w → after a w'
  save : ∀ w now account orders fills result changed db',
    d.inv w → before w → account.accountId = writer.accountId →
    let s := writer.broker account orders fills
    apply now (writer.uuid4.draw s) s = .ok (true, result, changed) →
    savePaper changed writer.ownerKey writer.symbol (some (stateOf s)) w.db = .ok (true, db') →
    d.inv { w with db := db' } ∧ d.guar w { w with db := db' } ∧
      after result { w with db := db' }

theorem pure_holds {a : β} {w : World} (h : ∀ w', d.rely w w' → d.inv w' → post a w') :
    (pure a : Program World β).Holds d post w := h

/-- A load only reads, and it returns the account it was asked for. -/
theorem load_holds {before : World → Prop} (hstable : ∀ w w', d.rely w w' → before w → before w')
    (accountId : String) {w : World} (hw : before w) :
    (load accountId).Holds d (fun loaded w => before w ∧ ∀ account orders fills,
      loaded = .ok (some account, orders, fills) → account.accountId = accountId) w := by
  refine Program.Holds.read_now (fun w₁ hr₁ _ => ?_)
  refine Program.Holds.read_now (fun w₂ hr₂ _ => ?_)
  refine Program.Holds.read_now (fun w₃ hr₃ _ => ?_)
  have hw₃ := hstable w w₃ (d.rely_trans (d.rely_trans hr₁ hr₂) hr₃) hw
  cases hrow : w₁.db.paperAccounts.get? accountId with
  | none => exact pure_holds (fun w₄ hr₄ _ => ⟨hstable w₃ w₄ hr₄ hw₃, by simp⟩)
  | some row =>
    refine Program.Holds.read_now (fun w₄ hr₄ _ => ?_)
    have hw₄ := hstable w₃ w₄ hr₄ hw₃
    cases (Table.ofList? (w₄.db.paperPositions.rows.filter
        (fun p => decide (p.status = .open))) : Option (Table PaperPosition.symbol)) with
    | none => exact pure_holds (fun w₅ hr₅ _ => ⟨hstable w₄ w₅ hr₅ hw₄, by simp⟩)
    | some positions =>
      refine Program.Holds.read_now (fun w₅ hr₅ _ => ?_)
      have hw₅ := hstable w₄ w₅ hr₅ hw₄
      refine pure_holds (fun w₆ hr₆ _ => ⟨hstable w₅ w₆ hr₆ hw₅, fun account orders fills he => ?_⟩)
      simp only [Except.ok.injEq, Prod.mk.injEq, Option.some.injEq] at he
      obtain ⟨rfl, -, -⟩ := he
      exact (Table.get?_eq_some.mp hrow).2

variable {writer : Writer} {apply : Apply α} {before : World → Prop} {after : α → World → Prop}

theorem Guarded.written_stable (h : Guarded d writer apply before after)
    (r : Except String (Option (PaperBroker × α))) {w w' : World} (hr : d.rely w w')
    (hw : Written apply before after r w) : Written apply before after r w' := by
  match r with
  | .error _ => exact trivial
  | .ok none => exact h.before_stable w w' hr hw
  | .ok (some (_, result)) =>
    rcases hw with hw | ⟨hw, hunsaved⟩
    · exact .inl (h.after_stable result w w' hr hw)
    · exact .inr ⟨h.before_stable w w' hr hw, hunsaved⟩

theorem Guarded.saveAttempt_holds (h : Guarded d writer apply before after) {w : World}
    (hw : before w) {account : PaperAccount} {orders : Orders} {fills : Fills}
    (hid : account.accountId = writer.accountId) {now : Instant} {result : α}
    {changed : PaperBroker}
    (happly : apply now (writer.uuid4.draw (writer.broker account orders fills))
      (writer.broker account orders fills) = .ok (true, result, changed)) :
    (saveAttempt writer (writer.broker account orders fills) result changed).Holds d
      (Written apply before after) w := by
  refine Program.Holds.read_now (fun w₁ hr₁ _ => ?_)
  have hw₁ := h.before_stable w w₁ hr₁ hw
  cases w₁.halted with
  | true => exact pure_holds (fun _ _ _ => trivial)
  | false =>
    refine transact_holds (fun e w₂ _ _ => pure_holds (fun _ _ _ => trivial)) ?_
    intro saved db' w₂ hr₂ hi₂ hsave
    have hw₂ := h.before_stable w₁ w₂ hr₂ hw₁
    cases saved with
    | false =>
      have hsame : db' = w₂.db := savePaper_false hsave
      subst hsame
      exact ⟨hi₂, d.guar_refl w₂, pure_holds (fun w₃ hr₃ _ => h.before_stable w₂ w₃ hr₃ hw₂)⟩
    | true =>
      obtain ⟨hinv, hguar, hafter⟩ := h.save w₂ now account orders fills result changed db' hi₂
        hw₂ hid happly hsave
      refine ⟨hinv, hguar, pure_holds (fun w₃ hr₃ _ => ?_)⟩
      exact .inl (h.after_stable result _ w₃ hr₃ hafter)

theorem Guarded.writeAttempt_holds (h : Guarded d writer apply before after) {w : World}
    (hw : before w) :
    (writeAttempt writer apply).Holds d (Written apply before after) w := by
  refine Program.Holds.read_now (fun w₁ hr₁ hi₁ => ?_)
  have hw₁ := h.before_stable w w₁ hr₁ hw
  cases w₁.halted with
  | true => exact pure_holds (fun _ _ _ => trivial)
  | false =>
    refine Program.Holds.bind ((load_holds h.before_stable writer.accountId hw₁).mono ?_) hi₁
    intro loaded w₂ _ hloaded
    obtain ⟨hw₂, hid⟩ := hloaded
    match loaded with
    | .error e => exact pure_holds (fun _ _ _ => trivial)
    | .ok (none, _, _) => exact pure_holds (fun _ _ _ => trivial)
    | .ok (some account, orders, fills) =>
      refine Program.Holds.read_now (fun w₃ hr₃ _ => ?_)
      have hw₃ := h.before_stable w₂ w₃ hr₃ hw₂
      cases happly : apply w₃.now (writer.uuid4.draw (writer.broker account orders fills))
          (writer.broker account orders fills) with
      | error e => exact pure_holds (fun _ _ _ => trivial)
      | ok applied =>
        obtain ⟨save, result, changed⟩ := applied
        cases save with
        | false =>
          refine pure_holds (fun w₄ hr₄ _ => .inr ⟨h.before_stable w₃ w₄ hr₄ hw₃, ?_⟩)
          exact ⟨_, _, _, _, happly⟩
        | true => exact h.saveAttempt_holds hw₃ (hid account orders fills rfl) happly

/-- The rule of `_guarded_paper_write`. -/
theorem Guarded.holds (h : Guarded d writer apply before after) {w : World} (hi : d.inv w)
    (hw : before w) :
    (guardedPaperWrite writer apply).Holds d (Written apply before after) w := by
  refine Program.Holds.bind ((h.writeAttempt_holds hw).mono ?_) hi
  intro r w₁ _ hwritten
  match r with
  | .error e => exact pure_holds (fun _ _ _ => trivial)
  | .ok (some written) => exact pure_holds (fun _ hr _ => h.written_stable _ hr hwritten)
  | .ok none => exact h.writeAttempt_holds hwritten

end Holds

end MarketSystem.GuardedWrite
