import MarketSystem.Execution.ConflictOutcome
import MarketSystem.Execution.OppositePolicy
import MarketSystem.Library.Sessions
import MarketSystem.Storage.SlotLifecycle

/-!
# What a run of the policy leaves behind

The journal rows and the orders of one run, what anybody but its call may do to them,
and what each transaction of a call saves. A run is abandoned only once it has ended,
which fences the worker that closed.
-/
namespace MarketSystem.OppositePolicy

open Library RrContract Database RiskEngine RiskReservation ConflictPath CandidateIdentity
  GuardedWrite

/-! ## The rows of a run -/

/-- The rows of an event that a run journaled. -/
def rowsOf (event runId : String) (db : Database) : List JournalRow :=
  db.journal.filter (isRow event (some runId))

theorem rowsOf_append {event runId : String} {db db' : Database} {rows : List JournalRow}
    (h : db'.journal = db.journal ++ rows) :
    rowsOf event runId db' = rowsOf event runId db ++ rows.filter (isRow event (some runId)) := by
  simp [rowsOf, h]

theorem rowsOf_append_of_none {event runId : String} {db db' : Database} {rows : List JournalRow}
    (h : db'.journal = db.journal ++ rows)
    (hnone : ∀ row ∈ rows, row.runId = some runId → row.eventType ≠ event) :
    rowsOf event runId db' = rowsOf event runId db := by
  have hfilter : rows.filter (isRow event (some runId)) = [] := by
    refine List.filter_eq_nil_iff.mpr (fun row hrow => ?_)
    simp only [isRow, decide_eq_true_eq]
    exact fun hrow' => hnone row hrow hrow'.2.1 hrow'.1
  rw [rowsOf_append h, hfilter, List.append_nil]

theorem prior_eq_none {event runId : String} {db : Database} :
    prior event (some runId) db = none ↔ rowsOf event runId db = [] := by
  rw [prior, Option.map_eq_none_iff, rowsOf, ← List.head?_filter, List.head?_eq_none_iff]

/-- The row says SUBMITTED. -/
def Submitted (row : JournalRow) : Prop := row.payload.get "status" = .str "SUBMITTED"

/-- The row says SUBMITTED and names the order. -/
def NamesOrder (row : JournalRow) (o : PaperOrder) : Prop :=
  Submitted row ∧ row.payload.get "order_id" = .str o.orderId

/-- The run of the slot has ended, which is for good. -/
def Ended (key : String) (db : Database) : Prop :=
  ∃ run ∈ db.runs, run.slotKey = key ∧ run.status ≠ .running

def Known (key : String) (db : Database) : Prop := ∃ run ∈ db.runs, run.slotKey = key

theorem Ended.evolves {key : String} {db db' : Database} (h : Ended key db)
    (he : Slots.Evolves db db') : Ended key db' := by
  obtain ⟨run, hrun, hkey, hended⟩ := h
  obtain ⟨run', hrun', hkey', -, hstatus⟩ := he.kept run hrun
  exact ⟨run', hrun', hkey'.trans hkey, fun hr => hended (hstatus hr)⟩

theorem Known.evolves {key : String} {db db' : Database} (h : Known key db)
    (he : Slots.Evolves db db') : Known key db' := by
  obtain ⟨run, hrun, hkey⟩ := h
  obtain ⟨run', hrun', hkey', -⟩ := he.kept run hrun
  exact ⟨run', hrun', hkey'.trans hkey⟩

theorem not_ownsSlot_of_ended {key symbol : String} {db : Database} (h : Ended key db) :
    db.ownsSlot key symbol = false := by
  obtain ⟨run, hrun, rfl, hended⟩ := h
  by_contra hne
  obtain ⟨run', lock, hget, -, hstatus, -⟩ := ownsSlot_eq_true.mp ((Bool.not_eq_false _).mp hne)
  rw [Table.get?_of_mem hrun] at hget
  exact hended (Option.some.inj hget ▸ hstatus)

theorem known_of_ownsSlot {key symbol : String} {db : Database}
    (h : db.ownsSlot key symbol = true) : Known key db := by
  obtain ⟨run, lock, hget, -⟩ := ownsSlot_eq_true.mp h
  exact ⟨run, Table.get?_eq_some.mp hget⟩

/-! ## What others do to a run -/

variable (uuid5 : String → String)

/-- What anybody but the call of the run may do to it: nothing, except to abandon a close
whose run has ended. -/
structure Others (runId : String) (db db' : Database) : Prop where
  slots : Slots.Evolves db db'
  closes : rowsOf closeEvent runId db' = rowsOf closeEvent runId db
  decisions : rowsOf decisionEvent runId db' = rowsOf decisionEvent runId db ∨
    (rowsOf closeEvent runId db ≠ [] ∧ rowsOf decisionEvent runId db = [] ∧
      (∀ key, uuid5 key = runId → Known key db → Ended key db') ∧
      ∃ row, rowsOf decisionEvent runId db' = [row] ∧ ¬ Submitted row)
  kept : ∀ o ∈ db.paperOrders, ∃ o' ∈ db'.paperOrders,
    o'.orderId = o.orderId ∧ o'.runId = o.runId
  none_new : ∀ o' ∈ db'.paperOrders, o'.runId = runId →
    ∃ o ∈ db.paperOrders, o.orderId = o'.orderId ∧ o.runId = runId

variable {uuid5} {runId : String}

theorem Others.refl (db : Database) : Others uuid5 runId db db where
  slots := .of_runs_eq rfl
  closes := rfl
  decisions := .inl rfl
  kept := fun o ho => ⟨o, ho, rfl, rfl⟩
  none_new := fun o ho hrun => ⟨o, ho, rfl, hrun⟩

theorem Others.trans {a b c : Database} (h : Others uuid5 runId a b)
    (h' : Others uuid5 runId b c) : Others uuid5 runId a c where
  slots := h.slots.trans h'.slots
  closes := h'.closes.trans h.closes
  decisions := by
    rcases h.decisions with hsame | ⟨hclosed, hnone, hended, row, hrow, hnot⟩
    · rcases h'.decisions with hsame' | ⟨hclosed, hnone, hended, row, hrow, hnot⟩
      · exact .inl (hsame'.trans hsame)
      · refine .inr ⟨h.closes ▸ hclosed, hsame ▸ hnone, fun key hkey hknown => ?_, row, hrow, hnot⟩
        exact hended key hkey (hknown.evolves h.slots)
    · rcases h'.decisions with hsame' | ⟨-, hnone', -⟩
      · refine .inr ⟨hclosed, hnone, fun key hkey hknown => ?_, row, hsame'.trans hrow, hnot⟩
        exact (hended key hkey hknown).evolves h'.slots
      · rw [hrow] at hnone'
        cases hnone'
  kept := by
    intro o ho
    obtain ⟨o', ho', hid, hrun⟩ := h.kept o ho
    obtain ⟨o'', ho'', hid', hrun'⟩ := h'.kept o' ho'
    exact ⟨o'', ho'', hid'.trans hid, hrun'.trans hrun⟩
  none_new := by
    intro o ho hrun
    obtain ⟨o', ho', hid, hrun'⟩ := h'.none_new o ho hrun
    obtain ⟨o'', ho'', hid', hrun''⟩ := h.none_new o' ho' hrun'
    exact ⟨o'', ho'', hid'.trans hid, hrun''⟩

/-- Nobody undecides a run, and a decision is taken for it only once it has ended. -/
theorem Others.undecided {db db' : Database} (h : Others uuid5 runId db db') {key : String}
    (hkey : uuid5 key = runId) (hknown : Known key db)
    (hu : rowsOf decisionEvent runId db = [] ∨ Ended key db) :
    rowsOf decisionEvent runId db' = [] ∨ Ended key db' := by
  rcases hu with hu | hu
  · rcases h.decisions with hsame | ⟨-, -, hended, -⟩
    · exact .inl (hsame.trans hu)
    · exact .inr (hended key hkey hknown)
  · exact .inr (hu.evolves h.slots)

/-! ## The invariant of a run -/

structure RunInv (runId : String) (db : Database) : Prop where
  oneClose : (rowsOf closeEvent runId db).length ≤ 1
  oneDecision : (rowsOf decisionEvent runId db).length ≤ 1
  ordered : ∀ o ∈ db.paperOrders, o.runId = runId →
    ∃ row, rowsOf decisionEvent runId db = [row] ∧ NamesOrder row o
  named : ∀ row ∈ rowsOf decisionEvent runId db, Submitted row →
    ∃ o ∈ db.paperOrders, o.runId = runId ∧ NamesOrder row o

/-- An undecided run has no order. -/
theorem RunInv.no_order {db : Database} (h : RunInv runId db)
    (hu : rowsOf decisionEvent runId db = []) : ∀ o ∈ db.paperOrders, o.runId ≠ runId := by
  intro o ho hrun
  obtain ⟨row, hrow, -⟩ := h.ordered o ho hrun
  rw [hu] at hrow
  cases hrow

/-- At most a decision that submits nothing is added to the run. -/
structure Abandons (runId : String) (db db' : Database) : Prop where
  closes : rowsOf closeEvent runId db' = rowsOf closeEvent runId db
  decisions : rowsOf decisionEvent runId db' = rowsOf decisionEvent runId db ∨
    (rowsOf decisionEvent runId db = [] ∧
      ∃ row, rowsOf decisionEvent runId db' = [row] ∧ ¬ Submitted row)
  kept : ∀ o ∈ db.paperOrders, ∃ o' ∈ db'.paperOrders,
    o'.orderId = o.orderId ∧ o'.runId = o.runId
  none_new : ∀ o' ∈ db'.paperOrders, o'.runId = runId →
    ∃ o ∈ db.paperOrders, o.orderId = o'.orderId ∧ o.runId = runId

theorem Others.abandons {db db' : Database} (h : Others uuid5 runId db db') :
    Abandons runId db db' where
  closes := h.closes
  decisions := h.decisions.imp_right (fun hnew => ⟨hnew.2.1, hnew.2.2.2⟩)
  kept := h.kept
  none_new := h.none_new

theorem Abandons.trans {a b c : Database} (h : Abandons runId a b) (h' : Abandons runId b c) :
    Abandons runId a c where
  closes := h'.closes.trans h.closes
  decisions := by
    rcases h.decisions with hsame | ⟨hnone, row, hrow, hnot⟩
    · rcases h'.decisions with hsame' | ⟨hnone, row, hrow, hnot⟩
      · exact .inl (hsame'.trans hsame)
      · exact .inr ⟨hsame ▸ hnone, row, hrow, hnot⟩
    · rcases h'.decisions with hsame' | ⟨hnone', -⟩
      · exact .inr ⟨hnone, row, hsame'.trans hrow, hnot⟩
      · rw [hrow] at hnone'
        cases hnone'
  kept := by
    intro o ho
    obtain ⟨o', ho', hid, hrun⟩ := h.kept o ho
    obtain ⟨o'', ho'', hid', hrun'⟩ := h'.kept o' ho'
    exact ⟨o'', ho'', hid'.trans hid, hrun'.trans hrun⟩
  none_new := by
    intro o ho hrun
    obtain ⟨o', ho', hid, hrun'⟩ := h'.none_new o ho hrun
    obtain ⟨o'', ho'', hid', hrun''⟩ := h.none_new o' ho' hrun'
    exact ⟨o'', ho'', hid'.trans hid, hrun''⟩

theorem RunInv.abandons {db db' : Database} (h : RunInv runId db)
    (ha : Abandons runId db db') : RunInv runId db' := by
  rcases ha.decisions with hsame | ⟨hnone, row, hrow, hnot⟩
  · refine ⟨ha.closes ▸ h.oneClose, hsame ▸ h.oneDecision, ?_, ?_⟩
    · intro o' hmem hrun
      obtain ⟨o, hmem', hid, hrun'⟩ := ha.none_new o' hmem hrun
      obtain ⟨row, hrow, hsubmitted, hnamed⟩ := h.ordered o hmem' hrun'
      exact ⟨row, hsame.trans hrow, hsubmitted, hid ▸ hnamed⟩
    · intro row hrow hsubmitted
      obtain ⟨o, hmem, hrun, hstatus, hnamed⟩ := h.named row (hsame ▸ hrow) hsubmitted
      obtain ⟨o', hmem', hid, hrun'⟩ := ha.kept o hmem
      exact ⟨o', hmem', hrun'.trans hrun, hstatus, hid ▸ hnamed⟩
  · refine ⟨ha.closes ▸ h.oneClose, by simp [hrow], ?_, ?_⟩
    · intro o' hmem hrun
      obtain ⟨o, hmem', -, hrun'⟩ := ha.none_new o' hmem hrun
      exact absurd hrun' (h.no_order hnone o hmem')
    · intro row' hrow' hsubmitted
      rw [hrow, List.mem_singleton] at hrow'
      exact absurd (hrow' ▸ hsubmitted) hnot

/-- A close of the run is on record, and it has no order. -/
def Shut (runId : String) (db : Database) : Prop :=
  rowsOf closeEvent runId db ≠ [] ∧ ∀ o ∈ db.paperOrders, o.runId ≠ runId

theorem Shut.abandons {db db' : Database} (h : Shut runId db) (ha : Abandons runId db db') :
    Shut runId db' := by
  refine ⟨ha.closes ▸ h.1, fun o' hmem hrun => ?_⟩
  obtain ⟨o, hmem', -, hrun'⟩ := ha.none_new o' hmem hrun
  exact h.2 o hmem' hrun'

/-! ## Transactions that leave the runs of the policy alone -/

/-- The journal grows by rows that are none of this policy's, and the orders stay. -/
structure Quiet (db db' : Database) : Prop where
  slots : Slots.Evolves db db'
  orders : db'.paperOrders = db.paperOrders
  journal : ∃ rows, db'.journal = db.journal ++ rows ∧
    ∀ row ∈ rows, row.eventType ≠ decisionEvent ∧ row.eventType ≠ closeEvent

theorem Quiet.others {db db' : Database} (h : Quiet db db') (runId : String) :
    Others uuid5 runId db db' := by
  obtain ⟨rows, hrows, hkind⟩ := h.journal
  refine { slots := h.slots, closes := ?_, decisions := .inl ?_, kept := ?_, none_new := ?_ }
  · exact rowsOf_append_of_none hrows (fun row hrow _ => (hkind row hrow).2)
  · exact rowsOf_append_of_none hrows (fun row hrow _ => (hkind row hrow).1)
  · exact fun o ho => ⟨o, h.orders ▸ ho, rfl, rfl⟩
  · exact fun o ho hrun => ⟨o, h.orders ▸ ho, rfl, hrun⟩

theorem quiet_of_moves {db db' : Database} (h : Slots.Moves uuid5 db db')
    (hslots : Slots.Evolves db db') : Quiet db db' := by
  obtain ⟨rows, hrows, hkind⟩ := h.journal
  refine ⟨hslots, h.orders, rows, hrows, fun row hrow => ?_⟩
  have hmem := hkind row hrow
  constructor <;> rintro he <;> rw [he] at hmem <;> revert hmem <;> decide

/-! ## Abandoning -/

/-- The decision that abandons the close of a row. -/
def abandonment (at_ : Instant) (row : JournalRow) : JournalRow :=
  ⟨some at_, row.runId, row.symbol, "opposite_policy", decisionEvent, "WARNING",
    row.payload.merge [("status", .str "SKIPPED"),
      ("reason", .str "REVERSE_ABANDONED_AFTER_RESTART")]⟩

theorem not_submitted_abandonment (at_ : Instant) (row : JournalRow) :
    ¬ Submitted (abandonment at_ row) := by
  cases hpayload : row.payload <;> simp [Submitted, abandonment, Json.merge, hpayload]

theorem abandonRow_cases (at_ : Instant) (interrupted : Option String) (db : Database)
    (row : JournalRow) :
    abandonRow at_ interrupted db row = db ∨
      (prior decisionEvent row.runId db = none ∧
        (runIsRunning row.runId db = false ∨ row.runId = interrupted) ∧
        abandonRow at_ interrupted db row =
          { db with journal := db.journal ++ [abandonment at_ row] }) := by
  unfold abandonRow
  split_ifs with hcond
  · exact .inr ⟨hcond.1, hcond.2, rfl⟩
  · exact .inl rfl

/-- What the abandonment of a row does to the rows of a run. -/
theorem rowsOf_abandonment {db : Database} {at_ : Instant} {row : JournalRow} :
    let db' : Database := { db with journal := db.journal ++ [abandonment at_ row] }
    rowsOf closeEvent runId db' = rowsOf closeEvent runId db ∧
      (row.runId ≠ some runId → rowsOf decisionEvent runId db' = rowsOf decisionEvent runId db) ∧
      (row.runId = some runId → rowsOf decisionEvent runId db' =
        rowsOf decisionEvent runId db ++ [abandonment at_ row]) := by
  refine ⟨?_, fun hrun => ?_, fun hrun => ?_⟩
  · refine rowsOf_append_of_none rfl (fun r hr _ => ?_)
    rw [List.mem_singleton.mp hr]
    exact (by decide : decisionEvent ≠ closeEvent)
  · refine rowsOf_append_of_none rfl (fun r hr hrun' => ?_)
    rw [List.mem_singleton.mp hr] at hrun'
    exact absurd hrun' hrun
  · refine (rowsOf_append rfl).trans (congrArg _ (List.filter_cons_of_pos ?_))
    simp [isRow, abandonment, hrun]

/-- One row of the pass adds at most one decision, to a run without one. -/
theorem abandonRow_abandons (at_ : Instant) (interrupted : Option String) (db : Database)
    (row : JournalRow) : Abandons runId db (abandonRow at_ interrupted db row) := by
  rcases abandonRow_cases at_ interrupted db row with he | ⟨hundecided, -, he⟩
  · rw [he]
    exact (@Others.refl id runId db).abandons
  · rw [he]
    obtain ⟨hcloses, hother, hown⟩ := @rowsOf_abandonment runId db at_ row
    refine ⟨hcloses, ?_, fun o ho => ⟨o, ho, rfl, rfl⟩, fun o ho hrun => ⟨o, ho, rfl, hrun⟩⟩
    by_cases hrun : row.runId = some runId
    · have hnone := prior_eq_none.mp (hrun ▸ hundecided)
      refine .inr ⟨hnone, abandonment at_ row, ?_, not_submitted_abandonment at_ row⟩
      rw [hown hrun, hnone, List.nil_append]
    · exact .inl (hother hrun)

/-- One row of the pass abandons another run only if that has ended. -/
theorem abandonRow_others {db : Database} (hids : Slots.RunIds uuid5 db) {at_ : Instant}
    {interrupted : Option String} {row : JournalRow} (hrow : row ∈ db.journal)
    (hevent : row.eventType = closeEvent) (hother : interrupted ≠ some runId) :
    Others uuid5 runId db (abandonRow at_ interrupted db row) := by
  have habandons := @abandonRow_abandons runId at_ interrupted db row
  rcases abandonRow_cases at_ interrupted db row with he | ⟨-, hended, he⟩
  · rw [he]
    exact Others.refl db
  · refine ⟨.of_runs_eq (by rw [he]), habandons.closes, ?_, habandons.kept, habandons.none_new⟩
    by_cases hrun : row.runId = some runId
    · rw [hrun] at hended
      have hstopped : runIsRunning (some runId) db = false := by
        rcases hended with hended | hended
        · exact hended
        · exact absurd hended.symm hother
      refine habandons.decisions.imp_right (fun hnew => ⟨?_, hnew.1, ?_, hnew.2⟩)
      · refine List.ne_nil_of_mem (List.mem_filter.mpr ⟨hrow, ?_⟩)
        simp [isRow, hevent, hrun]
      · rintro key rfl ⟨run, hmem, rfl⟩
        refine ⟨run, by rwa [he], rfl, fun hrunning => ?_⟩
        have hall := List.any_eq_false.mp hstopped run hmem
        simp [hids run hmem, hrunning] at hall
    · rw [he]
      exact .inl ((@rowsOf_abandonment runId db at_ row).2.1 hrun)

/-- What every row of the pass preserves, the whole pass preserves. -/
theorem abandonIncomplete_induction {at_ : Instant} {interrupted : Option String}
    {db : Database} (R : Database → Database → Prop) (hrefl : R db db)
    (htrans : ∀ {b c}, R db b → R b c → R db c)
    (hstep : ∀ b row, db.journal <+: b.journal → b.runs = db.runs → row ∈ b.journal →
      row.eventType = closeEvent → R b (abandonRow at_ interrupted b row)) :
    R db (commit (abandonIncomplete at_ interrupted) db).2 := by
  have hfold : ∀ (rows : List JournalRow) (b : Database), db.journal <+: b.journal →
      b.runs = db.runs → R db b → (∀ row ∈ rows, row ∈ db.journal ∧ row.eventType = closeEvent) →
      R db (rows.foldl (abandonRow at_ interrupted) b) := by
    intro rows
    induction rows with
    | nil => exact fun _ _ _ hb _ => hb
    | cons row rows ih =>
      intro b hprefix hruns hb hrows
      obtain ⟨hmem, hevent⟩ := hrows row (by simp)
      have hrest : ∀ r ∈ rows, r ∈ db.journal ∧ r.eventType = closeEvent :=
        fun r hr => hrows r (by simp [hr])
      have hb' := htrans hb (hstep b row hprefix hruns (List.IsPrefix.subset hprefix hmem) hevent)
      refine ih _ ?_ ?_ hb' hrest
      · rcases abandonRow_cases at_ interrupted b row with he | ⟨-, -, he⟩ <;> rw [he]
        · exact hprefix
        · exact hprefix.trans (List.prefix_append _ _)
      · rcases abandonRow_cases at_ interrupted b row with he | ⟨-, -, he⟩ <;> rw [he] <;>
          exact hruns
  refine hfold _ db (List.prefix_refl _) rfl hrefl (fun row hrow => ?_)
  obtain ⟨hmem, hevent⟩ := List.mem_filter.mp hrow
  exact ⟨hmem, of_decide_eq_true hevent⟩

theorem abandonIncomplete_others {db : Database} (hids : Slots.RunIds uuid5 db) {at_ : Instant}
    {interrupted : Option String} (hother : interrupted ≠ some runId) :
    Others uuid5 runId db (commit (abandonIncomplete at_ interrupted) db).2 := by
  refine abandonIncomplete_induction (Others uuid5 runId) (Others.refl db) (fun h h' => h.trans h')
    (fun b row _ hruns hrow hevent => ?_)
  refine abandonRow_others (fun run hrun => hids run (hruns ▸ hrun)) hrow hevent hother

theorem abandonIncomplete_abandons (db : Database) (at_ : Instant)
    (interrupted : Option String) :
    Abandons runId db (commit (abandonIncomplete at_ interrupted) db).2 :=
  abandonIncomplete_induction (Abandons runId) (@Others.refl id runId db).abandons
    (fun h h' => h.trans h') (fun b row _ _ _ _ => abandonRow_abandons at_ interrupted b row)

/-- The pass writes nothing but the journal. -/
theorem abandonIncomplete_eq (db : Database) (at_ : Instant) (interrupted : Option String) :
    ∃ rows, (commit (abandonIncomplete at_ interrupted) db).2 =
      { db with journal := db.journal ++ rows } := by
  have hstep : ∀ b : Database, (∃ rows, b = { db with journal := db.journal ++ rows }) →
      ∀ row, ∃ rows, abandonRow at_ interrupted b row = { db with journal := db.journal ++ rows } := by
    rintro b ⟨rows, rfl⟩ row
    rcases abandonRow_cases at_ interrupted _ row with he | ⟨-, -, he⟩ <;> rw [he]
    · exact ⟨rows, rfl⟩
    · exact ⟨rows ++ [abandonment at_ row], by simp⟩
  have hfold : ∀ (rows : List JournalRow) (b : Database),
      (∃ rows, b = { db with journal := db.journal ++ rows }) →
      ∃ new, rows.foldl (abandonRow at_ interrupted) b = { db with journal := db.journal ++ new } := by
    intro rows
    induction rows with
    | nil => exact fun b hb => hb
    | cons row rows ih => exact fun b hb => ih _ (hstep b hb row)
  exact hfold _ db ⟨[], by simp⟩

/-! ## What the writes of a call save -/

section Writes

variable {c : Execute} {setupId : String} {plan : TradePlan} {now : Instant} {ids : Ids}
  {b b' : PaperBroker} {outcome : Outcome}

/-- A close books its trade and journals it under the deciding run. -/
theorem closeMarket_journal {symbol : String} {price : ℚ} {asOf : Instant}
    {exitReason decisionRunId tradeId : String} {trade : ClosedTrade}
    (hstop : exitReason ≠ "stop") (htarget : exitReason ≠ "target")
    (h : b.closeMarket symbol price asOf exitReason decisionRunId tradeId = .ok (b', trade)) :
    b'.journal = b.journal ++ [⟨some asOf, decisionRunId, symbol, tradeId, "POSITION_CLOSED",
      .obj [("exit_reason", .str exitReason)]⟩] := by
  unfold PaperBroker.closeMarket at h
  split_ifs at h
  cases hp : b.account.openPositions.get? symbol with
  | none => simp [hp] at h
  | some p =>
    simp only [hp] at h
    split_ifs at h
    unfold TradeManager.closePosition at h
    split_ifs at h
    simp only [Except.ok.injEq, Prod.mk.injEq] at h
    obtain ⟨rfl, -⟩ := h
    have hsymbol : p.symbol = symbol := (Table.get?_eq_some.mp hp).2
    simp [TradeManager.levelEvent, hstop, htarget, PaperBroker.event, hsymbol,
      TradeManager.closedTrade]

theorem Mode.exitReason_ne (m : Mode) : m.exitReason ≠ "stop" ∧ m.exitReason ≠ "target" := by
  cases m <;> exact ⟨by decide, by decide⟩

/-- The event of the policy in the in-memory journal. -/
def noteEvent (c : Execute) (setupId : String) (outcome : Outcome) (event : String)
    (trade : List (String × Json)) : JournalEvent :=
  ⟨some c.at_, c.runId, c.symbol, "opposite_policy", event,
    .obj ([("policy", .str c.config.mode.version), ("status", .str outcome.status),
      ("reason", .str outcome.reason), ("order_id", .ofOption outcome.orderId),
      ("setup_id", .str setupId)] ++ trade)⟩

theorem note_journal (c : Execute) (setupId : String) (b : PaperBroker) (outcome : Outcome)
    (event : String) (trade : List (String × Json)) :
    (c.note setupId b outcome event trade).journal =
      b.journal ++ [noteEvent c setupId outcome event trade] := rfl

/-- `close_or_block` saves a close with its row, or a refusal with its decision. -/
theorem closeOrBlock_save
    (h : c.closeOrBlock setupId now ids b = .ok (true, outcome, b')) :
    (outcome.status = "CLOSED" ∧ ∃ price closed trade, lastClose c.snapshot = .ok price ∧
      b.closeMarket c.symbol price c.at_ c.config.mode.exitReason c.runId ids.tradeId =
        .ok (closed, trade) ∧
      b'.account = closed.account ∧ b'.orders = closed.orders ∧
      b'.journal = closed.journal ++ [noteEvent c setupId outcome closeEvent []]) ∨
    (outcome.status = "SKIPPED" ∧ b'.account = b.account ∧ b'.orders = b.orders ∧
      b'.journal = b.journal ++ [noteEvent c setupId outcome decisionEvent []]) := by
  unfold Execute.closeOrBlock at h
  cases hreason : c.closeReason now b with
  | error e => simp [hreason] at h
  | ok reason =>
    cases reason with
    | none => simp [hreason] at h
    | some reason =>
      simp only [hreason] at h
      split_ifs at h
      · cases hprice : lastClose c.snapshot with
        | error e => simp [hprice] at h
        | ok price =>
          simp only [hprice] at h
          cases hclose : b.closeMarket c.symbol price c.at_ c.config.mode.exitReason c.runId
              ids.tradeId with
          | error e => simp [hclose] at h
          | ok closed =>
            obtain ⟨closed, trade⟩ := closed
            simp only [hclose, Except.ok.injEq, Prod.mk.injEq, true_and] at h
            obtain ⟨rfl, rfl⟩ := h
            exact .inl ⟨rfl, price, closed, trade, rfl, hclose, rfl, rfl, rfl⟩
      · simp only [Except.ok.injEq, Prod.mk.injEq, true_and] at h
        obtain ⟨rfl, rfl⟩ := h
        exact .inr ⟨rfl, rfl, rfl, rfl⟩

/-- `reserve` saves a decision that submits nothing, or the order with the decision that
names it. -/
theorem reserve_save {reversing : Bool} {save : Bool}
    (h : c.reserve setupId plan reversing now ids b = .ok (save, outcome, b')) :
    (outcome.status = "SKIPPED" ∧ b'.account = b.account ∧ b'.orders = b.orders ∧
      ∃ rows, b'.journal = b.journal ++ rows ++ [noteEvent c setupId outcome decisionEvent []] ∧
        ∀ e ∈ rows, e.eventType ≠ decisionEvent ∧ e.eventType ≠ closeEvent) ∨
    (outcome.status = "SUBMITTED" ∧ ∃ prepared order record,
      prepareReservation (c.request setupId plan ids.orderId) b.portfolio =
        .approved prepared order record ∧ outcome.orderId = some order.orderId ∧
      b'.account = b.account ∧ b'.orders = prepared.orders ∧
      ∃ rows, b'.journal = b.journal ++ rows ++ [noteEvent c setupId outcome decisionEvent []] ∧
        ∀ e ∈ rows, e.eventType ≠ decisionEvent ∧ e.eventType ≠ closeEvent) := by
  unfold Execute.reserve at h
  cases hgate : c.gate now with
  | error e => simp [hgate] at h
  | ok reason =>
    cases reason with
    | some reason =>
      simp only [hgate, Except.ok.injEq, Prod.mk.injEq] at h
      obtain ⟨-, rfl, rfl⟩ := h
      exact .inl ⟨rfl, rfl, rfl, [], by simp [Execute.note, noteEvent, PaperBroker.event], by simp⟩
    | none =>
      simp only [hgate] at h
      cases hprepare : prepareReservation (c.request setupId plan ids.orderId) b.portfolio with
      | rejected reason record journalRecord =>
        simp only [hprepare, Except.ok.injEq, Prod.mk.injEq, Execute.refused] at h
        obtain ⟨-, rfl, rfl⟩ := h
        let event (kind : String) (details : Json) : JournalEvent :=
          ⟨some c.at_, c.runId, c.symbol, "risk_engine_v2", kind, details⟩
        refine .inl ⟨rfl, rfl, rfl, [event "RISK_V2_DECISION" journalRecord.asJson,
          event "RISK_REJECTED" (.obj [("reason", .str reason),
            ("after_structure_close", .bool reversing)])], ?_, ?_⟩
        · simp [note_journal, PaperBroker.event, event]
        intro e he
        simp only [List.mem_cons, List.not_mem_nil, or_false] at he
        rcases he with rfl | rfl
        · exact ⟨(by decide : "RISK_V2_DECISION" ≠ decisionEvent),
            (by decide : "RISK_V2_DECISION" ≠ closeEvent)⟩
        · exact ⟨(by decide : "RISK_REJECTED" ≠ decisionEvent),
            (by decide : "RISK_REJECTED" ≠ closeEvent)⟩
      | approved prepared order record =>
        have hprepared : ∀ e ∈ prepared.journal,
            e.eventType ≠ decisionEvent ∧ e.eventType ≠ closeEvent := by
          intro e he
          rcases prepareReservation_journal hprepare e he with hkind | hkind <;> rw [hkind] <;>
            exact ⟨by decide, by decide⟩
        simp only [hprepare, Except.ok.injEq, Prod.mk.injEq, Execute.submitted] at h
        obtain ⟨-, rfl, rfl⟩ := h
        cases reversing with
        | false =>
          refine .inr ⟨rfl, prepared, order, record, rfl, rfl, rfl, rfl, prepared.journal, ?_,
            hprepared⟩
          simp [note_journal]
        | true =>
          let alert := noteEvent c setupId ⟨"SUBMITTED", "STRUCTURE_REVERSE_SUBMITTED",
            some order.orderId⟩ "STRUCTURE_REVERSE_SUBMITTED" (Execute.tradeOf order)
          refine .inr ⟨rfl, prepared, order, record, rfl, rfl, rfl, rfl,
            prepared.journal ++ [alert], ?_, ?_⟩
          · simp [note_journal, alert]
          · intro e he
            rcases List.mem_append.mp he with he | he
            · exact hprepared e he
            · rw [List.mem_singleton.mp he]
              exact ⟨(by decide : "STRUCTURE_REVERSE_SUBMITTED" ≠ decisionEvent),
                (by decide : "STRUCTURE_REVERSE_SUBMITTED" ≠ closeEvent)⟩

end Writes

/-! ## What its saves do to the runs -/

section Saves

variable {db : Database} {s b' : PaperBroker} {c : Execute}

theorem same_orders (h : Found db s) (horders : b'.orders = s.orders) (o : PaperOrder) :
    o ∈ (db.persist b').paperOrders ↔ o ∈ db.paperOrders := by
  rw [h.mem_orders (fun o ho => ⟨o, horders ▸ ho, rfl⟩), h.orders, horders]

theorem same_trades (h : Found db s) (haccount : b'.account = s.account) (t : ClosedTrade) :
    t ∈ (db.persist b').closedTrades ↔ t ∈ db.closedTrades := by
  rw [h.mem_trades (fun t ht => haccount ▸ ht) (haccount ▸ h.trades_nodup), haccount]
  exact h.trades.mem_iff.symm

/-- The rows of the policy that a save adds to its own run. -/
theorem rowsOf_persist {event : String} {rows : List JournalEvent} {e : JournalEvent}
    (hjournal : b'.journal = rows ++ [e]) (hrows : ∀ x ∈ rows, x.eventType ≠ event)
    (hrun : e.runId = runId) :
    rowsOf event runId (db.persist b') =
      rowsOf event runId db ++ (if e.eventType = event then [rowOf e] else []) := by
  have hnone : (rows.map rowOf).filter (isRow event (some runId)) = [] := by
    refine List.filter_eq_nil_iff.mpr (fun row hrow => ?_)
    obtain ⟨x, hx, rfl⟩ := List.mem_map.mp hrow
    simp only [isRow, decide_eq_true_eq]
    exact fun h => hrows x hx h.1
  rw [rowsOf_append (persist_journal db b'), hjournal, List.map_append, List.filter_append, hnone]
  by_cases hevent : e.eventType = event <;> simp [isRow, rowOf, hevent, hrun]

/-- A save that journals only under its own run, and adds no order to another. -/
theorem others_persist {run other : String} (hother : run ≠ other)
    (hrows : ∀ e ∈ b'.journal,
      e.runId = run ∨ (e.eventType ≠ decisionEvent ∧ e.eventType ≠ closeEvent))
    (hkept : ∀ o ∈ db.paperOrders, o ∈ (db.persist b').paperOrders)
    (hnew : ∀ o ∈ (db.persist b').paperOrders, o ∈ db.paperOrders ∨ o.runId = run) :
    Others uuid5 other db (db.persist b') := by
  have hforeign : ∀ row ∈ b'.journal.map rowOf, row.runId = some other →
      row.eventType ≠ decisionEvent ∧ row.eventType ≠ closeEvent := by
    intro row hrow hrun
    obtain ⟨e, he, rfl⟩ := List.mem_map.mp hrow
    rcases hrows e he with hown | hkind
    · exact absurd (hown.symm.trans (Option.some.inj hrun)) hother
    · exact hkind
  refine { slots := .of_runs_eq (persist_runs db b'), closes := ?_, decisions := .inl ?_,
           kept := fun o ho => ⟨o, hkept o ho, rfl, rfl⟩, none_new := ?_ }
  · exact rowsOf_append_of_none (persist_journal db b') (fun row h hr => (hforeign row h hr).2)
  · exact rowsOf_append_of_none (persist_journal db b') (fun row h hr => (hforeign row h hr).1)
  · intro o ho hrun
    rcases hnew o ho with hold | hown
    · exact ⟨o, hold, rfl, hrun⟩
    · exact absurd (hown.symm.trans hrun) hother

theorem RunInv.close {db db' : Database} (h : RunInv runId db)
    (hclosed : (rowsOf closeEvent runId db').length ≤ 1)
    (hdecisions : rowsOf decisionEvent runId db' = rowsOf decisionEvent runId db)
    (horders : ∀ o, o ∈ db'.paperOrders ↔ o ∈ db.paperOrders) : RunInv runId db' := by
  refine ⟨hclosed, hdecisions ▸ h.oneDecision, ?_, ?_⟩
  · intro o ho hrun
    obtain ⟨row, hrow, hnames⟩ := h.ordered o ((horders o).mp ho) hrun
    exact ⟨row, hdecisions.trans hrow, hnames⟩
  · intro row hrow hsubmitted
    obtain ⟨o, ho, hrun, hnames⟩ := h.named row (hdecisions ▸ hrow) hsubmitted
    exact ⟨o, (horders o).mpr ho, hrun, hnames⟩

theorem RunInv.submit {db db' : Database} {order : PaperOrder} {row : JournalRow}
    (h : RunInv runId db) (hcloses : rowsOf closeEvent runId db' = rowsOf closeEvent runId db)
    (hundecided : rowsOf decisionEvent runId db = [])
    (hdecisions : rowsOf decisionEvent runId db' = [row]) (hnames : NamesOrder row order)
    (hrun : order.runId = runId)
    (horders : ∀ o, o ∈ db'.paperOrders ↔ o = order ∨ o ∈ db.paperOrders) : RunInv runId db' := by
  refine ⟨hcloses ▸ h.oneClose, by simp [hdecisions], ?_, ?_⟩
  · intro o ho horder
    rcases (horders o).mp ho with rfl | hold
    · exact ⟨row, hdecisions, hnames⟩
    · exact absurd horder (h.no_order hundecided o hold)
  · intro row' hrow _
    rw [hdecisions, List.mem_singleton] at hrow
    exact ⟨order, (horders order).mpr (.inl rfl), hrun, hrow ▸ hnames⟩

end Saves

end MarketSystem.OppositePolicy
