import MarketSystem.Storage.Database
import Mathlib.Data.List.Count

/-!
# Slot ownership

A worker claims a slot, writes PAPER state only while it owns it, and finishes
it. Recovery and the halt bookkeeping end runs whose worker may still be alive.
Each of these is one transaction; the runs table and the lock table stay in step
because every transaction moves a run and its lock together.
-/
namespace MarketSystem.Slots

open Library Database

/-- The two ways a worker ends its own run. -/
inductive RunEnd
  | completed
  | failed
  deriving DecidableEq, Repr

def RunEnd.status : RunEnd → RunStatus
  | completed => .completed
  | failed => .failed

theorem RunEnd.status_ne_running (e : RunEnd) : e.status ≠ .running := by
  cases e <;> simp [status]

/-- `claim_slot`: refused while the symbol is locked or when the slot is known. -/
def claimSlot (uuid5 : String → String) (key symbol : String) (asOf startedAt : Instant)
    (runId : Option String) : Tx Bool := fun db =>
  let runId := match runId with
    | some id => if id = "" then uuid5 key else id
    | none => uuid5 key
  match db.symbolLocks.get? symbol with
  | some _ => .ok (false, db)
  | none =>
      let run : RunRow := ⟨key, runId, symbol, asOf, startedAt, none, .running, none, none⟩
      match db.runs.insert? run with
      | none => .ok (false, db)
      | some runs =>
          let db := { db with runs := runs, symbolLocks := db.symbolLocks.put ⟨symbol, key⟩ }
          .ok (true, db.event (some startedAt) (some runId) (some symbol) "runtime" "RUN_STARTED"
            "INFO" (.obj [("slot_key", .str key)]))

/-- `UPDATE runs SET … WHERE slot_key=?`, for assignments that keep key and symbol. -/
def updateRun (db : Database) (key : String) (set : RunRow → RunRow)
    (hset : ∀ r, (set r).slotKey = r.slotKey) : Database :=
  let apply (r : RunRow) : RunRow := if r.slotKey = key then set r else r
  let runs := db.runs.modify apply (fun r => by dsimp only [apply]; split_ifs <;> simp [hset])
  { db with runs := runs }

/-- `DELETE FROM symbol_locks WHERE slot_key=?`. -/
def deleteLock (db : Database) (key : String) : Database :=
  { db with symbolLocks := db.symbolLocks.filter (fun l => decide (l.slotKey ≠ key)) }

/-- A plain `INSERT` of a review: its run id is the primary key, its slot is unique. -/
def insertReview (db : Database) (review : ReviewRow) : Except String Database :=
  if (db.reviewReports.rows.any (fun r => decide (r.slotKey = review.slotKey))) then
    .error "IntegrityError"
  else match db.reviewReports.insert? review with
    | none => .error "IntegrityError"
    | some reviews => .ok { db with reviewReports := reviews }

/-- `INSERT … ON CONFLICT(run_id) DO UPDATE SET payload`. -/
def upsertReview (db : Database) (review : ReviewRow) : Except String Database :=
  if (db.reviewReports.rows.any
      (fun r => decide (r.slotKey = review.slotKey ∧ r.runId ≠ review.runId))) then
    .error "IntegrityError"
  else match db.reviewReports.get? review.runId with
    | some old => .ok { db with
        reviewReports := db.reviewReports.put { old with payload := review.payload } }
    | none => .ok { db with reviewReports := db.reviewReports.put review }

def optional (value : Option String) : Json := .ofOption value

/-- The review written for a run that ended before its reports were saved. -/
def blankReview (run : RunRow) (finalStatus error : Option String) : Json :=
  .obj [("schema_version", .str "1.0"), ("run_id", .str run.runId), ("slot_key", .str run.slotKey),
    ("symbol", .str run.symbol), ("final_status", optional finalStatus),
    ("setup_status", .str "NOT_REACHED"), ("agents", .arr []), ("risk_decision", .null),
    ("paper", .obj []), ("warnings", .arr []), ("error", optional error)]

def providerHealth (db : Database) : Json :=
  .obj [("market", optional (db.getState "market_data_provider")),
    ("ai", optional (db.getState "ai_provider")),
    ("macro", optional (db.getState "macro_provider"))]

/-- `finish`: the owner ends its run and releases the lock; anybody else changes nothing.
`clock` is the rendering of the completion time. -/
def finish (key : String) (completedAt : Instant) (clock : String) (ending : RunEnd)
    (finalStatus error : Option String) : Tx Bool := fun db =>
  match db.runs.get? key with
  | none => .ok (false, db)
  | some run =>
      if run.status ≠ .running ∨ db.ownsSlot key run.symbol = false then .ok (false, db)
      else
        let db := updateRun db key (fun r => { r with
          completedAt := some completedAt
          status := ending.status
          finalStatus := finalStatus
          error := error }) (fun _ => rfl)
        let db := deleteLock db key
        let review := match db.reviewReports.get? run.runId with
          | some existing => existing.payload.merge
              [("final_status", optional finalStatus), ("error", optional error)]
          | none => blankReview run finalStatus error
        let payload := review.merge [("provider_health", providerHealth db)]
        match upsertReview db ⟨run.runId, key, payload⟩ with
        | .error e => .error e
        | .ok db =>
            let db := db.event (some completedAt) (some run.runId) (some run.symbol) "runtime"
              (if ending = .completed then "RUN_COMPLETED" else "RUN_FAILED")
              (if ending = .completed then "INFO" else "ERROR")
              (.obj [("final_status", optional finalStatus), ("error", optional error)])
            let db := if ending = .completed
                ∧ finalStatus ∉ [some "NO_DATA", some "STALE_DATA", some "ERROR",
                  some "PROVIDER_FAILURE"] then db.setState "last_success" clock else db
            .ok (true, db.setState "last_run" clock)

/-- The body of the recovery loop for one stale run. -/
def recoverRun (uuid5 : String → String) (at_ : Instant) (db : Database) (run : RunRow) :
    Except String Database :=
  let runId := if run.runId = "" then uuid5 run.slotKey else run.runId
  let db := updateRun db run.slotKey (fun r => { r with
    runId := runId
    status := .failed
    finalStatus := some "ERROR"
    completedAt := some at_
    error := some "interrupted_run" }) (fun _ => rfl)
  let db := deleteLock db run.slotKey
  let fields := [("final_status", Json.str "ERROR"), ("error", Json.str "interrupted_run")]
  let reviewed : Except String Database := match db.reviewReports.get? runId with
    | some review =>
        let ended := { review with payload := review.payload.merge fields }
        .ok { db with reviewReports := db.reviewReports.put ended }
    | none => insertReview db ⟨runId, run.slotKey,
        blankReview { run with runId := runId } (some "ERROR") (some "interrupted_run")⟩
  reviewed.map (fun db => db.event (some at_) (some runId) (some run.symbol) "runtime"
    "STATE_INCONSISTENCY" "ERROR"
    (.obj [("slot_key", .str run.slotKey), ("reason", .str "interrupted_run")]))

/-- The RUNNING runs that recovery takes from their workers. -/
def staleRuns (db : Database) (at_ staleAfter : Instant) : List RunRow :=
  db.runs.rows.filter (fun r => decide (r.status = .running ∧ at_ - r.startedAt ≥ staleAfter))

/-- `recover`: every stale run ends as FAILED and loses its lock. -/
def recover (uuid5 : String → String) (at_ staleAfter : Instant) (clock : String) : Tx ℕ :=
  fun db =>
    let db := db.event (some at_) none none "runtime" "RECOVERY_STARTED"
    let rows := staleRuns db at_ staleAfter
    match rows.foldlM (recoverRun uuid5 at_) db with
    | .error e => .error e
    | .ok db =>
        let db := db.event (some at_) none none "runtime" "RECOVERY_COMPLETED" "INFO"
          (.obj [("unfinished_runs", .num rows.length)])
        .ok (rows.length, db.setState "recovery_at" clock)

/-- The run a halt ends: its id, slot and symbol. -/
structure HaltedRun where
  runId : String
  slotKey : String
  symbol : String

/-- `UPDATE runs SET status='COMPLETED' … AND status='RUNNING'` on one row. -/
def haltRow (completedAt : Instant) (r : RunRow) : RunRow :=
  if r.status = .running then
    { r with status := .completed, finalStatus := some "HALTED", completedAt := some completedAt }
  else r

theorem haltRow_slotKey (completedAt : Instant) (r : RunRow) :
    (haltRow completedAt r).slotKey = r.slotKey := by
  unfold haltRow
  split_ifs <;> rfl

theorem haltRow_symbol (completedAt : Instant) (r : RunRow) :
    (haltRow completedAt r).symbol = r.symbol := by
  unfold haltRow
  split_ifs <;> rfl

theorem haltRow_status (completedAt : Instant) (r : RunRow) :
    (haltRow completedAt r).status ≠ .running := by
  unfold haltRow
  split_ifs with h
  · simp
  · exact h

/-- `halt_bookkeeping` as a transaction: the halted run completes as HALTED, its lock
is released and one row records the event; without a run, the row alone. -/
def haltBookkeeping (halted : Option HaltedRun) (completedAt : Instant) (eventType : String)
    (payload : List (String × Json)) : Tx ℕ := fun db =>
  match halted with
  | none =>
      let db := db.event (some completedAt) none none "halt" eventType "WARNING"
        (.obj (("symbol_lock_released", .null) :: payload))
      .ok (db.journal.length, db)
  | some h =>
      match db.runs.get? h.slotKey with
      | none => .error "halt bookkeeping: the halted run is not RUNNING"
      | some run =>
          if run.runId ≠ h.runId ∨ run.symbol ≠ h.symbol ∨ run.status ≠ .running then
            .error "halt bookkeeping: the halted run is not RUNNING"
          else
            let db := updateRun db h.slotKey (haltRow completedAt) (haltRow_slotKey completedAt)
            let kept := db.symbolLocks.filter
              (fun l => !decide (l.slotKey = h.slotKey ∧ l.symbol = h.symbol))
            let released := db.symbolLocks.rows.length - kept.rows.length
            let db := { db with symbolLocks := kept }
            let db := db.event (some completedAt) (some h.runId) (some h.symbol) "halt" eventType
              "WARNING" (.obj (("symbol_lock_released", .bool (decide (released = 1))) :: payload))
            .ok (db.journal.length, db)

/-- `save_reports`: the run row takes the id of the analysis, the review is inserted. -/
def saveReports (key runId : String) (finalStatus : Option String) (review : Json) : Tx Unit :=
  fun db =>
    let db := updateRun db key (fun r => { r with runId := runId, finalStatus := finalStatus })
      (fun _ => rfl)
    (insertReview db ⟨runId, key, review⟩).map (fun db => ((), db))

/-! ## The two tables stay in step -/

/-- Locks and RUNNING runs correspond. -/
structure InStep (db : Database) : Prop where
  running_of_lock : ∀ l ∈ db.symbolLocks, ∃ r ∈ db.runs,
    r.slotKey = l.slotKey ∧ r.symbol = l.symbol ∧ r.status = .running
  lock_of_running : ∀ r ∈ db.runs, r.status = .running → ⟨r.symbol, r.slotKey⟩ ∈ db.symbolLocks

theorem InStep.congr {db db' : Database} (h : InStep db) (hruns : db'.runs = db.runs)
    (hlocks : db'.symbolLocks = db.symbolLocks) : InStep db' := by
  constructor
  · rw [hruns, hlocks]
    exact h.running_of_lock
  · rw [hruns, hlocks]
    exact h.lock_of_running

/-- Two RUNNING runs of one symbol are the same run. -/
theorem InStep.running_unique {db : Database} (h : InStep db) {r s : RunRow} (hr : r ∈ db.runs)
    (hs : s ∈ db.runs) (hrr : r.status = .running) (hsr : s.status = .running)
    (hsym : r.symbol = s.symbol) : r = s := by
  have hlr := h.lock_of_running r hr hrr
  have hls := h.lock_of_running s hs hsr
  have hlock := Table.eq_of_key hlr hls hsym
  exact Table.eq_of_key hr hs (congrArg LockRow.slotKey hlock)

/-- What an operation may do to the runs table: a run it did not insert keeps slot
and symbol, and no run returns to RUNNING. -/
structure Evolves (db db' : Database) : Prop where
  kept : ∀ r ∈ db.runs, ∃ r' ∈ db'.runs, r'.slotKey = r.slotKey ∧ r'.symbol = r.symbol ∧
    (r'.status = .running → r.status = .running)

theorem Evolves.of_runs_eq {db db' : Database} (h : db'.runs = db.runs) : Evolves db db' :=
  ⟨fun r hr => ⟨r, h ▸ hr, rfl, rfl, id⟩⟩

theorem Evolves.trans {a b c : Database} (h : Evolves a b) (h' : Evolves b c) : Evolves a c := by
  refine ⟨fun r hr => ?_⟩
  obtain ⟨r', hr', hk, hs, hstat⟩ := h.kept r hr
  obtain ⟨r'', hr'', hk', hs', hstat'⟩ := h'.kept r' hr'
  exact ⟨r'', hr'', hk'.trans hk, hs'.trans hs, fun hrun => hstat (hstat' hrun)⟩

@[simp] theorem updateRun_symbolLocks (db : Database) (key : String) (set : RunRow → RunRow)
    (hset : ∀ r, (set r).slotKey = r.slotKey) :
    (updateRun db key set hset).symbolLocks = db.symbolLocks := rfl

theorem mem_updateRun {db : Database} {key : String} {set : RunRow → RunRow}
    {hset : ∀ r, (set r).slotKey = r.slotKey} {r : RunRow} :
    r ∈ (updateRun db key set hset).runs ↔
      ∃ s ∈ db.runs, (if s.slotKey = key then set s else s) = r := by
  simp [updateRun]

/-- An update touches only the row of its slot. -/
theorem mem_updateRun_of_ne {db : Database} {key : String} {set : RunRow → RunRow}
    (hset : ∀ r, (set r).slotKey = r.slotKey) {r : RunRow} (hne : r.slotKey ≠ key) :
    r ∈ (updateRun db key set hset).runs ↔ r ∈ db.runs := by
  rw [mem_updateRun]
  constructor
  · rintro ⟨s, hs, rfl⟩
    by_cases hk : s.slotKey = key
    · simp [hk, hset] at hne
    · simpa [hk] using hs
  · intro hr
    exact ⟨r, hr, by simp [hne]⟩

/-- After an update, the row of its slot is the assigned one. -/
theorem of_mem_updateRun {db : Database} {key : String} {set : RunRow → RunRow}
    (hset : ∀ r, (set r).slotKey = r.slotKey) {r : RunRow}
    (hr : r ∈ (updateRun db key set hset).runs) (hk : r.slotKey = key) :
    ∃ s ∈ db.runs, s.slotKey = key ∧ r = set s := by
  obtain ⟨s, hs, hsr⟩ := mem_updateRun.mp hr
  by_cases hsk : s.slotKey = key
  · exact ⟨s, hs, hsk, by rw [← hsr, if_pos hsk]⟩
  · rw [if_neg hsk] at hsr
    exact absurd (hsr ▸ hk) hsk

/-- An update that keeps symbols and starts nothing evolves the runs table. -/
theorem updateRun_evolves {db : Database} {key : String} {set : RunRow → RunRow}
    (hset : ∀ r, (set r).slotKey = r.slotKey) (hsym : ∀ r, (set r).symbol = r.symbol)
    (hstat : ∀ r, (set r).status = .running → r.status = .running) :
    Evolves db (updateRun db key set hset) := by
  refine ⟨fun r hr => ⟨_, mem_updateRun.mpr ⟨r, hr, rfl⟩, ?_, ?_, ?_⟩⟩
  · split_ifs
    · exact hset r
    · rfl
  · split_ifs
    · exact hsym r
    · rfl
  · split_ifs
    · exact hstat r
    · exact id

/-- Ending the run of a slot together with the locks that name the slot keeps the
tables in step. -/
theorem inStep_of_end {db db' : Database} (h : InStep db) {key : String}
    (hended : ∀ r ∈ db'.runs, r.slotKey = key → r.status ≠ .running)
    (hother : ∀ r : RunRow, r.slotKey ≠ key → (r ∈ db'.runs ↔ r ∈ db.runs))
    (hlocks : ∀ l, l ∈ db'.symbolLocks ↔ l ∈ db.symbolLocks ∧ l.slotKey ≠ key) :
    InStep db' := by
  constructor
  · intro l hl
    obtain ⟨hl', hne⟩ := (hlocks l).mp hl
    obtain ⟨r, hr, hk, hs, hrun⟩ := h.running_of_lock l hl'
    exact ⟨r, (hother r (hk ▸ hne)).mpr hr, hk, hs, hrun⟩
  · intro r hr hrun
    have hne : r.slotKey ≠ key := fun hk => hended r hr hk hrun
    have hr' := (hother r hne).mp hr
    exact (hlocks _).mpr ⟨h.lock_of_running r hr' hrun, hne⟩

/-- `UPDATE` to an ended status followed by the deletion of the lock of the slot. -/
theorem endRun_inStep {db : Database} (h : InStep db) (key : String) {set : RunRow → RunRow}
    (hset : ∀ r, (set r).slotKey = r.slotKey) (hend : ∀ r, (set r).status ≠ .running) :
    InStep (deleteLock (updateRun db key set hset) key) := by
  refine @inStep_of_end db _ h key ?_ ?_ ?_
  · intro r hr hk
    obtain ⟨s, -, -, rfl⟩ := of_mem_updateRun hset hr hk
    exact hend s
  · intro r hne
    exact mem_updateRun_of_ne hset hne
  · intro l
    simp [deleteLock]

/-! ## What each transaction preserves -/

/-- The step property shared by all transactions. -/
def Preserves (db db' : Database) : Prop :=
  (InStep db → InStep db') ∧ Evolves db db'

theorem Preserves.of_eq {db db' : Database} (hruns : db'.runs = db.runs)
    (hlocks : db'.symbolLocks = db.symbolLocks) : Preserves db db' :=
  ⟨fun h => h.congr hruns hlocks, .of_runs_eq hruns⟩

theorem Preserves.trans {a b c : Database} (h : Preserves a b) (h' : Preserves b c) :
    Preserves a c :=
  ⟨fun hi => h'.1 (h.1 hi), h.2.trans h'.2⟩

theorem endRun_preserves (db : Database) (key : String) {set : RunRow → RunRow}
    (hset : ∀ r, (set r).slotKey = r.slotKey) (hsym : ∀ r, (set r).symbol = r.symbol)
    (hend : ∀ r, (set r).status ≠ .running) :
    Preserves db (deleteLock (updateRun db key set hset) key) := by
  refine ⟨fun h => endRun_inStep h key hset hend, ?_⟩
  exact (updateRun_evolves hset hsym (fun r hr => absurd hr (hend r))).trans (.of_runs_eq rfl)

theorem insertReview_preserves {db db' : Database} {review : ReviewRow}
    (h : insertReview db review = .ok db') : Preserves db db' := by
  unfold insertReview at h
  split_ifs at h
  cases hi : db.reviewReports.insert? review with
  | none => simp [hi] at h
  | some reviews =>
    simp only [hi, Except.ok.injEq] at h
    exact .of_eq (by rw [← h]) (by rw [← h])

theorem upsertReview_preserves {db db' : Database} {review : ReviewRow}
    (h : upsertReview db review = .ok db') : Preserves db db' := by
  unfold upsertReview at h
  split_ifs at h
  cases hi : db.reviewReports.get? review.runId <;> simp only [hi, Except.ok.injEq] at h <;>
    exact .of_eq (by rw [← h]) (by rw [← h])

/-- A claim inserts one RUNNING run with its lock, for a slot never seen before. -/
theorem claimSlot_ok {uuid5 : String → String} {key symbol : String} {asOf startedAt : Instant}
    {runId : Option String} {db db' : Database} {claimed : Bool}
    (h : claimSlot uuid5 key symbol asOf startedAt runId db = .ok (claimed, db')) :
    (claimed = false ∧ db' = db) ∨
      (claimed = true ∧ (∀ r ∈ db.runs, r.slotKey ≠ key) ∧ (∃ r ∈ db'.runs, r.slotKey = key) ∧
        Preserves db db') := by
  unfold claimSlot at h
  dsimp only at h
  cases hl : db.symbolLocks.get? symbol with
  | some lock =>
    simp only [hl, Except.ok.injEq, Prod.mk.injEq] at h
    exact .inl ⟨h.1.symm, h.2.symm⟩
  | none =>
    simp only [hl] at h
    generalize hrun : RunRow.mk key _ symbol asOf startedAt none .running none none = run at h
    have hkey : run.slotKey = key := by rw [← hrun]
    have hsymbol : run.symbol = symbol := by rw [← hrun]
    have hstatus : run.status = .running := by rw [← hrun]
    cases hi : db.runs.insert? run with
    | none =>
      simp only [hi, Except.ok.injEq, Prod.mk.injEq] at h
      exact .inl ⟨h.1.symm, h.2.symm⟩
    | some runs =>
      simp only [hi, Except.ok.injEq, Prod.mk.injEq] at h
      obtain ⟨rfl, rfl⟩ := h
      have hmem : ∀ r, r ∈ runs ↔ r ∈ db.runs ∨ r = run := fun r => Table.mem_of_insert? hi
      have hnew : ∀ r ∈ db.runs, r.slotKey ≠ key := by
        intro r hr
        rw [← hkey]
        exact (Table.rows_of_insert? hi).2 r hr
      have hfree : ∀ l ∈ db.symbolLocks, l.symbol ≠ symbol := Table.get?_eq_none.mp hl
      refine .inr ⟨rfl, hnew, ⟨run, (hmem run).mpr (.inr rfl), hkey⟩, ?_, ?_⟩
      · intro hstep
        constructor
        · intro l hlock
          rcases Table.mem_put.mp hlock with rfl | ⟨hlock', -⟩
          · exact ⟨run, (hmem run).mpr (.inr rfl), hkey, hsymbol, hstatus⟩
          · obtain ⟨r, hr, hrest⟩ := hstep.running_of_lock l hlock'
            exact ⟨r, (hmem r).mpr (.inl hr), hrest⟩
        · intro r hr hrunning
          rcases (hmem r).mp hr with hr' | rfl
          · have hlock := hstep.lock_of_running r hr' hrunning
            exact Table.mem_put.mpr (.inr ⟨hlock, hfree _ hlock⟩)
          · exact Table.mem_put.mpr (.inl (by rw [hkey, hsymbol]))
      · exact ⟨fun r hr => ⟨r, (hmem r).mpr (.inl hr), rfl, rfl, id⟩⟩

/-- A finish either changes nothing or ends the run its caller owns. -/
theorem finish_ok {key clock : String} {completedAt : Instant} {ending : RunEnd}
    {finalStatus error : Option String} {db db' : Database} {finished : Bool}
    (h : finish key completedAt clock ending finalStatus error db = .ok (finished, db')) :
    (finished = false ∧ db' = db) ∨
      (finished = true ∧ (∃ run, db.runs.get? key = some run ∧ run.status = .running) ∧
        Preserves db db') := by
  unfold finish at h
  cases hg : db.runs.get? key with
  | none =>
    simp only [hg, Except.ok.injEq, Prod.mk.injEq] at h
    exact .inl ⟨h.1.symm, h.2.symm⟩
  | some run =>
    simp only [hg] at h
    by_cases hown : run.status ≠ .running ∨ db.ownsSlot key run.symbol = false
    · rw [if_pos hown] at h
      simp only [Except.ok.injEq, Prod.mk.injEq] at h
      exact .inl ⟨h.1.symm, h.2.symm⟩
    · rw [if_neg hown] at h
      push Not at hown
      generalize hend : deleteLock _ key = ended at h
      have hpres : Preserves db ended := by
        rw [← hend]
        exact endRun_preserves db key _ (fun _ => rfl) (fun _ => ending.status_ne_running)
      generalize hup : upsertReview ended _ = upserted at h
      cases upserted with
      | error e => simp at h
      | ok reviewed =>
        simp only [Except.ok.injEq, Prod.mk.injEq] at h
        obtain ⟨rfl, rfl⟩ := h
        refine .inr ⟨rfl, ⟨run, rfl, hown.1⟩, ?_⟩
        refine (hpres.trans (upsertReview_preserves hup)).trans (.of_eq ?_ ?_)
        · split_ifs <;> rfl
        · split_ifs <;> rfl

theorem recoverRun_preserves {uuid5 : String → String} {at_ : Instant} {db db' : Database}
    {run : RunRow} (h : recoverRun uuid5 at_ db run = .ok db') : Preserves db db' := by
  unfold recoverRun at h
  dsimp only at h
  generalize hend : deleteLock _ run.slotKey = ended at h
  have hpres : Preserves db ended := by
    rw [← hend]
    exact endRun_preserves db run.slotKey _ (fun _ => rfl) (fun _ => by simp)
  generalize hrev : (match ended.reviewReports.get? _ with
    | some review => _
    | none => _ : Except String Database) = reviewed at h
  cases reviewed with
  | error e => simp [Except.map] at h
  | ok reviewed =>
    simp only [Except.map, Except.ok.injEq] at h
    subst h
    have hreviewed : Preserves ended reviewed := by
      split at hrev
      · cases hrev
        exact .of_eq rfl rfl
      · exact insertReview_preserves hrev
    exact (hpres.trans hreviewed).trans (.of_eq rfl rfl)

theorem recover_preserves {uuid5 : String → String} {at_ staleAfter : Instant} {clock : String}
    {db db' : Database} {n : ℕ}
    (h : recover uuid5 at_ staleAfter clock db = .ok (n, db')) : Preserves db db' := by
  unfold recover at h
  dsimp only at h
  have hfold : ∀ (rows : List RunRow) (a b : Database),
      rows.foldlM (recoverRun uuid5 at_) a = .ok b → Preserves a b := by
    intro rows
    induction rows with
    | nil =>
      intro a b hab
      cases hab
      exact .of_eq rfl rfl
    | cons row rows ih =>
      intro a b hab
      rw [List.foldlM_cons] at hab
      cases hc : recoverRun uuid5 at_ a row with
      | error e => simp [hc, bind, Except.bind] at hab
      | ok c =>
        simp only [hc, bind, Except.bind] at hab
        exact (recoverRun_preserves hc).trans (ih c b hab)
  split at h
  · cases h
  · rename_i ended hended
    simp only [Except.ok.injEq, Prod.mk.injEq] at h
    obtain ⟨-, rfl⟩ := h
    have hstart : Preserves db (db.event (some at_) none none "runtime" "RECOVERY_STARTED") :=
      .of_eq rfl rfl
    exact (hstart.trans (hfold _ _ _ hended)).trans (.of_eq rfl rfl)

theorem haltBookkeeping_preserves {halted : Option HaltedRun} {completedAt : Instant}
    {eventType : String} {payload : List (String × Json)} {db db' : Database} {n : ℕ}
    (h : haltBookkeeping halted completedAt eventType payload db = .ok (n, db')) :
    Preserves db db' := by
  unfold haltBookkeeping at h
  cases halted with
  | none =>
    simp only [Except.ok.injEq, Prod.mk.injEq] at h
    obtain ⟨-, rfl⟩ := h
    exact .of_eq rfl rfl
  | some halted =>
    cases hg : db.runs.get? halted.slotKey with
    | none => simp [hg] at h
    | some run =>
      simp only [hg] at h
      split_ifs at h with hguard
      simp only [Except.ok.injEq, Prod.mk.injEq] at h
      obtain ⟨-, rfl⟩ := h
      push Not at hguard
      obtain ⟨hrun, hkey⟩ := Table.get?_eq_some.mp hg
      constructor
      · intro hstep
        -- the deleted lock is the only one that names the slot
        refine @inStep_of_end db _ hstep halted.slotKey ?_ ?_ ?_
        · intro r hr hk
          obtain ⟨s, -, -, rfl⟩ := of_mem_updateRun (haltRow_slotKey completedAt) hr hk
          exact haltRow_status completedAt s
        · intro r hne
          exact mem_updateRun_of_ne (haltRow_slotKey completedAt) hne
        · intro l
          simp only [event_symbolLocks, Table.mem_filter, Bool.not_eq_true',
            decide_eq_false_iff_not, not_and]
          refine and_congr_right (fun hl => ⟨fun hne hk => ?_, fun hne hk => absurd hk hne⟩)
          obtain ⟨r, hr, hrk, hrs, -⟩ := hstep.running_of_lock l hl
          have hrr : r = run := Table.eq_of_key hr hrun ((hrk.trans hk).trans hkey.symm)
          exact hne hk (by rw [← hrs, hrr, hguard.2.1])
      · exact (updateRun_evolves (haltRow_slotKey completedAt) (haltRow_symbol completedAt)
          (fun r hr => absurd hr (haltRow_status completedAt r))).trans (.of_runs_eq rfl)

theorem saveReports_preserves {key runId : String} {finalStatus : Option String} {review : Json}
    {db db' : Database} {u : Unit}
    (h : saveReports key runId finalStatus review db = .ok (u, db')) : Preserves db db' := by
  unfold saveReports at h
  dsimp only at h
  generalize hup : updateRun db key _ _ = updated at h
  have hpres : Preserves db updated := by
    rw [← hup]
    refine ⟨fun hstep => ?_, updateRun_evolves _ (fun _ => rfl) (fun _ => id)⟩
    constructor
    · intro l hl
      obtain ⟨r, hr, hk, hs, hrun⟩ := hstep.running_of_lock l hl
      refine ⟨_, mem_updateRun.mpr ⟨r, hr, rfl⟩, ?_, ?_, ?_⟩ <;> split_ifs <;> assumption
    · intro r hr hrun
      obtain ⟨s, hs, rfl⟩ := mem_updateRun.mp hr
      have := hstep.lock_of_running s hs
      split_ifs at hrun ⊢ <;> exact this hrun
  cases hi : insertReview updated ⟨runId, key, review⟩ with
  | error e => simp [hi, Except.map] at h
  | ok reviewed =>
    simp only [hi, Except.map, Except.ok.injEq, Prod.mk.injEq] at h
    obtain ⟨-, rfl⟩ := h
    exact hpres.trans (insertReview_preserves hi)

/-! ## Runs of any number of processes -/

/-- The calls of the claim, each one transaction. -/
inductive Call
  | claimSlot (key symbol : String) (asOf startedAt : Instant) (runId : Option String)
  | finish (key : String) (completedAt : Instant) (clock : String) (ending : RunEnd)
      (finalStatus error : Option String)
  | recover (at_ staleAfter : Instant) (clock : String)
  | haltBookkeeping (halted : Option HaltedRun) (completedAt : Instant) (eventType : String)
      (payload : List (String × Json))
  | saveReports (key runId : String) (finalStatus : Option String) (review : Json)
  | savePaper (broker : PaperBroker) (ownerKey : Option String) (symbol : String)
      (expectedState : Option PaperState)

inductive Reply
  | bool (b : Bool)
  | count (n : ℕ)
  | unit
  | raised (e : String)
  deriving DecidableEq

def replyOf {α : Type} (reply : α → Reply) : Except String α → Reply
  | .ok a => reply a
  | .error e => .raised e

/-- The reply of a call and the durable state it leaves. -/
def Call.execute (uuid5 : String → String) (call : Call) (db : Database) : Reply × Database :=
  match call with
  | claimSlot key symbol asOf startedAt runId =>
      let (r, db) := commit (Slots.claimSlot uuid5 key symbol asOf startedAt runId) db
      (replyOf .bool r, db)
  | finish key completedAt clock ending finalStatus error =>
      let (r, db) := commit (Slots.finish key completedAt clock ending finalStatus error) db
      (replyOf .bool r, db)
  | recover at_ staleAfter clock =>
      let (r, db) := commit (Slots.recover uuid5 at_ staleAfter clock) db
      (replyOf .count r, db)
  | haltBookkeeping halted completedAt eventType payload =>
      let (r, db) := commit (Slots.haltBookkeeping halted completedAt eventType payload) db
      (replyOf .count r, db)
  | saveReports key runId finalStatus review =>
      let (r, db) := commit (Slots.saveReports key runId finalStatus review) db
      (replyOf (fun _ => .unit) r, db)
  | savePaper broker ownerKey symbol expectedState =>
      let (r, db) := commit (Database.savePaper broker ownerKey symbol expectedState) db
      (replyOf .bool r, db)

/-- A run from a database: the calls with their replies, oldest first. Any other
transaction of the system leaves the runs and the locks alone. -/
inductive Run (uuid5 : String → String) (db₀ : Database) :
    List (Call × Reply) → Database → Prop
  | start : Run uuid5 db₀ [] db₀
  | call {history : List (Call × Reply)} {db : Database} (c : Call)
      (before : Run uuid5 db₀ history db) :
      Run uuid5 db₀ (history ++ [(c, (c.execute uuid5 db).1)]) (c.execute uuid5 db).2
  | other {history : List (Call × Reply)} {db db' : Database} (before : Run uuid5 db₀ history db)
      (runs : db'.runs = db.runs) (locks : db'.symbolLocks = db.symbolLocks) :
      Run uuid5 db₀ history db'

/-- The reply that a claim of this slot succeeded. -/
def claims (key : String) : Call × Reply → Bool
  | (.claimSlot k _ _ _ _, .bool true) => decide (k = key)
  | _ => false

/-- The step lemma: every call preserves, and a successful claim is of a new slot. -/
theorem execute_preserves (uuid5 : String → String) (c : Call) (db : Database) :
    Preserves db (c.execute uuid5 db).2 ∧
      ∀ key, claims key (c, (c.execute uuid5 db).1) = true →
        (∀ r ∈ db.runs, r.slotKey ≠ key) ∧ ∃ r ∈ (c.execute uuid5 db).2.runs, r.slotKey = key := by
  have hsame : Preserves db db := .of_eq rfl rfl
  cases c with
  | claimSlot k symbol asOf startedAt runId =>
    generalize hc : commit (Slots.claimSlot uuid5 k symbol asOf startedAt runId) db = result
    obtain ⟨r, db'⟩ := result
    simp only [Call.execute, hc]
    rcases commit_cases hc with ⟨claimed, rfl, hok⟩ | ⟨e, rfl, rfl⟩
    · rcases claimSlot_ok hok with ⟨rfl, rfl⟩ | ⟨rfl, hnew, hin, hpres⟩
      · exact ⟨hsame, by simp [claims, replyOf]⟩
      · refine ⟨hpres, fun key hclaim => ?_⟩
        have hk : k = key := by simpa [claims, replyOf] using hclaim
        exact hk ▸ ⟨hnew, hin⟩
    · exact ⟨hsame, by simp [claims, replyOf]⟩
  | finish k completedAt clock ending finalStatus error =>
    refine ⟨?_, by simp [claims]⟩
    generalize hc : commit (Slots.finish k completedAt clock ending finalStatus error) db = result
    obtain ⟨r, db'⟩ := result
    simp only [Call.execute, hc]
    rcases commit_cases hc with ⟨finished, -, hok⟩ | ⟨e, -, rfl⟩
    · rcases finish_ok hok with ⟨-, rfl⟩ | ⟨-, -, hpres⟩
      · exact hsame
      · exact hpres
    · exact hsame
  | recover at_ staleAfter clock =>
    refine ⟨?_, by simp [claims]⟩
    generalize hc : commit (Slots.recover uuid5 at_ staleAfter clock) db = result
    obtain ⟨r, db'⟩ := result
    simp only [Call.execute, hc]
    rcases commit_cases hc with ⟨n, -, hok⟩ | ⟨e, -, rfl⟩
    · exact recover_preserves hok
    · exact hsame
  | haltBookkeeping halted completedAt eventType payload =>
    refine ⟨?_, by simp [claims]⟩
    generalize hc : commit (Slots.haltBookkeeping halted completedAt eventType payload) db = result
    obtain ⟨r, db'⟩ := result
    simp only [Call.execute, hc]
    rcases commit_cases hc with ⟨n, -, hok⟩ | ⟨e, -, rfl⟩
    · exact haltBookkeeping_preserves hok
    · exact hsame
  | saveReports k runId finalStatus review =>
    refine ⟨?_, by simp [claims]⟩
    generalize hc : commit (Slots.saveReports k runId finalStatus review) db = result
    obtain ⟨r, db'⟩ := result
    simp only [Call.execute, hc]
    rcases commit_cases hc with ⟨u, -, hok⟩ | ⟨e, -, rfl⟩
    · exact saveReports_preserves hok
    · exact hsame
  | savePaper broker ownerKey symbol expectedState =>
    refine ⟨?_, by simp [claims]⟩
    generalize hc : commit (Database.savePaper broker ownerKey symbol expectedState) db = result
    obtain ⟨r, db'⟩ := result
    simp only [Call.execute, hc]
    rcases commit_cases hc with ⟨saved, -, hok⟩ | ⟨e, -, rfl⟩
    · rcases (savePaper_ok hok).2 with ⟨-, rfl⟩ | ⟨-, rfl⟩
      · exact hsame
      · exact .of_eq (persist_runs _ _) (persist_symbolLocks _ _)
    · exact hsame

theorem run_preserves {uuid5 : String → String} {db₀ db : Database}
    {history : List (Call × Reply)} (h : Run uuid5 db₀ history db) : Preserves db₀ db := by
  induction h with
  | start => exact .of_eq rfl rfl
  | call c _ ih => exact ih.trans (execute_preserves uuid5 c _).1
  | other _ hruns hlocks ih => exact ih.trans (.of_eq hruns hlocks)

/-- A slot is claimed successfully at most once, and then its run exists forever. -/
theorem claims_le_one {uuid5 : String → String} {db₀ db : Database}
    {history : List (Call × Reply)} (h : Run uuid5 db₀ history db) (key : String) :
    (history.countP (claims key) = 0) ∨
      (history.countP (claims key) = 1 ∧ ∃ r ∈ db.runs, r.slotKey = key) := by
  induction h with
  | start => exact .inl (by simp)
  | @call history db c _ ih =>
    obtain ⟨hpres, hclaim⟩ := execute_preserves uuid5 c db
    rw [List.countP_append, List.countP_singleton]
    by_cases hc : claims key (c, (c.execute uuid5 db).1) = true
    · obtain ⟨hnew, hin⟩ := hclaim key hc
      rcases ih with hzero | ⟨-, r, hr, hk⟩
      · exact .inr ⟨by simp [hzero, hc], hin⟩
      · exact absurd hk (hnew r hr)
    · rcases ih with hzero | ⟨hone, r, hr, hk⟩
      · exact .inl (by simp [hzero, hc])
      · obtain ⟨r', hr', hk', -⟩ := hpres.2.kept r hr
        exact .inr ⟨by simp [hone, hc], r', hr', hk'.trans hk⟩
  | other _ hruns _ ih =>
    rcases ih with hzero | ⟨hone, r, hr, hk⟩
    · exact .inl hzero
    · exact .inr ⟨hone, r, hruns ▸ hr, hk⟩

/-- A worker whose run has ended can neither save nor finish. -/
theorem fenced_of_ended (uuid5 : String → String) {db : Database} {r : RunRow} (hr : r ∈ db.runs)
    (hended : r.status ≠ .running) :
    (∀ broker symbol expected, ∃ e,
      (Call.savePaper broker (some r.slotKey) symbol expected).execute uuid5 db
        = (.raised e, db)) ∧
    ∀ completedAt clock ending finalStatus error,
      (Call.finish r.slotKey completedAt clock ending finalStatus error).execute uuid5 db
        = (.bool false, db) := by
  have hget := Table.get?_of_mem hr
  constructor
  · intro broker symbol expected
    have hown : db.ownsSlot r.slotKey symbol = false := by
      by_contra hne
      obtain ⟨run, lock, hrun, -, hstatus, -⟩ :=
        ownsSlot_eq_true.mp ((Bool.not_eq_false _).mp hne)
      rw [hget] at hrun
      cases hrun
      exact hended hstatus
    refine ⟨"paper persistence without slot ownership", ?_⟩
    simp [Call.execute, commit, Database.savePaper, hown, replyOf]
  · intro completedAt clock ending finalStatus error
    simp [Call.execute, commit, Slots.finish, hget, hended, replyOf]

/-- Slot ownership is exclusive and fenced, over every run of a fresh database. -/
theorem slot_ownership_exclusive_and_fenced (uuid5 : String → String)
    (history : List (Call × Reply)) (db : Database) (hrun : Run uuid5 {} history db) :
    (∀ r ∈ db.runs, r.status = .running → ⟨r.symbol, r.slotKey⟩ ∈ db.symbolLocks ∧
      ∀ s ∈ db.runs, s.status = .running → s.symbol = r.symbol → s = r) ∧
    (∀ l : LockRow, l ∈ db.symbolLocks ↔ ∃! r, r ∈ db.runs ∧ r.slotKey = l.slotKey ∧
      r.symbol = l.symbol ∧ r.status = .running) ∧
    (∀ key, history.countP (claims key) ≤ 1) ∧
    (∀ (c : Call) (r : RunRow), r ∈ db.runs → r.status = .running →
      (∀ r' ∈ (c.execute uuid5 db).2.runs, r'.slotKey = r.slotKey → r'.status ≠ .running) →
      ∀ later db', Run uuid5 (c.execute uuid5 db).2 later db' →
        (∀ broker symbol expected, ∃ e,
          (Call.savePaper broker (some r.slotKey) symbol expected).execute uuid5 db'
            = (.raised e, db')) ∧
        ∀ completedAt clock ending finalStatus error,
          (Call.finish r.slotKey completedAt clock ending finalStatus error).execute uuid5 db'
            = (.bool false, db')) := by
  have hfresh : InStep {} := ⟨by simp, by simp⟩
  have hstep : InStep db := (run_preserves hrun).1 hfresh
  refine ⟨?_, ?_, ?_, ?_⟩
  · intro r hr hrunning
    refine ⟨hstep.lock_of_running r hr hrunning, fun s hs hsr hsym => ?_⟩
    exact hstep.running_unique hs hr hsr hrunning hsym
  · intro l
    constructor
    · intro hl
      obtain ⟨r, hr, hk, hs, hrunning⟩ := hstep.running_of_lock l hl
      refine ⟨r, ⟨hr, hk, hs, hrunning⟩, fun r' h => ?_⟩
      exact Table.eq_of_key h.1 hr (h.2.1.trans hk.symm)
    · rintro ⟨r, ⟨hr, hk, hs, hrunning⟩, -⟩
      have := hstep.lock_of_running r hr hrunning
      rwa [hk, hs] at this
  · intro key
    rcases claims_le_one hrun key with h | ⟨h, -⟩ <;> omega
  · intro c r hr hrunning hended later db' hlater
    obtain ⟨r₁, hr₁, hk₁, -, -⟩ := (execute_preserves uuid5 c db).1.2.kept r hr
    obtain ⟨r₂, hr₂, hk₂, -, hstat₂⟩ := (run_preserves hlater).2.kept r₁ hr₁
    have hdead : r₂.status ≠ .running := fun h => hended r₁ hr₁ hk₁ (hstat₂ h)
    have := fenced_of_ended uuid5 hr₂ hdead
    rwa [hk₂.trans hk₁] at this

/-- A claimed slot, and the same database after recovery took it from its worker. -/
def sampleClaimed : Database := ((Call.claimSlot "slot-1" "EURUSD" 0 0 none).execute id {}).2

def sampleRecovered : Database := ((Call.recover 1000 120 "now").execute id sampleClaimed).2

theorem slot_ownership_exclusive_and_fenced_sample :
    (Call.finish "slot-1" 1001 "later" .completed none none).execute id sampleRecovered
      = (.bool false, sampleRecovered) := by
  have hrun : Run id {} [(.claimSlot "slot-1" "EURUSD" 0 0 none, .bool true)] sampleClaimed :=
    .call (.claimSlot "slot-1" "EURUSD" 0 0 none) .start
  have hr : (⟨"slot-1", "slot-1", "EURUSD", 0, 0, none, .running, none, none⟩ : RunRow)
      ∈ sampleClaimed.runs := by decide +kernel
  have hended : ∀ r' ∈ sampleRecovered.runs.rows, r'.slotKey = "slot-1" →
      r'.status ≠ .running := by decide +kernel
  exact ((slot_ownership_exclusive_and_fenced id _ _ hrun).2.2.2 (.recover 1000 120 "now") _ hr rfl
    hended [] _ .start).2 1001 "later" .completed none none

end MarketSystem.Slots
