import MarketSystem.Storage.Slots

/-!
# The lifecycle of runs, seen from elsewhere

Claims, finishes, recovery, reports and the halt bookkeeping work on the runs,
their locks and their reviews. Everything else they leave alone, and what they
journal are events of the lifecycle only. The id of a run is derived from its
slot, by all of them alike.
-/
namespace MarketSystem.Slots

open Library Database

/-- The events the lifecycle of a run journals. -/
def lifecycleEvents : List String :=
  ["RUN_STARTED", "RUN_COMPLETED", "RUN_FAILED", "RECOVERY_STARTED", "STATE_INCONSISTENCY",
    "RECOVERY_COMPLETED", "HALT_OBSERVED", "CLEAN_SHUTDOWN"]

/-- The transactions of the lifecycle as the runtime calls them. -/
inductive Lifecycle (uuid5 : String → String) : Call → Prop
  | claimSlot (key symbol : String) (asOf startedAt : Instant) :
      Lifecycle uuid5 (.claimSlot key symbol asOf startedAt (some (uuid5 key)))
  | finish (key : String) (completedAt : Instant) (clock : String) (ending : RunEnd)
      (finalStatus error : Option String) :
      Lifecycle uuid5 (.finish key completedAt clock ending finalStatus error)
  | recover (at_ staleAfter : Instant) (clock : String) :
      Lifecycle uuid5 (.recover at_ staleAfter clock)
  | haltBookkeeping (halted : Option HaltedRun) (completedAt : Instant) (eventType : String)
      (payload : List (String × Json)) (hevent : eventType ∈ ["HALT_OBSERVED", "CLEAN_SHUTDOWN"]) :
      Lifecycle uuid5 (.haltBookkeeping halted completedAt eventType payload)
  | saveReports (key : String) (finalStatus : Option String) (review : Json) :
      Lifecycle uuid5 (.saveReports key (uuid5 key) finalStatus review)

/-- Every run carries the id of its slot. -/
def RunIds (uuid5 : String → String) (db : Database) : Prop :=
  ∀ run ∈ db.runs, run.runId = uuid5 run.slotKey

/-- What a transaction of the lifecycle may change. -/
structure Moves (uuid5 : String → String) (db db' : Database) : Prop where
  accounts : db'.paperAccounts = db.paperAccounts
  orders : db'.paperOrders = db.paperOrders
  fills : db'.paperFills = db.paperFills
  positions : db'.paperPositions = db.paperPositions
  trades : db'.closedTrades = db.closedTrades
  journal : ∃ rows, db'.journal = db.journal ++ rows ∧
    ∀ row ∈ rows, row.eventType ∈ lifecycleEvents
  runIds : RunIds uuid5 db → RunIds uuid5 db'

variable {uuid5 : String → String}

theorem Moves.refl (db : Database) : Moves uuid5 db db :=
  ⟨rfl, rfl, rfl, rfl, rfl, ⟨[], by simp, by simp⟩, id⟩

theorem Moves.trans {a b c : Database} (h : Moves uuid5 a b) (h' : Moves uuid5 b c) :
    Moves uuid5 a c := by
  obtain ⟨rows, hrows, hkind⟩ := h.journal
  obtain ⟨rows', hrows', hkind'⟩ := h'.journal
  refine ⟨h'.accounts.trans h.accounts, h'.orders.trans h.orders, h'.fills.trans h.fills,
    h'.positions.trans h.positions, h'.trades.trans h.trades, ⟨rows ++ rows', ?_, ?_⟩,
    h'.runIds ∘ h.runIds⟩
  · rw [hrows', hrows, List.append_assoc]
  · intro row hrow
    rcases List.mem_append.mp hrow with hrow | hrow
    · exact hkind row hrow
    · exact hkind' row hrow

theorem moves_event (db : Database) (t : Option Instant) (r s : Option String)
    (source eventType severity : String) (payload : Json) (h : eventType ∈ lifecycleEvents) :
    Moves uuid5 db (db.event t r s source eventType severity payload) :=
  ⟨rfl, rfl, rfl, rfl, rfl, ⟨_, rfl, by simpa using h⟩, id⟩

theorem moves_setState (db : Database) (key value : String) :
    Moves uuid5 db (db.setState key value) :=
  ⟨rfl, rfl, rfl, rfl, rfl, ⟨[], by simp [setState], by simp⟩, id⟩

theorem moves_deleteLock (db : Database) (key : String) : Moves uuid5 db (deleteLock db key) :=
  ⟨rfl, rfl, rfl, rfl, rfl, ⟨[], by simp [deleteLock], by simp⟩, id⟩

/-- A change of one run that keeps its id, or sets the one of its slot. -/
theorem moves_updateRun (db : Database) (key : String) {set : RunRow → RunRow}
    (hset : ∀ r, (set r).slotKey = r.slotKey)
    (hid : ∀ r, r.slotKey = key → r.runId = uuid5 r.slotKey → (set r).runId = uuid5 r.slotKey) :
    Moves uuid5 db (updateRun db key set hset) := by
  refine ⟨rfl, rfl, rfl, rfl, rfl, ⟨[], by simp [updateRun], by simp⟩, fun h run hrun => ?_⟩
  obtain ⟨r, hr, rfl⟩ := mem_updateRun.mp hrun
  split_ifs with hk
  · rw [hset]
    exact hid r hk (h r hr)
  · exact h r hr

theorem moves_insertReview {db db' : Database} {review : ReviewRow}
    (h : insertReview db review = .ok db') : Moves uuid5 db db' := by
  unfold insertReview at h
  split_ifs at h
  cases hi : db.reviewReports.insert? review with
  | none => simp [hi] at h
  | some reviews =>
    simp only [hi, Except.ok.injEq] at h
    subst h
    exact ⟨rfl, rfl, rfl, rfl, rfl, ⟨[], by simp, by simp⟩, id⟩

theorem moves_upsertReview {db db' : Database} {review : ReviewRow}
    (h : upsertReview db review = .ok db') : Moves uuid5 db db' := by
  unfold upsertReview at h
  split_ifs at h
  cases hi : db.reviewReports.get? review.runId <;> simp only [hi, Except.ok.injEq] at h <;>
    subst h <;> exact ⟨rfl, rfl, rfl, rfl, rfl, ⟨[], by simp, by simp⟩, id⟩

theorem moves_claimSlot {key symbol : String} {asOf startedAt : Instant} {db db' : Database}
    {claimed : Bool}
    (h : claimSlot uuid5 key symbol asOf startedAt (some (uuid5 key)) db = .ok (claimed, db')) :
    Moves uuid5 db db' := by
  have hid : (if uuid5 key = "" then uuid5 key else uuid5 key) = uuid5 key := by simp
  unfold claimSlot at h
  simp only [hid] at h
  cases hl : db.symbolLocks.get? symbol with
  | some lock =>
    simp only [hl, Except.ok.injEq, Prod.mk.injEq] at h
    exact h.2 ▸ .refl db
  | none =>
    simp only [hl] at h
    cases hi : db.runs.insert? ⟨key, uuid5 key, symbol, asOf, startedAt, none, .running, none,
        none⟩ with
    | none =>
      simp only [hi, Except.ok.injEq, Prod.mk.injEq] at h
      exact h.2 ▸ .refl db
    | some runs =>
      simp only [hi, Except.ok.injEq, Prod.mk.injEq] at h
      obtain ⟨-, rfl⟩ := h
      refine ⟨rfl, rfl, rfl, rfl, rfl, ⟨_, rfl, by simp [lifecycleEvents]⟩, fun hids run hrun => ?_⟩
      rcases (Table.mem_of_insert? hi).mp hrun with hold | rfl
      · exact hids run hold
      · rfl

theorem moves_finish {key clock : String} {completedAt : Instant} {ending : RunEnd}
    {finalStatus error : Option String} {db db' : Database} {finished : Bool}
    (h : finish key completedAt clock ending finalStatus error db = .ok (finished, db')) :
    Moves uuid5 db db' := by
  unfold finish at h
  cases hg : db.runs.get? key with
  | none =>
    simp only [hg, Except.ok.injEq, Prod.mk.injEq] at h
    exact h.2 ▸ .refl db
  | some run =>
    simp only [hg] at h
    by_cases hown : run.status ≠ .running ∨ db.ownsSlot key run.symbol = false
    · rw [if_pos hown] at h
      simp only [Except.ok.injEq, Prod.mk.injEq] at h
      exact h.2 ▸ .refl db
    · rw [if_neg hown] at h
      generalize hend : deleteLock _ key = ended at h
      have hmoves : Moves uuid5 db ended := by
        rw [← hend]
        refine (moves_updateRun db key _ ?_).trans (moves_deleteLock _ key)
        exact fun _ _ hid => hid
      generalize hup : upsertReview ended _ = upserted at h
      cases upserted with
      | error e => simp at h
      | ok reviewed =>
        simp only [Except.ok.injEq, Prod.mk.injEq] at h
        obtain ⟨-, rfl⟩ := h
        have hreviewed : Moves uuid5 db reviewed := hmoves.trans (moves_upsertReview hup)
        have hevent : (if ending = .completed then "RUN_COMPLETED" else "RUN_FAILED")
            ∈ lifecycleEvents := by
          split_ifs <;> simp [lifecycleEvents]
        refine (hreviewed.trans (moves_event reviewed (some completedAt) (some run.runId)
          (some run.symbol) "runtime" _ (if ending = .completed then "INFO" else "ERROR")
          (.obj [("final_status", optional finalStatus), ("error", optional error)])
          hevent)).trans ?_
        by_cases hsuccess : ending = .completed ∧ finalStatus ∉ [some "NO_DATA", some "STALE_DATA",
            some "ERROR", some "PROVIDER_FAILURE"]
        · rw [if_pos hsuccess]
          exact (moves_setState _ "last_success" clock).trans (moves_setState _ "last_run" clock)
        · rw [if_neg hsuccess]
          exact moves_setState _ "last_run" clock

theorem moves_recoverRun {at_ : Instant} {db db' : Database} {run : RunRow}
    (hrun : run.runId = uuid5 run.slotKey)
    (h : recoverRun uuid5 at_ db run = .ok db') : Moves uuid5 db db' := by
  have hid : (if run.runId = "" then uuid5 run.slotKey else run.runId) = uuid5 run.slotKey := by
    split_ifs
    · rfl
    · exact hrun
  unfold recoverRun at h
  dsimp only at h
  generalize hend : deleteLock _ run.slotKey = ended at h
  have hmoves : Moves uuid5 db ended := by
    rw [← hend]
    refine (moves_updateRun db run.slotKey _ ?_).trans (moves_deleteLock _ run.slotKey)
    exact fun r hk _ => hid.trans (congrArg uuid5 hk.symm)
  have hevent : ∀ reviewed : Database, Moves uuid5 ended reviewed →
      Moves uuid5 db (reviewed.event (some at_)
        (some (if run.runId = "" then uuid5 run.slotKey else run.runId)) (some run.symbol)
        "runtime" "STATE_INCONSISTENCY" "ERROR"
        (.obj [("slot_key", .str run.slotKey), ("reason", .str "interrupted_run")])) := by
    intro reviewed hreviewed
    exact (hmoves.trans hreviewed).trans
      (moves_event _ _ _ _ _ _ _ _ (by simp [lifecycleEvents]))
  cases hg : ended.reviewReports.get? (if run.runId = "" then uuid5 run.slotKey else run.runId) with
  | some review =>
    simp only [hg, Except.map, Except.ok.injEq] at h
    subst h
    exact hevent _ ⟨rfl, rfl, rfl, rfl, rfl, ⟨[], by simp, by simp⟩, id⟩
  | none =>
    simp only [hg] at h
    generalize hinsert : insertReview ended _ = inserted at h
    cases inserted with
    | error e => simp [Except.map] at h
    | ok reviewed =>
      simp only [Except.map, Except.ok.injEq] at h
      subst h
      exact hevent _ (moves_insertReview hinsert)

theorem moves_recover {at_ staleAfter : Instant} {clock : String} {db db' : Database} {n : ℕ}
    (hids : RunIds uuid5 db) (h : recover uuid5 at_ staleAfter clock db = .ok (n, db')) :
    Moves uuid5 db db' := by
  have hfold : ∀ (rows : List RunRow) (a b : Database),
      (∀ run ∈ rows, run.runId = uuid5 run.slotKey) →
      rows.foldlM (recoverRun uuid5 at_) a = .ok b → Moves uuid5 a b := by
    intro rows
    induction rows with
    | nil =>
      intro a b _ hab
      cases hab
      exact .refl a
    | cons row rows ih =>
      intro a b hrows hab
      rw [List.foldlM_cons] at hab
      cases hc : recoverRun uuid5 at_ a row with
      | error e => simp [hc, bind, Except.bind] at hab
      | ok c =>
        simp only [hc, bind, Except.bind] at hab
        exact (moves_recoverRun (hrows row (by simp)) hc).trans
          (ih c b (fun run hrun => hrows run (by simp [hrun])) hab)
  unfold recover at h
  dsimp only at h
  split at h
  · cases h
  · rename_i ended hended
    simp only [Except.ok.injEq, Prod.mk.injEq] at h
    obtain ⟨-, rfl⟩ := h
    have hstale : ∀ run ∈ staleRuns (db.event (some at_) none none "runtime" "RECOVERY_STARTED")
        at_ staleAfter, run.runId = uuid5 run.slotKey :=
      fun run hrun => hids run (List.mem_filter.mp hrun).1
    refine ((moves_event db _ _ _ _ _ _ _ (by simp [lifecycleEvents])).trans
      (hfold _ _ _ hstale hended)).trans ?_
    exact (moves_event _ _ _ _ _ _ _ _ (by simp [lifecycleEvents])).trans (moves_setState _ _ _)

theorem moves_haltBookkeeping {halted : Option HaltedRun} {completedAt : Instant}
    {eventType : String} {payload : List (String × Json)} {db db' : Database} {n : ℕ}
    (hevent : eventType ∈ lifecycleEvents)
    (h : haltBookkeeping halted completedAt eventType payload db = .ok (n, db')) :
    Moves uuid5 db db' := by
  unfold haltBookkeeping at h
  cases halted with
  | none =>
    simp only [Except.ok.injEq, Prod.mk.injEq] at h
    obtain ⟨-, rfl⟩ := h
    exact moves_event _ _ _ _ _ _ _ _ hevent
  | some halted =>
    cases hg : db.runs.get? halted.slotKey with
    | none => simp [hg] at h
    | some run =>
      simp only [hg] at h
      split_ifs at h
      simp only [Except.ok.injEq, Prod.mk.injEq] at h
      obtain ⟨-, rfl⟩ := h
      have hupdate : Moves uuid5 db (updateRun db halted.slotKey (haltRow completedAt)
          (haltRow_slotKey completedAt)) := by
        refine moves_updateRun db _ _ (fun r _ hid => ?_)
        unfold haltRow
        split_ifs <;> exact hid
      refine hupdate.trans ⟨rfl, rfl, rfl, rfl, rfl, ⟨_, rfl, by simpa using hevent⟩, id⟩

theorem moves_saveReports {key : String} {finalStatus : Option String} {review : Json}
    {db db' : Database} {u : Unit}
    (h : saveReports key (uuid5 key) finalStatus review db = .ok (u, db')) :
    Moves uuid5 db db' := by
  unfold saveReports at h
  dsimp only at h
  generalize hup : updateRun db key _ _ = updated at h
  have hupdate : Moves uuid5 db updated := by
    rw [← hup]
    exact moves_updateRun db key _ (fun r hk _ => congrArg uuid5 hk.symm)
  cases hi : insertReview updated ⟨uuid5 key, key, review⟩ with
  | error e => simp [hi, Except.map] at h
  | ok reviewed =>
    simp only [hi, Except.map, Except.ok.injEq, Prod.mk.injEq] at h
    obtain ⟨-, rfl⟩ := h
    exact hupdate.trans (moves_insertReview hi)

/-- Every transaction of the lifecycle moves the store as described. -/
theorem Lifecycle.moves {call : Call} (h : Lifecycle uuid5 call) {db : Database}
    (hids : RunIds uuid5 db) : Moves uuid5 db (call.execute uuid5 db).2 := by
  cases h with
  | claimSlot key symbol asOf startedAt =>
    generalize hc : commit (Slots.claimSlot uuid5 key symbol asOf startedAt (some (uuid5 key))) db
      = result
    obtain ⟨r, db'⟩ := result
    simp only [Call.execute, hc]
    rcases commit_cases hc with ⟨_, -, hok⟩ | ⟨_, -, rfl⟩
    · exact moves_claimSlot hok
    · exact .refl _
  | finish key completedAt clock ending finalStatus error =>
    generalize hc : commit (Slots.finish key completedAt clock ending finalStatus error) db
      = result
    obtain ⟨r, db'⟩ := result
    simp only [Call.execute, hc]
    rcases commit_cases hc with ⟨_, -, hok⟩ | ⟨_, -, rfl⟩
    · exact moves_finish hok
    · exact .refl _
  | recover at_ staleAfter clock =>
    generalize hc : commit (Slots.recover uuid5 at_ staleAfter clock) db = result
    obtain ⟨r, db'⟩ := result
    simp only [Call.execute, hc]
    rcases commit_cases hc with ⟨_, -, hok⟩ | ⟨_, -, rfl⟩
    · exact moves_recover hids hok
    · exact .refl _
  | haltBookkeeping halted completedAt eventType payload hevent =>
    generalize hc : commit (Slots.haltBookkeeping halted completedAt eventType payload) db = result
    obtain ⟨r, db'⟩ := result
    simp only [Call.execute, hc]
    rcases commit_cases hc with ⟨_, -, hok⟩ | ⟨_, -, rfl⟩
    · refine moves_haltBookkeeping ?_ hok
      simp only [List.mem_cons, List.not_mem_nil, or_false] at hevent
      rcases hevent with rfl | rfl <;> simp [lifecycleEvents]
    · exact .refl _
  | saveReports key finalStatus review =>
    generalize hc : commit (Slots.saveReports key (uuid5 key) finalStatus review) db = result
    obtain ⟨r, db'⟩ := result
    simp only [Call.execute, hc]
    rcases commit_cases hc with ⟨_, -, hok⟩ | ⟨_, -, rfl⟩
    · exact moves_saveReports hok
    · exact .refl _

end MarketSystem.Slots
