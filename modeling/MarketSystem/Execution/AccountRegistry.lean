import MarketSystem.Library.Process
import MarketSystem.Library.Table

/-!
# Account registry and emergency stop

The switches of the accounts live in a file of their own, the emergency latch in
the memory of the process, and a flag in the environment. Every call below is
the list of its accesses to the latch and to the file: other calls of the process
may run between two of them, and each access to the file may fail.

`history` records the moments the registry is judged by. No call reads it.
-/
namespace MarketSystem.AccountRegistry

open Library

/-- A value in an `INTEGER` column, which holds an integer or something that is none.
`text` is what `str` shows of it. -/
inductive SqlValue
  | integer (value : ℤ)
  | other (text : String)
  deriving DecidableEq, Repr

def SqlValue.str : SqlValue → String
  | integer value => toString value
  | other text => text

structure AccountRow where
  accountKey : String
  mode : String
  enabled : SqlValue
  shadowOnly : SqlValue
  updatedAt : String
  deriving DecidableEq, Repr

structure EmergencyRow where
  active : SqlValue
  reason : Option String
  updatedAt : String
  deriving DecidableEq, Repr

structure AuditRow where
  ts : String
  accountKey : String
  field : String
  old : Option String
  new : String
  actor : String
  source : String
  reason : Option String
  deriving DecidableEq, Repr

/-- The registry's file, once its schema is there. -/
structure Disk where
  accounts : Table AccountRow.accountKey
  audit : List AuditRow
  emergency : Option EmergencyRow
  deriving DecidableEq

/-- An entry of `_EMERGENCY_LATCHES`. -/
structure Latch where
  key : String
  reason : String
  deriving DecidableEq, Repr

/-- What the registry is judged by: a stop was called, a clear was committed and then
returned, a switch was committed ON. -/
inductive Event
  | stopCalled
  | clearCommitted
  | cleared
  | enabled (accountKey : String)
  deriving DecidableEq, Repr

/-- The process together with the file; `none` is a missing file or one without the schema. -/
structure World where
  disk : Option Disk
  latches : Table Latch.key
  history : List Event
  deriving DecidableEq

/-- A new process over some file. -/
def start (disk : Option Disk) : World := ⟨disk, Table.empty, []⟩

def ACCOUNT_KEYS : List String := ["paper", "broker_demo", "real"]

/-- What a call meets: the environment flag it reads, the clock, and which accesses fail.
`connectFails` counts the statements of `_connect` that still succeed. -/
structure Circumstances where
  envEmergency : Bool
  connectFails : Option ℕ
  transactionFails : Bool
  rowsUnreadable : Bool
  emergencyUnreadable : Bool
  hookOk : Bool
  now : String
  ts : String
  deriving DecidableEq, Repr

/-- What a call returns. -/
inductive Reply
  | done
  | flag (value : Bool)
  | emergencyResult (persisted hookOk : Bool)
  deriving DecidableEq, Repr

abbrev Outcome := Except String Reply

/-! ## Reads -/

/-- `_latch_key`: the resolved path, or the path itself when resolving raises. -/
def latchKey (resolve : String → Option String) (path : String) : String :=
  (resolve path).getD path

/-- `_latched`. -/
def World.latched (w : World) (key : String) : Bool := (w.latches.get? key).isSome

/-- One entry of the `accounts` dictionary `_read_state` builds. -/
structure AccountState where
  accountKey : String
  enabled : Bool
  shadowOnly : Bool
  deriving DecidableEq, Repr

structure ControlState where
  accounts : List AccountState
  emergency : Bool
  deriving DecidableEq, Repr

/-- A row counts only under a known key that is also its mode; ON means the integer 1. -/
def readRow (r : AccountRow) : Option AccountState :=
  if r.accountKey ∈ ACCOUNT_KEYS ∧ r.mode = r.accountKey then
    some ⟨r.accountKey, decide (r.enabled = .integer 1), !decide (r.shadowOnly = .integer 0)⟩
  else none

/-- Anything but the integer 0 is an emergency, a missing row included. -/
def readEmergency (row : Option EmergencyRow) : Bool :=
  !decide (row.map EmergencyRow.active = some (.integer 0))

/-- `_read_state`: two selects, either of which may fail. -/
def readState (c : Circumstances) : Program World (Option ControlState) := do
  let rows ← Program.read (fun w => w.disk.map (fun d => d.accounts.rows))
  match rows with
  | none => pure none
  | some rows =>
      if c.rowsUnreadable then pure none
      else do
        let emergency ← Program.read (fun w => w.disk.map Disk.emergency)
        match emergency with
        | none => pure none
        | some emergency =>
            if c.emergencyUnreadable then pure none
            else pure (some ⟨rows.filterMap readRow, readEmergency emergency⟩)

/-- `state["accounts"].get(account_key, {}).get("enabled", False)`. -/
def ControlState.enabled (s : ControlState) (accountKey : String) : Bool :=
  ((s.accounts.find? (fun a => decide (a.accountKey = accountKey))).map
    AccountState.enabled).getD false

/-- `emergency_active`. -/
def emergencyActive (key : String) (c : Circumstances) : Program World Outcome := do
  let latched ← Program.read (fun w => w.latched key)
  if latched then pure (.ok (.flag true))
  else do
    let state ← readState c
    match state with
    | none => pure (.ok (.flag true))
    | some s => pure (.ok (.flag (c.envEmergency || s.emergency)))

/-- `is_allowed`. -/
def isAllowed (key accountKey : String) (c : Circumstances) : Program World Outcome :=
  if accountKey ∉ ACCOUNT_KEYS ∨ accountKey = "real" ∨ c.envEmergency = true then
    pure (.ok (.flag false))
  else do
    let latched ← Program.read (fun w => w.latched key)
    if latched then pure (.ok (.flag false))
    else do
      let state ← readState c
      match state with
      | none => pure (.ok (.flag false))
      | some s =>
          if s.emergency then pure (.ok (.flag false))
          else pure (.ok (.flag (s.enabled accountKey)))

/-! ## Writes -/

/-- `executescript(SCHEMA)`. -/
def createSchema (w : World) : World :=
  { w with disk := some (w.disk.getD ⟨Table.empty, [], none⟩) }

/-- `INSERT OR IGNORE INTO broker_accounts`: a switch that is OFF and shadow only. -/
def insertAccount (now accountKey : String) (w : World) : World :=
  { w with disk := w.disk.map (fun d =>
      match d.accounts.insert? ⟨accountKey, accountKey, .integer 0, .integer 1, now⟩ with
      | some accounts => { d with accounts := accounts }
      | none => d) }

/-- `INSERT OR IGNORE INTO emergency_state`. -/
def insertEmergency (now : String) (w : World) : World :=
  { w with disk := w.disk.map (fun d =>
      { d with emergency := some (d.emergency.getD ⟨.integer 0, none, now⟩) }) }

/-- The statements of `_connect`; each commits on its own. -/
def connectStatements (now : String) : List (World → World) :=
  createSchema :: ACCOUNT_KEYS.map (insertAccount now) ++ [insertEmergency now]

/-- Statements in order, up to the first that fails. -/
def statements : List (World → World) → Option ℕ → Program World Bool
  | [], _ => pure true
  | _ :: _, some 0 => pure false
  | f :: rest, fails => do
      Program.call (fun w => ((), f w))
      statements rest (fails.map Nat.pred)

/-- `_connect`. -/
def connect (c : Circumstances) : Program World Bool :=
  statements (connectStatements c.now) c.connectFails

/-- `BEGIN IMMEDIATE`, the body, `COMMIT`; anything that raises rolls back. -/
def commit (c : Circumstances) (body : Disk → Except String Disk) (committed : List Event)
    (w : World) : Except String Unit × World :=
  match w.disk with
  | none => (.error "OperationalError", w)
  | some d =>
      match body d with
      | .error e => (.error e, w)
      | .ok d =>
          if c.transactionFails then (.error "OperationalError", w)
          else (.ok (), { w with disk := some d, history := w.history ++ committed })

def transaction (c : Circumstances) (body : Disk → Except String Disk) (committed : List Event) :
    Program World (Except String Unit) :=
  Program.call (commit c body committed)

/-- A transaction raises and leaves everything, or commits what its body made of the file. -/
theorem commit_cases (c : Circumstances) (body : Disk → Except String Disk)
    (committed : List Event) (w : World) :
    (∃ e, commit c body committed w = (.error e, w)) ∨
    ∃ d d', w.disk = some d ∧ body d = .ok d' ∧ commit c body committed w =
      (.ok (), { w with disk := some d', history := w.history ++ committed }) := by
  cases hdisk : w.disk with
  | none => exact .inl ⟨"OperationalError", by simp [commit, hdisk]⟩
  | some d =>
    cases hd : body d with
    | error e => exact .inl ⟨e, by simp [commit, hdisk, hd]⟩
    | ok d' =>
      by_cases hc : c.transactionFails = true
      · exact .inl ⟨"OperationalError", by simp [commit, hdisk, hd, hc]⟩
      · exact .inr ⟨d, d', rfl, hd, by simp [commit, hdisk, hd, hc]⟩

/-- `SET enabled = ?, updated_at = ?` on one row. -/
def switchRow (enabled : Bool) (ts : String) (r : AccountRow) : AccountRow :=
  { r with enabled := .integer (if enabled then 1 else 0), updatedAt := ts }

/-- `UPDATE broker_accounts`, on the rows whose key `p` selects. -/
def updateEnabled (d : Disk) (p : String → Bool) (enabled : Bool) (ts : String) : Disk :=
  let accounts := d.accounts.modify
    (fun r => if p r.accountKey then switchRow enabled ts r else r)
    (fun r => by split_ifs <;> rfl)
  { d with accounts := accounts }

theorem mem_updateEnabled {d : Disk} {p : String → Bool} {enabled : Bool} {ts : String}
    {r : AccountRow} : r ∈ (updateEnabled d p enabled ts).accounts ↔
      ∃ s ∈ d.accounts, (if p s.accountKey then switchRow enabled ts s else s) = r := by
  simp [updateEnabled]

/-- The body of `set_enabled`'s transaction. -/
def enableBody (accountKey : String) (enabled : Bool) (actor source ts : String) (d : Disk) :
    Except String Disk :=
  if enabled = true ∧ d.emergency.map EmergencyRow.active ≠ some (.integer 0) then
    .error "emergency stop active (registry)"
  else
    let old := (d.accounts.get? accountKey).map (fun r => r.enabled.str)
    let d := updateEnabled d (fun k => decide (k = accountKey)) enabled ts
    .ok { d with audit := d.audit ++ [⟨ts, accountKey, "enabled", old,
      if enabled then "1" else "0", actor, source, none⟩] }

/-- What the commit of a `set_enabled` means to the history. -/
def switchEvents (accountKey : String) (enabled : Bool) : List Event :=
  if enabled then [.enabled accountKey] else []

/-- `set_enabled`: its guards, the environment and the latch before anything is written. -/
def setEnabled (key accountKey : String) (enabled : Bool) (actor source : String)
    (c : Circumstances) : Program World Outcome :=
  if accountKey ∉ ACCOUNT_KEYS then pure (.error "unknown account")
  else if accountKey = "real" ∧ enabled = true then
    pure (.error ("real account cannot be enabled "
      ++ "(REAL_EXECUTION_ENABLED=False; out of scope)"))
  else if actor = "" then pure (.error "actor required")
  else if enabled = true ∧ c.envEmergency = true then
    pure (.error "emergency stop active (AI_FLOOR_EMERGENCY_STOP)")
  else do
    let latched ← Program.read (fun w => enabled && w.latched key)
    if latched then pure (.error "emergency stop active (local latch)")
    else do
      let connected ← connect c
      if connected then do
        let committed ← transaction c (enableBody accountKey enabled actor source c.ts)
          (switchEvents accountKey enabled)
        pure (committed.map (fun _ => .done))
      else pure (.error "OperationalError")

/-- The body `emergency_stop` and `clear_emergency` share: every switch OFF, the emergency
flag as given, every change audited. -/
def emergencyBody (active : Bool) (actor reason source ts : String) (d : Disk) :
    Except String Disk :=
  let switched := (d.accounts.rows.filter (fun r => decide (r.enabled ≠ .integer 0))).map
    (fun r => (⟨ts, r.accountKey, "enabled", some r.enabled.str, "0", actor, source,
      some reason⟩ : AuditRow))
  let off := updateEnabled d (fun _ => true) false ts
  let old := d.emergency.map (fun r => r.active.str)
  .ok { off with
    emergency := d.emergency.map (fun _ =>
      ⟨.integer (if active then 1 else 0), some reason, ts⟩)
    audit := d.audit ++ switched ++ [⟨ts, "ALL", "emergency_stop", old,
      if active then "1" else "0", actor, source, some reason⟩] }

/-- `_EMERGENCY_LATCHES[key] = reason`, the first action of a stop. -/
def setLatch (key reason : String) (w : World) : World :=
  { w with latches := w.latches.put ⟨key, reason⟩, history := w.history ++ [.stopCalled] }

/-- `_EMERGENCY_LATCHES.pop(key, None)`, the last action of a clear. -/
def popLatch (key : String) (w : World) : World :=
  { w with latches := w.latches.erase key, history := w.history ++ [.cleared] }

/-- `emergency_stop`: the latch first, then the file, then the hook, whatever failed. -/
def emergencyStop (key actor reason source : String) (c : Circumstances) :
    Program World Outcome := do
  Program.call (fun w => ((), setLatch key reason w))
  let connected ← connect c
  let persisted ← if connected then
      transaction c (emergencyBody true actor reason source c.ts) []
    else pure (.error "OperationalError")
  match persisted with
  | .error _ => pure (.error "emergency state could not be persisted (readers fail closed)")
  | .ok _ => pure (.ok (.emergencyResult true c.hookOk))

/-- `clear_emergency`: the latch is released only after the file was written. -/
def clearEmergency (key actor reason source : String) (c : Circumstances) :
    Program World Outcome :=
  if actor = "" then pure (.error "actor required")
  else do
    let connected ← connect c
    if connected then do
      let committed ← transaction c (emergencyBody false actor reason source c.ts)
        [.clearCommitted]
      match committed with
      | .error e => pure (.error e)
      | .ok _ => do
          Program.call (fun w => ((), popLatch key w))
          pure (.ok .done)
    else pure (.error "OperationalError")

/-! ## Calls -/

/-- One call on some registry instance. -/
inductive Call
  | setEnabled (accountKey : String) (enabled : Bool) (actor source : String)
  | emergencyStop (actor reason source : String)
  | clearEmergency (actor reason source : String)
  | isAllowed (accountKey : String)
  | emergencyActive
  deriving DecidableEq, Repr

def Call.program (key : String) (c : Circumstances) : Call → Program World Outcome
  | setEnabled accountKey enabled actor source =>
      AccountRegistry.setEnabled key accountKey enabled actor source c
  | emergencyStop actor reason source => AccountRegistry.emergencyStop key actor reason source c
  | clearEmergency actor reason source => AccountRegistry.clearEmergency key actor reason source c
  | isAllowed accountKey => AccountRegistry.isAllowed key accountKey c
  | emergencyActive => AccountRegistry.emergencyActive key c

/-- A call that has been answered, and the history at the time it was made. -/
structure Served where
  call : Call
  asOf : List Event
  outcome : Outcome
  deriving DecidableEq

/-- A stop, whether or not it raised. -/
def Served.isStop (s : Served) : Bool :=
  match s.call with
  | .emergencyStop _ _ _ => true
  | _ => false

/-- A clear that returned. -/
def Served.isClear (s : Served) : Bool :=
  match s.call, s.outcome with
  | .clearEmergency _ _ _, .ok _ => true
  | _, _ => false

/-- A set_enabled(True) that returned. -/
def Served.isEnable (s : Served) : Bool :=
  match s.call, s.outcome with
  | .setEnabled _ enabled _ _, .ok _ => enabled
  | _, _ => false

/-- A call from its beginning to its answer. -/
def serve (key : String) (c : Circumstances) (call : Call) : Program World Served := do
  let asOf ← Program.read World.history
  let outcome ← call.program key c
  pure ⟨call, asOf, outcome⟩

/-- Calls made one after the other, each with the circumstances it meets. -/
def transcript (key : String) : List (Call × Circumstances) → World → List Served × World
  | [], w => ([], w)
  | (call, c) :: rest, w =>
      let (served, w) := (serve key c call).alone w
      let (others, w) := transcript key rest w
      (served :: others, w)

end MarketSystem.AccountRegistry
