import MarketSystem.Library.Runs
import Mathlib.Order.Defs.LinearOrder
import Mathlib.Algebra.Order.Ring.Int

/-!
# The halt gate

`HaltGate.request` is a signal handler: it runs between any two steps of the main thread, and
another invocation of it runs between any two of its own. A step is one read or one write of an
attribute that the handler uses (`requested_at`, `_last_ns`, `startup_depth`, `deferred_signal`,
`recorded_journal_id`) or one read of the monotonic clock; what follows and touches none of them
belongs to the same step.

What the claims of the gate are about is recorded beside it, in histories that no step reads.
-/
namespace MarketSystem.Halt

open Library

def sigterm : ℕ := 15

/-- `requested_at`: `T_h` with the wall clock, and the signal. -/
structure Requested where
  ns : ℤ
  utc : ℤ
  signum : Option ℕ
  deriving DecidableEq

inductive Event
  | cleanShutdown
  | haltObserved
  deriving DecidableEq

/-- `journal_event` -/
def Requested.journalEvent (r : Requested) : Event :=
  if r.signum = some sigterm then .cleanShutdown else .haltObserved

structure Admission where
  seq : ℕ
  kind : String
  lwNs : ℤ
  lwUtc : ℤ
  read2Ns : Option ℤ
  read2Utc : Option ℤ
  tStopNs : Option ℤ
  deriving DecidableEq

structure Refused where
  kind : String
  stage : String
  seq : Option ℕ
  deriving DecidableEq

structure HaltGate where
  requestedAt : Option Requested
  seq : ℕ
  admissions : List Admission
  current : Option ℕ
  refused : List Refused
  recordedJournalId : Option ℕ
  startupDepth : ℕ
  deferredSignal : Option ℕ
  lastNs : ℤ
  deriving DecidableEq

/-- `HaltGate()` -/
def HaltGate.new : HaltGate := ⟨none, 0, [], none, [], none, 0, none, 0⟩

/-- An admission as it is updated in place. -/
def HaltGate.update (g : HaltGate) (seq : ℕ) (f : Admission → Admission) : HaltGate :=
  { g with admissions := g.admissions.map (fun a => if a.seq = seq then f a else a) }

def HaltGate.kindOf (g : HaltGate) (seq : ℕ) : String :=
  ((g.admissions.find? (fun a => a.seq = seq)).map Admission.kind).getD ""

/-! ## The handler -/

/-- Where an invocation of `request` is. -/
inductive Place
  /-- before `self.requested_at is None` -/
  | test
  /-- before `self.startup_depth` -/
  | depth
  /-- before `self.deferred_signal is None` -/
  | deferredNone
  /-- before `self.deferred_signal == signal.SIGTERM` -/
  | deferredTerm
  /-- before the assignment of `deferred_signal` -/
  | setDeferred
  /-- before `time.monotonic_ns()` -/
  | monotonic
  /-- before `self._last_ns` -/
  | last (mono : ℤ)
  /-- before `_utc_now()` -/
  | utc (ns : ℤ)
  /-- before the assignment of `requested_at` -/
  | assign (ns utc : ℤ)
  /-- before `self.recorded_journal_id is None` -/
  | recorded
  /-- before `self.requested_at[2] == signal.SIGTERM` -/
  | cause
  /-- before `self.requested_at[0]` -/
  | keepNs
  /-- before `self.requested_at[1]` -/
  | keepUtc (ns : ℤ)
  /-- before the assignment that escalates -/
  | escalate (ns utc : ℤ)
  deriving DecidableEq

/-- An invocation of `request`. -/
structure Frame where
  signum : Option ℕ
  place : Place
  deriving DecidableEq

/-- One step of `request`: the gate after it, and where the invocation is then; nowhere when it has
returned. `requested_at` is never set back, so it is there where it is read by its index. -/
def requestStep (g : HaltGate) (clock utc : ℤ) (signum : Option ℕ) : Place → HaltGate × Option Place
  | .test => (g, if g.requestedAt.isNone then some .depth else some .recorded)
  | .depth => (g, if g.startupDepth = 0 then some .monotonic else some .deferredNone)
  | .deferredNone => (g, if g.deferredSignal.isNone then some .setDeferred else some .deferredTerm)
  | .deferredTerm => (g, if g.deferredSignal = some sigterm then some .setDeferred else none)
  | .setDeferred => ({ g with deferredSignal := some (signum.getD 0) }, none)
  | .monotonic => (g, some (.last clock))
  | .last mono => (g, some (.utc (max mono (g.lastNs + 1))))
  | .utc ns => (g, some (.assign ns utc))
  | .assign ns utc => ({ g with requestedAt := some ⟨ns, utc, signum⟩ }, none)
  | .recorded => (g, if g.recordedJournalId.isNone then some .cause else none)
  | .cause =>
      match g.requestedAt with
      | some r =>
          (g, if r.signum = some sigterm ∧ signum ≠ some sigterm then some .keepNs else none)
      | none => (g, none)
  | .keepNs =>
      match g.requestedAt with
      | some r => (g, some (.keepUtc r.ns))
      | none => (g, none)
  | .keepUtc ns =>
      match g.requestedAt with
      | some r => (g, some (.escalate ns r.utc))
      | none => (g, none)
  | .escalate ns utc => ({ g with requestedAt := some ⟨ns, utc, signum⟩ }, none)

/-! ## The main thread -/

/-- What called `now_ns`. -/
inductive Caller
  | admission (kind : String)
  | preSave (seq : ℕ)
  /-- the store, for `T_stop` -/
  | saved (seq : ℕ)
  /-- the bookkeeping, for `T_ack` -/
  | bookkeeping (payload : Requested)
  deriving DecidableEq

/-- Where a call of `now_ns` is. -/
inductive NowPlace
  | monotonic
  | last (mono : ℤ)
  | store (now : ℤ)
  | requested (now : ℤ)
  /-- before the second store, above `T_h` -/
  | moved (now : ℤ)
  /-- before `return now` -/
  | ret (now : ℤ)
  deriving DecidableEq

/-- Where the main thread is. -/
inductive Point
  | idle
  | now (place : NowPlace) (caller : Caller)
  /-- in `admit`, before it reads `requested_at` -/
  | admitRead (kind : String) (ns utc : ℤ)
  /-- in `pre_save`, before it reads `requested_at` -/
  | preSaveRead (seq : ℕ) (ns utc : ℤ)
  /-- in `save_paper`, before its transaction commits -/
  | saving (seq : ℕ) (read2 : ℤ)
  /-- in `startup_write`, before it reads `requested_at` -/
  | entered (site : String)
  /-- in its `finally`, before `startup_depth -= 1` -/
  | leaving
  /-- outside of every section, before `deferred_signal is not None` -/
  | exiting
  /-- before `deferred_signal` is read -/
  | taking
  /-- before `deferred_signal` is cleared and `request` called -/
  | clearing (signal : ℕ)
  /-- in `halt_bookkeeping`, before `halt_payload` -/
  | payload
  /-- in the transaction, before `journal_event` -/
  | event (payload : Requested) (tAckNs : ℤ)
  /-- before the transaction commits -/
  | committing (payload : Requested) (tAckNs : ℤ) (event : Event)
  /-- before the assignment of `recorded_journal_id` -/
  | recording (journalId : ℕ)
  deriving DecidableEq

/-- An instant that `now_ns` returned. -/
structure Returned where
  ns : ℤ
  /-- `T_h` was set when it was returned. -/
  halted : Bool
  deriving DecidableEq

/-- A transaction of `save_paper` that committed. -/
structure Commit where
  seq : ℕ
  read2Ns : ℤ
  /-- `T_h` was set when it committed. -/
  halted : Bool
  deriving DecidableEq

/-- A row of the bookkeeping that committed. -/
structure Row where
  journalId : ℕ
  event : Event
  payload : Requested
  tAckNs : ℤ
  /-- The signals that had been received then. -/
  received : List (Option ℕ)
  deriving DecidableEq

structure State where
  gate : HaltGate
  /-- the monotonic clock -/
  clock : ℤ
  /-- The invocations of `request`, the innermost first. -/
  frames : List Frame
  main : Point
  received : List (Option ℕ)
  assigned : List (ℤ × ℤ)
  returned : List Returned
  passed : List (ℕ × ℤ)
  commits : List Commit
  rows : List Row
  deriving DecidableEq

/-- A process that has just begun. -/
def State.start (clock : ℤ) : State := ⟨.new, clock, [], .idle, [], [], [], [], [], []⟩

/-- What the main thread calls. -/
inductive Op
  | admission (kind : String)
  | preSave (seq : ℕ)
  | saved (seq : ℕ)
  | enter (site : String)
  /-- the body of the section has ended -/
  | leave
  | bookkeeping
  deriving DecidableEq

inductive Action
  | tick (ns : ℕ)
  | signal (signum : Option ℕ)
  | call (op : Op)
  /-- One step of what is running; what the wall clock shows and the next row's number. -/
  | advance (utc : ℤ) (rowid : ℕ)
  /-- The transaction that is open is rolled back. -/
  | fail
  deriving DecidableEq

/-- The call begins. No bookkeeping begins after one that is recorded: `_halt_run` ends the run that
was in flight, and `close` looks first. -/
def callStep (s : State) : Op → State
  | .admission kind => { s with main := .now .monotonic (.admission kind) }
  | .preSave seq => { s with main := .now .monotonic (.preSave seq) }
  | .saved seq => { s with main := .now .monotonic (.saved seq) }
  | .enter site =>
      { s with
        gate := { s.gate with startupDepth := s.gate.startupDepth + 1 }
        main := .entered site }
  | .leave => if s.gate.startupDepth = 0 then s else { s with main := .leaving }
  | .bookkeeping => if s.gate.recordedJournalId.isNone then { s with main := .payload } else s

/-- What the caller of `now_ns` does with the instant. -/
def nowReturned (s : State) (now utc : ℤ) : Caller → State
  | .admission kind => { s with main := .admitRead kind now utc }
  | .preSave seq => { s with main := .preSaveRead seq now utc }
  | .saved seq =>
      { s with
        gate := s.gate.update seq (fun a => { a with tStopNs := some now })
        main := .idle }
  | .bookkeeping payload => { s with main := .event payload now }

/-- One step of `now_ns`. -/
def nowStep (s : State) (utc : ℤ) (caller : Caller) : NowPlace → State
  | .monotonic => { s with main := .now (.last s.clock) caller }
  | .last mono => { s with main := .now (.store (max mono (s.gate.lastNs + 1))) caller }
  | .store now =>
      { s with
        gate := { s.gate with lastNs := now }
        main := .now (.requested now) caller }
  | .requested now =>
      match s.gate.requestedAt with
      | none => { s with main := .now (.ret now) caller }
      | some r =>
          if now ≤ r.ns then { s with main := .now (.moved (r.ns + 1)) caller }
          else { s with main := .now (.ret now) caller }
  | .moved now =>
      { s with
        gate := { s.gate with lastNs := now }
        main := .now (.ret now) caller }
  | .ret now =>
      nowReturned { s with returned := ⟨now, s.gate.requestedAt.isSome⟩ :: s.returned } now utc caller

/-- `admit`, from its read of `requested_at` on. -/
def admitRead (s : State) (kind : String) (ns utc : ℤ) : State :=
  match s.gate.requestedAt with
  | some _ =>
      { s with
        gate := { s.gate with refused := s.gate.refused ++ [⟨kind, "admission", none⟩] }
        main := .idle }
  | none =>
      { s with
        gate := { s.gate with
          seq := s.gate.seq + 1
          admissions := s.gate.admissions ++ [⟨s.gate.seq + 1, kind, ns, utc, none, none, none⟩]
          current := some (s.gate.seq + 1) }
        main := .idle }

/-- `pre_save`, from its read of `requested_at` on; `save_paper` is called next. -/
def preSaveRead (s : State) (seq : ℕ) (ns utc : ℤ) : State :=
  match s.gate.requestedAt with
  | some _ =>
      { s with
        gate := { s.gate with refused := s.gate.refused ++ [⟨s.gate.kindOf seq, "read2", some seq⟩] }
        main := .idle }
  | none =>
      { s with
        gate := { s.gate.update seq (fun a => { a with read2Ns := some ns, read2Utc := some utc }) with
          current := some seq }
        passed := (seq, ns) :: s.passed
        main := .saving seq ns }

/-- One step of the main thread. -/
def mainStep (s : State) (utc : ℤ) (rowid : ℕ) : State :=
  match s.main with
  | .idle => s
  | .now place caller => nowStep s utc caller place
  | .admitRead kind ns lwUtc => admitRead s kind ns lwUtc
  | .preSaveRead seq ns read2Utc => preSaveRead s seq ns read2Utc
  | .saving seq read2 =>
      { s with
        commits := ⟨seq, read2, s.gate.requestedAt.isSome⟩ :: s.commits
        main := .idle }
  | .entered site =>
      match s.gate.requestedAt with
      | some _ =>
          { s with
            gate := { s.gate with refused := s.gate.refused ++ [⟨"startup", site, none⟩] }
            main := .leaving }
      | none => { s with main := .idle }
  | .leaving =>
      { s with
        gate := { s.gate with startupDepth := s.gate.startupDepth - 1 }
        main := if s.gate.startupDepth - 1 = 0 then .exiting else .idle }
  | .exiting => { s with main := if s.gate.deferredSignal.isSome then .taking else .idle }
  | .taking =>
      match s.gate.deferredSignal with
      | some signal => { s with main := .clearing signal }
      | none => { s with main := .idle }
  | .clearing signal =>
      { s with
        gate := { s.gate with deferredSignal := none }
        frames := [⟨if signal = 0 then none else some signal, .test⟩]
        main := .idle }
  | .payload =>
      match s.gate.requestedAt with
      | some r => { s with main := .now .monotonic (.bookkeeping r) }
      | none => { s with main := .idle }
  | .event payload tAckNs =>
      match s.gate.requestedAt with
      | some r => { s with main := .committing payload tAckNs r.journalEvent }
      | none => { s with main := .idle }
  | .committing payload tAckNs event =>
      { s with
        rows := ⟨rowid, event, payload, tAckNs, s.received⟩ :: s.rows
        main := .recording rowid }
  | .recording journalId =>
      { s with
        gate := { s.gate with recordedJournalId := some journalId }
        main := .idle }

/-- The time that an invocation assigns to `T_h`. -/
def Frame.assigns (f : Frame) : Option (ℤ × ℤ) :=
  match f.place with
  | .assign ns utc => some (ns, utc)
  | _ => none

/-- One step of the innermost invocation of `request`. -/
def handlerStep (s : State) (utc : ℤ) (f : Frame) (rest : List Frame) : State :=
  let (gate, place) := requestStep s.gate s.clock utc f.signum f.place
  { s with
    gate := gate
    frames := (place.map (Frame.mk f.signum)).toList ++ rest
    assigned := f.assigns.toList ++ s.assigned }

/-- The open transaction is rolled back: `save_paper` returns `False` or raises, or the bookkeeping
raises and the halt is not confirmed. -/
def failStep (s : State) : State :=
  match s.main with
  | .saving _ _ => { s with main := .idle }
  | .payload => { s with main := .idle }
  | .event _ _ => { s with main := .idle }
  | .committing _ _ _ => { s with main := .idle }
  | _ => s

def step (s : State) : Action → State
  | .tick ns => { s with clock := s.clock + ns }
  | .signal signum =>
      { s with
        frames := ⟨signum, .test⟩ :: s.frames
        received := signum :: s.received }
  | .call op =>
      match s.frames, s.main with
      | [], .idle => callStep s op
      | _, _ => s
  | .advance utc rowid =>
      match s.frames with
      | [] => mainStep s utc rowid
      | f :: rest => handlerStep s utc f rest
  | .fail =>
      match s.frames with
      | [] => failStep s
      | _ => s

end MarketSystem.Halt
