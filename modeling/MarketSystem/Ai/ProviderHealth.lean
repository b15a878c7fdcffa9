import MarketSystem.Ai.Runtime
import MarketSystem.Library.Runs
import Mathlib.Data.List.DropRight

/-!
# Health of the provider and its alerts

The tracker turns the outcomes of calls into changes of health, each with one event, and the
alerts hand an event on at most once for each incident. An incident is a run of failures
without a success between them, and its first failure names it. Cycles drain the events
whenever they get to it, and a drain whose journal write fails loses what it drained.
-/
namespace MarketSystem.Ai

open Library

inductive Health
  | ready
  | degraded
  | failed
  | unknown
  deriving DecidableEq, Repr

/-- `SUCCESS`: the provider answered, whatever the answer says. -/
def Outcome.Success (o : Outcome) : Prop := o = .ok ∨ o = .noData ∨ o = .modelReportedError

/-- The outcome is evidence about the provider; those of calls that the guard skipped are not. -/
def Outcome.Observed (o : Outcome) : Prop := o ≠ .aiTimeBudgetExhausted ∧ o ≠ .shortCircuited

instance (o : Outcome) : Decidable o.Success := inferInstanceAs (Decidable (_ ∨ _ ∨ _))

instance (o : Outcome) : Decidable o.Observed := inferInstanceAs (Decidable (_ ∧ _))

inductive EventKind
  | degraded
  | failed
  | recovered
  deriving DecidableEq, Repr

/-- What a failing provider was seen to say, sanitized. -/
structure ProviderDetail where
  provider : Option String
  httpStatus : Option ℕ
  errorCode : Option String
  deriving DecidableEq

/-- One call of `observe`. -/
structure Observation where
  outcome : Outcome
  observedAt : Instant
  runId : Option String
  detail : ProviderDetail
  deriving DecidableEq

/-- An event of a change of health. -/
structure HealthEvent where
  event : EventKind
  before : Health
  after : Health
  outcome : Outcome
  observedAt : Instant
  runId : Option String
  consecutiveFailures : ℕ
  incidentStartedAt : Option Instant
  firstKnownGoodAt : Option Instant := none
  durationSeconds : Option ℚ := none
  detail : Option ProviderDetail := none
  deriving DecidableEq

/-- `total_seconds` between two moments. -/
def secondsBetween (started ended : Instant) : ℚ := ((ended - started : ℤ) : ℚ) / 1000000

structure ProviderHealthTracker where
  failedAfter : ℕ
  state : Health := .unknown
  consecutiveFailures : ℕ := 0
  incidentStartedAt : Option Instant := none
  lastOutcome : Option Outcome := none
  events : List HealthEvent := []

namespace ProviderHealthTracker

def emit (t : ProviderHealthTracker) (event : HealthEvent) : ProviderHealthTracker :=
  { t with events := t.events ++ [event] }

/-- A success ends an incident. -/
def succeed (t : ProviderHealthTracker) (o : Observation) : ProviderHealthTracker :=
  let ready := { t with lastOutcome := some o.outcome, consecutiveFailures := 0, state := .ready }
  if t.state = .degraded ∨ t.state = .failed then
    { ready with incidentStartedAt := none }.emit
      { event := .recovered, before := t.state, after := .ready, outcome := o.outcome
        observedAt := o.observedAt, runId := o.runId, consecutiveFailures := 0
        incidentStartedAt := t.incidentStartedAt, firstKnownGoodAt := some o.observedAt
        durationSeconds := t.incidentStartedAt.map (secondsBetween · o.observedAt) }
  else ready

/-- A failure begins an incident or goes on with one. -/
def fail (t : ProviderHealthTracker) (o : Observation) : ProviderHealthTracker :=
  let failures := t.consecutiveFailures + 1
  let started := t.incidentStartedAt.getD o.observedAt
  let failed := o.outcome.NonTransient ∨ t.failedAfter ≤ failures
  let after : Health := if failed then .failed else .degraded
  let worse := { t with
    lastOutcome := some o.outcome
    consecutiveFailures := failures
    incidentStartedAt := some started
    state := after }
  if after ≠ t.state then
    worse.emit
      { event := if failed then .failed else .degraded, before := t.state, after := after
        outcome := o.outcome, observedAt := o.observedAt, runId := o.runId
        consecutiveFailures := failures, incidentStartedAt := some started
        detail := some o.detail }
  else worse

def observe (t : ProviderHealthTracker) (o : Observation) : ProviderHealthTracker :=
  if ¬ o.outcome.Observed then t
  else if o.outcome.Success then t.succeed o
  else t.fail o

end ProviderHealthTracker

/-! ## Alerts -/

/-- What an alert is about: the kind of the event and the incident. -/
abbrev AlertKey := EventKind × Option Instant

def HealthEvent.key (e : HealthEvent) : AlertKey := (e.event, e.incidentStartedAt)

/-- The notification of an event, with the fields of the event as its texts. -/
structure Notification where
  event : HealthEvent
  symbol : Option String
  deriving DecidableEq

structure AIProviderAlerts where
  /-- Enabled, and with a sink. -/
  enabled : Bool
  delivered : List AlertKey := []
  suppressed : ℕ := 0
  /-- The notifications handed to the sink, whether or not it delivered them. -/
  sent : List Notification := []

namespace AIProviderAlerts

/-- The kinds that are alerted: `ALERTED`. -/
def Alerted (e : HealthEvent) : Prop := e.event = .failed ∨ e.event = .recovered

instance (e : HealthEvent) : Decidable (Alerted e) := inferInstanceAs (Decidable (_ ∨ _))

/-- One event of `process`. -/
def handle (symbol : Option String) (a : AIProviderAlerts) (e : HealthEvent) : AIProviderAlerts :=
  if ¬ Alerted e then a
  else if a.enabled = false ∨ e.key ∈ a.delivered then { a with suppressed := a.suppressed + 1 }
  else { a with delivered := e.key :: a.delivered, sent := a.sent ++ [⟨e, symbol⟩] }

def process (a : AIProviderAlerts) (events : List HealthEvent) (symbol : Option String) :
    AIProviderAlerts :=
  events.foldl (handle symbol) a

end AIProviderAlerts

/-! ## Runs of a process -/

structure Watch where
  tracker : ProviderHealthTracker
  alerts : AIProviderAlerts
  /-- The events in the journal of the store. -/
  journal : List HealthEvent := []

inductive WatchStep
  | observe (o : Observation)
  /-- A cycle drains the events and records them; the write of the event at `failsAt` fails. -/
  | flush (symbol : Option String) (failsAt : Option ℕ)

def Watch.step (w : Watch) : WatchStep → Watch
  | .observe o => { w with tracker := w.tracker.observe o }
  | .flush symbol failsAt =>
      let drained := w.tracker.events
      let w := { w with tracker := { w.tracker with events := [] } }
      match failsAt with
      | some k => if k < drained.length then { w with journal := w.journal ++ drained.take k }
          else { w with
            journal := w.journal ++ drained
            alerts := w.alerts.process drained symbol }
      | none => { w with
          journal := w.journal ++ drained
          alerts := w.alerts.process drained symbol }

def Watch.start (failedAfter : ℕ) (enabled : Bool) : Watch :=
  ⟨{ failedAfter := failedAfter }, { enabled := enabled }, []⟩

/-! ## Incidents -/

/-- The observations that a run made, without those that say nothing about the provider. -/
def observations (steps : List WatchStep) : List Observation :=
  steps.filterMap (fun
    | .observe o => if o.outcome.Observed then some o else none
    | .flush _ _ => none)

/-- The failures since the last success: the incident that is going on. -/
def incident (seen : List Observation) : List Observation :=
  seen.rtakeWhile (fun o => !decide o.outcome.Success)

/-- The incident is one that the provider counts as failed for. -/
def FailedBy (failedAfter : ℕ) (seen : List Observation) : Prop :=
  ∃ last ∈ (incident seen).getLast?, last.outcome.NonTransient ∨
    failedAfter ≤ (incident seen).length

/-- What the health is after some observations. -/
def healthOf (failedAfter : ℕ) (seen : List Observation) : Health → Prop
  | .unknown => seen = []
  | .ready => seen ≠ [] ∧ incident seen = []
  | .failed => FailedBy failedAfter seen
  | .degraded => incident seen ≠ [] ∧ ¬ FailedBy failedAfter seen

/-- The alerts that observations call for: a failure of the provider in an incident, and the
first success after one. -/
def Due (failedAfter : ℕ) (seen : List Observation) : AlertKey → Prop
  | (.failed, started) => ∃ some_, some_ <+: seen ∧ FailedBy failedAfter some_ ∧
      started = (incident some_).head?.map Observation.observedAt
  | (.recovered, started) => ∃ some_ good, some_ ++ [good] <+: seen ∧ good.outcome.Success ∧
      incident some_ ≠ [] ∧ started = (incident some_).head?.map Observation.observedAt
  | (.degraded, _) => False

/-! ### One more observation -/

section Observe

variable {seen : List Observation} {o : Observation} {n : ℕ} {key : AlertKey}

theorem incident_success (h : o.outcome.Success) : incident (seen ++ [o]) = [] := by
  unfold incident
  rw [List.rtakeWhile_concat_neg]
  simpa using h

theorem incident_failure (h : ¬ o.outcome.Success) :
    incident (seen ++ [o]) = incident seen ++ [o] := by
  unfold incident
  rw [List.rtakeWhile_concat_pos]
  simpa using h

theorem failedBy_failure (h : ¬ o.outcome.Success) :
    FailedBy n (seen ++ [o]) ↔ o.outcome.NonTransient ∨ n ≤ (incident seen).length + 1 := by
  unfold FailedBy
  rw [incident_failure h]
  simp

theorem not_failedBy_of_nil (h : incident seen = []) : ¬ FailedBy n seen := by
  rintro ⟨last, hlast, -⟩
  simp [h] at hlast

theorem start_of_going_on (h : incident seen ≠ []) :
    (incident seen ++ [o]).head?.map Observation.observedAt =
      (incident seen).head?.map Observation.observedAt := by
  rw [List.head?_append_of_ne_nil _ h]

theorem due_mono {later : List Observation} (hlater : seen <+: later) (h : Due n seen key) :
    Due n later key := by
  obtain ⟨kind, started⟩ := key
  cases kind with
  | degraded => exact h
  | failed =>
    obtain ⟨some_, hsome, hfailed⟩ := h
    exact ⟨some_, hsome.trans hlater, hfailed⟩
  | recovered =>
    obtain ⟨some_, good, hsome, hgood⟩ := h
    exact ⟨some_, good, hsome.trans hlater, hgood⟩

/-- What the last of the observations calls for. -/
def DueNow (n : ℕ) (seen : List Observation) (o : Observation) : AlertKey → Prop
  | (.failed, started) => FailedBy n (seen ++ [o]) ∧
      started = (incident (seen ++ [o])).head?.map Observation.observedAt
  | (.recovered, started) => o.outcome.Success ∧ incident seen ≠ [] ∧
      started = (incident seen).head?.map Observation.observedAt
  | (.degraded, _) => False

theorem due_snoc : Due n (seen ++ [o]) key ↔ Due n seen key ∨ DueNow n seen o key := by
  constructor
  · intro h
    obtain ⟨kind, started⟩ := key
    cases kind with
    | degraded => exact Or.inl h
    | failed =>
      obtain ⟨some_, hsome, hfailed⟩ := h
      rcases List.prefix_concat_iff.mp hsome with rfl | hsome
      · exact Or.inr hfailed
      · exact Or.inl ⟨some_, hsome, hfailed⟩
    | recovered =>
      obtain ⟨some_, good, hsome, hgood, hincident⟩ := h
      rcases List.prefix_concat_iff.mp hsome with heq | hsome
      · obtain ⟨rfl, hlast⟩ := List.append_inj' heq rfl
        obtain rfl : good = o := List.head_eq_of_cons_eq hlast
        exact Or.inr ⟨hgood, hincident⟩
      · exact Or.inl ⟨some_, good, hsome, hgood, hincident⟩
  · rintro (h | h)
    · exact due_mono (List.prefix_append _ _) h
    · obtain ⟨kind, started⟩ := key
      cases kind with
      | degraded => exact h
      | failed => exact ⟨_, List.prefix_rfl, h⟩
      | recovered => exact ⟨seen, o, List.prefix_rfl, h⟩

end Observe

/-- The tracker shows what was observed. -/
structure Tracks (t : ProviderHealthTracker) (seen : List Observation) : Prop where
  failures : t.consecutiveFailures = (incident seen).length
  started : t.incidentStartedAt = (incident seen).head?.map Observation.observedAt
  health : healthOf t.failedAfter seen t.state

/-- A recovery names its incident and how long that lasted. -/
def Faithful (e : HealthEvent) : Prop :=
  e.event = .recovered → ∃ started, e.incidentStartedAt = some started ∧
    e.firstKnownGoodAt = some e.observedAt ∧
    e.durationSeconds = some (secondsBetween started e.observedAt)

/-- What one observation adds: the tracker follows it, and the events it emits are those that
it calls for, up to an alert that was due before. -/
structure Follows (t t' : ProviderHealthTracker) (seen : List Observation) (o : Observation)
    (new : List HealthEvent) : Prop where
  events : t'.events = t.events ++ new
  failedAfter : t'.failedAfter = t.failedAfter
  tracks : Tracks t' (seen ++ [o])
  faithful : ∀ e ∈ new, Faithful e
  sound : ∀ e ∈ new, AIProviderAlerts.Alerted e → DueNow t.failedAfter seen o e.key
  complete : ∀ key, DueNow t.failedAfter seen o key → Due t.failedAfter seen key ∨
    ∃ e ∈ new, AIProviderAlerts.Alerted e ∧ e.key = key

section Track

variable {t : ProviderHealthTracker} {seen : List Observation} {o : Observation}

theorem Tracks.ill_iff (h : Tracks t seen) :
    t.state = .degraded ∨ t.state = .failed ↔ incident seen ≠ [] := by
  have hhealth := h.health
  cases hstate : t.state with
  | unknown =>
    rw [hstate] at hhealth
    have hseen : seen = [] := hhealth
    simp [hseen, incident]
  | ready =>
    rw [hstate] at hhealth
    simp [hhealth.2]
  | degraded =>
    rw [hstate] at hhealth
    simpa using hhealth.1
  | failed =>
    rw [hstate] at hhealth
    have hill : incident seen ≠ [] := fun hnil => not_failedBy_of_nil hnil hhealth
    simpa using hill

theorem Tracks.succeed (h : Tracks t seen) (hgood : o.outcome.Success) :
    ∃ new, Follows t (t.succeed o) seen o new := by
  have hnil : incident (seen ++ [o]) = [] := incident_success hgood
  have hready : healthOf t.failedAfter (seen ++ [o]) .ready := ⟨by simp, hnil⟩
  have hnot : ∀ started, ¬ DueNow t.failedAfter seen o (.failed, started) :=
    fun started hdue => not_failedBy_of_nil hnil hdue.1
  unfold ProviderHealthTracker.succeed
  by_cases hill : t.state = .degraded ∨ t.state = .failed
  · -- The incident ends here.
    have hgoing := h.ill_iff.mp hill
    obtain ⟨first, rest, hfirst⟩ := List.exists_cons_of_ne_nil hgoing
    have hstarted : t.incidentStartedAt = some first.observedAt := by
      rw [h.started, hfirst]
      rfl
    rw [if_pos hill]
    refine ⟨_, rfl, rfl, ⟨by rw [hnil]; rfl, by rw [hnil]; rfl, hready⟩, ?_, ?_, ?_⟩
    · intro e he _
      rw [List.mem_singleton.mp he]
      exact ⟨first.observedAt, hstarted, rfl, by rw [hstarted]; rfl⟩
    · intro e he _
      rw [List.mem_singleton.mp he]
      exact ⟨hgood, hgoing, h.started⟩
    · rintro ⟨kind, started⟩ hdue
      cases kind with
      | degraded => exact hdue.elim
      | failed => exact absurd hdue (hnot started)
      | recovered =>
        refine Or.inr ⟨_, List.mem_singleton_self _, Or.inr rfl, ?_⟩
        rw [hdue.2.2, ← h.started]
        rfl
  · have hgoing : incident seen = [] := not_not.mp (fun hne => hill (h.ill_iff.mpr hne))
    rw [if_neg hill]
    refine ⟨[], (List.append_nil _).symm, rfl, ⟨by rw [hnil]; rfl, ?_, hready⟩, ?_, ?_, ?_⟩
    · rw [hnil]
      have hstarted := h.started
      rw [hgoing] at hstarted
      exact hstarted
    · exact fun e he => absurd he List.not_mem_nil
    · exact fun e he => absurd he List.not_mem_nil
    · rintro ⟨kind, started⟩ hdue
      cases kind with
      | degraded => exact hdue.elim
      | failed => exact absurd hdue (hnot started)
      | recovered => exact absurd hgoing hdue.2.1

theorem Tracks.fail (h : Tracks t seen) (hbad : ¬ o.outcome.Success) :
    ∃ new, Follows t (t.fail o) seen o new := by
  have hincident : incident (seen ++ [o]) = incident seen ++ [o] := incident_failure hbad
  have hstarted : some (t.incidentStartedAt.getD o.observedAt)
      = (incident (seen ++ [o])).head?.map Observation.observedAt := by
    rw [hincident, h.started]
    cases incident seen with
    | nil => rfl
    | cons first rest => rfl
  have hfailed : (o.outcome.NonTransient ∨ t.failedAfter ≤ t.consecutiveFailures + 1) ↔
      FailedBy t.failedAfter (seen ++ [o]) := by
    rw [failedBy_failure hbad, h.failures]
  have hlength : t.consecutiveFailures + 1 = (incident (seen ++ [o])).length := by
    rw [hincident, h.failures, List.length_append, List.length_singleton]
  have hnone : ∀ started, ¬ DueNow t.failedAfter seen o (.recovered, started) :=
    fun started hdue => hbad hdue.1
  have hill : incident (seen ++ [o]) ≠ [] := by
    rw [hincident]
    simp
  unfold ProviderHealthTracker.fail
  dsimp only
  by_cases hworse : o.outcome.NonTransient ∨ t.failedAfter ≤ t.consecutiveFailures + 1
  · rw [if_pos hworse, if_pos hworse]
    have hnow := hfailed.mp hworse
    by_cases hchange : Health.failed ≠ t.state
    · rw [if_pos hchange]
      refine ⟨_, rfl, rfl, ⟨hlength, hstarted, hnow⟩, ?_, ?_, ?_⟩
      · intro e he hrecovered
        rw [List.mem_singleton.mp he] at hrecovered
        exact absurd hrecovered (by simp)
      · intro e he _
        rw [List.mem_singleton.mp he]
        exact ⟨hnow, hstarted⟩
      · rintro ⟨kind, started⟩ hdue
        cases kind with
        | degraded => exact hdue.elim
        | recovered => exact absurd hdue (hnone started)
        | failed =>
          refine Or.inr ⟨_, List.mem_singleton_self _, Or.inl rfl, ?_⟩
          rw [hdue.2, ← hstarted]
          rfl
    · -- The provider counted as failed already, so the alert of this incident was due before.
      rw [if_neg hchange]
      have hstate : t.state = .failed := (not_not.mp hchange).symm
      refine ⟨[], (List.append_nil _).symm, rfl, ⟨hlength, hstarted, hnow⟩, ?_, ?_, ?_⟩
      · exact fun e he => absurd he List.not_mem_nil
      · exact fun e he => absurd he List.not_mem_nil
      · rintro ⟨kind, started⟩ hdue
        cases kind with
        | degraded => exact hdue.elim
        | recovered => exact absurd hdue (hnone started)
        | failed =>
          have hhealth := h.health
          rw [hstate] at hhealth
          refine Or.inl ⟨seen, List.prefix_rfl, hhealth, ?_⟩
          rw [hdue.2, hincident]
          exact start_of_going_on (h.ill_iff.mp (Or.inr hstate))
  · rw [if_neg hworse, if_neg hworse]
    have hnow : ¬ FailedBy t.failedAfter (seen ++ [o]) := fun hno => hworse (hfailed.mpr hno)
    have hcomplete : ∀ key, ¬ DueNow t.failedAfter seen o key := by
      rintro ⟨kind, started⟩ hdue
      cases kind with
      | degraded => exact hdue
      | recovered => exact hnone started hdue
      | failed => exact hnow hdue.1
    by_cases hchange : Health.degraded ≠ t.state
    · rw [if_pos hchange]
      refine ⟨_, rfl, rfl, ⟨hlength, hstarted, hill, hnow⟩, ?_, ?_, ?_⟩
      · intro e he hrecovered
        rw [List.mem_singleton.mp he] at hrecovered
        exact absurd hrecovered (by simp)
      · intro e he halerted
        rw [List.mem_singleton.mp he] at halerted
        exact absurd halerted (by simp [AIProviderAlerts.Alerted])
      · exact fun key hdue => absurd hdue (hcomplete key)
    · rw [if_neg hchange]
      refine ⟨[], (List.append_nil _).symm, rfl, ⟨hlength, hstarted, hill, hnow⟩, ?_, ?_, ?_⟩
      · exact fun e he => absurd he List.not_mem_nil
      · exact fun e he => absurd he List.not_mem_nil
      · exact fun key hdue => absurd hdue (hcomplete key)

theorem Tracks.observe (h : Tracks t seen) (hobserved : o.outcome.Observed) :
    ∃ new, Follows t (t.observe o) seen o new := by
  unfold ProviderHealthTracker.observe
  rw [if_neg (not_not.mpr hobserved)]
  by_cases hgood : o.outcome.Success
  · rw [if_pos hgood]
    exact h.succeed hgood
  · rw [if_neg hgood]
    exact h.fail hgood

end Track

/-! ### Alerts -/

/-- The keys of what was sent. -/
def AIProviderAlerts.keys (a : AIProviderAlerts) : List AlertKey := a.sent.map (·.event.key)

/-- No key was sent twice, and the keys that were sent are remembered. -/
structure Once (a : AIProviderAlerts) : Prop where
  nodup : a.keys.Nodup
  delivered : ∀ key, key ∈ a.delivered ↔ key ∈ a.keys
  alerted : ∀ n ∈ a.sent, AIProviderAlerts.Alerted n.event

/-- What handling events does to the alerts. -/
structure Processed (events : List HealthEvent) (a a' : AIProviderAlerts) : Prop where
  once : Once a'
  enabled : a'.enabled = a.enabled
  kept : ∀ key ∈ a.keys, key ∈ a'.keys
  origin : ∀ n ∈ a'.sent, n ∈ a.sent ∨ n.event ∈ events
  sent : a.enabled = true → ∀ e ∈ events, AIProviderAlerts.Alerted e → e.key ∈ a'.keys

section Alerts

variable {a : AIProviderAlerts} (symbol : Option String)

theorem handle_spec (h : Once a) (e : HealthEvent) :
    Processed [e] a (AIProviderAlerts.handle symbol a e) := by
  have hsame : ∀ {a' : AIProviderAlerts}, a'.sent = a.sent → a'.delivered = a.delivered →
      a'.enabled = a.enabled → (a.enabled = true → AIProviderAlerts.Alerted e → e.key ∈ a.keys) →
      Processed [e] a a' := by
    intro a' hsent hdelivered henabled hdone
    have hkeys : a'.keys = a.keys := by
      unfold AIProviderAlerts.keys
      rw [hsent]
    refine ⟨⟨hkeys ▸ h.nodup, ?_, hsent ▸ h.alerted⟩, henabled, ?_, ?_, ?_⟩
    · rw [hkeys, hdelivered]
      exact h.delivered
    · rw [hkeys]
      exact fun key hkey => hkey
    · rw [hsent]
      exact fun n hn => Or.inl hn
    · intro hon e' he' halerted
      rw [List.mem_singleton.mp he'] at halerted ⊢
      rw [hkeys]
      exact hdone hon halerted
  unfold AIProviderAlerts.handle
  by_cases halerted : AIProviderAlerts.Alerted e
  · rw [if_neg (not_not.mpr halerted)]
    by_cases hskip : a.enabled = false ∨ e.key ∈ a.delivered
    · rw [if_pos hskip]
      refine hsame rfl rfl rfl (fun hon _ => ?_)
      rcases hskip with hoff | hknown
      · rw [hon] at hoff
        cases hoff
      · exact (h.delivered e.key).mp hknown
    · rw [if_neg hskip]
      have hnew : e.key ∉ a.keys := fun hknown => hskip (Or.inr ((h.delivered e.key).mpr hknown))
      have hkeys : ∀ {b : AIProviderAlerts}, b.sent = a.sent ++ [⟨e, symbol⟩] →
          b.keys = a.keys ++ [e.key] := by
        intro b hb
        unfold AIProviderAlerts.keys
        rw [hb, List.map_append]
        rfl
      refine ⟨⟨?_, ?_, ?_⟩, rfl, ?_, ?_, ?_⟩
      · rw [hkeys rfl]
        refine List.nodup_append.mpr ⟨h.nodup, List.nodup_singleton _, ?_⟩
        intro key hkey key' hkey' heq
        rw [List.mem_singleton.mp hkey'] at heq
        exact hnew (heq ▸ hkey)
      · intro key
        rw [hkeys rfl, List.mem_cons, List.mem_append, List.mem_singleton, h.delivered, or_comm]
      · intro n hn
        rcases List.mem_append.mp hn with hn | hn
        · exact h.alerted n hn
        · rw [List.mem_singleton.mp hn]
          exact halerted
      · intro key hkey
        rw [hkeys rfl]
        exact List.mem_append_left _ hkey
      · intro n hn
        rcases List.mem_append.mp hn with hn | hn
        · exact Or.inl hn
        · rw [List.mem_singleton.mp hn]
          exact Or.inr List.mem_cons_self
      · intro _ e' he' _
        rw [List.mem_singleton.mp he', hkeys rfl]
        exact List.mem_append_right _ List.mem_cons_self
  · rw [if_pos halerted]
    exact hsame rfl rfl rfl (fun _ hno => absurd hno halerted)

theorem process_spec (h : Once a) (events : List HealthEvent) :
    Processed events a (a.process events symbol) := by
  induction events generalizing a with
  | nil =>
    exact ⟨h, rfl, fun _ hkey => hkey, fun _ hn => Or.inl hn,
      fun _ e he => absurd he List.not_mem_nil⟩
  | cons e events ih =>
    have hfirst := handle_spec symbol h e
    have hrest := ih hfirst.once
    refine ⟨hrest.once, hrest.enabled.trans hfirst.enabled,
      fun key hkey => hrest.kept key (hfirst.kept key hkey), fun n hn => ?_,
      fun hon e' he' ha => ?_⟩
    · rcases hrest.origin n hn with hn | hn
      · exact (hfirst.origin n hn).imp id (fun hn => by
          rw [List.mem_singleton.mp hn]
          exact List.mem_cons_self)
      · exact Or.inr (List.mem_cons_of_mem _ hn)
    · rcases List.mem_cons.mp he' with rfl | he'
      · exact hrest.kept _ (hfirst.sent hon e' List.mem_cons_self ha)
      · exact hrest.sent (hfirst.enabled.trans hon) e' he' ha

end Alerts

/-! ### Runs -/

/-- No write of the journal failed. -/
def NoneFailed (steps : List WatchStep) : Prop :=
  ∀ symbol k, WatchStep.flush symbol (some k) ∉ steps

/-- An alert was sent at most once and only for what is due. What is due was sent or waits to
be drained, unless a write of the journal failed. -/
structure Sound (n : ℕ) (steps : List WatchStep) (w : Watch) : Prop where
  failedAfter : w.tracker.failedAfter = n
  tracks : Tracks w.tracker (observations steps)
  once : Once w.alerts
  due : ∀ e, e ∈ w.tracker.events ∨ e ∈ w.alerts.sent.map Notification.event →
    Faithful e ∧ (AIProviderAlerts.Alerted e → Due n (observations steps) e.key)
  none_lost : w.alerts.enabled = true → NoneFailed steps →
    ∀ key, Due n (observations steps) key → key ∈ w.alerts.keys ∨
      ∃ e ∈ w.tracker.events, AIProviderAlerts.Alerted e ∧ e.key = key

section Runs

variable {n : ℕ} {steps : List WatchStep} {w : Watch}

theorem sound_start (n : ℕ) (enabled : Bool) : Sound n [] (Watch.start n enabled) where
  failedAfter := rfl
  tracks := ⟨rfl, rfl, rfl⟩
  once := ⟨List.nodup_nil, fun _ => Iff.rfl, fun _ h => absurd h List.not_mem_nil⟩
  due := fun e h => by simp [Watch.start] at h
  none_lost := fun _ _ key hdue => by
    obtain ⟨kind, started⟩ := key
    cases kind with
    | degraded => exact hdue.elim
    | failed =>
      obtain ⟨some_, hsome, hfailed, -⟩ := hdue
      rw [List.prefix_nil.mp hsome] at hfailed
      exact absurd hfailed (not_failedBy_of_nil rfl)
    | recovered =>
      obtain ⟨some_, good, hsome, -⟩ := hdue
      simp [observations] at hsome

theorem NoneFailed.of_snoc {s : WatchStep} (h : NoneFailed (steps ++ [s])) : NoneFailed steps :=
  fun symbol k hmem => h symbol k (List.mem_append_left _ hmem)

theorem observations_snoc (steps : List WatchStep) (s : WatchStep) :
    observations (steps ++ [s]) = observations steps ++ observations [s] :=
  List.filterMap_append

theorem Sound.observe (h : Sound n steps w) (o : Observation) :
    Sound n (steps ++ [.observe o]) (w.step (.observe o)) := by
  by_cases hobserved : o.outcome.Observed
  · have hseen : observations (steps ++ [.observe o]) = observations steps ++ [o] := by
      rw [observations_snoc]
      simp [observations, hobserved]
    obtain ⟨new, hfollows⟩ := h.tracks.observe hobserved
    have hn := h.failedAfter
    constructor
    · exact hfollows.failedAfter.trans hn
    · rw [hseen]
      exact hfollows.tracks
    · exact h.once
    · intro e he
      rw [hseen]
      have hold : e ∈ w.tracker.events ∨ e ∈ w.alerts.sent.map Notification.event →
          Faithful e ∧ (AIProviderAlerts.Alerted e → Due n (observations steps ++ [o]) e.key) :=
        fun he => ⟨(h.due e he).1, fun ha => due_snoc.mpr (Or.inl ((h.due e he).2 ha))⟩
      rcases he with he | he
      · change e ∈ (w.tracker.observe o).events at he
        rw [hfollows.events, List.mem_append] at he
        rcases he with he | he
        · exact hold (Or.inl he)
        · refine ⟨hfollows.faithful e he, fun ha => due_snoc.mpr (Or.inr ?_)⟩
          rw [← hn]
          exact hfollows.sound e he ha
      · exact hold (Or.inr he)
    · intro hon hnone key hdue
      change _ ∨ ∃ e ∈ (w.tracker.observe o).events, _
      rw [hseen, due_snoc] at hdue
      rw [hfollows.events]
      have hold : Due n (observations steps) key → key ∈ w.alerts.keys ∨
          ∃ e ∈ w.tracker.events ++ new, AIProviderAlerts.Alerted e ∧ e.key = key := by
        intro hdue
        rcases h.none_lost hon hnone.of_snoc key hdue with hsent | ⟨e, he, hkey⟩
        · exact Or.inl hsent
        · exact Or.inr ⟨e, List.mem_append_left _ he, hkey⟩
      rcases hdue with hdue | hdue
      · exact hold hdue
      · rw [← hn] at hdue
        rcases hfollows.complete key hdue with hdue | ⟨e, he, hkey⟩
        · exact hold (hn ▸ hdue)
        · exact Or.inr ⟨e, List.mem_append_right _ he, hkey⟩
  · have hseen : observations (steps ++ [.observe o]) = observations steps := by
      rw [observations_snoc]
      simp [observations, hobserved]
    have hsame : w.step (.observe o) = w := by
      change { w with tracker := w.tracker.observe o } = w
      unfold ProviderHealthTracker.observe
      rw [if_pos hobserved]
    rw [hsame]
    exact ⟨h.failedAfter, hseen ▸ h.tracks, h.once, hseen ▸ h.due,
      fun hon hnone => hseen ▸ h.none_lost hon hnone.of_snoc⟩

/-- The events are drained; the alerts are handed all of them or none. -/
theorem Sound.drained (h : Sound n steps w) (symbol : Option String) (failsAt : Option ℕ)
    {w' : Watch} (htracker : w'.tracker = { w.tracker with events := [] })
    (halerts : w'.alerts = w.alerts.process w.tracker.events symbol ∨
      (w'.alerts = w.alerts ∧ failsAt ≠ none)) :
    Sound n (steps ++ [.flush symbol failsAt]) w' := by
  have hseen : observations (steps ++ [.flush symbol failsAt]) = observations steps := by
    rw [observations_snoc]
    simp [observations]
  have hprocessed := process_spec symbol h.once w.tracker.events
  have htracks : Tracks w'.tracker (observations (steps ++ [.flush symbol failsAt])) := by
    rw [hseen, htracker]
    exact ⟨h.tracks.failures, h.tracks.started, h.tracks.health⟩
  have hempty : w'.tracker.events = [] := by rw [htracker]
  have hlimit : w'.tracker.failedAfter = n := by
    rw [htracker]
    exact h.failedAfter
  rcases halerts with halerts | ⟨halerts, hfailed⟩
  · refine ⟨hlimit, htracks, halerts ▸ hprocessed.once, ?_, ?_⟩
    · intro e he
      rw [hseen]
      rw [hempty, halerts] at he
      rcases he with he | he
      · exact absurd he List.not_mem_nil
      · obtain ⟨sent, hsent, rfl⟩ := List.mem_map.mp he
        rcases hprocessed.origin sent hsent with hsent | hsent
        · exact h.due _ (Or.inr (List.mem_map_of_mem hsent))
        · exact h.due _ (Or.inl hsent)
    · intro hon hnone key hdue
      rw [hseen] at hdue
      rw [halerts] at hon ⊢
      have hon : w.alerts.enabled = true := hprocessed.enabled ▸ hon
      rcases h.none_lost hon hnone.of_snoc key hdue with hsent | ⟨e, he, halerted, rfl⟩
      · exact Or.inl (hprocessed.kept key hsent)
      · exact Or.inl (hprocessed.sent hon e he halerted)
  · refine ⟨hlimit, htracks, halerts ▸ h.once, ?_, ?_⟩
    · intro e he
      rw [hseen]
      rw [hempty, halerts] at he
      rcases he with he | he
      · exact absurd he List.not_mem_nil
      · exact h.due e (Or.inr he)
    · intro _ hnone
      obtain ⟨k, rfl⟩ := Option.ne_none_iff_exists'.mp hfailed
      exact absurd (List.mem_append_right _ List.mem_cons_self) (hnone symbol k)

theorem Sound.step (h : Sound n steps w) (s : WatchStep) : Sound n (steps ++ [s]) (w.step s) := by
  cases s with
  | observe o => exact h.observe o
  | flush symbol failsAt =>
    cases failsAt with
    | none => exact h.drained symbol none rfl (Or.inl rfl)
    | some k =>
      unfold Watch.step
      dsimp only
      by_cases hk : k < w.tracker.events.length
      · rw [if_pos hk]
        exact h.drained symbol (some k) rfl (Or.inr ⟨rfl, by simp⟩)
      · rw [if_neg hk]
        exact h.drained symbol (some k) rfl (Or.inl rfl)

theorem sound_run (n : ℕ) (enabled : Bool) (steps : List WatchStep) :
    Sound n steps (Library.run Watch.step steps (Watch.start n enabled)) := by
  induction steps using List.reverseRecOn with
  | nil => exact sound_start n enabled
  | append_singleton steps s ih =>
    rw [run_append, run_cons, run_nil]
    exact ih.step s

end Runs

/-- However observations and drains interleave, the health is the one that the observations
make, an alert is sent at most once for each kind and incident, and only when the incident
calls for it; a recovery tells how long its incident lasted. Where the alerts are enabled
and no write of the journal failed, every alert that was due was sent or is drained next. -/
theorem provider_alerts_once_per_incident (failedAfter : ℕ) (enabled : Bool)
    (steps : List WatchStep) :
    let w := Library.run Watch.step steps (Watch.start failedAfter enabled)
    let seen := observations steps
    healthOf failedAfter seen w.tracker.state ∧
    (w.alerts.sent.map (·.event.key)).Nodup ∧
    (∀ sent ∈ w.alerts.sent, Due failedAfter seen sent.event.key ∧ Faithful sent.event) ∧
    (w.alerts.enabled = true → NoneFailed steps → ∀ symbol key,
      Due failedAfter seen key ↔
        key ∈ ((w.step (.flush symbol none)).alerts.sent.map (·.event.key))) := by
  have h := sound_run failedAfter enabled steps
  have hhealth := h.tracks.health
  rw [h.failedAfter] at hhealth
  refine ⟨hhealth, h.once.nodup, fun sent hsent => ?_,
    fun hon hnone symbol key => ⟨fun hdue => ?_, fun hkey => ?_⟩⟩
  · obtain ⟨hfaithful, hdue⟩ := h.due sent.event (Or.inr (List.mem_map_of_mem hsent))
    exact ⟨hdue (h.once.alerted sent hsent), hfaithful⟩
  · have hprocessed := process_spec symbol h.once
      (Library.run Watch.step steps (Watch.start failedAfter enabled)).tracker.events
    rcases h.none_lost hon hnone key hdue with hsent | ⟨e, he, halerted, rfl⟩
    · exact hprocessed.kept key hsent
    · exact hprocessed.sent hon e he halerted
  · obtain ⟨sent, hsent, rfl⟩ := List.mem_map.mp hkey
    have hflushed := h.step (.flush symbol none)
    have hdue := (hflushed.due sent.event (Or.inr (List.mem_map_of_mem hsent))).2
      (hflushed.once.alerted sent hsent)
    rwa [observations_snoc, show observations [.flush symbol none] = [] from rfl,
      List.append_nil] at hdue

/-- A provider out of quota for two calls alerts once, and once more when it answers again. -/
example : ((Library.run Watch.step
    [.observe ⟨.quotaExhausted, 10000000, none, ⟨none, some 429, none⟩⟩, .flush none none,
      .observe ⟨.quotaExhausted, 20000000, none, ⟨none, some 429, none⟩⟩,
      .observe ⟨.ok, 40000000, none, ⟨none, none, none⟩⟩, .flush none none]
    (Watch.start 3 true)).alerts.sent.map (fun n => (n.event.event, n.event.durationSeconds))) =
      [(.failed, none), (.recovered, some 30)] := by decide +kernel

end MarketSystem.Ai
