import MarketSystem.Runtime.SystemHealth
import Mathlib.Data.List.DropRight

/-!
# What a health record says

A record is a view of the observations of its component, whatever the order in which they
arrived: heartbeats, progress and outcomes each tell what the newest of them tells, and the
errors are counted since the last success. From it follows what HEALTHY at a moment means.
-/
namespace MarketSystem.SystemHealth

open Library

/-! ## Views of a log -/

def Facts.isHeartbeat : Facts → Bool
  | .heartbeat => true
  | _ => false

def Facts.isProgress : Facts → Bool
  | .progress _ _ => true
  | _ => false

def Facts.isState : Facts → Bool
  | .state _ _ _ => true
  | _ => false

def Facts.isSuccess : Facts → Bool
  | .success _ _ => true
  | _ => false

def Facts.isError : Facts → Bool
  | .error _ _ _ _ _ => true
  | _ => false

/-- The facts tell how the component fared. -/
def Facts.isOutcome (f : Facts) : Bool := f.isSuccess || f.isError || f.isState

def Facts.stage : Facts → Option String
  | .progress stage _ => some stage
  | _ => none

def Facts.reference : Facts → Option String
  | .progress _ reference => reference
  | _ => none

def Facts.latencyMs : Facts → Option ℚ
  | .success latencyMs _ => latencyMs
  | .error latencyMs _ _ _ _ => latencyMs
  | _ => none

def Facts.errorType : Facts → Option String
  | .error _ errorType _ _ _ => some errorType
  | _ => none

def Facts.legacyErrorName : Facts → Option String
  | .error _ _ legacyErrorName _ _ => legacyErrorName
  | _ => none

def Facts.reason : Facts → Option String
  | .error _ _ _ reason _ => reason
  | .state _ reason _ => reason
  | _ => none

def Facts.details : Facts → Details
  | .success _ details => details
  | .error _ _ _ _ details => details
  | .state _ _ details => details
  | _ => none

/-- The newest observation of a kind. -/
def newestOf (kind : Facts → Bool) (log : List Observation) : Option Observation :=
  newest Observation.observedAt (log.filter (fun o => kind o.facts))

/-- The outcomes that did not come too late. -/
def effective (log : List Observation) : List Observation :=
  records Observation.observedAt (log.filter (fun o => o.facts.isOutcome))

/-- The successes and the errors among them. -/
def counted (log : List Observation) : List Observation :=
  (effective log).filter (fun o => !o.facts.isState)

/-- The errors since the last success. -/
def errorsSince (log : List Observation) : ℕ :=
  ((counted log).rtakeWhile (fun o => o.facts.isError)).length

section View

variable (policy : HealthPolicy)

/-- The status that an outcome gives, when there have been so many errors since a success. -/
def statusOf (errors : ℕ) : Facts → HealthStatus
  | .success _ _ => .healthy
  | .error _ _ _ _ _ => if policy.failedAfterConsecutiveErrors ≤ errors then .failed else .degraded
  | .state status _ _ => status
  | .heartbeat => .unknown
  | .progress _ _ => .unknown

/-- The record that a log makes. -/
def view (component : Component) (log : List Observation) : ComponentHealth where
  component := component
  status := ((effective log).getLast?.map
    (fun o => statusOf policy (errorsSince log) o.facts)).getD .unknown
  lastSuccessAt := ((counted log).filter (fun o => o.facts.isSuccess)).getLast?.map
    Observation.observedAt
  lastErrorAt := ((counted log).filter (fun o => o.facts.isError)).getLast?.map
    Observation.observedAt
  lastCheckedAt := (newestOf Facts.isOutcome log).map Observation.observedAt
  heartbeatAt := (newestOf Facts.isHeartbeat log).map Observation.observedAt
  progressAt := (newestOf Facts.isProgress log).map Observation.observedAt
  progressStage := (newestOf Facts.isProgress log).bind (fun o => o.facts.stage)
  progressRef := (newestOf Facts.isProgress log).bind (fun o => o.facts.reference)
  consecutiveErrors := errorsSince log
  latencyMs := (counted log).getLast?.bind (fun o => o.facts.latencyMs)
  errorType := (newestOf Facts.isOutcome log).bind (fun o => o.facts.errorType)
  legacyErrorName := (newestOf Facts.isOutcome log).bind (fun o => o.facts.legacyErrorName)
  sanitizedErrorReason := (newestOf Facts.isOutcome log).bind (fun o => o.facts.reason)
  details := (newestOf Facts.isOutcome log).bind (fun o => o.facts.details)

end View

/-! ### One more observation -/

section Snoc

variable {log : List Observation} {o : Observation} {kind : Facts → Bool}

theorem later_iff {x : Option Observation} {t : Instant} :
    later t (x.map Observation.observedAt) = true ↔ ∀ y ∈ x, y.observedAt ≤ t := by
  cases x with
  | none => simp [later]
  | some y => simp [later]

theorem newestOf_other (h : kind o.facts = false) :
    newestOf kind (log ++ [o]) = newestOf kind log := by
  unfold newestOf
  rw [List.filter_append, List.filter_singleton, h]
  simp

theorem newestOf_later (h : kind o.facts = true)
    (hlater : ∀ y ∈ newestOf kind log, y.observedAt ≤ o.observedAt) :
    newestOf kind (log ++ [o]) = some o := by
  unfold newestOf at *
  rw [List.filter_append, List.filter_singleton, h]
  exact newest_of_later hlater

theorem newestOf_old (hlater : ¬ ∀ y ∈ newestOf kind log, y.observedAt ≤ o.observedAt) :
    newestOf kind (log ++ [o]) = newestOf kind log := by
  by_cases h : kind o.facts = true
  · unfold newestOf at *
    rw [List.filter_append, List.filter_singleton, h]
    rcases later_or_old Observation.observedAt (log.filter (fun o => kind o.facts)) o with
      hle | ⟨y, hy, hold⟩
    · exact absurd hle hlater
    · rw [hy]
      exact newest_of_old hy hold
  · exact newestOf_other (Bool.eq_false_of_not_eq_true h)

theorem effective_other (h : o.facts.isOutcome = false) :
    effective (log ++ [o]) = effective log := by
  unfold effective
  rw [List.filter_append, List.filter_singleton, h]
  simp

theorem effective_later (h : o.facts.isOutcome = true)
    (hlater : ∀ y ∈ newestOf Facts.isOutcome log, y.observedAt ≤ o.observedAt) :
    effective (log ++ [o]) = effective log ++ [o] := by
  unfold effective
  rw [List.filter_append, List.filter_singleton, h]
  exact records_of_later hlater

theorem effective_old (h : o.facts.isOutcome = true)
    (hlater : ¬ ∀ y ∈ newestOf Facts.isOutcome log, y.observedAt ≤ o.observedAt) :
    effective (log ++ [o]) = effective log := by
  unfold effective
  rw [List.filter_append, List.filter_singleton, h]
  rcases later_or_old Observation.observedAt (log.filter (fun o => o.facts.isOutcome)) o with
    hle | ⟨y, hy, hold⟩
  · exact absurd hle hlater
  · exact records_of_old hy hold

end Snoc

section Apply

variable {policy : HealthPolicy} {component : Component} {log : List Observation} {o : Observation}

/-- An observation that leaves the outcomes alone leaves what is told of them alone. -/
theorem view_of_effective (heffective : effective (log ++ [o]) = effective log)
    (hnewest : newestOf Facts.isOutcome (log ++ [o]) = newestOf Facts.isOutcome log) :
    view policy component (log ++ [o]) = { view policy component log with
      heartbeatAt := (newestOf Facts.isHeartbeat (log ++ [o])).map Observation.observedAt
      progressAt := (newestOf Facts.isProgress (log ++ [o])).map Observation.observedAt
      progressStage := (newestOf Facts.isProgress (log ++ [o])).bind (fun o => o.facts.stage)
      progressRef :=
        (newestOf Facts.isProgress (log ++ [o])).bind (fun o => o.facts.reference) } := by
  unfold view errorsSince counted
  rw [heffective, hnewest]

@[simp] theorem component_view (policy : HealthPolicy) (component : Component)
    (log : List Observation) : (view policy component log).component = component := rfl

theorem apply_heartbeat (hfacts : o.facts = .heartbeat) :
    apply policy (view policy component log) o = view policy component (log ++ [o]) := by
  have hout : o.facts.isOutcome = false := by rw [hfacts]; rfl
  have hprogress : o.facts.isProgress = false := by rw [hfacts]; rfl
  have hkind : o.facts.isHeartbeat = true := by rw [hfacts]; rfl
  rw [view_of_effective (effective_other hout) (newestOf_other hout), newestOf_other hprogress]
  unfold apply
  rw [hfacts]
  dsimp only
  by_cases hlater : later o.observedAt (view policy component log).heartbeatAt = true
  · rw [if_pos hlater, newestOf_later hkind (later_iff.mp hlater)]
    rfl
  · rw [if_neg hlater, newestOf_old (fun h => hlater (later_iff.mpr h))]
    rfl

theorem apply_progress {stage : String} {reference : Option String}
    (hfacts : o.facts = .progress stage reference) :
    apply policy (view policy component log) o = view policy component (log ++ [o]) := by
  have hout : o.facts.isOutcome = false := by rw [hfacts]; rfl
  have hheartbeat : o.facts.isHeartbeat = false := by rw [hfacts]; rfl
  have hkind : o.facts.isProgress = true := by rw [hfacts]; rfl
  rw [view_of_effective (effective_other hout) (newestOf_other hout), newestOf_other hheartbeat]
  unfold apply
  rw [hfacts]
  dsimp only
  by_cases hlater : later o.observedAt (view policy component log).progressAt = true
  · rw [if_pos hlater, newestOf_later hkind (later_iff.mp hlater)]
    simp only [Option.bind_some, Option.map_some, hfacts]
    rfl
  · rw [if_neg hlater, newestOf_old (fun h => hlater (later_iff.mpr h))]
    rfl

/-- An outcome that came too late changes nothing. -/
theorem view_of_old (hout : o.facts.isOutcome = true)
    (hold : ¬ later o.observedAt (view policy component log).lastCheckedAt = true) :
    view policy component (log ++ [o]) = view policy component log := by
  have hheartbeat : o.facts.isHeartbeat = false := by
    cases hfacts : o.facts <;> rw [hfacts] at hout <;> first | rfl | cases hout
  have hprogress : o.facts.isProgress = false := by
    cases hfacts : o.facts <;> rw [hfacts] at hout <;> first | rfl | cases hout
  have hnot := fun h => hold (later_iff.mpr h)
  rw [view_of_effective (effective_old hout hnot) (newestOf_old hnot), newestOf_other hheartbeat,
    newestOf_other hprogress]
  rfl

/-- What an outcome that is not too late says replaces what was said. -/
theorem view_of_later (hout : o.facts.isOutcome = true)
    (hlater : later o.observedAt (view policy component log).lastCheckedAt = true) :
    view policy component (log ++ [o]) = { view policy component log with
      status := statusOf policy (errorsSince (log ++ [o])) o.facts
      lastSuccessAt := ((counted (log ++ [o])).filter (fun o => o.facts.isSuccess)).getLast?.map
        Observation.observedAt
      lastErrorAt := ((counted (log ++ [o])).filter (fun o => o.facts.isError)).getLast?.map
        Observation.observedAt
      lastCheckedAt := some o.observedAt
      consecutiveErrors := errorsSince (log ++ [o])
      latencyMs := (counted (log ++ [o])).getLast?.bind (fun o => o.facts.latencyMs)
      errorType := o.facts.errorType
      legacyErrorName := o.facts.legacyErrorName
      sanitizedErrorReason := o.facts.reason
      details := o.facts.details } := by
  have hheartbeat : o.facts.isHeartbeat = false := by
    cases hfacts : o.facts <;> rw [hfacts] at hout <;> first | rfl | cases hout
  have hprogress : o.facts.isProgress = false := by
    cases hfacts : o.facts <;> rw [hfacts] at hout <;> first | rfl | cases hout
  unfold view
  rw [newestOf_other hheartbeat, newestOf_other hprogress,
    newestOf_later hout (later_iff.mp hlater), effective_later hout (later_iff.mp hlater),
    List.getLast?_concat]
  rfl

theorem counted_state (hout : o.facts.isState = true)
    (heffective : effective (log ++ [o]) = effective log ++ [o]) :
    counted (log ++ [o]) = counted log := by
  unfold counted
  rw [heffective, List.filter_append, List.filter_singleton, hout]
  simp

theorem counted_other (hout : o.facts.isState = false)
    (heffective : effective (log ++ [o]) = effective log ++ [o]) :
    counted (log ++ [o]) = counted log ++ [o] := by
  unfold counted
  rw [heffective, List.filter_append, List.filter_singleton, hout]
  simp

theorem apply_state {status : HealthStatus} {reason : Option String} {details : Details}
    (hfacts : o.facts = .state status reason details) :
    apply policy (view policy component log) o = view policy component (log ++ [o]) := by
  have hout : o.facts.isOutcome = true := by rw [hfacts]; rfl
  unfold apply
  rw [hfacts]
  dsimp only
  by_cases hlater : later o.observedAt (view policy component log).lastCheckedAt = true
  · have hcounted :=
      counted_state (by rw [hfacts]; rfl) (effective_later hout (later_iff.mp hlater))
    rw [if_pos hlater, view_of_later hout hlater]
    unfold errorsSince
    rw [hcounted, hfacts]
    rfl
  · rw [if_neg hlater, view_of_old hout hlater]

theorem apply_success {latencyMs : Option ℚ} {details : Details}
    (hfacts : o.facts = .success latencyMs details) :
    apply policy (view policy component log) o = view policy component (log ++ [o]) := by
  have hout : o.facts.isOutcome = true := by rw [hfacts]; rfl
  have hsuccess : o.facts.isSuccess = true := by rw [hfacts]; rfl
  have herror : o.facts.isError = false := by rw [hfacts]; rfl
  unfold apply
  rw [hfacts]
  dsimp only
  by_cases hlater : later o.observedAt (view policy component log).lastCheckedAt = true
  · have hcounted :=
      counted_other (by rw [hfacts]; rfl) (effective_later hout (later_iff.mp hlater))
    have hnone : errorsSince (log ++ [o]) = 0 := by
      unfold errorsSince
      rw [hcounted, List.rtakeWhile_concat_neg _ _ _ (by simp [herror])]
      rfl
    rw [if_pos hlater, view_of_later hout hlater, hnone, hcounted, List.filter_append,
      List.filter_append, List.filter_singleton, List.filter_singleton, hsuccess, herror]
    simp only [cond_true, cond_false, List.append_nil, List.getLast?_concat, Option.map_some,
      Option.bind_some, hfacts]
    rfl
  · rw [if_neg hlater, view_of_old hout hlater]

theorem apply_error {latencyMs : Option ℚ} {errorType : String}
    {legacyErrorName reason : Option String} {details : Details}
    (hfacts : o.facts = .error latencyMs errorType legacyErrorName reason details) :
    apply policy (view policy component log) o = view policy component (log ++ [o]) := by
  have hout : o.facts.isOutcome = true := by rw [hfacts]; rfl
  have hsuccess : o.facts.isSuccess = false := by rw [hfacts]; rfl
  have herror : o.facts.isError = true := by rw [hfacts]; rfl
  unfold apply
  rw [hfacts]
  dsimp only
  by_cases hlater : later o.observedAt (view policy component log).lastCheckedAt = true
  · have hcounted :=
      counted_other (by rw [hfacts]; rfl) (effective_later hout (later_iff.mp hlater))
    have hmore : errorsSince (log ++ [o]) = errorsSince log + 1 := by
      unfold errorsSince
      rw [hcounted, List.rtakeWhile_concat, if_pos herror, List.length_append]
      rfl
    rw [if_pos hlater, view_of_later hout hlater, hmore, hcounted, List.filter_append,
      List.filter_append, List.filter_singleton, List.filter_singleton, hsuccess, herror]
    simp only [cond_true, cond_false, List.append_nil, List.getLast?_concat, Option.map_some,
      Option.bind_some, hfacts]
    rfl
  · rw [if_neg hlater, view_of_old hout hlater]

/-- One observation takes the view of a log to the view of the longer log. -/
theorem apply_view (policy : HealthPolicy) (component : Component) (log : List Observation)
    (o : Observation) :
    apply policy (view policy component log) o = view policy component (log ++ [o]) := by
  cases hfacts : o.facts with
  | success latencyMs details => exact apply_success hfacts
  | error latencyMs errorType legacyErrorName reason details => exact apply_error hfacts
  | state status reason details => exact apply_state hfacts
  | heartbeat => exact apply_heartbeat hfacts
  | progress stage reference => exact apply_progress hfacts

end Apply

/-! ## Runs -/

/-- The observations of a component, in the order of their arrival. -/
def Store.log (s : Store) (component : Component) : List Observation :=
  (s.observations.rows.map ObservationRow.observation).filter (fun o => o.component = component)

/-- Each record is the view of the observations of its component. -/
def Faithful (policy : HealthPolicy) (s : Store) : Prop :=
  ∀ component, s.read component = view policy component (s.log component)

section Runs

variable {policy : HealthPolicy} {s : Store} {id : String} {o : Observation} {fails : Bool}

/-- What a transaction can do: nothing, or to keep one observation that is new. -/
theorem observe_cases :
    (observe policy fails id o s).2 = s ∨
    (s.observations.get? id = none ∧
      observe policy fails id o s = (.ok (apply policy (s.read o.component) o),
        ⟨s.observations.put ⟨id, o⟩, s.health.put (apply policy (s.read o.component) o)⟩)) := by
  unfold observe
  by_cases hfails : fails = true
  · rw [if_pos hfails]
    exact Or.inl rfl
  rw [if_neg hfails]
  cases hget : s.observations.get? id with
  | none => exact Or.inr ⟨rfl, rfl⟩
  | some previous =>
    dsimp only
    by_cases hsame : previous.observation ≠ o
    · rw [if_pos hsame]
      exact Or.inl rfl
    · rw [if_neg hsame]
      exact Or.inl rfl

/-- The observation that a transaction keeps is the last of its component. -/
theorem log_put (hnew : s.observations.get? id = none) {health : Table ComponentHealth.component}
    (component : Component) :
    Store.log ⟨s.observations.put ⟨id, o⟩, health⟩ component =
      s.log component ++ (if o.component = component then [o] else []) := by
  unfold Store.log
  dsimp only
  rw [Table.rows_put_of_new hnew, List.map_append, List.filter_append]
  by_cases hcomponent : o.component = component
  · simp [hcomponent]
  · simp [hcomponent]

theorem Faithful.observe (h : Faithful policy s) (fails : Bool) (id : String) (o : Observation) :
    Faithful policy (observe policy fails id o s).2 := by
  rcases @observe_cases policy s id o fails with
    hsame | ⟨hnew, hkept⟩
  · rw [hsame]
    exact h
  have hrecord : apply policy (s.read o.component) o
      = view policy o.component (s.log o.component ++ [o]) := by
    rw [h o.component]
    exact apply_view policy o.component (s.log o.component) o
  rw [hkept, hrecord]
  intro component
  rw [log_put hnew]
  unfold Store.read
  dsimp only
  rw [Table.get?_put, component_view]
  by_cases hcomponent : o.component = component
  · subst hcomponent
    rw [if_pos rfl, if_pos rfl]
    rfl
  · rw [if_neg hcomponent, if_neg hcomponent, List.append_nil]
    exact h component

theorem faithful_run (policy : HealthPolicy) (calls : List Call) :
    Faithful policy (Library.run (step policy) calls {}) := by
  refine run_invariant (fun s call h => ?_) (fun component => rfl)
  unfold step handle
  cases observationOf call.request with
  | error e => exact h
  | ok found => exact h.observe call.fails found.1 found.2

/-! ### Repeated reports -/

/-- What is kept is kept for good. -/
theorem step_keeps (call : Call) :
    s.observations.rows <+: (step policy s call).observations.rows := by
  unfold step handle
  cases observationOf call.request with
  | error e => exact List.prefix_rfl
  | ok found =>
    obtain ⟨id, o⟩ := found
    dsimp only
    rcases @observe_cases policy s id o call.fails with hsame | ⟨hnew, hkept⟩
    · exact hsame.symm ▸ List.prefix_rfl
    · rw [hkept]
      dsimp only
      rw [Table.rows_put_of_new hnew]
      exact List.prefix_append _ _

theorem run_keeps (calls : List Call) :
    s.observations.rows <+: (Library.run (step policy) calls s).observations.rows := by
  induction calls generalizing s with
  | nil => exact List.prefix_rfl
  | cons call calls ih => exact (step_keeps call).trans ih

/-- A report that was taken may be repeated at any later time: it is answered with the record
and changes nothing. -/
theorem repeated {call : Call} {record : ComponentHealth}
    (hrequest : observationOf call.request = .ok (id, o))
    (h : (handle policy s call).1 = .ok record) (later : List Call) :
    let s' := Library.run (step policy) later (step policy s call)
    handle policy s' { call with fails := false } = (.ok (s'.read o.component), s') := by
  have hrow : (⟨id, o⟩ : ObservationRow) ∈ (step policy s call).observations := by
    unfold step
    unfold handle at h ⊢
    rw [hrequest] at h ⊢
    dsimp only at h ⊢
    unfold observe at h ⊢
    by_cases hfails : call.fails = true
    · rw [if_pos hfails] at h
      cases h
    rw [if_neg hfails] at h ⊢
    cases hget : s.observations.get? id with
    | none => exact Table.mem_put.mpr (Or.inl rfl)
    | some previous =>
      rw [hget] at h
      dsimp only at h ⊢
      by_cases hsame : previous.observation ≠ o
      · rw [if_pos hsame] at h
        cases h
      · rw [if_neg hsame]
        obtain ⟨hmem, hid⟩ := Table.get?_eq_some.mp hget
        have hprevious : previous = ⟨id, o⟩ := by
          cases previous
          cases hid
          cases not_not.mp hsame
          rfl
        exact hprevious ▸ hmem
  have hstill : (⟨id, o⟩ : ObservationRow) ∈
      (Library.run (step policy) later (step policy s call)).observations :=
    (run_keeps later).subset hrow
  dsimp only
  unfold handle
  rw [hrequest]
  dsimp only
  unfold observe
  rw [if_neg (by simp), Table.get?_eq_some.mpr ⟨hstill, rfl⟩]
  dsimp only
  rw [if_neg (not_not.mpr rfl)]

/-! ### What HEALTHY means -/

/-- No condition that was reported claims to be healthy. -/
def Honest (s : Store) : Prop :=
  ∀ row ∈ s.observations, ∀ reason details,
    row.observation.facts ≠ .state .healthy reason details

theorem factsOf_honest {report : Report} {facts : Facts} (h : factsOf report = .ok facts)
    (reason : Option String) (details : Details) : facts ≠ .state .healthy reason details := by
  rintro rfl
  cases report with
  | success latencyMs details' =>
    obtain ⟨ms, -, h⟩ := bind_eq_ok.mp h
    cases h
  | error kind httpStatus timedOut componentError reason' latencyMs details' =>
    unfold factsOf at h
    cases componentError with
    | none =>
      dsimp only at h
      by_cases hkind : kind = some NOT_CONFIGURED
      · rw [if_pos hkind] at h
        cases h
      · rw [if_neg hkind] at h
        obtain ⟨ms, -, h⟩ := bind_eq_ok.mp h
        cases h
    | some componentError =>
      obtain ⟨u, -, h⟩ := bind_eq_ok.mp h
      obtain ⟨ms, -, h⟩ := bind_eq_ok.mp h
      cases h
  | state status reason' details' =>
    obtain ⟨u, hrequired, h⟩ := bind_eq_ok.mp h
    cases h
    rw [require_eq_ok] at hrequired
    simp at hrequired
  | heartbeat => cases h
  | progress stage reference =>
    obtain ⟨name', -, h⟩ := bind_eq_ok.mp h
    obtain ⟨reference', -, h⟩ := bind_eq_ok.mp h
    cases h

theorem honest_run (policy : HealthPolicy) (calls : List Call) :
    Honest (Library.run (step policy) calls {}) := by
  refine run_invariant (fun s call h => ?_) (fun row hrow => absurd hrow List.not_mem_nil)
  unfold step handle
  cases hrequest : observationOf call.request with
  | error e => exact h
  | ok found =>
    obtain ⟨id, o⟩ := found
    obtain ⟨facts, hfacts, hrest⟩ := bind_eq_ok.mp hrequest
    obtain ⟨component, -, hrest⟩ := bind_eq_ok.mp hrest
    obtain ⟨provider, -, hrest⟩ := bind_eq_ok.mp hrest
    obtain ⟨observationId, -, hrest⟩ := bind_eq_ok.mp hrest
    cases hrest
    dsimp only
    rcases @observe_cases policy s id
        ⟨⟨component, provider⟩, call.request.observedAt, facts⟩ call.fails with hsame | ⟨-, hkept⟩
    · rw [hsame]
      exact h
    · rw [hkept]
      intro row hrow
      rcases Table.mem_put.mp hrow with rfl | ⟨hrow, -⟩
      · exact factsOf_honest hfacts
      · exact h row hrow

/-- HEALTHY is projected from a healthy record only, which was checked lately and whose
heartbeat and progress are as they should be where there is any. -/
theorem project_healthy {record : ComponentHealth} {now : Instant} :
    (project policy record now).1 = .healthy ↔ record.status = .healthy ∧
      (∀ at_ ∈ record.lastCheckedAt, seconds (now - at_) ≤ policy.progressStaleAfterSeconds) ∧
      (∀ at_ ∈ record.heartbeatAt,
        fresh (seconds (now - at_)) policy.heartbeatStaleAfterSeconds = true) ∧
      ∀ at_ ∈ record.progressAt,
        fresh (seconds (now - at_)) policy.progressStaleAfterSeconds = true := by
  unfold project
  cases record.heartbeatAt <;> cases record.progressAt <;> cases record.lastCheckedAt <;>
    simp only [Option.map_none, Option.map_some, Option.any_none, Option.any_some] <;>
    grind

end Runs

/-- The newest observation of a component of one kind: as late as all that arrived before it
and later than all that arrived after it. -/
def NewestOf (s : Store) (component : Component) (kind : Facts → Bool) (o : Observation) : Prop :=
  Newest Observation.observedAt ((s.log component).filter (fun o => kind o.facts)) o

theorem mem_newestOf {s : Store} {component : Component} {kind : Facts → Bool}
    {P : Instant → Prop} :
    (∀ at_ ∈ (newestOf kind (s.log component)).map Observation.observedAt, P at_) ↔
      ∀ o, NewestOf s component kind o → P o.observedAt := by
  constructor
  · exact fun h o ho => h o.observedAt (Option.mem_map.mpr ⟨o, newest_eq_some.mpr ho, rfl⟩)
  · intro h at_ hat
    obtain ⟨o, ho, rfl⟩ := Option.mem_map.mp hat
    exact h o (newest_eq_some.mp ho)

theorem status_healthy {policy : HealthPolicy} {s : Store} {component : Component}
    (hhonest : Honest s) :
    (view policy component (s.log component)).status = .healthy ↔
      ∃ o, NewestOf s component Facts.isOutcome o ∧ o.facts.isSuccess = true := by
  have hlast : (effective (s.log component)).getLast?
      = newestOf Facts.isOutcome (s.log component) := rfl
  have hstatus : ∀ o ∈ s.log component, statusOf policy (errorsSince (s.log component)) o.facts
      = .healthy ↔ o.facts.isSuccess = true := by
    intro o ho
    obtain ⟨row, hrow, rfl⟩ := List.mem_map.mp (List.mem_filter.mp ho).1
    have hrow' := hhonest row hrow
    cases hfacts : row.observation.facts with
    | success latencyMs details => simp [statusOf, Facts.isSuccess]
    | error latencyMs errorType legacyErrorName reason details =>
      unfold statusOf Facts.isSuccess
      split_ifs <;> simp
    | state status reason details =>
      have hne : status ≠ .healthy := by
        rintro rfl
        exact hrow' reason details hfacts
      simp [statusOf, Facts.isSuccess, hne]
    | heartbeat => simp [statusOf, Facts.isSuccess]
    | progress stage reference => simp [statusOf, Facts.isSuccess]
  unfold view
  dsimp only
  rw [hlast]
  unfold NewestOf
  simp only [newest_eq_some.symm]
  change _ ↔ ∃ o, newestOf Facts.isOutcome (s.log component) = some o ∧ _
  cases hnewest : newestOf Facts.isOutcome (s.log component) with
  | none => simp
  | some o =>
    have hmem : o ∈ s.log component := by
      obtain ⟨before, after, hl, -⟩ := newest_spec hnewest
      have : o ∈ (s.log component).filter (fun o => o.facts.isOutcome) := by
        rw [hl]
        simp
      exact (List.mem_filter.mp this).1
    simpa using hstatus o hmem

/-- Whatever is reported, in whatever order it arrives and however often it is repeated, the
record of a component is the view of the distinct observations that were taken. It projects
HEALTHY exactly when the newest outcome is a success that is not too old and the newest
heartbeat and the newest progress, where there are any, are neither old nor in the future. -/
theorem system_health_sound (policy : HealthPolicy) (calls : List Call) :
    let s := Library.run (step policy) calls {}
    (∀ component, s.read component = view policy component (s.log component)) ∧
    (∀ component now, (project policy (s.read component) now).1 = .healthy ↔
      (∃ o, NewestOf s component Facts.isOutcome o ∧ o.facts.isSuccess = true) ∧
      (∀ o, NewestOf s component Facts.isOutcome o →
        seconds (now - o.observedAt) ≤ policy.progressStaleAfterSeconds) ∧
      (∀ o, NewestOf s component Facts.isHeartbeat o →
        fresh (seconds (now - o.observedAt)) policy.heartbeatStaleAfterSeconds = true) ∧
      ∀ o, NewestOf s component Facts.isProgress o →
        fresh (seconds (now - o.observedAt)) policy.progressStaleAfterSeconds = true) ∧
    ∀ call id o record, observationOf call.request = .ok (id, o) →
      (handle policy s call).1 = .ok record → ∀ later,
        let s' := Library.run (step policy) later (step policy s call)
        handle policy s' { call with fails := false } = (.ok (s'.read o.component), s') := by
  have hfaithful := faithful_run policy calls
  have hhonest := honest_run policy calls
  refine ⟨hfaithful, fun component now => ?_, fun call id o record hrequest h later => ?_⟩
  · rw [project_healthy, hfaithful component, status_healthy hhonest]
    exact and_congr_right fun _ => and_congr mem_newestOf (and_congr mem_newestOf mem_newestOf)
  · exact repeated hrequest h later

end MarketSystem.SystemHealth
