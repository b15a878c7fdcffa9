import MarketSystem.Library.SlidingBudget
import Mathlib.Data.Rat.Floor
import Mathlib.Logic.Function.Basic

/-!
# The dashboard login

A visit is one run of `require_dashboard_access` by one browser session. The process holds one
`LoginLimiter`; every session has a state of its own. Time is `time.monotonic`, in seconds.
-/
namespace MarketSystem.Auth

open Library SlidingBudget

def minPasswordLength : ℕ := 12
def sessionMaxFailures : ℕ := 5
def sessionLockoutSeconds : ℚ := 300
def globalMaxFailures : ℕ := 20
def globalWindowSeconds : ℚ := 900
def globalLockoutSeconds : ℚ := 900
def defaultSessionTtlSeconds : ℕ := 8 * 3600
def sessionTtlBounds : ℕ × ℕ := (300, 7 * 24 * 3600)

/-- `LoginLimiter`: `failures` is the deque, oldest first. -/
structure LoginLimiter where
  maxFailures : ℕ := globalMaxFailures
  window : ℚ := globalWindowSeconds
  lockout : ℚ := globalLockoutSeconds
  failures : List ℚ := []
  lockedUntil : ℚ := 0

namespace LoginLimiter

/-- `locked_until` -/
def lockedUntilAt (limiter : LoginLimiter) (now : ℚ) : ℚ :=
  if now < limiter.lockedUntil then limiter.lockedUntil else 0

/-- `record_failure` -/
def recordFailure (limiter : LoginLimiter) (now : ℚ) : LoginLimiter :=
  let failures := limiter.failures.dropWhile (fun t => decide (limiter.window ≤ now - t)) ++ [now]
  if limiter.maxFailures ≤ failures.length then
    { limiter with failures := [], lockedUntil := now + limiter.lockout }
  else { limiter with failures := failures }

def limits (limiter : LoginLimiter) : Limits ℚ :=
  ⟨limiter.maxFailures, limiter.window, limiter.lockout⟩

def budget (limiter : LoginLimiter) : Budget ℚ := ⟨limiter.failures, limiter.lockedUntil⟩

@[simp] theorem recordFailure_limits (limiter : LoginLimiter) (now : ℚ) :
    (limiter.recordFailure now).limits = limiter.limits := by
  simp only [recordFailure, limits]
  split <;> rfl

/-- A recorded failure spends the budget of the window. -/
theorem recordFailure_budget (limiter : LoginLimiter) (now : ℚ) :
    (limiter.recordFailure now).budget = limiter.limits.spend limiter.budget now := by
  simp only [recordFailure, budget]
  by_cases hfull : limiter.maxFailures ≤
      (limiter.failures.dropWhile (fun t => decide (limiter.window ≤ now - t)) ++ [now]).length
  · rw [if_pos hfull]
    exact (if_pos hfull).symm
  · rw [if_neg hfull]
    exact (if_neg hfull).symm

end LoginLimiter

/-- What the dashboard reads of its environment. -/
structure Env where
  password : Option String
  /-- `remote_dashboard_enabled` -/
  remote : Bool
  /-- `_loopback_only` -/
  loopbackOnly : Bool
  /-- `AI_FLOOR_DASHBOARD_SESSION_TTL_SECONDS`, when it is set and not empty -/
  sessionTtl : Option String

/-- `password_strong_enough` -/
def passwordStrongEnough (password : String) : Bool := decide (minPasswordLength ≤ password.length)

/-- `int(raw)` of a text for which `raw.isdigit()` holds. -/
def digits? (raw : String) : Option ℕ :=
  if raw ≠ "" ∧ raw.toList.all Char.isDigit then
    some (raw.toList.foldl (fun n c => 10 * n + (c.toNat - 48)) 0)
  else none

/-- `session_ttl_seconds` -/
def sessionTtlSeconds (env : Env) : Except String ℕ :=
  let message := "AI_FLOOR_DASHBOARD_SESSION_TTL_SECONDS must be an integer in " ++
    "[" ++ toString sessionTtlBounds.1 ++ ", " ++ toString sessionTtlBounds.2 ++ "]"
  match env.sessionTtl with
  | none => .ok defaultSessionTtlSeconds
  | some raw =>
    match digits? raw with
    | none => .error message
    | some seconds =>
      if sessionTtlBounds.1 ≤ seconds ∧ seconds ≤ sessionTtlBounds.2 then .ok seconds
      else .error message

/-- The `session_state` entries of the login. -/
structure Session where
  authenticated : Bool := false
  expiresAt : Option ℚ := none
  failures : ℕ := 0
  lockedUntil : Option ℚ := none

/-- One run of the page by one browser session. `remembered`: the request carries a valid
remember cookie. `entrar`: the button of the form is pressed with the text `supplied`. -/
structure Attempt where
  session : String
  env : Env
  now : ℚ
  remembered : Bool
  entrar : Bool
  supplied : String

inductive Answer where
  /-- A dashboard without a password on a loopback address. -/
  | loopback
  | authenticated
  | remembered
  | denied (message : String)
  | form
  /-- The supplied password was compared. -/
  | compared (right : Bool)
deriving DecidableEq

/-- `_login_form` -/
def loginForm (limiter : LoginLimiter) (state : Session) (password : String) (ttl : ℕ)
    (a : Attempt) : LoginLimiter × Session × Answer :=
  let lockedUntil := max (limiter.lockedUntilAt a.now) (state.lockedUntil.getD 0)
  if a.now < lockedUntil then
    (limiter, state, .denied ("Demasiados intentos fallidos. Intenta de nuevo en " ++
      toString ⌈lockedUntil - a.now⌉ ++ " s."))
  else if a.entrar then
    if a.supplied = password then
      (limiter, { authenticated := true, expiresAt := some (a.now + ttl), failures := 0
                  lockedUntil := none }, .compared true)
    else
      let failures := state.failures + 1
      (limiter.recordFailure a.now,
        if sessionMaxFailures ≤ failures then
          { state with failures := 0, lockedUntil := some (a.now + sessionLockoutSeconds) }
        else { state with failures := failures }, .compared false)
  else (limiter, state, .form)

/-- `require_dashboard_access` -/
def requireDashboardAccess (limiter : LoginLimiter) (state : Session) (a : Attempt) :
    LoginLimiter × Session × Answer :=
  match a.env.password.filter (· ≠ "") with
  | none =>
    if ¬a.env.remote ∧ a.env.loopbackOnly then (limiter, state, .loopback)
    else (limiter, state, .denied ("Dashboard access is not configured: set " ++
      "AI_FLOOR_DASHBOARD_PASSWORD (or run `streamlit run ui/app.py " ++
      "--server.address=127.0.0.1` for local use)"))
  | some password =>
    if ¬passwordStrongEnough password then
      (limiter, state, .denied ("Dashboard access is misconfigured: " ++
        "AI_FLOOR_DASHBOARD_PASSWORD must have at least " ++ toString minPasswordLength ++
        " characters"))
    else
      match sessionTtlSeconds a.env with
      | .error e => (limiter, state, .denied ("Dashboard access is misconfigured: " ++ e))
      | .ok ttl =>
        if state.authenticated ∧ state.expiresAt.any (fun t => decide (a.now < t)) then
          (limiter, state, .authenticated)
        else
          let expired := { state with authenticated := false, expiresAt := none }
          if a.remembered then
            (limiter, { expired with authenticated := true, expiresAt := some (a.now + ttl)
                                     failures := 0 }, .remembered)
          else loginForm limiter expired password ttl a

/-- The process: one limiter, and a state for each browser session. -/
structure Dashboard where
  limiter : LoginLimiter := {}
  sessions : String → Session := fun _ => {}

def Dashboard.visit (d : Dashboard) (a : Attempt) : Dashboard × Answer :=
  let r := requireDashboardAccess d.limiter (d.sessions a.session) a
  (⟨r.1, Function.update d.sessions a.session r.2.1⟩, r.2.2)

/-- One attempt of a run, with the process as it found it. -/
structure Visit where
  before : Dashboard
  attempt : Attempt

namespace Visit

def after (v : Visit) : Dashboard := (v.before.visit v.attempt).1

def answer (v : Visit) : Answer := (v.before.visit v.attempt).2

/-- A wrong password was compared. -/
def wrong (v : Visit) : Bool := v.answer = .compared false

/-- A wrong password of this session was compared. -/
def wrongOf (session : String) (v : Visit) : Bool := v.attempt.session = session ∧ v.wrong

/-- The session logged in, with the password or with its cookie. -/
def loginOf (session : String) (v : Visit) : Bool :=
  v.attempt.session = session ∧ (v.answer = .compared true ∨ v.answer = .remembered)

end Visit

/-- The visits of a run, one after another. -/
def visits : Dashboard → List Attempt → List Visit
  | _, [] => []
  | d, a :: attempts => ⟨d, a⟩ :: visits (d.visit a).1 attempts

/-! ### One visit -/

/-- Neither lock holds. -/
structure Free (limiter : LoginLimiter) (state : Session) (now : ℚ) : Prop where
  process : limiter.lockedUntil ≤ now
  session : ∀ lock, state.lockedUntil = some lock → lock ≤ now

/-- Everything a visit can do to the limiter and to the failures of its session. -/
inductive Outcome (limiter : LoginLimiter) (state : Session) (now : ℚ) :
    LoginLimiter × Session × Answer → Prop
  | idle {state' : Session} {answer : Answer} (failures : state'.failures = state.failures)
      (lock : state'.lockedUntil = state.lockedUntil) (compares : ∀ right, answer ≠ .compared right)
      (login : answer ≠ .remembered) : Outcome limiter state now (limiter, state', answer)
  | remembered {state' : Session} (failures : state'.failures = 0)
      (lock : state'.lockedUntil = state.lockedUntil) :
      Outcome limiter state now (limiter, state', .remembered)
  | right {state' : Session} (free : Free limiter state now) (failures : state'.failures = 0)
      (lock : state'.lockedUntil = none) :
      Outcome limiter state now (limiter, state', .compared true)
  | wrong {state' : Session} (free : Free limiter state now)
      (few : state.failures + 1 < sessionMaxFailures)
      (failures : state'.failures = state.failures + 1)
      (lock : state'.lockedUntil = state.lockedUntil) :
      Outcome limiter state now (limiter.recordFailure now, state', .compared false)
  | locks {state' : Session} (free : Free limiter state now)
      (many : sessionMaxFailures ≤ state.failures + 1) (failures : state'.failures = 0)
      (lock : state'.lockedUntil = some (now + sessionLockoutSeconds)) :
      Outcome limiter state now (limiter.recordFailure now, state', .compared false)

variable {limiter : LoginLimiter} {state : Session} {d : Dashboard} {attempts : List Attempt}
  {session : String}

theorem free_of_not_locked {now : ℚ}
    (h : ¬now < max (limiter.lockedUntilAt now) (state.lockedUntil.getD 0)) :
    Free limiter state now := by
  rw [lt_max_iff, not_or] at h
  obtain ⟨hprocess, hsession⟩ := h
  constructor
  · by_contra hlocked
    have hlt : now < limiter.lockedUntil := not_le.mp hlocked
    rw [LoginLimiter.lockedUntilAt, if_pos hlt] at hprocess
    exact hprocess hlt
  · intro lock hlock
    rw [hlock] at hsession
    exact not_lt.mp hsession

theorem loginForm_outcome (limiter : LoginLimiter) (state : Session) (password : String) (ttl : ℕ)
    (a : Attempt) : Outcome limiter state a.now (loginForm limiter state password ttl a) := by
  unfold loginForm
  by_cases hlocked : a.now < max (limiter.lockedUntilAt a.now) (state.lockedUntil.getD 0)
  · simp only [if_pos hlocked]
    exact .idle rfl rfl (by simp) (by simp)
  · have hfree := free_of_not_locked hlocked
    simp only [if_neg hlocked]
    by_cases hpressed : a.entrar = true
    · rw [if_pos hpressed]
      by_cases hright : a.supplied = password
      · rw [if_pos hright]
        exact .right hfree rfl rfl
      · rw [if_neg hright]
        by_cases hmany : sessionMaxFailures ≤ state.failures + 1
        · rw [if_pos hmany]
          exact .locks hfree hmany rfl rfl
        · rw [if_neg hmany]
          exact .wrong hfree (not_le.mp hmany) rfl rfl
    · rw [if_neg hpressed]
      exact .idle rfl rfl (by simp) (by simp)

theorem requireDashboardAccess_outcome (limiter : LoginLimiter) (state : Session) (a : Attempt) :
    Outcome limiter state a.now (requireDashboardAccess limiter state a) := by
  unfold requireDashboardAccess
  cases a.env.password.filter (· ≠ "") with
  | none =>
    by_cases hlocal : ¬a.env.remote ∧ a.env.loopbackOnly
    · simp only [if_pos hlocal]
      exact .idle rfl rfl (by simp) (by simp)
    · simp only [if_neg hlocal]
      exact .idle rfl rfl (by simp) (by simp)
  | some password =>
    by_cases hweak : ¬passwordStrongEnough password
    · simp only [if_pos hweak]
      exact .idle rfl rfl (by simp) (by simp)
    · simp only [if_neg hweak]
      cases sessionTtlSeconds a.env with
      | error e => exact .idle rfl rfl (by simp) (by simp)
      | ok ttl =>
        by_cases hopen : state.authenticated ∧ state.expiresAt.any (fun t => decide (a.now < t))
        · simp only [if_pos hopen]
          exact .idle rfl rfl (by simp) (by simp)
        · simp only [if_neg hopen]
          by_cases hremembered : a.remembered = true
          · rw [if_pos hremembered]
            exact .remembered rfl rfl
          · rw [if_neg hremembered]
            -- an expired session keeps its failures and its lock
            have hform := loginForm_outcome limiter
              { state with authenticated := false, expiresAt := none } password ttl a
            generalize loginForm limiter { state with authenticated := false, expiresAt := none }
              password ttl a = answered at hform ⊢
            cases hform with
            | idle failures lock compares login => exact .idle failures lock compares login
            | remembered failures lock => exact .remembered failures lock
            | right free failures lock => exact .right ⟨free.1, free.2⟩ failures lock
            | wrong free few failures lock => exact .wrong ⟨free.1, free.2⟩ few failures lock
            | locks free many failures lock => exact .locks ⟨free.1, free.2⟩ many failures lock

namespace Visit

variable {v : Visit}

theorem outcome (v : Visit) :
    Outcome v.before.limiter (v.before.sessions v.attempt.session) v.attempt.now
      (v.after.limiter, v.after.sessions v.attempt.session, v.answer) := by
  have h := requireDashboardAccess_outcome v.before.limiter
    (v.before.sessions v.attempt.session) v.attempt
  have hself : v.after.sessions v.attempt.session =
      (requireDashboardAccess v.before.limiter (v.before.sessions v.attempt.session)
        v.attempt).2.1 := Function.update_self ..
  rw [hself]
  exact h

/-- Only the session of the visit changes. -/
theorem after_other (h : session ≠ v.attempt.session) :
    v.after.sessions session = v.before.sessions session :=
  Function.update_of_ne h ..

/-- A compared password finds both locks over. -/
theorem free_of_compared {right : Bool} (h : v.answer = .compared right) :
    Free v.before.limiter (v.before.sessions v.attempt.session) v.attempt.now := by
  have hcases := v.outcome
  rw [h] at hcases
  generalize v.after.limiter = limiter, v.after.sessions v.attempt.session = state at hcases
  cases hcases with
  | idle failures lock compares => exact absurd rfl (compares right)
  | right free => exact free
  | wrong free => exact free
  | locks free => exact free

/-- Whatever a visit is, only a wrong password touches the limiter. -/
theorem limiter_of_not_wrong (h : v.wrong = false) : v.after.limiter = v.before.limiter := by
  have hcases := v.outcome
  unfold wrong at h
  generalize v.after.limiter = limiter, v.after.sessions v.attempt.session = state,
    v.answer = answer at hcases h ⊢
  cases hcases <;> simp_all

theorem limiter_of_wrong (h : v.wrong = true) :
    v.after.limiter = v.before.limiter.recordFailure v.attempt.now := by
  have hanswer : v.answer = .compared false := of_decide_eq_true h
  have hcases := v.outcome
  rw [hanswer] at hcases
  generalize v.after.limiter = limiter at hcases ⊢
  cases hcases with
  | idle failures lock compares => exact absurd rfl (compares false)
  | wrong => rfl
  | locks => rfl

end Visit

end MarketSystem.Auth
