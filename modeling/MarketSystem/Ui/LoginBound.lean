import MarketSystem.Ui.Auth
import Mathlib.Data.List.Infix

/-!
# How many passwords a dashboard compares

Over any run of visits with a clock that does not go back. The wrong passwords of the whole
process spend one sliding budget. Those of one session are counted until it is locked or
logs in.
-/
namespace MarketSystem.Auth

open Library SlidingBudget

variable {d : Dashboard} {attempts : List Attempt} {session : String} {v : Visit}

/-- The process after a run. -/
def final (d : Dashboard) (attempts : List Attempt) : Dashboard :=
  attempts.foldl (fun d a => (d.visit a).1) d

theorem attempt_mem (h : v ∈ visits d attempts) : v.attempt ∈ attempts := by
  induction attempts generalizing d with
  | nil => cases h
  | cons a attempts ih =>
    cases List.mem_cons.mp h with
    | inl hhead => exact hhead ▸ List.mem_cons_self
    | inr htail => exact List.mem_cons_of_mem a (ih htail)

/-- A run cut in two is two runs. -/
theorem visits_eq_append {earlier later : List Visit} (h : visits d attempts = earlier ++ later) :
    ∃ first rest, attempts = first ++ rest ∧ visits d first = earlier ∧
      visits (final d first) rest = later := by
  induction earlier generalizing d attempts with
  | nil => exact ⟨[], attempts, rfl, rfl, h⟩
  | cons v earlier ih =>
    cases attempts with
    | nil => cases h
    | cons a attempts =>
      obtain ⟨rfl, htail⟩ := List.cons.inj h
      obtain ⟨first, rest, rfl, hfirst, hrest⟩ := ih htail
      exact ⟨a :: first, rest, rfl, by rw [visits, hfirst], hrest⟩

/-- What follows a visit is a run from where it left the process. -/
theorem visits_after {earlier later : List Visit}
    (h : visits d attempts = earlier ++ v :: later) :
    ∃ rest, rest <:+ attempts ∧ visits v.after rest = later := by
  obtain ⟨first, rest, rfl, -, hrest⟩ := visits_eq_append h
  cases rest with
  | nil => cases hrest
  | cons a rest =>
    obtain ⟨rfl, htail⟩ := List.cons.inj hrest
    exact ⟨rest, ⟨first ++ [a], by simp⟩, htail⟩

/-! ### The budget of the process -/

/-- When wrong passwords were compared. -/
def wrongTimes (run : List Visit) : List ℚ := (run.filter Visit.wrong).map (·.attempt.now)

/-- A run spends the budget of the process with its wrong passwords and nothing else. -/
theorem tracks_visits {l : Limits ℚ} (hlockout : l.window ≤ l.lockout) {times : List ℚ}
    (htracks : Tracks l times d.limiter.budget) (hlimits : d.limiter.limits = l)
    (hpast : ∀ t ∈ times, ∀ a ∈ attempts, t ≤ a.now)
    (hclock : (attempts.map (·.now)).Pairwise (· ≤ ·)) :
    ∃ b, Tracks l (times ++ wrongTimes (visits d attempts)) b := by
  induction attempts generalizing d times with
  | nil => exact ⟨d.limiter.budget, by simpa [visits, wrongTimes] using htracks⟩
  | cons a attempts ih =>
    obtain ⟨hfirst, hrest⟩ := List.pairwise_cons.mp hclock
    have hlater : ∀ a' ∈ attempts, a.now ≤ a'.now := fun a' ha' =>
      hfirst a'.now (List.mem_map_of_mem ha')
    have hpast' : ∀ t ∈ times, ∀ a' ∈ attempts, t ≤ a'.now := fun t ht a' ha' =>
      hpast t ht a' (List.mem_cons_of_mem a ha')
    cases hwrong : (⟨d, a⟩ : Visit).wrong with
    | false =>
      have hsame : (d.visit a).1.limiter = d.limiter := Visit.limiter_of_not_wrong hwrong
      have hrun := ih (by rw [hsame]; exact htracks) (by rw [hsame]; exact hlimits) hpast' hrest
      simpa [visits, wrongTimes, hwrong] using hrun
    | true =>
      have hspent : (d.visit a).1.limiter = d.limiter.recordFailure a.now :=
        Visit.limiter_of_wrong hwrong
      have hfree : Free d.limiter (d.sessions a.session) a.now :=
        Visit.free_of_compared (of_decide_eq_true hwrong)
      have hstep := htracks.spend hlockout
        (fun t ht => hpast t ht a List.mem_cons_self) hfree.process
      rw [← hlimits, ← LoginLimiter.recordFailure_budget, ← hspent, hlimits] at hstep
      have hpast'' : ∀ t ∈ times ++ [a.now], ∀ a' ∈ attempts, t ≤ a'.now := by
        intro t ht a' ha'
        cases List.mem_append.mp ht with
        | inl hold => exact hpast' t hold a' ha'
        | inr hself => exact (List.mem_singleton.mp hself) ▸ hlater a' ha'
      have hrun := ih hstep (by rw [hspent, LoginLimiter.recordFailure_limits, hlimits]) hpast''
        hrest
      simpa [visits, wrongTimes, hwrong] using hrun

/-! ### The failures of a session -/

namespace Visit

theorem failures_of_neither (hwrong : v.wrongOf session = false)
    (hlogin : v.loginOf session = false) :
    (v.after.sessions session).failures = (v.before.sessions session).failures := by
  by_cases hsession : session = v.attempt.session
  · subst hsession
    have hcases := v.outcome
    unfold wrongOf wrong at hwrong
    unfold loginOf at hlogin
    generalize v.after.limiter = limiter, v.after.sessions v.attempt.session = state,
      v.answer = answer at hcases hwrong hlogin ⊢
    cases hcases <;> simp_all
  · rw [v.after_other hsession]

theorem lock_of_not_compared (h : v.attempt.session = session → ∀ right, v.answer ≠ .compared right) :
    (v.after.sessions session).lockedUntil = (v.before.sessions session).lockedUntil := by
  by_cases hsession : session = v.attempt.session
  · subst hsession
    have hno := h rfl
    have hcases := v.outcome
    generalize v.after.limiter = limiter, v.after.sessions v.attempt.session = state,
      v.answer = answer at hcases hno ⊢
    cases hcases with
    | idle failures lock => exact lock
    | remembered failures lock => exact lock
    | right => exact absurd rfl (hno true)
    | wrong => exact absurd rfl (hno false)
    | locks => exact absurd rfl (hno false)
  · rw [v.after_other hsession]

/-- A session never keeps five failures. -/
theorem failures_lt (h : (v.before.sessions session).failures < sessionMaxFailures) :
    (v.after.sessions session).failures < sessionMaxFailures := by
  by_cases hsession : session = v.attempt.session
  · subst hsession
    have hcases := v.outcome
    generalize v.after.limiter = limiter, v.after.sessions v.attempt.session = state,
      v.answer = answer at hcases ⊢
    cases hcases with
    | idle failures => exact failures ▸ h
    | remembered failures => exact failures ▸ Nat.zero_lt_of_lt h
    | right free failures => exact failures ▸ Nat.zero_lt_of_lt h
    | wrong free few failures => exact failures ▸ few
    | locks free many failures => exact failures ▸ Nat.zero_lt_of_lt h
  · rw [v.after_other hsession]
    exact h

/-- A wrong password is the fifth, and locks the session, or is counted. -/
theorem wrongOf_cases (h : v.wrongOf session = true) :
    (sessionMaxFailures ≤ (v.before.sessions session).failures + 1 ∧
      (v.after.sessions session).lockedUntil = some (v.attempt.now + sessionLockoutSeconds)) ∨
    (v.after.sessions session).failures = (v.before.sessions session).failures + 1 := by
  obtain ⟨rfl, hwrong⟩ := of_decide_eq_true h
  have hanswer : v.answer = .compared false := of_decide_eq_true hwrong
  have hcases := v.outcome
  rw [hanswer] at hcases
  generalize v.after.limiter = limiter, v.after.sessions v.attempt.session = state at hcases ⊢
  cases hcases with
  | idle failures lock compares => exact absurd rfl (compares false)
  | wrong free few failures => exact .inr failures
  | locks free many failures lock => exact .inl ⟨many, lock⟩

end Visit

theorem failures_lt_final (h : (d.sessions session).failures < sessionMaxFailures) :
    ((final d attempts).sessions session).failures < sessionMaxFailures := by
  induction attempts generalizing d with
  | nil => exact h
  | cons a attempts ih => exact ih (Visit.failures_lt (v := ⟨d, a⟩) h)

/-- Without a login of the session, its fifth failure locks it. -/
theorem exists_lock (hfew : (d.sessions session).failures < sessionMaxFailures)
    (hlogin : ∀ v ∈ visits d attempts, v.loginOf session = false)
    (hmany : sessionMaxFailures ≤
      (d.sessions session).failures + (visits d attempts).countP (Visit.wrongOf session)) :
    ∃ earlier v later, visits d attempts = earlier ++ v :: later ∧ v.wrongOf session = true ∧
      (d.sessions session).failures + earlier.countP (Visit.wrongOf session) + 1
        = sessionMaxFailures ∧
      (v.after.sessions session).lockedUntil = some (v.attempt.now + sessionLockoutSeconds) := by
  induction attempts generalizing d with
  | nil => simp [visits] at hmany; omega
  | cons a attempts ih =>
    have hhead := hlogin ⟨d, a⟩ List.mem_cons_self
    have htail : ∀ v ∈ visits (d.visit a).1 attempts, v.loginOf session = false :=
      fun v hv => hlogin v (List.mem_cons_of_mem _ hv)
    have hfew' : ((d.visit a).1.sessions session).failures < sessionMaxFailures :=
      Visit.failures_lt (v := ⟨d, a⟩) hfew
    rw [visits, List.countP_cons] at hmany
    cases hwrong : (⟨d, a⟩ : Visit).wrongOf session with
    | false =>
      have hsame : ((d.visit a).1.sessions session).failures = (d.sessions session).failures :=
        Visit.failures_of_neither hwrong hhead
      simp only [hwrong, Bool.false_eq_true, if_false, Nat.add_zero] at hmany
      obtain ⟨earlier, v, later, hvisits, hv, hcount, hlock⟩ :=
        ih hfew' htail (by rw [hsame]; exact hmany)
      refine ⟨⟨d, a⟩ :: earlier, v, later, by rw [visits, hvisits]; rfl, hv, ?_, hlock⟩
      rw [List.countP_cons_of_neg (by simp [hwrong]), ← hsame]
      exact hcount
    | true =>
      simp only [hwrong, if_true] at hmany
      cases Visit.wrongOf_cases hwrong with
      | inl hlocks =>
        have hle : sessionMaxFailures ≤ (d.sessions session).failures + 1 := hlocks.1
        exact ⟨[], ⟨d, a⟩, _, rfl, hwrong, by rw [List.countP_nil]; omega, hlocks.2⟩
      | inr hcounted =>
        have hcounted' : ((d.visit a).1.sessions session).failures =
          (d.sessions session).failures + 1 := hcounted
        obtain ⟨earlier, v, later, hvisits, hv, hcount, hlock⟩ :=
          ih hfew' htail (by rw [hcounted']; omega)
        refine ⟨⟨d, a⟩ :: earlier, v, later, by rw [visits, hvisits]; rfl, hv, ?_, hlock⟩
        rw [List.countP_cons_of_pos hwrong]
        omega

/-- A locked session compares nothing before its lock is over. -/
theorem compared_after_lock {lock : ℚ} (hlock : (d.sessions session).lockedUntil = some lock)
    (hclock : (attempts.map (·.now)).Pairwise (· ≤ ·)) (hv : v ∈ visits d attempts)
    (hsession : v.attempt.session = session) {right : Bool} (hright : v.answer = .compared right) :
    lock ≤ v.attempt.now := by
  induction attempts generalizing d with
  | nil => cases hv
  | cons a attempts ih =>
    obtain ⟨hfirst, hrest⟩ := List.pairwise_cons.mp hclock
    by_cases hcompares : a.session = session ∧ ∃ r, (⟨d, a⟩ : Visit).answer = .compared r
    · obtain ⟨hsame, r, hr⟩ := hcompares
      have hover : lock ≤ a.now :=
        (Visit.free_of_compared hr).session lock (by subst hsame; exact hlock)
      cases List.mem_cons.mp hv with
      | inl hhead => exact hhead ▸ hover
      | inr htail => exact hover.trans (hfirst _ (List.mem_map_of_mem (attempt_mem htail)))
    · have hkeeps : ((d.visit a).1.sessions session).lockedUntil =
          (d.sessions session).lockedUntil :=
        Visit.lock_of_not_compared (v := ⟨d, a⟩) (fun hs r hr => hcompares ⟨hs, r, hr⟩)
      cases List.mem_cons.mp hv with
      | inl hhead =>
        subst hhead
        exact absurd ⟨hsession, right, hright⟩ hcompares
      | inr htail => exact ih (hkeeps.trans hlock) hrest htail

/-! ### The bound -/

/-- The wrong passwords compared at an instant of the window. -/
def wrongWithin (W : Set ℚ) [DecidablePred (· ∈ W)] (run : List Visit) : ℕ :=
  run.countP (fun v => v.wrong && decide (v.attempt.now ∈ W))

theorem wrongWithin_eq (W : Set ℚ) [DecidablePred (· ∈ W)] (run : List Visit) :
    wrongWithin W run = (wrongTimes run).countP (fun t => decide (t ∈ W)) := by
  rw [wrongTimes, List.countP_map, List.countP_filter]
  exact List.countP_congr (fun v _ => by simp [and_comm])

/-- One of the first five wrong passwords of `block` locks the session for five minutes: it
compares nothing until then. -/
def LocksInTime (session : String) (block after : List Visit) : Prop :=
  ∃ earlier v later, block = earlier ++ v :: later ∧ v.wrongOf session = true ∧
    earlier.countP (Visit.wrongOf session) < sessionMaxFailures ∧
    ∀ w ∈ later ++ after, w.attempt.session = session → ∀ right, w.answer = .compared right →
      v.attempt.now + sessionLockoutSeconds ≤ w.attempt.now

/-- The process compares at most twenty wrong passwords in fifteen minutes and none under a lock.
A session that does not log in meanwhile is locked by its fifth. -/
theorem login_bound (attempts : List Attempt)
    (hclock : (attempts.map (·.now)).Pairwise (· ≤ ·)) :
    (∀ start, wrongWithin (Set.Ico start (start + globalWindowSeconds)) (visits {} attempts)
        ≤ globalMaxFailures ∧
      wrongWithin (Set.Ioc start (start + globalWindowSeconds)) (visits {} attempts)
        ≤ globalMaxFailures) ∧
    (∀ v ∈ visits {} attempts, v.wrong = true →
      v.before.limiter.lockedUntil ≤ v.attempt.now ∧
      ∀ lock, (v.before.sessions v.attempt.session).lockedUntil = some lock →
        lock ≤ v.attempt.now) ∧
    (∀ session earlier block later, visits {} attempts = earlier ++ block ++ later →
      (∀ v ∈ block, v.loginOf session = false) →
      sessionMaxFailures ≤ block.countP (Visit.wrongOf session) →
      LocksInTime session block later) ∧
    ∀ v ∈ visits {} attempts, v.wrong = false → v.after.limiter = v.before.limiter := by
  have hlockout : (({} : LoginLimiter).limits).window ≤ (({} : LoginLimiter).limits).lockout :=
    le_rfl
  have hfresh : Tracks ({} : LoginLimiter).limits [] ({} : Dashboard).limiter.budget :=
    tracks_nil (by decide) 0
  obtain ⟨b, hb⟩ := tracks_visits hlockout hfresh rfl (fun t ht => absurd ht List.not_mem_nil) hclock
  rw [List.nil_append] at hb
  refine ⟨?_, ?_, ?_, fun v _ => Visit.limiter_of_not_wrong⟩
  · intro start
    rw [wrongWithin_eq, wrongWithin_eq]
    exact ⟨hb.within _ (narrow_Ico start _), hb.within _ (narrow_Ioc start _)⟩
  · intro v _ hwrong
    have hfree := Visit.free_of_compared (of_decide_eq_true hwrong)
    exact ⟨hfree.process, hfree.session⟩
  · intro session earlier block later hvisits hlogin hmany
    rw [List.append_assoc] at hvisits
    obtain ⟨first, rest, rfl, -, hrest⟩ := visits_eq_append hvisits
    obtain ⟨middle, last, rfl, hblock, hlast⟩ := visits_eq_append hrest
    have hfew : ((final {} first).sessions session).failures < sessionMaxFailures :=
      failures_lt_final (Nat.succ_pos 4)
    obtain ⟨before, v, after, hsplit, hv, hcount, hlock⟩ :=
      exists_lock hfew (by rw [hblock]; exact hlogin)
        (by rw [hblock]; exact hmany.trans (Nat.le_add_left _ _))
    rw [hblock] at hsplit
    refine ⟨before, v, after, hsplit, hv, by omega, ?_⟩
    intro w hw hsession right hright
    rw [hsplit, List.append_assoc, List.cons_append] at hrest
    obtain ⟨tail, htail, hafter⟩ := visits_after hrest
    have hclock' : (tail.map (·.now)).Pairwise (· ≤ ·) :=
      hclock.sublist ((htail.trans (List.suffix_append _ _)).sublist.map _)
    rw [← hafter] at hw
    exact compared_after_lock hlock hclock' hw hsession hright

section Runs

private def dashboard : Env := ⟨some "twelve chars", true, false, some "300"⟩

private def enters (now : ℚ) (supplied : String) : Attempt :=
  ⟨"tab", dashboard, now, false, true, supplied⟩

/-- Four wrong passwords, the right one, and four wrong ones when the session is over. -/
private def reloginRun : List Attempt :=
  [enters 0 "a", enters 1 "b", enters 2 "c", enters 3 "d", enters 4 "twelve chars",
    enters 304 "a", enters 305 "b", enters 306 "c", enters 307 "d"]

private theorem reloginRun_clock : (reloginRun.map (·.now)).Pairwise (· ≤ ·) := by decide +kernel

/-- All eight wrong passwords are compared, within the budget of the process. -/
theorem login_bound_relogin :
    wrongWithin (Set.Ico 0 (0 + globalWindowSeconds)) (visits {} reloginRun) = 8 ∧
      wrongWithin (Set.Ico 0 (0 + globalWindowSeconds)) (visits {} reloginRun)
        ≤ globalMaxFailures :=
  ⟨by decide +kernel, ((login_bound reloginRun reloginRun_clock).1 0).1⟩

/-- A login gives a session five more passwords: eight wrong ones, and it is never locked. -/
theorem eight_failures_without_lock : ∃ attempts : List Attempt,
    (attempts.map (·.now)).Pairwise (· ≤ ·) ∧
    (∀ v ∈ visits {} attempts, v.attempt.session = "tab" ∧
      (v.after.sessions "tab").lockedUntil = none) ∧
    (visits {} attempts).countP (Visit.wrongOf "tab") = 8 :=
  ⟨reloginRun, reloginRun_clock, by decide +kernel, by decide +kernel⟩

end Runs

end MarketSystem.Auth
