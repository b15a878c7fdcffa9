import MarketSystem.Library.Process
import Mathlib.Logic.Function.Basic

/-!
# Sessions over a shared store

Programs are grouped by an index, and at most one program of an index runs at a
time: a next one starts only after the previous one returned or crashed. Each
index has a discipline of its own, so what a session promises to the sessions of
the other indices may be more than what it relies on from itself.
-/
namespace Library

/-- A store with the session that runs for each index. -/
structure Sessions (ι σ α : Type) where
  store : σ
  live : ι → Option (Program σ α)

variable {ι σ α : Type} [DecidableEq ι]

/-- One step: the environment moves, an idle index starts a client, a session performs its
next action, or a session ends, by returning or by crashing. -/
inductive SessionStep (client : ι → Program σ α → Prop) (env : σ → σ → Prop) :
    Sessions ι σ α → Sessions ι σ α → Prop
  | env {c : Sessions ι σ α} {s' : σ} (h : env c.store s') :
      SessionStep client env c { c with store := s' }
  | start {c : Sessions ι σ α} {i : ι} {p : Program σ α} (hidle : c.live i = none)
      (h : client i p) :
      SessionStep client env c { c with live := Function.update c.live i (some p) }
  | act {c : Sessions ι σ α} {i : ι} {step : σ → σ} {next : σ → Program σ α}
      (h : c.live i = some (.act step next)) :
      SessionStep client env c
        ⟨step c.store, Function.update c.live i (some (next c.store))⟩
  | stop {c : Sessions ι σ α} {i : ι} {p : Program σ α} (h : c.live i = some p) :
      SessionStep client env c { c with live := Function.update c.live i none }

/-- The store keeps the invariant and every session satisfies its specification in it. -/
structure Sessions.Sound (d : ι → Discipline σ) (inv : σ → Prop) (post : ι → α → σ → Prop)
    (c : Sessions ι σ α) : Prop where
  inv : inv c.store
  session : ∀ i p, c.live i = some p → p.Holds (d i) (post i) c.store

section Soundness

variable {client : ι → Program σ α → Prop} {env : σ → σ → Prop} {d : ι → Discipline σ}
  {inv : σ → Prop} {post : ι → α → σ → Prop}

/-- The step lemma: no step leaves the disciplines. -/
theorem Sessions.Sound.step (hinv : ∀ i, (d i).inv = inv)
    (henv : ∀ s s', inv s → env s s' → inv s' ∧ ∀ i, (d i).rely s s')
    (hguar : ∀ i j, i ≠ j → ∀ s s', inv s → (d i).guar s s' → (d j).rely s s')
    (hclient : ∀ i p, client i p → ∀ s, inv s → p.Holds (d i) (post i) s)
    {c c' : Sessions ι σ α} (hc : c.Sound d inv post) (hstep : SessionStep client env c c') :
    c'.Sound d inv post := by
  cases hstep with
  | env h =>
    obtain ⟨hi, hr⟩ := henv _ _ hc.inv h
    exact ⟨hi, fun i p hp => (hc.session i p hp).stable (hr i)⟩
  | @start i p hidle h =>
    refine ⟨hc.inv, fun j q hq => ?_⟩
    by_cases hj : j = i
    · subst hj
      simp only [Function.update_self, Option.some.injEq] at hq
      exact hq ▸ hclient j p h _ hc.inv
    · simp only [Function.update_of_ne hj] at hq
      exact hc.session j q hq
  | @act i step next h =>
    have hi : (d i).inv c.store := (hinv i).symm ▸ hc.inv
    obtain ⟨hi', hg, hrest⟩ := hc.session i _ h c.store ((d i).rely_refl _) hi
    refine ⟨hinv i ▸ hi', fun j q hq => ?_⟩
    by_cases hj : j = i
    · subst hj
      simp only [Function.update_self, Option.some.injEq] at hq
      exact hq ▸ hrest
    · simp only [Function.update_of_ne hj] at hq
      exact (hc.session j q hq).stable (hguar i j (Ne.symm hj) _ _ hc.inv hg)
  | @stop i p h =>
    refine ⟨hc.inv, fun j q hq => ?_⟩
    by_cases hj : j = i
    · subst hj
      simp at hq
    · simp only [Function.update_of_ne hj] at hq
      exact hc.session j q hq

/-- The soundness of the disciplines over whole runs. -/
theorem Sessions.Sound.run (hinv : ∀ i, (d i).inv = inv)
    (henv : ∀ s s', inv s → env s s' → inv s' ∧ ∀ i, (d i).rely s s')
    (hguar : ∀ i j, i ≠ j → ∀ s s', inv s → (d i).guar s s' → (d j).rely s s')
    (hclient : ∀ i p, client i p → ∀ s, inv s → p.Holds (d i) (post i) s)
    {c c' : Sessions ι σ α} (hc : c.Sound d inv post)
    (hrun : Relation.ReflTransGen (SessionStep client env) c c') : c'.Sound d inv post := by
  induction hrun with
  | refl => exact hc
  | tail _ hstep ih => exact ih.step hinv henv hguar hclient hstep

end Soundness

/-- A session may run while everything else rests. -/
theorem session_runs {client : ι → Program σ α → Prop} {env : σ → σ → Prop} {c : Sessions ι σ α}
    {i : ι} (n : Nat) {p : Program σ α} (h : c.live i = some p) :
    Relation.ReflTransGen (SessionStep client env) c
      ⟨(p.runFor n c.store).2, Function.update c.live i (some (p.runFor n c.store).1)⟩ := by
  induction n generalizing c p with
  | zero =>
    have hlive : Function.update c.live i (some p) = c.live := by
      rw [← h, Function.update_eq_self]
    change Relation.ReflTransGen _ c ⟨c.store, Function.update c.live i (some p)⟩
    rw [hlive]
  | succ n ih =>
    cases p with
    | pure a =>
      have hlive : Function.update c.live i (some (Program.pure a)) = c.live := by
        rw [← h, Function.update_eq_self]
      change Relation.ReflTransGen _ c ⟨c.store, Function.update c.live i (some (.pure a))⟩
      rw [hlive]
    | act step next =>
      refine .head (.act h) ?_
      have hrest := @ih ⟨step c.store, Function.update c.live i (some (next c.store))⟩
        (next c.store) (Function.update_self ..)
      rwa [Function.update_idem] at hrest

end Library
