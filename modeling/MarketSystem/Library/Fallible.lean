import Mathlib.Data.Nat.Notation
import Mathlib.Tactic.SplitIfs

/-!
# Computations whose accesses may fail

A computation over a state that makes accesses to something unreliable: each one
either raises and leaves the state as it was, or takes effect. Which ones fail is
decided by an oracle that is asked once for each access, so a statement about
every oracle is a statement about any subset of accesses failing. `Ensures` is the
weakest precondition: whatever fails, the outcome and the state left behind
satisfy the postcondition.
-/
namespace Library

/-- A computation that may raise. The natural number counts the accesses made so far. -/
def Fallible (σ α : Type) : Type := (ℕ → Bool) → ℕ × σ → Except String α × ℕ × σ

namespace Fallible

variable {σ α β : Type}

instance : Monad (Fallible σ) where
  pure a := fun _ s => (.ok a, s)
  bind m k := fun fails s =>
    match m fails s with
    | (.ok a, s) => k a fails s
    | (.error e, s) => (.error e, s)

def raise (e : String) : Fallible σ α := fun _ s => (.error e, s)

/-- `try … except`: what was raised becomes a value. -/
def attempt (m : Fallible σ α) : Fallible σ (Except String α) := fun fails s =>
  let (r, s) := m fails s
  (.ok r, s)

/-- One access: it fails with `e`, or returns and updates as `f` says. -/
def access (e : String) (f : σ → α × σ) : Fallible σ α := fun fails (n, s) =>
  if fails n then (.error e, n + 1, s) else (.ok (f s).1, n + 1, (f s).2)

/-- An update of what is in memory, which does not fail. -/
def modify (f : σ → σ) : Fallible σ Unit := fun _ (n, s) => (.ok (), n, f s)

/-- A look at what is in memory. -/
def get : Fallible σ σ := fun _ (n, s) => (.ok s, n, s)

/-- An action on what is in memory, which does not fail. -/
def act (f : σ → α × σ) : Fallible σ α := fun _ (n, s) => (.ok (f s).1, n, (f s).2)

/-- A value that may be an error already. -/
def ofExcept (r : Except String α) : Fallible σ α := fun _ s => (r, s)

/-! ## Weakest preconditions -/

/-- Whatever accesses fail, from `s` the outcome and the state satisfy `Q`. -/
def Ensures (m : Fallible σ α) (s : σ) (Q : Except String α → σ → Prop) : Prop :=
  ∀ fails n, Q (m fails (n, s)).1 (m fails (n, s)).2.2

/-- A postcondition about what was returned; nothing is asked of what was raised. -/
abbrev Returns (P : α → σ → Prop) (E : String → σ → Prop) (r : Except String α) (s : σ) : Prop :=
  match r with
  | .ok a => P a s
  | .error e => E e s

@[simp] theorem returns_ok (P : α → σ → Prop) (E : String → σ → Prop) (a : α) (s : σ) :
    Returns P E (.ok a) s ↔ P a s := Iff.rfl

@[simp] theorem returns_error (P : α → σ → Prop) (E : String → σ → Prop) (e : String) (s : σ) :
    Returns P E (.error e) s ↔ E e s := Iff.rfl

variable {s : σ} {Q Q' : Except String α → σ → Prop}

theorem Ensures.mono {m : Fallible σ α} (h : m.Ensures s Q) (hq : ∀ r s', Q r s' → Q' r s') :
    m.Ensures s Q' := fun fails n => hq _ _ (h fails n)

theorem Ensures.and {m : Fallible σ α} (h : m.Ensures s Q) (h' : m.Ensures s Q') :
    m.Ensures s (fun r s' => Q r s' ∧ Q' r s') := fun fails n => ⟨h fails n, h' fails n⟩

theorem ensures_pure {a : α} (h : Q (.ok a) s) : (pure a : Fallible σ α).Ensures s Q :=
  fun _ _ => h

theorem ensures_raise {e : String} (h : Q (.error e) s) :
    (raise e : Fallible σ α).Ensures s Q := fun _ _ => h

theorem ensures_ofExcept {r : Except String α} (h : Q r s) :
    (ofExcept r : Fallible σ α).Ensures s Q := fun _ _ => h

theorem ensures_modify {f : σ → σ} {Q : Except String Unit → σ → Prop} (h : Q (.ok ()) (f s)) :
    (modify f).Ensures s Q := fun _ _ => h

theorem ensures_get {Q : Except String σ → σ → Prop} (h : Q (.ok s) s) :
    get.Ensures s Q := fun _ _ => h

theorem ensures_act {f : σ → α × σ} (h : Q (.ok (f s).1) (f s).2) : (act f).Ensures s Q :=
  fun _ _ => h

/-- An access has to be right whether it fails or not. -/
theorem ensures_access {e : String} {f : σ → α × σ} (hfail : Q (.error e) s)
    (hok : Q (.ok (f s).1) (f s).2) : (access e f).Ensures s Q := by
  intro fails n
  unfold access
  dsimp only
  split_ifs
  · exact hfail
  · exact hok

/-- Sequencing: what is raised first is the outcome. -/
theorem Ensures.bind {m : Fallible σ α} {k : α → Fallible σ β}
    {Q : Except String β → σ → Prop}
    (h : m.Ensures s (Returns (fun a s' => (k a).Ensures s' Q) (fun e s' => Q (.error e) s'))) :
    (m >>= k).Ensures s Q := by
  intro fails n
  have hm := h fails n
  show Q (match m fails (n, s) with
    | (.ok a, s) => k a fails s
    | (.error e, s) => (.error e, s)).1 (match m fails (n, s) with
    | (.ok a, s) => k a fails s
    | (.error e, s) => (.error e, s)).2.2
  generalize m fails (n, s) = r at hm ⊢
  obtain ⟨r, n', s'⟩ := r
  cases r with
  | ok a => exact hm fails n'
  | error e => exact hm

theorem Ensures.attempt {m : Fallible σ α} {Q : Except String (Except String α) → σ → Prop}
    (h : m.Ensures s (fun r s' => Q (.ok r) s')) : (attempt m).Ensures s Q :=
  fun fails n => h fails n

/-! ### A first action and the rest -/

theorem ensures_access_bind {e : String} {f : σ → α × σ} {k : α → Fallible σ β}
    {Q : Except String β → σ → Prop} (hfail : Q (.error e) s)
    (hok : (k (f s).1).Ensures (f s).2 Q) : (access e f >>= k).Ensures s Q :=
  Ensures.bind (ensures_access hfail hok)

theorem ensures_modify_bind {f : σ → σ} {k : Unit → Fallible σ β}
    {Q : Except String β → σ → Prop} (h : (k ()).Ensures (f s) Q) :
    (modify f >>= k).Ensures s Q :=
  Ensures.bind (ensures_modify h)

theorem ensures_get_bind {k : σ → Fallible σ β} {Q : Except String β → σ → Prop}
    (h : (k s).Ensures s Q) : (get >>= k).Ensures s Q :=
  Ensures.bind (ensures_get h)

theorem ensures_act_bind {f : σ → α × σ} {k : α → Fallible σ β}
    {Q : Except String β → σ → Prop} (h : (k (f s).1).Ensures (f s).2 Q) :
    (act f >>= k).Ensures s Q :=
  Ensures.bind (ensures_act h)

theorem ensures_ofExcept_bind {r : Except String α} {k : α → Fallible σ β}
    {Q : Except String β → σ → Prop} (hok : ∀ a, r = .ok a → (k a).Ensures s Q)
    (herror : ∀ e, r = .error e → Q (.error e) s) : (ofExcept r >>= k).Ensures s Q := by
  refine Ensures.bind (ensures_ofExcept ?_)
  cases r with
  | ok a => exact hok a rfl
  | error e => exact herror e rfl

theorem Ensures.attempt_bind {m : Fallible σ α} {k : Except String α → Fallible σ β}
    {Q : Except String β → σ → Prop} (h : m.Ensures s (fun r s' => (k r).Ensures s' Q)) :
    (Fallible.attempt m >>= k).Ensures s Q :=
  Ensures.bind (Ensures.attempt h)

/-- What a computation that never raises establishes is what the rest starts from. -/
theorem Ensures.then {m : Fallible σ α} {k : α → Fallible σ β} {P : α → σ → Prop}
    {Q : Except String β → σ → Prop}
    (h : m.Ensures s (fun r s' => ∃ a, r = .ok a ∧ P a s'))
    (hk : ∀ a s', P a s' → (k a).Ensures s' Q) : (m >>= k).Ensures s Q := by
  refine Ensures.bind (h.mono fun r s' hr => ?_)
  obtain ⟨a, rfl, ha⟩ := hr
  exact hk a s' ha

/-! ## Runs under one oracle -/

/-- The outcome and the state a computation leaves when the oracle and the accesses made
before it are given. -/
def run (m : Fallible σ α) (fails : ℕ → Bool) (s : ℕ × σ) : Except String α × ℕ × σ := m fails s

theorem Ensures.run {m : Fallible σ α} {fails : ℕ → Bool} {s : ℕ × σ}
    {Q : Except String α → σ → Prop} (h : m.Ensures s.2 Q) :
    Q (m.run fails s).1 (m.run fails s).2.2 := h fails s.1

end Fallible

end Library
