import Mathlib.Logic.Relation
import Mathlib.Tactic.TypeStar

/-!
# Processes over a shared store

A program is a tree of atomic actions on a store. Between two actions anything
may happen to the store that the environment is allowed to do, and a process may
disappear for good. Reasoning is by rely and guarantee: `Holds` says that from a
store on, under every interference admitted by the rely relation, each action
keeps the invariant and stays within the guarantee, and the result satisfies a
postcondition. One theorem carries this to any pool of processes.
-/
namespace Library

/-- A program with atomic actions on a store `σ` and results in `α`. In a store `s`
an action leaves `step s` and continues as `next s`. -/
inductive Program (σ α : Type) : Type
  | pure (a : α)
  | act (step : σ → σ) (next : σ → Program σ α)

namespace Program

variable {σ α β : Type}

protected def bind : Program σ α → (α → Program σ β) → Program σ β
  | .pure a, k => k a
  | .act step next, k => .act step (fun s => (next s).bind k)

instance : Monad (Program σ) where
  pure := .pure
  bind := .bind

/-- One atomic action with a reply. -/
def call (f : σ → β × σ) : Program σ β := .act (fun s => (f s).2) (fun s => .pure (f s).1)

/-- One atomic read. -/
def read (f : σ → β) : Program σ β := .act id (fun s => .pure (f s))

@[simp] theorem pure_bind (a : α) (k : α → Program σ β) :
    (Pure.pure a >>= k : Program σ β) = k a := rfl

@[simp] theorem call_bind (f : σ → β × σ) (k : β → Program σ α) :
    (call f >>= k) = .act (fun s => (f s).2) (fun s => k (f s).1) := rfl

@[simp] theorem read_bind (f : σ → β) (k : β → Program σ α) :
    (read f >>= k) = .act id (fun s => k (f s)) := rfl

/-- A program that nobody disturbs: its result and the store it leaves. -/
def alone : Program σ α → σ → α × σ
  | .pure a, s => (a, s)
  | .act step next, s => (next s).alone (step s)

@[simp] theorem alone_pure (a : α) (s : σ) : (Pure.pure a : Program σ α).alone s = (a, s) := rfl

@[simp] theorem alone_act (step : σ → σ) (next : σ → Program σ α) (s : σ) :
    (Program.act step next).alone s = (next s).alone (step s) := rfl

theorem alone_bind (p : Program σ α) (k : α → Program σ β) (s : σ) :
    (p >>= k).alone s = (k (p.alone s).1).alone (p.alone s).2 := by
  induction p generalizing s with
  | pure a => rfl
  | act step next ih => exact ih s (step s)

end Program

namespace Program

/-- A program on a part of a larger store. -/
def zoom {σ τ α : Type} (view : σ → τ) (set : τ → σ → σ) : Program τ α → Program σ α
  | .pure a => .pure a
  | .act step next => .act (fun s => set (step (view s)) s)
      (fun s => (next (view s)).zoom view set)

end Program

/-- What the store satisfies at all times, what others may do, what we may do. -/
structure Discipline (σ : Type) where
  inv : σ → Prop
  rely : σ → σ → Prop
  guar : σ → σ → Prop
  rely_refl : ∀ s, rely s s
  rely_trans : ∀ {a b c}, rely a b → rely b c → rely a c
  guar_refl : ∀ s, guar s s

/-- The discipline that promises an invariant and nothing else. -/
def Discipline.ofInv {σ : Type} (inv : σ → Prop) : Discipline σ where
  inv := inv
  rely := fun _ _ => True
  guar := fun _ _ => True
  rely_refl := fun _ => trivial
  rely_trans := fun _ _ => trivial
  guar_refl := fun _ => trivial

namespace Program

variable {σ α β : Type} {d : Discipline σ}

/-- Under the discipline, from `s` on: every action keeps the invariant within the
guarantee, and the result satisfies `post`. -/
def Holds (d : Discipline σ) : Program σ α → (α → σ → Prop) → σ → Prop
  | .pure a, post, s => ∀ s', d.rely s s' → d.inv s' → post a s'
  | .act step next, post, s => ∀ s', d.rely s s' → d.inv s' →
      d.inv (step s') ∧ d.guar s' (step s') ∧ Holds d (next s') post (step s')

/-- Interference does not invalidate what holds. -/
theorem Holds.stable {p : Program σ α} {post : α → σ → Prop} {s s' : σ}
    (h : p.Holds d post s) (hr : d.rely s s') : p.Holds d post s' := by
  cases p with
  | pure a => exact fun s'' hr' => h s'' (d.rely_trans hr hr')
  | act step next => exact fun s'' hr' => h s'' (d.rely_trans hr hr')

theorem Holds.mono {p : Program σ α} {post post' : α → σ → Prop} {s : σ}
    (h : p.Holds d post s) (hpost : ∀ a s, d.inv s → post a s → post' a s) :
    p.Holds d post' s := by
  induction p generalizing s with
  | pure a => exact fun s' hr hi => hpost a s' hi (h s' hr hi)
  | act step next ih =>
    intro s' hr hi
    obtain ⟨hinv, hguar, hrest⟩ := h s' hr hi
    exact ⟨hinv, hguar, ih s' hrest⟩

/-- A stronger invariant that the guaranteed steps keep may be assumed throughout. -/
theorem Holds.change_inv {d' : Discipline σ} {p : Program σ α} {post : α → σ → Prop} {s : σ}
    (hrely : d'.rely = d.rely) (hguar : d'.guar = d.guar) (hinv : ∀ s, d'.inv s → d.inv s)
    (hstep : ∀ s s', d'.inv s → d.inv s' → d.guar s s' → d'.inv s') (h : p.Holds d post s) :
    p.Holds d' post s := by
  induction p generalizing s with
  | pure a => exact fun s' hr hi => h s' (hrely ▸ hr) (hinv s' hi)
  | act step next ih =>
    intro s' hr hi
    obtain ⟨hinv', hg, hrest⟩ := h s' (hrely ▸ hr) (hinv s' hi)
    exact ⟨hstep _ _ hi hinv' hg, hguar ▸ hg, ih s' hrest⟩

/-- What every step leaves true holds of the result as well. -/
theorem Holds.frame {p : Program σ α} {post : α → σ → Prop} {Q : σ → Prop} {s : σ}
    (hrely : ∀ s s', d.rely s s' → Q s → Q s') (hguar : ∀ s s', d.guar s s' → Q s → Q s')
    (h : p.Holds d post s) (hq : Q s) : p.Holds d (fun a s => post a s ∧ Q s) s := by
  induction p generalizing s with
  | pure a => exact fun s' hr hi => ⟨h s' hr hi, hrely s s' hr hq⟩
  | act step next ih =>
    intro s' hr hi
    obtain ⟨hinv, hg, hrest⟩ := h s' hr hi
    exact ⟨hinv, hg, ih s' hrest (hguar _ _ hg (hrely s s' hr hq))⟩

/-- Sequencing: what the first program establishes is what the second one needs. -/
theorem Holds.bind {p : Program σ α} {k : α → Program σ β} {post : β → σ → Prop} {s : σ}
    (h : p.Holds d (fun a s => (k a).Holds d post s) s) (hs : d.inv s) :
    (p >>= k).Holds d post s := by
  induction p generalizing s with
  | pure a => exact h s (d.rely_refl s) hs
  | act step next ih =>
    intro s' hr hi
    obtain ⟨hinv, hguar, hrest⟩ := h s' hr hi
    exact ⟨hinv, hguar, ih s' hrest hinv⟩

/-- What a read finds satisfies `Q`, and others cannot make it false. -/
structure Observes (d : Discipline σ) (f : σ → β) (Q : β → σ → Prop) : Prop where
  now : ∀ s, d.inv s → Q (f s) s
  stable : ∀ b s s', d.rely s s' → Q b s → Q b s'

theorem Holds.read {f : σ → β} {Q : β → σ → Prop} {k : β → Program σ α} {post : α → σ → Prop}
    {s : σ} (hf : Observes d f Q)
    (h : ∀ b s', d.rely s s' → d.inv s' → Q b s' → (k b).Holds d post s') :
    (Program.read f >>= k).Holds d post s := by
  intro s' hr hi
  exact ⟨hi, d.guar_refl s', h _ s' hr hi (hf.now s' hi)⟩

/-- A read whose value is looked at in the store it was read from. -/
theorem Holds.read_now {f : σ → β} {k : β → Program σ α} {post : α → σ → Prop} {s : σ}
    (h : ∀ s', d.rely s s' → d.inv s' → (k (f s')).Holds d post s') :
    (Program.read f >>= k).Holds d post s :=
  fun s' hr hi => ⟨hi, d.guar_refl s', h s' hr hi⟩

theorem Holds.call {f : σ → β × σ} {k : β → Program σ α} {post : α → σ → Prop} {s : σ}
    (h : ∀ s', d.rely s s' → d.inv s' →
      d.inv (f s').2 ∧ d.guar s' (f s').2 ∧ (k (f s').1).Holds d post (f s').2) :
    (Program.call f >>= k).Holds d post s :=
  fun s' hr hi => h s' hr hi

/-- A program keeps an invariant: whatever happens between its actions, each of them does. -/
def Keeps (inv : σ → Prop) (p : Program σ α) : Prop :=
  ∀ s, p.Holds (Discipline.ofInv inv) (fun _ _ => True) s

theorem keeps_pure (inv : σ → Prop) (a : α) : (Pure.pure a : Program σ α).Keeps inv :=
  fun _ _ _ _ => trivial

/-- The first action of a program finds the invariant, so it may be assumed from the start. -/
theorem keeps_of_holds {inv : σ → Prop} {p : Program σ α}
    (h : ∀ s, inv s → p.Holds (Discipline.ofInv inv) (fun _ _ => True) s) : p.Keeps inv := by
  intro s
  cases p with
  | pure a => exact fun _ _ _ => trivial
  | act step next => exact fun s' hr hi => h s' hi s' hr hi

/-- Sequencing, when every result of the first program satisfies `post`. -/
theorem Keeps.bind_of {inv : σ → Prop} {p : Program σ α} {k : α → Program σ β} {post : α → Prop}
    (hp : ∀ s, p.Holds (Discipline.ofInv inv) (fun a _ => post a) s)
    (hk : ∀ a, post a → (k a).Keeps inv) : (p >>= k).Keeps inv := by
  refine keeps_of_holds (fun s hi => Holds.bind ?_ hi)
  exact (hp s).mono (fun a s _ ha => hk a ha s)

theorem Keeps.bind {inv : σ → Prop} {p : Program σ α} {k : α → Program σ β} (hp : p.Keeps inv)
    (hk : ∀ a, (k a).Keeps inv) : (p >>= k).Keeps inv :=
  Keeps.bind_of hp (fun a _ => hk a)

theorem keeps_read {inv : σ → Prop} (f : σ → β) : (Program.read f).Keeps inv :=
  fun _ _ _ hi => ⟨hi, trivial, fun _ _ _ => trivial⟩

theorem keeps_call {inv : σ → Prop} {f : σ → β × σ} (h : ∀ s, inv s → inv (f s).2) :
    (Program.call f).Keeps inv :=
  fun _ s' _ hi => ⟨h s' hi, trivial, fun _ _ _ => trivial⟩

/-- A read whose value is known to come from a store with the invariant. -/
theorem keeps_read_bind {inv : σ → Prop} {f : σ → β} {k : β → Program σ α}
    (h : ∀ s, inv s → (k (f s)).Keeps inv) : (Program.read f >>= k).Keeps inv :=
  fun _ s' _ hi => ⟨hi, trivial, h s' hi s'⟩

theorem keeps_call_bind {inv : σ → Prop} {f : σ → β × σ} {k : β → Program σ α}
    (hf : ∀ s, inv s → inv (f s).2) (h : ∀ s, inv s → (k (f s).1).Keeps inv) :
    (Program.call f >>= k).Keeps inv :=
  fun _ s' _ hi => ⟨hf s' hi, trivial, h s' hi _⟩

/-- A program on a part of the store keeps what its actions keep of the whole. -/
theorem Keeps.zoom {τ : Type} {inv : σ → Prop} {inv' : τ → Prop} {view : σ → τ}
    {set : τ → σ → σ} {p : Program τ α} (hview : ∀ s, inv s → inv' (view s))
    (hset : ∀ s t, inv s → inv' t → inv (set t s)) (hp : p.Keeps inv') :
    (p.zoom view set).Keeps inv := by
  intro s
  have hinner := hp (view s)
  clear hp
  induction p generalizing s with
  | pure a => exact fun _ _ _ => trivial
  | act step next ih =>
    intro s' _ hi
    obtain ⟨hinv, -, hnext⟩ := hinner (view s') trivial (hview s' hi)
    refine ⟨hset s' _ hi hinv, trivial, ih (view s') (set (step (view s')) s') ?_⟩
    exact hnext.stable trivial

/-- A program that nobody disturbs meets its specification. -/
theorem Holds.alone {p : Program σ α} {post : α → σ → Prop} {s : σ} (hs : d.inv s)
    (h : p.Holds d post s) : d.inv (p.alone s).2 ∧ post (p.alone s).1 (p.alone s).2 := by
  induction p generalizing s with
  | pure a => exact ⟨hs, h s (d.rely_refl s) hs⟩
  | act step next ih =>
    obtain ⟨hinv, -, hrest⟩ := h s (d.rely_refl s) hs
    exact ih s hinv hrest

end Program

/-! ## A program that nobody disturbs -/

/-- The discipline of a program that has the store for itself until it ends or crashes. -/
def Discipline.undisturbed {σ : Type} (inv : σ → Prop) : Discipline σ where
  inv := inv
  rely := Eq
  guar := fun _ _ => True
  rely_refl := fun _ => rfl
  rely_trans := Eq.trans
  guar_refl := fun _ => trivial

namespace Program

variable {σ α β : Type} {inv : σ → Prop} {post : α → σ → Prop} {s : σ}

theorem holds_pure {a : α} (h : inv s → post a s) :
    (Pure.pure a : Program σ α).Holds (Discipline.undisturbed inv) post s := by
  rintro _ rfl hi
  exact h hi

theorem holds_call {f : σ → β × σ} {k : β → Program σ α}
    (h : inv s → inv (f s).2 ∧ (k (f s).1).Holds (Discipline.undisturbed inv) post (f s).2) :
    (call f >>= k).Holds (Discipline.undisturbed inv) post s := by
  rintro _ rfl hi
  exact ⟨(h hi).1, trivial, (h hi).2⟩

theorem holds_last {f : σ → α × σ} (h : inv s → inv (f s).2 ∧ post (f s).1 (f s).2) :
    (call f).Holds (Discipline.undisturbed inv) post s := by
  rintro _ rfl hi
  refine ⟨(h hi).1, trivial, ?_⟩
  rintro _ rfl _
  exact (h hi).2

theorem holds_read {f : σ → β} {k : β → Program σ α}
    (h : inv s → (k (f s)).Holds (Discipline.undisturbed inv) post s) :
    (read f >>= k).Holds (Discipline.undisturbed inv) post s := by
  rintro _ rfl hi
  exact ⟨hi, trivial, h hi⟩

end Program

/-! ## Pools of processes -/

/-- A store with the programs that still run on it. -/
structure Pool (σ α : Type) where
  store : σ
  processes : List (Program σ α)

/-- One step of a pool: the environment moves, a client starts, a process performs
its next action, or a process crashes. -/
inductive PoolStep {σ α : Type} (client : Program σ α → Prop) (env : σ → σ → Prop) :
    Pool σ α → Pool σ α → Prop
  | env {s s' : σ} {ps : List (Program σ α)} (h : env s s') :
      PoolStep client env ⟨s, ps⟩ ⟨s', ps⟩
  | start {s : σ} {ps : List (Program σ α)} {p : Program σ α} (h : client p) :
      PoolStep client env ⟨s, ps⟩ ⟨s, ps ++ [p]⟩
  | act {s : σ} {before after : List (Program σ α)} {step : σ → σ} {next : σ → Program σ α} :
      PoolStep client env ⟨s, before ++ .act step next :: after⟩
        ⟨step s, before ++ next s :: after⟩
  | crash {s : σ} {before after : List (Program σ α)} {p : Program σ α} :
      PoolStep client env ⟨s, before ++ p :: after⟩ ⟨s, before ++ after⟩

/-- `n` actions of a program that is left alone. -/
def Program.runFor {σ α : Type} : Nat → Program σ α → σ → Program σ α × σ
  | 0, p, s => (p, s)
  | _ + 1, .pure a, s => (.pure a, s)
  | n + 1, .act step next, s => Program.runFor n (next s) (step s)

/-- A program that crashes leaves the invariant. -/
theorem Program.Holds.runFor {σ α : Type} {d : Discipline σ} {p : Program σ α}
    {post : α → σ → Prop} {s : σ} (hs : d.inv s) (h : p.Holds d post s) (n : Nat) :
    d.inv (p.runFor n s).2 := by
  induction n generalizing p s with
  | zero => exact hs
  | succ n ih =>
    cases p with
    | pure a => exact hs
    | act step next =>
      obtain ⟨hinv, -, hrest⟩ := h s (d.rely_refl s) hs
      exact ih hinv hrest

/-- A pool may let one process run while the others rest. -/
theorem runs_beside {σ α : Type} {client : Program σ α → Prop} {env : σ → σ → Prop}
    (before after : List (Program σ α)) (n : Nat) (p : Program σ α) (s : σ) :
    Relation.ReflTransGen (PoolStep client env) ⟨s, before ++ p :: after⟩
      ⟨(p.runFor n s).2, before ++ (p.runFor n s).1 :: after⟩ := by
  induction n generalizing p s with
  | zero => exact .refl
  | succ n ih =>
    cases p with
    | pure a => exact .refl
    | act step next => exact .head .act (ih (next s) (step s))

/-- The environment may move while every process rests. -/
theorem runs_env {σ α : Type} {client : Program σ α → Prop} {env : σ → σ → Prop} {s s' : σ}
    (ps : List (Program σ α)) (h : Relation.ReflTransGen env s s') :
    Relation.ReflTransGen (PoolStep client env) ⟨s, ps⟩ ⟨s', ps⟩ := by
  induction h with
  | refl => exact .refl
  | tail _ hstep ih => exact ih.tail (.env hstep)

/-- The soundness of the discipline over whole runs: the invariant holds in every
state, and every process still satisfies its specification. -/
theorem pool_sound {σ α : Type} {d : Discipline σ} {client : Program σ α → Prop}
    {env : σ → σ → Prop} (post : α → σ → Prop)
    (henv : ∀ s s', d.inv s → env s s' → d.inv s' ∧ d.rely s s')
    (hguar : ∀ s s', d.inv s → d.guar s s' → d.rely s s')
    (hclient : ∀ p, client p → ∀ s, d.inv s → p.Holds d post s)
    {s₀ : σ} {pool : Pool σ α} (hs₀ : d.inv s₀)
    (hrun : Relation.ReflTransGen (PoolStep client env) ⟨s₀, []⟩ pool) :
    d.inv pool.store ∧ ∀ p ∈ pool.processes, p.Holds d post pool.store := by
  induction hrun with
  | refl => exact ⟨hs₀, by simp⟩
  | tail _ hstep ih =>
    obtain ⟨hinv, hall⟩ := ih
    cases hstep with
    | env h =>
      obtain ⟨hi, hr⟩ := henv _ _ hinv h
      exact ⟨hi, fun p hp => (hall p hp).stable hr⟩
    | @start s ps p h =>
      refine ⟨hinv, fun q hq => ?_⟩
      rcases List.mem_append.mp hq with hq' | hq'
      · exact hall q hq'
      · rw [List.mem_singleton.mp hq']
        exact hclient p h _ hinv
    | @act s before after step next =>
      obtain ⟨hi, hg, hrest⟩ := hall (.act step next) (by simp) s (d.rely_refl s) hinv
      have hr := hguar _ _ hinv hg
      refine ⟨hi, fun q hq => ?_⟩
      rcases List.mem_append.mp hq with hq' | hq'
      · exact (hall q (List.mem_append_left _ hq')).stable hr
      · rcases List.mem_cons.mp hq' with rfl | hq''
        · exact hrest
        · exact (hall q (by simp [hq''])).stable hr
    | @crash s before after p =>
      refine ⟨hinv, fun q hq => hall q ?_⟩
      rcases List.mem_append.mp hq with hq' | hq'
      · exact List.mem_append_left _ hq'
      · exact List.mem_append_right _ (List.mem_cons_of_mem _ hq')

/-- And every step of such a run is one of the environment, within the guarantee, or leaves
the store alone. -/
theorem pool_step_sound {σ α : Type} {d : Discipline σ} {client : Program σ α → Prop}
    {env : σ → σ → Prop} (post : α → σ → Prop)
    (henv : ∀ s s', d.inv s → env s s' → d.inv s' ∧ d.rely s s')
    (hguar : ∀ s s', d.inv s → d.guar s s' → d.rely s s')
    (hclient : ∀ p, client p → ∀ s, d.inv s → p.Holds d post s)
    {s₀ : σ} {pool pool' : Pool σ α} (hs₀ : d.inv s₀)
    (hrun : Relation.ReflTransGen (PoolStep client env) ⟨s₀, []⟩ pool)
    (hstep : PoolStep client env pool pool') :
    pool'.store = pool.store ∨ env pool.store pool'.store ∨ d.guar pool.store pool'.store := by
  obtain ⟨hinv, hall⟩ := pool_sound post henv hguar hclient hs₀ hrun
  cases hstep with
  | env h => exact .inr (.inl h)
  | start h => exact .inl rfl
  | @act s before after step next =>
    obtain ⟨-, hg, -⟩ := hall (.act step next) (by simp) s (d.rely_refl s) hinv
    exact .inr (.inr hg)
  | crash => exact .inl rfl

/-- A pool of programs that keep an invariant keeps it in every state. -/
theorem pool_keeps {σ α : Type} {inv : σ → Prop} {client : Program σ α → Prop}
    {env : σ → σ → Prop} (henv : ∀ s s', inv s → env s s' → inv s')
    (hclient : ∀ p, client p → p.Keeps inv) {s₀ : σ} {pool : Pool σ α} (hs₀ : inv s₀)
    (hrun : Relation.ReflTransGen (PoolStep client env) ⟨s₀, []⟩ pool) : inv pool.store :=
  (@pool_sound _ _ (Discipline.ofInv inv) client env (fun _ _ => True)
    (fun s s' hi h => ⟨henv s s' hi h, trivial⟩) (fun _ _ _ _ => trivial)
    (fun p hp s _ => hclient p hp s) s₀ pool hs₀ hrun).1

end Library
