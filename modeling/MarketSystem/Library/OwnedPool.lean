import MarketSystem.Library.Process

/-!
# One owner and its guests

Programs of one kind have a store to themselves, as under a lock: the next one begins when the
last has ended or crashed. Programs of another kind come and go beside them at any time. Each
kind has its own discipline, and what one guarantees is what the other relies on.
-/
namespace Library

/-- A store, the program that owns it, and the guests. -/
structure OwnedPool (σ α β : Type) where
  store : σ
  owner : Option (Program σ α) := none
  guests : List (Program σ β) := []

inductive OwnedStep {σ α β : Type} (work : Program σ α → Prop) (guest : Program σ β → Prop)
    (env : σ → σ → Prop) : OwnedPool σ α β → OwnedPool σ α β → Prop
  | env {s s' : σ} {o : Option (Program σ α)} {gs : List (Program σ β)} (h : env s s') :
      OwnedStep work guest env ⟨s, o, gs⟩ ⟨s', o, gs⟩
  | begins {s : σ} {p : Program σ α} {gs : List (Program σ β)} (h : work p) :
      OwnedStep work guest env ⟨s, none, gs⟩ ⟨s, some p, gs⟩
  | acts {s : σ} {step : σ → σ} {next : σ → Program σ α} {gs : List (Program σ β)} :
      OwnedStep work guest env ⟨s, some (.act step next), gs⟩ ⟨step s, some (next s), gs⟩
  /-- The owner has ended, or it crashes. -/
  | stops {s : σ} {p : Program σ α} {gs : List (Program σ β)} :
      OwnedStep work guest env ⟨s, some p, gs⟩ ⟨s, none, gs⟩
  | arrives {s : σ} {o : Option (Program σ α)} {gs : List (Program σ β)} {p : Program σ β}
      (h : guest p) : OwnedStep work guest env ⟨s, o, gs⟩ ⟨s, o, p :: gs⟩
  | guestActs {s : σ} {o : Option (Program σ α)} {before after : List (Program σ β)}
      {step : σ → σ} {next : σ → Program σ β} :
      OwnedStep work guest env ⟨s, o, before ++ .act step next :: after⟩
        ⟨step s, o, before ++ next s :: after⟩
  | leaves {s : σ} {o : Option (Program σ α)} {before after : List (Program σ β)}
      {p : Program σ β} :
      OwnedStep work guest env ⟨s, o, before ++ p :: after⟩ ⟨s, o, before ++ after⟩

/-- The two disciplines share their invariant. -/
structure Tenancy (σ : Type) where
  owner : Discipline σ
  guest : Discipline σ
  same : ∀ s, guest.inv s ↔ owner.inv s
  owner_guest : ∀ s s', owner.inv s → owner.guar s s' → guest.rely s s'
  guest_owner : ∀ s s', owner.inv s → guest.guar s s' → owner.rely s s'
  guest_guest : ∀ s s', owner.inv s → guest.guar s s' → guest.rely s s'

section Sound

variable {σ α β : Type} {t : Tenancy σ} {work : Program σ α → Prop} {guest : Program σ β → Prop}
  {env : σ → σ → Prop}

/-- What every step of a run keeps. -/
structure OwnedPool.Sound (t : Tenancy σ) (post : α → σ → Prop) (gpost : β → σ → Prop)
    (pool : OwnedPool σ α β) : Prop where
  inv : t.owner.inv pool.store
  owner : ∀ p ∈ pool.owner, p.Holds t.owner post pool.store
  guests : ∀ p ∈ pool.guests, p.Holds t.guest gpost pool.store

theorem OwnedPool.Sound.step {post : α → σ → Prop} {gpost : β → σ → Prop}
    (henv : ∀ s s', t.owner.inv s → env s s' →
      t.owner.inv s' ∧ t.owner.rely s s' ∧ t.guest.rely s s')
    (hwork : ∀ p, work p → ∀ s, t.owner.inv s → p.Holds t.owner post s)
    (hguest : ∀ p, guest p → ∀ s, t.owner.inv s → p.Holds t.guest gpost s)
    {pool pool' : OwnedPool σ α β} (hs : pool.Sound t post gpost)
    (hstep : OwnedStep work guest env pool pool') : pool'.Sound t post gpost := by
  cases hstep with
  | env h =>
    obtain ⟨hinv, howner, hguests⟩ := henv _ _ hs.inv h
    exact ⟨hinv, fun p hp => (hs.owner p hp).stable howner,
      fun p hp => (hs.guests p hp).stable hguests⟩
  | begins h =>
    refine ⟨hs.inv, fun p hp => ?_, hs.guests⟩
    obtain rfl := Option.some.inj hp
    exact hwork _ h _ hs.inv
  | @acts s step next gs =>
    obtain ⟨hinv, hguar, hrest⟩ := hs.owner _ rfl s (t.owner.rely_refl s) hs.inv
    refine ⟨hinv, fun p hp => ?_, fun p hp => ?_⟩
    · obtain rfl := Option.some.inj hp
      exact hrest
    · exact (hs.guests p hp).stable (t.owner_guest _ _ hs.inv hguar)
  | stops => exact ⟨hs.inv, fun p hp => by simp at hp, hs.guests⟩
  | arrives h =>
    refine ⟨hs.inv, hs.owner, fun p hp => ?_⟩
    rcases List.mem_cons.mp hp with rfl | hp
    · exact hguest _ h _ hs.inv
    · exact hs.guests p hp
  | @guestActs s o before after step next =>
    obtain ⟨hinv, hguar, hrest⟩ := hs.guests (.act step next) (by simp) s (t.guest.rely_refl s)
      ((t.same s).mpr hs.inv)
    have hr := t.guest_guest _ _ hs.inv hguar
    refine ⟨(t.same _).mp hinv, fun p hp => ?_, fun p hp => ?_⟩
    · exact (hs.owner p hp).stable (t.guest_owner _ _ hs.inv hguar)
    · rcases List.mem_append.mp hp with hp | hp
      · exact (hs.guests p (List.mem_append_left _ hp)).stable hr
      · rcases List.mem_cons.mp hp with rfl | hp
        · exact hrest
        · exact (hs.guests p (by simp [hp])).stable hr
  | @leaves s o before after p =>
    refine ⟨hs.inv, hs.owner, fun q hq => hs.guests q ?_⟩
    rcases List.mem_append.mp hq with hq | hq
    · exact List.mem_append_left _ hq
    · exact List.mem_append_right _ (List.mem_cons_of_mem _ hq)

/-- The invariant holds in every state of a run that begins with nothing running. -/
theorem owned_sound (post : α → σ → Prop) (gpost : β → σ → Prop)
    (henv : ∀ s s', t.owner.inv s → env s s' →
      t.owner.inv s' ∧ t.owner.rely s s' ∧ t.guest.rely s s')
    (hwork : ∀ p, work p → ∀ s, t.owner.inv s → p.Holds t.owner post s)
    (hguest : ∀ p, guest p → ∀ s, t.owner.inv s → p.Holds t.guest gpost s)
    {s₀ : σ} {pool : OwnedPool σ α β} (hs₀ : t.owner.inv s₀)
    (hrun : Relation.ReflTransGen (OwnedStep work guest env) ⟨s₀, none, []⟩ pool) :
    pool.Sound t post gpost := by
  induction hrun with
  | refl => exact ⟨hs₀, fun p hp => by simp at hp, fun p hp => by simp at hp⟩
  | tail _ hstep ih => exact ih.step henv hwork hguest hstep

/-- A step leaves the store alone, is one of the environment, or is one that the owner or a
guest guarantees. -/
theorem OwnedPool.Sound.guarantees {post : α → σ → Prop} {gpost : β → σ → Prop}
    {pool pool' : OwnedPool σ α β} (hs : pool.Sound t post gpost)
    (hstep : OwnedStep work guest env pool pool') :
    pool'.store = pool.store ∨ env pool.store pool'.store ∨
      t.owner.guar pool.store pool'.store ∨ t.guest.guar pool.store pool'.store := by
  cases hstep with
  | env h => exact .inr (.inl h)
  | begins | stops | arrives | leaves => exact .inl rfl
  | @acts s step next gs =>
    obtain ⟨-, hguar, -⟩ := hs.owner _ rfl s (t.owner.rely_refl s) hs.inv
    exact .inr (.inr (.inl hguar))
  | @guestActs s o before after step next =>
    obtain ⟨-, hguar, -⟩ := hs.guests (.act step next) (by simp) s (t.guest.rely_refl s)
      ((t.same s).mpr hs.inv)
    exact .inr (.inr (.inr hguar))

end Sound

/-- The owner may run for a while with nobody else acting. -/
theorem owner_runs {σ α β : Type} {work : Program σ α → Prop} {guest : Program σ β → Prop}
    {env : σ → σ → Prop} (gs : List (Program σ β)) (n : Nat) (p : Program σ α) (s : σ) :
    Relation.ReflTransGen (OwnedStep work guest env) ⟨s, some p, gs⟩
      ⟨(p.runFor n s).2, some (p.runFor n s).1, gs⟩ := by
  induction n generalizing p s with
  | zero => exact .refl
  | succ n ih =>
    cases p with
    | pure a => exact .refl
    | act step next => exact .head .acts (ih (next s) (step s))

/-- And so may a guest. -/
theorem guest_runs {σ α β : Type} {work : Program σ α → Prop} {guest : Program σ β → Prop}
    {env : σ → σ → Prop} (o : Option (Program σ α)) (before after : List (Program σ β)) (n : Nat)
    (p : Program σ β) (s : σ) :
    Relation.ReflTransGen (OwnedStep work guest env) ⟨s, o, before ++ p :: after⟩
      ⟨(p.runFor n s).2, o, before ++ (p.runFor n s).1 :: after⟩ := by
  induction n generalizing p s with
  | zero => exact .refl
  | succ n ih =>
    cases p with
    | pure a => exact .refl
    | act step next => exact .head .guestActs (ih (next s) (step s))

end Library
