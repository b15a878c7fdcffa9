import MarketSystem.Library.Refusal

/-!
# Loops whose body may fail

`for x in xs: s = body(s, x)`, where an exception of the body ends the loop. What a
round preserves holds after every round, and the round of each element is reached.
-/
namespace Library.FallibleLoop

variable {α σ : Type} {body : σ → α → Except String σ} {xs ys : List α} {x : α} {s t : σ}

/-- A loop over two lists is two loops. -/
theorem foldlM_append_ok :
    (xs ++ ys).foldlM body s = .ok t ↔ ∃ m, xs.foldlM body s = .ok m ∧ ys.foldlM body m = .ok t := by
  rw [List.foldlM_append]
  exact bind_eq_ok

theorem foldlM_cons_ok :
    (x :: xs).foldlM body s = .ok t ↔ ∃ m, body s x = .ok m ∧ xs.foldlM body m = .ok t := by
  rw [List.foldlM_cons]
  exact bind_eq_ok

theorem foldlM_nil_ok : ([] : List α).foldlM body s = .ok t ↔ s = t := by
  rw [List.foldlM_nil]
  exact ⟨fun h => Except.ok.inj h, fun h => congrArg Except.ok h⟩

/-- A loop that ends has reached the round of each of its elements. -/
theorem round_of_foldlM (h : (xs ++ x :: ys).foldlM body s = .ok t) :
    ∃ m m', xs.foldlM body s = .ok m ∧ body m x = .ok m' ∧
      (xs ++ [x]).foldlM body s = .ok m' ∧ ys.foldlM body m' = .ok t := by
  obtain ⟨m, hxs, hrest⟩ := foldlM_append_ok.mp h
  obtain ⟨m', hround, hys⟩ := foldlM_cons_ok.mp hrest
  exact ⟨m, m', hxs, hround,
    foldlM_append_ok.mpr ⟨m, hxs, foldlM_cons_ok.mpr ⟨m', hround, foldlM_nil_ok.mpr rfl⟩⟩, hys⟩

/-- What a round preserves, for the elements of the list, holds at the end. -/
theorem foldlM_induction {I : σ → Prop}
    (hround : ∀ s x s', x ∈ xs → I s → body s x = .ok s' → I s') (hs : I s)
    (h : xs.foldlM body s = .ok t) : I t := by
  induction xs generalizing s with
  | nil => exact foldlM_nil_ok.mp h ▸ hs
  | cons x xs ih =>
    obtain ⟨m, hfirst, hrest⟩ := foldlM_cons_ok.mp h
    exact ih (fun s y s' hy => hround s y s' (List.mem_cons_of_mem x hy))
      (hround s x m List.mem_cons_self hs hfirst) hrest

/-! ### One output a round -/

variable {ο : Type} {out : σ → List ο}

/-- What a loop has put out stays in front of what it puts out later. -/
theorem foldlM_prefix (hout : ∀ s x s', body s x = .ok s' → out s <+: out s')
    (h : xs.foldlM body s = .ok t) : out s <+: out t :=
  foldlM_induction (I := fun m => out s <+: out m) (fun m x m' _ hm hround =>
    hm.trans (hout m x m' hround)) (List.prefix_refl _) h

theorem length_foldlM (hout : ∀ s x s', body s x = .ok s' → ∃ p, out s' = out s ++ [p])
    (h : xs.foldlM body s = .ok t) : (out t).length = (out s).length + xs.length := by
  induction xs generalizing s with
  | nil =>
    rw [foldlM_nil_ok.mp h]
    simp
  | cons x xs ih =>
    obtain ⟨m, hround, hrest⟩ := foldlM_cons_ok.mp h
    obtain ⟨p, hp⟩ := hout s x m hround
    rw [ih hrest, hp, List.length_append, List.length_singleton, List.length_cons]
    omega

/-- The output of a round is found at its place. -/
theorem getElem?_foldlM (hout : ∀ s x s', body s x = .ok s' → ∃ p, out s' = out s ++ [p])
    {m m' : σ} (hbefore : xs.foldlM body s = .ok m)
    (hafter : ys.foldlM body m' = .ok t) {p : ο} (hp : out m' = out m ++ [p]) :
    (out t)[(out s).length + xs.length]? = some p := by
  have hlength := length_foldlM hout hbefore
  have hgrows : ∀ s x s', body s x = .ok s' → out s <+: out s' := by
    intro s x s' h
    obtain ⟨p, hp⟩ := hout s x s' h
    exact hp ▸ List.prefix_append _ _
  obtain ⟨later, hlater⟩ := foldlM_prefix hgrows hafter
  rw [← hlater, ← hlength, hp, List.append_assoc]
  simp

end Library.FallibleLoop
