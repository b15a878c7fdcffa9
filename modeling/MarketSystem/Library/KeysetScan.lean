import Mathlib.Data.List.MinMax
import Mathlib.Tactic.TypeStar

/-!
# Scans by key

A scan reads one item at a time, the least one above the last key, from a collection that grows
meanwhile. It visits all that was there when it began, and it ends when the keys are bounded.
-/
namespace Library.KeysetScan

variable {α κ : Type*} [LinearOrder κ] (key : α → κ)

/-- The least item above a key. -/
def next (items : List α) (last : κ) : Option α :=
  (items.filter (fun x => decide (last < key x))).argmin key

/-- The visits of a scan with the number of the reading; there are `stride` readings a visit. -/
def scan (views : ℕ → List α) (stride : ℕ) : ℕ → ℕ → κ → Option (List (ℕ × α))
  | 0, _, _ => none
  | n + 1, k, last =>
    match next key (views k) last with
    | none => some []
    | some x => (scan views stride n (k + stride) (key x)).map (fun visits => (k, x) :: visits)

variable {key} {views : ℕ → List α} {stride : ℕ}

theorem mem_of_next {items : List α} {last : κ} {x : α} (h : next key items last = some x) :
    x ∈ items ∧ last < key x := by
  have hmem := List.argmin_mem h
  rw [List.mem_filter, decide_eq_true_eq] at hmem
  exact hmem

theorem key_le_of_next {items : List α} {last : κ} {x y : α} (h : next key items last = some x)
    (hy : y ∈ items) (hlast : last < key y) : key x ≤ key y :=
  List.le_of_mem_argmin (List.mem_filter.mpr ⟨hy, decide_eq_true hlast⟩) h

theorem next_ne_none {items : List α} {last : κ} {y : α} (hy : y ∈ items) (hlast : last < key y) :
    next key items last ≠ none := by
  intro h
  have hempty := List.argmin_eq_none.mp h
  have hmem : y ∈ items.filter (fun x => decide (last < key x)) :=
    List.mem_filter.mpr ⟨hy, decide_eq_true hlast⟩
  rw [hempty] at hmem
  exact List.not_mem_nil hmem

/-- A scan that ends visits every key that was there when it began. -/
theorem visited (hgrow : ∀ k, views k ⊆ views (k + 1)) {n k : ℕ} {last : κ} {visits : List (ℕ × α)}
    (h : scan key views stride n k last = some visits) {y : α} (hy : y ∈ views k)
    (hlast : last < key y) : ∃ k' x, (k', x) ∈ visits ∧ x ∈ views k' ∧ key x = key y := by
  have hmono : ∀ k d, views k ⊆ views (k + d) := by
    intro k d
    induction d with
    | zero => exact List.Subset.refl _
    | succ d ih => exact List.Subset.trans ih (hgrow (k + d))
  induction n generalizing k last visits with
  | zero => cases h
  | succ n ih =>
    unfold scan at h
    cases hnext : next key (views k) last with
    | none => exact absurd hnext (next_ne_none hy hlast)
    | some x =>
      rw [hnext] at h
      obtain ⟨later, hlater, rfl⟩ := Option.map_eq_some_iff.mp h
      obtain hbelow | hhere := lt_or_eq_of_le (key_le_of_next hnext hy hlast)
      · obtain ⟨k', z, hmem, hview, hkey⟩ := ih hlater (hmono k stride hy) hbelow
        exact ⟨k', z, List.mem_cons_of_mem _ hmem, hview, hkey⟩
      · exact ⟨k, x, List.mem_cons_self, (mem_of_next hnext).1, hhere⟩

/-- A scan ends after as many visits as there are keys above its start. -/
theorem ends {bound : List α} (hbound : ∀ k, views k ⊆ bound) {n k : ℕ} {last : κ}
    (hn : (bound.filter (fun x => decide (last < key x))).length < n) :
    ∃ visits, scan key views stride n k last = some visits := by
  induction n generalizing k last with
  | zero => exact absurd hn (Nat.not_lt_zero _)
  | succ n ih =>
    unfold scan
    cases hnext : next key (views k) last with
    | none => exact ⟨[], rfl⟩
    | some x =>
      obtain ⟨hx, hlast⟩ := mem_of_next hnext
      have hfewer : (bound.filter (fun y => decide (key x < key y))).length <
          (bound.filter (fun y => decide (last < key y))).length := by
        have hsub : bound.filter (fun y => decide (key x < key y)) =
            (bound.filter (fun y => decide (last < key y))).filter
              (fun y => decide (key x < key y)) := by
          rw [List.filter_filter]
          refine List.filter_congr (fun y _ => ?_)
          by_cases hy : key x < key y
          · simp [hy, hlast.trans hy]
          · simp [hy]
        rw [hsub]
        refine List.length_filter_lt_length_iff_exists.mpr ⟨x, ?_, by simp⟩
        exact List.mem_filter.mpr ⟨hbound k hx, decide_eq_true hlast⟩
      have hrest : ∃ visits, scan key views stride n (k + stride) (key x) = some visits :=
        ih (by omega)
      obtain ⟨visits, hvisits⟩ := hrest
      exact ⟨(k, x) :: visits, by simp [hvisits]⟩

end Library.KeysetScan
