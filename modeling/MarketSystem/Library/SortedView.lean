import Mathlib.Data.List.Nodup
import Mathlib.Data.List.Sort

/-!
# Views of keyed rows in key order

Rows whose keys do not repeat, sorted by key and restricted to those of interest. The
view does not depend on how the rows were stored, nor on the rows outside it.
-/
namespace Library

section SortedView

variable {κ ρ : Type*} [LinearOrder κ] (key : ρ → κ)

/-- The rows that satisfy `p`, in the order of their keys. -/
def sortedView (p : ρ → Bool) (rows : List ρ) : List ρ :=
  (rows.insertionSort (fun r s => key r ≤ key s)).filter p

variable {key}

theorem mem_sortedView {p : ρ → Bool} {rows : List ρ} {r : ρ} :
    r ∈ sortedView key p rows ↔ r ∈ rows ∧ p r = true := by
  rw [sortedView, List.mem_filter, List.mem_insertionSort]

theorem sortedView_pairwise_le (p : ρ → Bool) (rows : List ρ) :
    (sortedView key p rows).Pairwise (fun r s => key r ≤ key s) := by
  have : Std.Total (fun r s : ρ => key r ≤ key s) := ⟨fun r s => le_total (key r) (key s)⟩
  have : IsTrans ρ (fun r s => key r ≤ key s) := ⟨fun _ _ _ => le_trans⟩
  exact (List.pairwise_insertionSort _ rows).filter _

/-- Keys that do not repeat increase strictly along the view. -/
theorem sortedView_pairwise_lt {p : ρ → Bool} {rows : List ρ} (hnodup : (rows.map key).Nodup) :
    (sortedView key p rows).Pairwise (fun r s => key r < key s) := by
  have hkeys : ((sortedView key p rows).map key).Nodup := by
    have hperm := List.perm_insertionSort (fun r s : ρ => key r ≤ key s) rows
    exact ((hperm.map key).nodup_iff.mpr hnodup).sublist (List.filter_sublist.map key)
  have hne : (sortedView key p rows).Pairwise (fun r s => key r ≠ key s) :=
    List.pairwise_map.mp hkeys
  exact ((sortedView_pairwise_le p rows).and hne).imp fun h => lt_of_le_of_ne h.1 h.2

/-- Two stores that agree on the rows of interest have one view. -/
theorem sortedView_eq {p : ρ → Bool} {rows rows' : List ρ} (hnodup : (rows.map key).Nodup)
    (hnodup' : (rows'.map key).Nodup) (h : ∀ r, p r = true → (r ∈ rows ↔ r ∈ rows')) :
    sortedView key p rows = sortedView key p rows' := by
  have hlt := sortedView_pairwise_lt (p := p) hnodup
  have hlt' := sortedView_pairwise_lt (p := p) hnodup'
  have hperm : (sortedView key p rows).Perm (sortedView key p rows') := by
    refine (List.perm_ext_iff_of_nodup ?_ ?_).mpr fun r => ?_
    · exact hlt.imp fun h heq => (heq ▸ h).false
    · exact hlt'.imp fun h heq => (heq ▸ h).false
    · rw [mem_sortedView, mem_sortedView]
      constructor
      · exact fun ⟨hr, hp⟩ => ⟨(h r hp).mp hr, hp⟩
      · exact fun ⟨hr, hp⟩ => ⟨(h r hp).mpr hr, hp⟩
  exact hperm.eq_of_pairwise (fun r s _ _ hrs hsr => absurd hsr hrs.asymm) hlt hlt'

theorem sortedView_eq_iff {rows rows' : List ρ} (hnodup : (rows.map key).Nodup)
    (hnodup' : (rows'.map key).Nodup) :
    sortedView key (fun _ => true) rows = sortedView key (fun _ => true) rows' ↔
      ∀ r, r ∈ rows ↔ r ∈ rows' := by
  constructor
  · intro h r
    have hmem : r ∈ sortedView key (fun _ => true) rows ↔
        r ∈ sortedView key (fun _ => true) rows' := by rw [h]
    simpa [mem_sortedView] using hmem
  · exact fun h => sortedView_eq hnodup hnodup' fun r _ => h r

theorem map_sortedView {σ : Type*} (key' : σ → κ) (f : ρ → σ) (hkey : ∀ r, key' (f r) = key r)
    (rows : List ρ) :
    (sortedView key (fun _ => true) rows).map f =
      sortedView key' (fun _ => true) (rows.map f) := by
  unfold sortedView
  rw [List.filter_true, List.filter_true]
  refine List.map_insertionSort _ _ f rows fun r _ s _ => ?_
  rw [hkey, hkey]

section Related

variable {σ : Type*} {key' : σ → κ} {R : ρ → σ → Prop}

theorem forall₂_orderedInsert (hkey : ∀ r s, R r s → key r = key' s) {r : ρ} {s : σ} (hrs : R r s)
    {rows : List ρ} {rows' : List σ} (h : List.Forall₂ R rows rows') :
    List.Forall₂ R (rows.orderedInsert (fun a b => key a ≤ key b) r)
      (rows'.orderedInsert (fun a b => key' a ≤ key' b) s) := by
  induction h with
  | nil => exact .cons hrs .nil
  | @cons a b as bs hab hrest ih =>
    rw [List.orderedInsert_cons, List.orderedInsert_cons, hkey r s hrs, hkey a b hab]
    split_ifs
    · exact .cons hrs (.cons hab hrest)
    · exact .cons hab ih

/-- Rows that are related one by one, each to one with its key, are so in the order of their keys. -/
theorem forall₂_sortedView (hkey : ∀ r s, R r s → key r = key' s) {rows : List ρ} {rows' : List σ}
    (h : List.Forall₂ R rows rows') :
    List.Forall₂ R (sortedView key (fun _ => true) rows)
      (sortedView key' (fun _ => true) rows') := by
  unfold sortedView
  rw [List.filter_true, List.filter_true]
  induction h with
  | nil => exact .nil
  | cons hab _ ih => exact forall₂_orderedInsert hkey hab ih

end Related

/-- Rows of two kinds that stand for the same values, in the order of keys that the values
determine, are read alike. -/
theorem map_sortedView_eq {ρ' σ : Type*} {key' : ρ' → κ} {f : ρ → σ} {f' : ρ' → σ}
    {rows : List ρ} {rows' : List ρ'} (hnodup : (rows.map key).Nodup)
    (hnodup' : (rows'.map key').Nodup)
    (hkey : ∀ r ∈ rows, ∀ r' ∈ rows', f r = f' r' → key r = key' r')
    (h : ∀ v, v ∈ rows.map f ↔ v ∈ rows'.map f') :
    (sortedView key (fun _ => true) rows).map f =
      (sortedView key' (fun _ => true) rows').map f' := by
  have hpairs : sortedView Prod.fst (fun _ => true) (rows.map fun r => (key r, f r)) =
      sortedView Prod.fst (fun _ => true) (rows'.map fun r => (key' r, f' r)) := by
    refine sortedView_eq (by rwa [List.map_map]) (by rwa [List.map_map]) ?_
    rintro ⟨k, v⟩ -
    simp only [List.mem_map, Prod.mk.injEq] at h ⊢
    constructor
    · rintro ⟨r, hr, rfl, rfl⟩
      obtain ⟨r', hr', hv⟩ := (h (f r)).mp ⟨r, hr, rfl⟩
      exact ⟨r', hr', (hkey r hr r' hr' hv.symm).symm, hv⟩
    · rintro ⟨r', hr', rfl, rfl⟩
      obtain ⟨r, hr, hv⟩ := (h (f' r')).mpr ⟨r', hr', rfl⟩
      exact ⟨r, hr, hkey r hr r' hr' hv, hv⟩
  have hleft := map_sortedView Prod.fst (fun r => (key r, f r)) (fun _ => rfl) rows
  have hright := map_sortedView Prod.fst (fun r => (key' r, f' r)) (fun _ => rfl) rows'
  rw [← hleft, ← hright] at hpairs
  simpa only [List.map_map, Function.comp_def] using congrArg (List.map Prod.snd) hpairs

end SortedView

/-! ## Dictionaries -/

section Dictionary

variable {κ β : Type*} [BEq κ] [LawfulBEq κ]

/-- Where no key repeats, the entries are what the keys are looked up to. -/
theorem mem_iff_lookup {entries : List (κ × β)} (hnodup : (entries.map Prod.fst).Nodup) {k : κ}
    {v : β} : (k, v) ∈ entries ↔ entries.lookup k = some v := by
  induction entries with
  | nil => simp
  | cons e entries ih =>
    obtain ⟨k', v'⟩ := e
    rw [List.map_cons, List.nodup_cons] at hnodup
    rw [List.mem_cons, List.lookup_cons]
    by_cases hk : k = k'
    · subst hk
      have hnot : (k, v) ∉ entries := fun h => hnodup.1 (List.mem_map.mpr ⟨(k, v), h, rfl⟩)
      simp only [beq_self_eq_true, Option.some.injEq, Prod.mk.injEq, true_and, or_iff_left hnot]
      exact eq_comm
    · have hbeq : (k == k') = false := beq_false_of_ne hk
      rw [hbeq, ih hnodup.2]
      simp [hk]

/-- Entries that are looked up alike are the same entries. -/
theorem lookup_eq_iff {entries entries' : List (κ × β)} (hnodup : (entries.map Prod.fst).Nodup)
    (hnodup' : (entries'.map Prod.fst).Nodup) :
    (fun k => entries.lookup k) = (fun k => entries'.lookup k) ↔
      ∀ e, e ∈ entries ↔ e ∈ entries' := by
  constructor
  · rintro h ⟨k, v⟩
    rw [mem_iff_lookup hnodup, mem_iff_lookup hnodup', congrFun h k]
  · intro h
    funext k
    refine Option.ext fun v => ?_
    rw [← mem_iff_lookup hnodup, ← mem_iff_lookup hnodup', h]

end Dictionary

end Library
