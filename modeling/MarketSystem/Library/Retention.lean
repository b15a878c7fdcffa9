import Mathlib.Data.Finset.Card
import Mathlib.Data.Finset.Lattice.Fold
import Mathlib.Data.List.Sort
import Mathlib.Order.Lattice.Nat
import MarketSystem.Library.Table

/-!
# Keeping the newest rows

A table whose rows belong to groups and carry a time. After each write of a group all but its `k`
newest rows are deleted. A row that is gone stays gone: there are `k` newer ones, and newer rows are
deleted after older ones only. So the table is at all times the newest `k` rows of each group of the
table that was never pruned, and a reader that asks for `n` rows up to a time gets those of that
table, as far as the newer ones leave room for them.
-/
namespace Library.Retention

/-! ### The greatest members of a set -/

section Top

variable {τ : Type} [LinearOrder τ] {k n : ℕ} {s t : Finset τ} {x y b : τ}

def above (x : τ) (s : Finset τ) : Finset τ := s.filter (fun y => x < y)

/-- The `k` greatest members, all of them where there are no more. -/
def top (k : ℕ) (s : Finset τ) : Finset τ := s.filter (fun x => (above x s).card < k)

def upTo (b : τ) (s : Finset τ) : Finset τ := s.filter (fun x => x ≤ b)

@[simp] theorem mem_above : y ∈ above x s ↔ y ∈ s ∧ x < y := by simp [above]

@[simp] theorem mem_top : x ∈ top k s ↔ x ∈ s ∧ (above x s).card < k := by simp [top]

@[simp] theorem mem_upTo : x ∈ upTo b s ↔ x ∈ s ∧ x ≤ b := by simp [upTo]

theorem above_subset_above (h : x ≤ y) (hst : s ⊆ t) : above y s ⊆ above x t := by
  intro z hz
  rw [mem_above] at hz ⊢
  exact ⟨hst hz.1, lt_of_le_of_lt h hz.2⟩

theorem card_above_le (h : x ≤ y) (hst : s ⊆ t) : (above y s).card ≤ (above x t).card :=
  Finset.card_le_card (above_subset_above h hst)

theorem card_above_lt (hy : y ∈ s) (h : x < y) : (above y s).card < (above x s).card := by
  apply Finset.card_lt_card
  refine ⟨above_subset_above h.le (Finset.Subset.refl s), fun hsub => ?_⟩
  have := hsub (mem_above.mpr ⟨hy, h⟩)
  exact (mem_above.mp this).2.false

theorem top_subset : top k s ⊆ s := Finset.filter_subset _ _

/-- Above one of the greatest members there are only others of them. -/
theorem above_top (h : x ∈ top k s) : above x (top k s) = above x s := by
  ext y
  rw [mem_above, mem_above, mem_top]
  constructor
  · rintro ⟨⟨hy, -⟩, hlt⟩
    exact ⟨hy, hlt⟩
  · rintro ⟨hy, hlt⟩
    exact ⟨⟨hy, (card_above_lt hy hlt).trans (mem_top.mp h).2⟩, hlt⟩

theorem card_top_le : (top k s).card ≤ k := by
  by_cases hne : (top k s).Nonempty
  · have hmem := Finset.min'_mem _ hne
    have hcard := (mem_top.mp hmem).2
    have herase : (top k s).erase ((top k s).min' hne) ⊆ above ((top k s).min' hne) s := by
      intro y hy
      obtain ⟨hy0, hy⟩ := Finset.mem_erase.mp hy
      have hle := Finset.min'_le _ y hy
      exact mem_above.mpr ⟨top_subset hy, lt_of_le_of_ne hle (Ne.symm hy0)⟩
    have hle := Finset.card_le_card herase
    rw [Finset.card_erase_of_mem hmem] at hle
    omega
  · rw [Finset.not_nonempty_iff_eq_empty] at hne
    simp [hne]

theorem top_top : top n (top k s) = top (min n k) s := by
  ext x
  by_cases hx : x ∈ top k s
  · have hlt := (mem_top.mp hx).2
    rw [mem_top, above_top hx, mem_top (k := min n k)]
    constructor
    · rintro ⟨-, hn⟩
      exact ⟨top_subset hx, by omega⟩
    · rintro ⟨-, hn⟩
      exact ⟨hx, by omega⟩
  · have hx' := hx
    rw [mem_top] at hx
    simp only [mem_top (k := n), mem_top (k := min n k), hx', false_and, false_iff]
    intro h
    exact hx ⟨h.1, by omega⟩

/-- A member that is not one of the greatest is below as many of them as there can be. -/
theorem le_card_above_top (hy : y ∈ s) (hout : y ∉ top k s) : k ≤ (above y (top k s)).card := by
  -- Downwards: the members above the greatest ones that are left out are fewer each time.
  induction h : (above y s).card using Nat.strong_induction_on generalizing y with
  | _ m ih =>
    subst h
    have hrank : k ≤ (above y s).card := by
      by_contra hlt
      exact hout (mem_top.mpr ⟨hy, by omega⟩)
    by_cases hall : above y s ⊆ top k s
    · have hsub : above y s ⊆ above y (top k s) := by
        intro z hz
        exact mem_above.mpr ⟨hall hz, (mem_above.mp hz).2⟩
      have := Finset.card_le_card hsub
      omega
    · obtain ⟨z, hz, hzout⟩ := Finset.not_subset.mp hall
      obtain ⟨hzs, hlt⟩ := mem_above.mp hz
      have hle := ih _ (card_above_lt hzs hlt) hzs hzout rfl
      exact hle.trans (card_above_le hlt.le (Finset.Subset.refl _))

/-- What is left out below `k` others is not among the `k` greatest and moves none of them. -/
theorem top_eq_of_below (hsub : s ⊆ t) (h : ∀ y ∈ t, y ∉ s → k ≤ (above y s).card) :
    top k s = top k t := by
  have habove : ∀ x, (above x s).card < k → above x s = above x t := by
    intro x hx
    apply Finset.Subset.antisymm (above_subset_above le_rfl hsub)
    intro y hy
    obtain ⟨hyt, hlt⟩ := mem_above.mp hy
    by_cases hys : y ∈ s
    · exact mem_above.mpr ⟨hys, hlt⟩
    · have := h y hyt hys
      have := card_above_le (s := s) hlt.le (Finset.Subset.refl s)
      omega
  ext x
  rw [mem_top, mem_top]
  constructor
  · rintro ⟨hx, hlt⟩
    rw [← habove x hlt]
    exact ⟨hsub hx, hlt⟩
  · rintro ⟨hx, hlt⟩
    have hle := card_above_le (le_refl x) hsub
    have hxs : x ∈ s := by
      by_contra hxs
      have := h x hx hxs
      omega
    exact ⟨hxs, by omega⟩

/-- New members beside the greatest ones, or beside all. -/
theorem top_union (s t : Finset τ) : top k (top k s ∪ t) = top k (s ∪ t) := by
  apply top_eq_of_below (Finset.union_subset_union_left top_subset)
  intro y hy hout
  rw [Finset.mem_union] at hy hout
  have hys : y ∈ s := hy.resolve_right fun h => hout (.inr h)
  have hle := le_card_above_top hys fun h => hout (.inl h)
  exact hle.trans (card_above_le le_rfl Finset.subset_union_left)

theorem card_above_split (h : x ≤ b) :
    (above x s).card = (above b s).card + (above x (upTo b s)).card := by
  have hunion : above x s = above b s ∪ above x (upTo b s) := by
    ext y
    simp only [mem_above, mem_upTo, Finset.mem_union]
    constructor
    · rintro ⟨hy, hlt⟩
      by_cases hb : b < y
      · exact .inl ⟨hy, hb⟩
      · exact .inr ⟨⟨hy, not_lt.mp hb⟩, hlt⟩
    · rintro (⟨hy, hlt⟩ | ⟨⟨hy, -⟩, hlt⟩)
      · exact ⟨hy, lt_of_le_of_lt h hlt⟩
      · exact ⟨hy, hlt⟩
  have hdisjoint : Disjoint (above b s) (above x (upTo b s)) := by
    rw [Finset.disjoint_left]
    intro y hy hy'
    simp only [mem_above, mem_upTo] at hy hy'
    exact absurd hy.2 (not_lt.mpr hy'.1.2)
  rw [hunion, Finset.card_union_of_disjoint hdisjoint]

/-- Up to a bound the greatest members lose the places that those above it take. -/
theorem upTo_top : upTo b (top k s) = top (k - (above b s).card) (upTo b s) := by
  ext x
  by_cases hb : x ≤ b
  · have := card_above_split (s := s) hb
    simp only [mem_upTo, mem_top, hb, and_true]
    constructor
    · rintro ⟨hx, hlt⟩
      exact ⟨hx, by omega⟩
    · rintro ⟨hx, hlt⟩
      exact ⟨hx, by omega⟩
  · simp [hb]

end Top

/-! ### The newest rows of a group -/

section Rows

variable {γ τ ρ : Type} [DecidableEq γ] [LinearOrder τ] (group : ρ → γ) (time : ρ → τ)

def times (g : γ) (rows : List ρ) : Finset τ :=
  ((rows.filter (fun r => decide (group r = g))).map time).toFinset

/-- `ORDER BY time DESC LIMIT k` of one group. -/
def newest (k : ℕ) (g : γ) (rows : List ρ) : List ρ :=
  ((rows.filter (fun r => decide (group r = g))).insertionSort
    (fun r s => time s ≤ time r)).take k

variable {group time} {k n : ℕ} {g : γ} {rows rows' : List ρ} {r : ρ} {b : τ}

@[simp] theorem mem_times {x : τ} : x ∈ times group time g rows ↔
    ∃ r ∈ rows, group r = g ∧ time r = x := by
  simp [times, and_assoc]

/-- The front of rows from the newest to the oldest. -/
theorem mem_take {l : List ρ} (h : l.Pairwise (fun r s => time s < time r)) :
    r ∈ l.take k ↔ r ∈ l ∧ time r ∈ top k (l.map time).toFinset := by
  induction l generalizing k with
  | nil => simp
  | cons a l ih =>
    obtain ⟨ha, hl⟩ := List.pairwise_cons.mp h
    have hnew : time a ∉ (l.map time).toFinset := by
      rw [List.mem_toFinset, List.mem_map]
      rintro ⟨s, hs, heq⟩
      exact (heq ▸ ha s hs).false
    have hfirst : above (time a) (insert (time a) (l.map time).toFinset) = ∅ := by
      ext y
      simp only [mem_above, Finset.mem_insert, List.mem_toFinset, List.mem_map,
        Finset.notMem_empty, iff_false]
      rintro ⟨rfl | ⟨s, hs, rfl⟩, hlt⟩
      · exact hlt.false
      · exact (ha s hs).asymm hlt
    have hrest : ∀ s ∈ l, (above (time s) (insert (time a) (l.map time).toFinset)).card
        = (above (time s) (l.map time).toFinset).card + 1 := by
      intro s hs
      have hins : above (time s) (insert (time a) (l.map time).toFinset)
          = insert (time a) (above (time s) (l.map time).toFinset) := by
        rw [above, above, Finset.filter_insert, if_pos (ha s hs)]
      rw [hins, Finset.card_insert_of_notMem]
      intro hmem
      exact hnew (mem_above.mp hmem).1
    cases k with
    | zero => simp
    | succ k =>
      rw [List.take_succ_cons, List.mem_cons, ih hl, List.map_cons, List.toFinset_cons, mem_top,
        mem_top, List.mem_cons]
      constructor
      · rintro (rfl | ⟨hr, -, hlt⟩)
        · exact ⟨.inl rfl, Finset.mem_insert_self _ _, by rw [hfirst]; simp⟩
        · refine ⟨.inr hr, ?_, by rw [hrest r hr]; omega⟩
          exact Finset.mem_insert_of_mem (List.mem_toFinset.mpr (List.mem_map_of_mem hr))
      · rintro ⟨rfl | hr, -, hlt⟩
        · exact .inl rfl
        · rw [hrest r hr] at hlt
          exact .inr ⟨hr, List.mem_toFinset.mpr (List.mem_map_of_mem hr), by omega⟩

/-- No two rows of one group have one time. -/
def Distinct (group : ρ → γ) (time : ρ → τ) (rows : List ρ) : Prop :=
  (rows.map (fun r => (group r, time r))).Nodup

omit [DecidableEq γ] [LinearOrder τ] in
theorem Distinct.filter (h : Distinct group time rows) (p : ρ → Bool) :
    Distinct group time (rows.filter p) :=
  h.sublist (List.filter_sublist.map _)

theorem Distinct.sorted (h : Distinct group time rows) (g : γ) :
    ((rows.filter (fun r => decide (group r = g))).insertionSort
      (fun r s => time s ≤ time r)).Pairwise (fun r s => time s < time r) := by
  have htotal : Std.Total (fun r s : ρ => time s ≤ time r) :=
    ⟨fun r s => le_total (time s) (time r)⟩
  have htrans : IsTrans ρ (fun r s => time s ≤ time r) := ⟨fun _ _ _ hab hbc => hbc.trans hab⟩
  have hle := List.pairwise_insertionSort (fun r s : ρ => time s ≤ time r)
    (rows.filter (fun r => decide (group r = g)))
  have hperm := List.perm_insertionSort (fun r s : ρ => time s ≤ time r)
    (rows.filter (fun r => decide (group r = g)))
  have hne := List.pairwise_map.mp ((hperm.map _).nodup_iff.mpr (h.filter _))
  refine (hle.and hne).imp_of_mem fun {r s} hr hs hrs => ?_
  have hgroup : group r = group s := by
    have hr := (List.mem_filter.mp (hperm.mem_iff.mp hr)).2
    have hs := (List.mem_filter.mp (hperm.mem_iff.mp hs)).2
    simp only [decide_eq_true_eq] at hr hs
    exact hr.trans hs.symm
  exact lt_of_le_of_ne hrs.1 fun heq => hrs.2 (by rw [hgroup, heq])

theorem mem_newest (h : Distinct group time rows) : r ∈ newest group time k g rows ↔
    r ∈ rows ∧ group r = g ∧ time r ∈ top k (times group time g rows) := by
  have hperm := List.perm_insertionSort (fun r s : ρ => time s ≤ time r)
    (rows.filter (fun r => decide (group r = g)))
  have hset : (((rows.filter (fun r => decide (group r = g))).insertionSort
      (fun r s => time s ≤ time r)).map time).toFinset = times group time g rows :=
    List.toFinset_eq_of_perm _ _ (hperm.map time)
  rw [newest, mem_take (h.sorted g), hset, hperm.mem_iff]
  simp [and_assoc]

/-- Two stores with the same newest rows list them alike. -/
theorem newest_eq {k' : ℕ} (h : Distinct group time rows) (h' : Distinct group time rows')
    (hmem : ∀ r, r ∈ newest group time k g rows ↔ r ∈ newest group time k' g rows') :
    newest group time k g rows = newest group time k' g rows' := by
  have hlt := (h.sorted g).sublist (List.take_sublist k _)
  have hlt' := (h'.sorted g).sublist (List.take_sublist k' _)
  have hperm : (newest group time k g rows).Perm (newest group time k' g rows') := by
    apply (List.perm_ext_iff_of_nodup ?_ ?_).mpr hmem
    · exact hlt.imp fun hrs heq => (heq ▸ hrs).false
    · exact hlt'.imp fun hrs heq => (heq ▸ hrs).false
  exact hperm.eq_of_pairwise (fun r s _ _ hrs hsr => absurd hsr hrs.asymm) hlt hlt'

/-- How many rows of the group are newer than a time. -/
def later (group : ρ → γ) (time : ρ → τ) (g : γ) (b : τ) (rows : List ρ) : ℕ :=
  (rows.filter (fun r => decide (group r = g ∧ b < time r))).length

theorem card_above_times (h : Distinct group time rows) :
    (above b (times group time g rows)).card = later group time g b rows := by
  have hset : above b (times group time g rows)
      = ((rows.filter (fun r => decide (group r = g ∧ b < time r))).map time).toFinset := by
    ext x
    simp only [mem_above, mem_times, List.mem_toFinset, List.mem_map, List.mem_filter,
      decide_eq_true_eq]
    constructor
    · rintro ⟨⟨r, hr, hg, rfl⟩, hlt⟩
      exact ⟨r, ⟨hr, hg, hlt⟩, rfl⟩
    · rintro ⟨r, ⟨hr, hg, hlt⟩, rfl⟩
      exact ⟨⟨r, hr, hg, rfl⟩, hlt⟩
  have hnodup : ((rows.filter (fun r => decide (group r = g ∧ b < time r))).map time).Nodup := by
    rw [List.nodup_map_iff_inj_on (List.Nodup.of_map _ (h.filter _))]
    intro r hr s hs heq
    have hgr := (List.mem_filter.mp hr).2
    have hgs := (List.mem_filter.mp hs).2
    simp only [decide_eq_true_eq] at hgr hgs
    refine List.inj_on_of_nodup_map (h.filter _) hr hs ?_
    rw [hgr.1, hgs.1, heq]
  rw [hset, List.toFinset_card_of_nodup hnodup, List.length_map, later]

/-- Rows written another way, in the same order of times. -/
theorem newest_map {τ' σ : Type} [LinearOrder τ'] {group' : σ → γ} {time' : σ → τ'} (f : ρ → σ)
    (hgroup : ∀ r, group' (f r) = group r)
    (htime : ∀ r s, time' (f r) ≤ time' (f s) ↔ time r ≤ time s) :
    newest group' time' k g (rows.map f) = (newest group time k g rows).map f := by
  have hfilter : (rows.map f).filter (fun r => decide (group' r = g))
      = (rows.filter (fun r => decide (group r = g))).map f := by
    rw [List.filter_map]
    congr 1
    apply List.filter_congr
    intro r _
    simp [hgroup]
  rw [newest, newest, List.map_take, hfilter]
  congr 1
  symm
  apply List.map_insertionSort
  intro r _ s _
  exact (htime s r).symm

end Rows

/-! ### A pruned table beside one that is not -/

section Pruned

variable {γ τ ρ : Type} [DecidableEq γ] [LinearOrder τ] {group : ρ → γ} {time : ρ → τ}
  {k n : ℕ} {g : γ} {r : ρ} {b : τ}

/-- `DELETE` of the rows of a group that are not among its newest. -/
def prune (k : ℕ) (g : γ) (t : Table (fun r => (group r, time r))) :
    Table (fun r => (group r, time r)) :=
  t.filter fun r => decide (group r ≠ g ∨ time r ∈ (newest group time k g t.rows).map time)

variable {t cache whole : Table (fun r => (group r, time r))}

theorem mem_prune : r ∈ prune k g t ↔
    r ∈ t ∧ (group r = g → time r ∈ top k (times group time g t.rows)) := by
  rw [prune, Table.mem_filter, decide_eq_true_eq]
  refine and_congr_right fun hr => ?_
  by_cases hg : group r = g
  · subst hg
    simp only [ne_eq, not_true_eq_false, false_or, forall_const, List.mem_map]
    constructor
    · rintro ⟨s, hs, heq⟩
      exact heq ▸ ((mem_newest t.nodup).mp hs).2.2
    · intro htop
      exact ⟨r, (mem_newest t.nodup).mpr ⟨hr, rfl, htop⟩, rfl⟩
  · simp [hg]

/-- The table holds the newest rows of each group of the one that is never pruned. -/
def Retains (k : ℕ) (cache whole : Table (fun r => (group r, time r))) : Prop :=
  ∀ r, r ∈ cache ↔ r ∈ whole ∧ time r ∈ top k (times group time (group r) whole.rows)

theorem retains_empty : Retains k (Table.empty : Table (fun r => (group r, time r))) Table.empty := by
  intro r
  simp

theorem Retains.times_eq (h : Retains k cache whole) (g : γ) :
    times group time g cache.rows = top k (times group time g whole.rows) := by
  ext x
  rw [mem_times]
  constructor
  · rintro ⟨r, hr, rfl, rfl⟩
    exact ((h r).mp hr).2
  · intro hx
    obtain ⟨r, hr, rfl, rfl⟩ := mem_times.mp (top_subset hx)
    exact ⟨r, (h r).mpr ⟨hr, hx⟩, rfl, rfl⟩

/-- A reader of the newest rows up to a time. -/
theorem Retains.read_newest (h : Retains k cache whole) (n : ℕ) (g : γ) (b : τ) :
    newest group time n g (cache.rows.filter (fun r => decide (time r ≤ b))) =
      newest group time (min n (k - later group time g b whole.rows)) g
        (whole.rows.filter (fun r => decide (time r ≤ b))) := by
  have hfilter : ∀ t : Table (fun r => (group r, time r)),
      times group time g (t.rows.filter (fun r => decide (time r ≤ b)))
        = upTo b (times group time g t.rows) := by
    intro t
    ext x
    simp only [mem_times, mem_upTo, List.mem_filter, decide_eq_true_eq]
    constructor
    · rintro ⟨r, ⟨hr, hb⟩, hg, rfl⟩
      exact ⟨⟨r, hr, hg, rfl⟩, hb⟩
    · rintro ⟨⟨r, hr, hg, rfl⟩, hb⟩
      exact ⟨r, ⟨hr, hb⟩, hg, rfl⟩
  have hset : top n (upTo b (times group time g cache.rows))
      = top (min n (k - later group time g b whole.rows))
        (upTo b (times group time g whole.rows)) := by
    rw [h.times_eq, upTo_top, top_top, card_above_times whole.nodup]
  apply newest_eq (Distinct.filter cache.nodup _) (Distinct.filter whole.nodup _)
  intro r
  rw [mem_newest (Distinct.filter cache.nodup _), mem_newest (Distinct.filter whole.nodup _),
    hfilter, hfilter, hset]
  simp only [List.mem_filter, decide_eq_true_eq]
  constructor
  · rintro ⟨⟨hr, hb⟩, hg, hx⟩
    exact ⟨⟨((h r).mp hr).1, hb⟩, hg, hx⟩
  · rintro ⟨⟨hr, hb⟩, hg, hx⟩
    refine ⟨⟨(h r).mpr ⟨hr, ?_⟩, hb⟩, hg, hx⟩
    rw [← hset, h.times_eq] at hx
    exact hg ▸ (mem_upTo.mp (top_subset hx)).1

theorem Retains.length_le (h : Retains k cache whole) (g : γ) :
    (cache.rows.filter (fun r => decide (group r = g))).length ≤ k := by
  have hnodup := (Distinct.sorted cache.nodup g).imp fun hlt => hlt.ne'
  have hperm := List.perm_insertionSort (fun r s : ρ => time s ≤ time r)
    (cache.rows.filter (fun r => decide (group r = g)))
  have hcard : (times group time g cache.rows).card
      = (cache.rows.filter (fun r => decide (group r = g))).length := by
    rw [times, List.toFinset_card_of_nodup, List.length_map]
    exact (hperm.map time).nodup_iff.mp (List.pairwise_map.mpr hnodup)
  rw [← hcard, h.times_eq]
  exact card_top_le

/-! ### Writing -/

variable [DecidableEq (γ × τ)] {rs : List ρ}

theorem times_putAll :
    times group time g (t.putAll rs).rows = times group time g t.rows ∪ times group time g rs := by
  induction rs generalizing t with
  | nil => simp [times]
  | cons s rs ih =>
    rw [Table.putAll_cons, ih]
    ext x
    simp only [Finset.mem_union, mem_times, List.mem_cons, ← Table.mem_def, Table.mem_put]
    constructor
    · rintro (⟨r, rfl | ⟨hr, -⟩, hg, hx⟩ | ⟨r, hr, hg, hx⟩)
      · exact .inr ⟨r, .inl rfl, hg, hx⟩
      · exact .inl ⟨r, hr, hg, hx⟩
      · exact .inr ⟨r, .inr hr, hg, hx⟩
    · rintro (⟨r, hr, hg, hx⟩ | ⟨r, rfl | hr, hg, hx⟩)
      · by_cases hk : (group r, time r) = (group s, time s)
        · rw [Prod.mk.injEq] at hk
          exact .inl ⟨s, .inl rfl, hk.1 ▸ hg, hk.2 ▸ hx⟩
        · exact .inl ⟨r, .inr ⟨hr, hk⟩, hg, hx⟩
      · exact .inl ⟨r, .inl rfl, hg, hx⟩
      · exact .inr ⟨r, hr, hg, hx⟩

/-- Writing rows of one group to both and pruning the table of the newest. -/
theorem Retains.write (h : Retains k cache whole) (hrs : ∀ s ∈ rs, group s = g) :
    Retains k (prune k g (cache.putAll rs)) (whole.putAll rs) := by
  intro r
  rw [mem_prune]
  by_cases hg : group r = g
  · subst hg
    have htop : top k (times group time (group r) (cache.putAll rs).rows)
        = top k (times group time (group r) (whole.putAll rs).rows) := by
      rw [times_putAll, times_putAll, h.times_eq, top_union]
    rw [htop]
    constructor
    · rintro ⟨hr, hx⟩
      exact ⟨Table.putAll_subset (fun s hs => ((h s).mp hs).1) r hr, hx rfl⟩
    · rintro ⟨hr, hx⟩
      refine ⟨?_, fun _ => hx⟩
      rw [← htop] at hx
      obtain ⟨s, hs, hgs, hts⟩ := mem_times.mp (top_subset hx)
      have hsw := Table.putAll_subset (fun s hs => ((h s).mp hs).1) s hs
      exact Table.eq_of_key hsw hr (by rw [hgs, hts]) ▸ hs
  · have htimes : times group time (group r) rs = ∅ := by
      ext x
      simp only [mem_times, Finset.notMem_empty, iff_false]
      rintro ⟨s, hs, hgs, -⟩
      exact hg (hgs ▸ hrs s hs)
    have hwhole : times group time (group r) (whole.putAll rs).rows
        = times group time (group r) whole.rows := by
      rw [times_putAll, htimes, Finset.union_empty]
    have hkeys : ∀ s ∈ rs, (group s, time s) ≠ (group r, time r) := by
      intro s hs heq
      rw [Prod.mk.injEq] at heq
      exact hg (heq.1 ▸ hrs s hs)
    rw [Table.mem_putAll_of_other hkeys, Table.mem_putAll_of_other hkeys, hwhole, h r]
    simp [hg]

end Pruned

end Library.Retention
